import Mathlib.Data.List.Chain
import Rauta.Lib.Simulation
import Rauta.RateLimiter.PerRoute

/-!
# The ideal bucket

`try_acquire_n` brings the bucket up to date only when it is called, from a 32-bit timestamp that
wraps. The bucket that it stands for gets its tokens millisecond by millisecond (`idealBucket`).

Two facts make the two answer alike. Between calls, the word and the time of its last refill
determine what the ideal bucket holds (`Tracks`), whatever was denied in between. And a refill finds
just that, provided that the timestamp has not wrapped since the last one and that the product fits
64 bits (`Tracks.newTokens_eq`).

A call that asks for nothing is answered before the refill and leaves the timestamp alone. So the
time that must not reach 2^32 ms is the one between calls that ask for something.
-/

namespace Rauta

open Simulation

/-! ## The two buckets -/

/-- A call of `try_acquire_n`, and the time it is made. -/
structure AcquireCall where
  timeMs : Nat
  n : F64

/-- A bucket that is just created. -/
def LiveBucket.fresh (b : TokenBucket) (now : Nat) : LiveBucket := ⟨b, b.initial, now⟩

/-- The bucket of the source, called by one caller at a time. -/
def lazyBucket : Reactive LiveBucket AcquireCall Bool where
  step l call :=
    let answer := l.bucket.tryAcquireN call.n (call.timeMs - l.createdAt) l.packed
    ({ l with packed := answer.2 }, answer.1)

theorem lazyBucket_step {l : LiveBucket} {call : AcquireCall} {granted : Bool} {packed : Nat}
    (h : l.bucket.tryAcquireN call.n (call.timeMs - l.createdAt) l.packed = (granted, packed)) :
    lazyBucket.step l call = ({ l with packed := packed }, granted) := by
  simp only [lazyBucket, h]

/-- Calls change the word only. -/
theorem lazyBucket_run_bucket (l : LiveBucket) (calls : List AcquireCall) :
    (lazyBucket.run l calls).bucket = l.bucket := by
  induction calls generalizing l with
  | nil => rfl
  | cons call calls ih => exact ih (lazyBucket.step l call).1

/-- The tokens of the ideal bucket at a time. -/
structure IdealBucket where
  timeMs : Nat
  tokens : Nat
  deriving DecidableEq

/-- A millisecond of the ideal bucket. -/
def TokenBucket.tick (b : TokenBucket) (tokens : Nat) : Nat :=
  min (tokens + b.refillRatePerMsFixed) b.capacityFixed

/-- The ideal bucket: it grants a request exactly if it holds the tokens. -/
def idealBucket (b : TokenBucket) : Reactive IdealBucket AcquireCall Bool where
  step s call :=
    let tokens := b.tick^[call.timeMs - s.timeMs] s.tokens
    if floatToFixed call.n ≤ tokens then
      (⟨call.timeMs, tokens - floatToFixed call.n⟩, true)
    else (⟨call.timeMs, tokens⟩, false)

/-- The times do not decrease. -/
def InOrder (start : Nat) (calls : List AcquireCall) : Prop :=
  (start :: calls.map AcquireCall.timeMs).IsChain (· ≤ ·)

/-- No two consecutive times are a whole turn of the 32-bit clock apart. -/
def GapsBelow (start : Nat) (calls : List AcquireCall) : Prop :=
  (start :: calls.map AcquireCall.timeMs).IsChain fun t t' => t' - t < 2 ^ 32

instance (start : Nat) (calls : List AcquireCall) : Decidable (InOrder start calls) :=
  inferInstanceAs (Decidable (List.IsChain _ _))

instance (start : Nat) (calls : List AcquireCall) : Decidable (GapsBelow start calls) :=
  inferInstanceAs (Decidable (List.IsChain _ _))

/-- The calls that ask for something. -/
def asking (calls : List AcquireCall) : List AcquireCall := calls.filter fun call => !call.n.nonpos

/-! ## Catching up -/

namespace TokenBucket

variable {b : TokenBucket} {tokens : Nat}

/-- Milliseconds can be caught up with at once. -/
theorem tick_iterate (h : tokens ≤ b.capacityFixed) (ms : Nat) :
    b.tick^[ms] tokens = min (tokens + ms * b.refillRatePerMsFixed) b.capacityFixed := by
  induction ms with
  | zero => simp [h]
  | succ ms ih =>
      rw [Function.iterate_succ_apply', ih, tick, Nat.succ_mul]
      omega

/-- The wrapped difference of two wrapped times. -/
theorem elapsedMs_mod {last now : Nat} (hpast : last ≤ now) (hgap : now - last < 2 ^ 32) :
    elapsedMs (now % 2 ^ 32) (last % 2 ^ 32) = now - last := by
  unfold elapsedMs
  omega

end TokenBucket

/-- The word of the bucket, refilled at `last`, stands for the ideal one. -/
structure Tracks (l : LiveBucket) (last : Nat) (s : IdealBucket) : Prop where
  created : l.createdAt ≤ last
  offset : unpackRefillOffset l.packed = (last - l.createdAt) % 2 ^ 32
  le : unpackTokens l.packed ≤ l.bucket.capacityFixed
  past : last ≤ s.timeMs
  tokens : s.tokens = l.bucket.tick^[s.timeMs - last] (unpackTokens l.packed)

/-- A new bucket is the ideal one, full. -/
theorem Tracks.fresh (b : TokenBucket) (now : Nat) :
    Tracks (.fresh b now) now ⟨now, b.capacityFixed⟩ where
  created := Nat.le_refl _
  offset := by
    show unpackRefillOffset (packBucket b.capacityFixed 0) = (now - now) % 2 ^ 32
    rw [unpackRefillOffset_packBucket b.capacity_lt (by decide), Nat.sub_self]
    rfl
  le := by
    show unpackTokens (packBucket b.capacityFixed 0) ≤ b.capacityFixed
    rw [unpackTokens_packBucket b.capacity_lt]
  past := Nat.le_refl _
  tokens := by
    show b.capacityFixed = b.tick^[now - now] (unpackTokens (packBucket b.capacityFixed 0))
    rw [unpackTokens_packBucket b.capacity_lt, Nat.sub_self]
    rfl

/-- The products and sums of a refill fit 64 bits: the rate is below 2^32. -/
def TokenBucket.Moderate (b : TokenBucket) : Prop :=
  b.refillRatePerMsFixed * 2 ^ 32 + 2 ^ 32 ≤ 2 ^ 64

instance (b : TokenBucket) : Decidable b.Moderate := inferInstanceAs (Decidable (_ ≤ _))

namespace Tracks

variable {l : LiveBucket} {last now : Nat} {s : IdealBucket}

/-- The ideal bucket later on. -/
theorem tick_iterate (h : Tracks l last s) (hnow : s.timeMs ≤ now) :
    l.bucket.tick^[now - s.timeMs] s.tokens =
      l.bucket.tick^[now - last] (unpackTokens l.packed) := by
  have hpast := h.past
  rw [h.tokens, ← Function.iterate_add_apply]
  congr 2
  omega

/-- **A refill finds what the ideal bucket holds.** -/
theorem newTokens_eq (h : Tracks l last s) (hrate : l.bucket.Moderate) (hnow : s.timeMs ≤ now)
    (hgap : now - last < 2 ^ 32) :
    l.bucket.newTokens ((now - l.createdAt) % 2 ^ 32) l.packed =
      l.bucket.tick^[now - s.timeMs] s.tokens := by
  have hcreated := h.created
  have hpast := h.past
  have hle := h.le
  have hlt := l.bucket.capacity_lt
  rw [h.tick_iterate hnow, TokenBucket.tick_iterate h.le]
  have helapsed : TokenBucket.elapsedMs ((now - l.createdAt) % 2 ^ 32)
      (unpackRefillOffset l.packed) = now - last := by
    rw [h.offset, TokenBucket.elapsedMs_mod (by omega) (by omega)]
    omega
  -- neither the product nor the sum wraps
  have hproduct : (now - last) * l.bucket.refillRatePerMsFixed ≤ (2 ^ 32 - 1) * (2 ^ 32 - 1) := by
    unfold TokenBucket.Moderate at hrate
    exact Nat.mul_le_mul (by omega) (by omega)
  simp only [TokenBucket.newTokens, helapsed]
  rw [Nat.mod_eq_of_lt (show (now - last) * l.bucket.refillRatePerMsFixed < 2 ^ 64 by omega),
    Nat.mod_eq_of_lt (by omega)]

/-! ## A call -/

/-- A call that asks for nothing is granted by both, and the word stays as it is. -/
theorem step_nothing (h : Tracks l last s) {call : AcquireCall} (hnow : s.timeMs ≤ call.timeMs)
    (hn : call.n.nonpos) :
    lazyBucket.step l call = (l, true) ∧ (idealBucket l.bucket).step s call =
        (⟨call.timeMs, l.bucket.tick^[call.timeMs - s.timeMs] s.tokens⟩, true) ∧
      Tracks l last ⟨call.timeMs, l.bucket.tick^[call.timeMs - s.timeMs] s.tokens⟩ := by
  refine ⟨?_, ?_, ⟨h.created, h.offset, h.le, h.past.trans hnow, h.tick_iterate hnow⟩⟩
  · simp [lazyBucket, TokenBucket.tryAcquireN, hn]
  · simp [idealBucket, floatToFixed_of_nonpos hn]

/-- What is written holds the tokens that are left, with the time of the call. -/
theorem written (hnow : l.createdAt ≤ now) {left : Nat} (hleft : left ≤ l.bucket.capacityFixed) :
    Tracks { l with packed := packBucket left ((now - l.createdAt) % 2 ^ 32) } now ⟨now, left⟩ := by
  have hlt : left < 2 ^ 32 := hleft.trans_lt l.bucket.capacity_lt
  have hoffset : (now - l.createdAt) % 2 ^ 32 < 2 ^ 32 := Nat.mod_lt _ (by decide)
  have htokens : unpackTokens (packBucket left ((now - l.createdAt) % 2 ^ 32)) = left :=
    unpackTokens_packBucket hlt _
  refine ⟨hnow, unpackRefillOffset_packBucket hlt hoffset, ?_, Nat.le_refl _, ?_⟩
  · exact htokens.trans_le hleft
  · show left = l.bucket.tick^[now - now] (unpackTokens (packBucket left _))
    rw [htokens, Nat.sub_self, Function.iterate_zero_apply]

/-- A call that asks for something is answered alike, and its time is the new timestamp. -/
theorem step_something (h : Tracks l last s) (hrate : l.bucket.Moderate) {call : AcquireCall}
    (hnow : s.timeMs ≤ call.timeMs) (hgap : call.timeMs - last < 2 ^ 32)
    (hn : call.n.nonpos = false) :
    ∃ packed tokens granted,
      lazyBucket.step l call = ({ l with packed := packed }, granted) ∧
      (idealBucket l.bucket).step s call = (⟨call.timeMs, tokens⟩, granted) ∧
      Tracks { l with packed := packed } call.timeMs ⟨call.timeMs, tokens⟩ := by
  have hcreated : l.createdAt ≤ call.timeMs := h.created.trans (h.past.trans hnow)
  have htokens := h.newTokens_eq hrate hnow hgap
  have hle : l.bucket.newTokens ((call.timeMs - l.createdAt) % 2 ^ 32) l.packed ≤
      l.bucket.capacityFixed := TokenBucket.newTokens_le_capacity
  simp only [lazyBucket, TokenBucket.tryAcquireN, hn, Bool.false_eq_true, ↓reduceIte,
    TokenBucket.attempt, idealBucket, ← htokens]
  split
  · exact ⟨_, _, _, rfl, rfl, written hcreated ((Nat.sub_le _ _).trans hle)⟩
  · exact ⟨_, _, _, rfl, rfl, written hcreated hle⟩

/-! ## A run -/

/-- From a word that stands for the ideal bucket on, all answers agree. -/
theorem observe_eq (h : Tracks l last s) (hrate : l.bucket.Moderate) {calls : List AcquireCall}
    (horder : InOrder s.timeMs calls) (hgaps : GapsBelow last (asking calls)) :
    lazyBucket.observe l calls = (idealBucket l.bucket).observe s calls := by
  induction calls generalizing l last s with
  | nil => rfl
  | cons call calls ih =>
      obtain ⟨hnow, horder⟩ := List.isChain_cons_cons.mp horder
      rw [Reactive.observe, Reactive.observe]
      cases hn : call.n.nonpos with
      | true =>
          obtain ⟨hlazy, hideal, htracks⟩ := h.step_nothing hnow hn
          rw [hlazy, hideal, ih htracks hrate horder]
          rwa [asking, List.filter_cons_of_neg (by simp [hn])] at hgaps
      | false =>
          rw [asking, List.filter_cons_of_pos (by simp [hn])] at hgaps
          obtain ⟨hgap, hgaps⟩ := List.isChain_cons_cons.mp hgaps
          obtain ⟨packed, tokens, granted, hlazy, hideal, htracks⟩ :=
            h.step_something hrate hnow hgap hn
          rw [hlazy, hideal, ih htracks hrate horder hgaps]

/-- After calls that all ask for something, the word stands for the ideal bucket as of the last of
them. What was known of the times is split there. -/
theorem run_append {tokens : Nat} (h : Tracks l last ⟨last, tokens⟩) (hrate : l.bucket.Moderate)
    {calls later later' : List AcquireCall} (hask : ∀ call ∈ calls, call.n.nonpos = false)
    (horder : InOrder last (calls ++ later)) (hgaps : GapsBelow last (calls ++ later')) :
    ∃ packed last' tokens', lazyBucket.run l calls = { l with packed := packed } ∧
      Tracks { l with packed := packed } last' ⟨last', tokens'⟩ ∧
      InOrder last' later ∧ GapsBelow last' later' := by
  induction calls generalizing l last tokens with
  | nil => exact ⟨l.packed, last, tokens, rfl, h, horder, hgaps⟩
  | cons call calls ih =>
      obtain ⟨hn, hask⟩ := List.forall_mem_cons.mp hask
      obtain ⟨hnow, horder⟩ := List.isChain_cons_cons.mp horder
      obtain ⟨hgap, hgaps⟩ := List.isChain_cons_cons.mp hgaps
      obtain ⟨packed, left, granted, hlazy, -, htracks⟩ := h.step_something hrate hnow hgap hn
      rw [Reactive.run_cons, hlazy]
      exact ih htracks hrate hask horder hgaps

end Tracks

/-- **The lazy bucket is the ideal one**: as long as no two consecutive calls that ask for something
are 2^32 ms or more apart, they answer alike. -/
theorem lazyBucket_observe (b : TokenBucket) (hrate : b.Moderate) (createdAt : Nat)
    {calls : List AcquireCall} (horder : InOrder createdAt calls)
    (hgaps : GapsBelow createdAt (asking calls)) :
    lazyBucket.observe (.fresh b createdAt) calls =
      (idealBucket b).observe ⟨createdAt, b.capacityFixed⟩ calls :=
  (Tracks.fresh b createdAt).observe_eq hrate horder hgaps

/-- A step of the ideal bucket, all its milliseconds at once. -/
theorem idealBucket_step {b : TokenBucket} {s : IdealBucket} (h : s.tokens ≤ b.capacityFixed)
    (call : AcquireCall) :
    (idealBucket b).step s call =
      let tokens := min (s.tokens + (call.timeMs - s.timeMs) * b.refillRatePerMsFixed)
        b.capacityFixed
      if floatToFixed call.n ≤ tokens then
        (⟨call.timeMs, tokens - floatToFixed call.n⟩, true)
      else (⟨call.timeMs, tokens⟩, false) := by
  simp only [idealBucket, TokenBucket.tick_iterate h]

/-- One token, refilled at the slowest rate there is. -/
def TokenBucket.slow : TokenBucket := .new 1 1

/-- A call before, one during and one after a refill, with one for nothing in between. -/
def acrossWrap : List AcquireCall :=
  [⟨2 ^ 32 - 1, .finite 1⟩, ⟨2 ^ 32 + 5, .finite 1⟩, ⟨2 ^ 32 + 7, .finite 0⟩,
    ⟨2 ^ 32 + 65535, .finite 1⟩]

/-- The clock wraps after the first call, and the last one still gets its token. -/
theorem lazyBucket_observe_acrossWrap :
    lazyBucket.observe (.fresh .slow 0) acrossWrap = [true, false, true, true] ∧
    lazyBucket.observe (.fresh .slow 0) acrossWrap =
      (idealBucket .slow).observe ⟨0, TokenBucket.slow.capacityFixed⟩ acrossWrap :=
  ⟨by decide +kernel,
    lazyBucket_observe .slow (by decide) 0 (by decide +kernel) (by decide +kernel)⟩

/-- A token is taken, a call asks for nothing just before the clock wraps, and the next one asks for
a token just after. -/
def pollForNothing : List AcquireCall :=
  [⟨0, .finite 1⟩, ⟨2 ^ 32 - 1, .finite 0⟩, ⟨2 ^ 32, .finite 1⟩]

/-- **The poll hides the wrap**: the time since the refill is taken to be zero, and the token that
the ideal bucket has is denied. -/
theorem exists_token_withheld :
    ¬ ∀ (b : TokenBucket), b.Moderate → ∀ (createdAt : Nat) (calls : List AcquireCall),
      InOrder createdAt calls → GapsBelow createdAt calls →
      lazyBucket.observe (.fresh b createdAt) calls =
        (idealBucket b).observe ⟨createdAt, b.capacityFixed⟩ calls := by
  intro h
  have heq := h .slow (by decide) 0 pollForNothing (by decide +kernel) (by decide +kernel)
  have hlazy : lazyBucket.observe (.fresh .slow 0) pollForNothing = [true, true, false] := by
    decide +kernel
  have hfirst : (idealBucket .slow).step ⟨0, 65536⟩ ⟨0, .finite 1⟩ = (⟨0, 0⟩, true) := by
    rw [idealBucket_step (by decide)]
    decide +kernel
  have hpoll : (idealBucket .slow).step ⟨0, 0⟩ ⟨2 ^ 32 - 1, .finite 0⟩ =
      (⟨2 ^ 32 - 1, 65536⟩, true) := by
    rw [idealBucket_step (by decide)]
    decide +kernel
  have hlast : (idealBucket .slow).step ⟨2 ^ 32 - 1, 65536⟩ ⟨2 ^ 32, .finite 1⟩ =
      (⟨2 ^ 32, 0⟩, true) := by
    rw [idealBucket_step (by decide)]
    decide +kernel
  have hideal : (idealBucket .slow).observe ⟨0, 65536⟩ pollForNothing = [true, true, true] := by
    simp only [pollForNothing, Reactive.observe, hfirst, hpoll, hlast]
  exact absurd (hlazy.symm.trans (heq.trans hideal)) (by decide)

end Rauta
