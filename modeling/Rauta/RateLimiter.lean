import Mathlib.Data.Rat.Floor
import Rauta.Lib.Bits
import Rauta.Lib.Interleaving

/-!
# The token bucket of the rate limiter

`TokenBucket`: one word holds the tokens (16.16 fixed point, upper half) and the time of the last
refill (milliseconds since creation, lower half). `try_acquire_n` reads the clock, and then loops:
load the word, add what has accrued since the refill time, take the tokens, compare-exchange.

The accounting is `granted + tokens ≤ capacity + refill time · rate`. An exchange keeps it as long
as the word it replaces was not refilled *after* the caller's own clock reading
(`TokenBucket.attempt_accounts`). If it was, the elapsed time is a wrapped 32-bit difference of some
49 days, the bucket fills up, and the refill time goes backwards.
-/

namespace Rauta

open Transition Interleaving

/-! ## Fixed point -/

/-- The value of an `f64`. -/
inductive F64 where
  | nan
  | negInf
  | posInf
  | finite (q : ℚ)
  deriving DecidableEq

/-- `n <= 0.0`; a NaN compares with nothing. -/
def F64.nonpos : F64 → Bool
  | .nan => false
  | .negInf => true
  | .posInf => false
  | .finite q => q ≤ 0

/-- `FIXED_ONE`. -/
def fixedOne : Nat := 65536

/-- `float_to_fixed`. Multiplying by a power of two is exact; the cast drops the fraction and
saturates. -/
def floatToFixed : F64 → Nat
  | .nan => 0
  | .negInf => 0
  | .posInf => 2 ^ 64 - 1
  | .finite q => min ⌊q * fixedOne⌋₊ (2 ^ 64 - 1)

/-- `fixed_to_float`. -/
def fixedToFloat (fixed : Nat) : ℚ := fixed / fixedOne

/-- A call that asks for nothing is worth nothing. -/
theorem floatToFixed_of_nonpos {n : F64} (h : n.nonpos) : floatToFixed n = 0 := by
  cases n with
  | nan => rfl
  | negInf => rfl
  | posInf => cases h
  | finite q =>
      have hq : q * fixedOne ≤ 0 :=
        mul_nonpos_of_nonpos_of_nonneg (of_decide_eq_true h) (by simp)
      show min ⌊q * fixedOne⌋₊ (2 ^ 64 - 1) = 0
      rw [Nat.floor_of_nonpos hq, Nat.zero_min]

/-! ## The packed word -/

/-- `pack_bucket`. -/
def packBucket (tokensFixed refillOffsetMs : Nat) : Nat :=
  (tokensFixed <<< 32) % 2 ^ 64 ||| (refillOffsetMs &&& 0xFFFFFFFF)

/-- `unpack_tokens`. -/
def unpackTokens (packed : Nat) : Nat := packed >>> 32

/-- `unpack_refill_offset`. -/
def unpackRefillOffset (packed : Nat) : Nat := packed &&& 0xFFFFFFFF

theorem and_mask_eq_mod (n : Nat) : n &&& 0xFFFFFFFF = n % 2 ^ 32 :=
  Nat.and_two_pow_sub_one_eq_mod n 32

theorem packBucket_eq {tokens : Nat} (h : tokens < 2 ^ 32) (offset : Nat) :
    packBucket tokens offset = tokens <<< 32 ||| offset % 2 ^ 32 := by
  have hlt : tokens <<< 32 < 2 ^ 64 := by
    rw [Nat.shiftLeft_eq]
    omega
  rw [packBucket, and_mask_eq_mod, Nat.mod_eq_of_lt hlt]

@[simp] theorem unpackTokens_packBucket {tokens : Nat} (h : tokens < 2 ^ 32) (offset : Nat) :
    unpackTokens (packBucket tokens offset) = tokens := by
  rw [packBucket_eq h, unpackTokens]
  exact Bits.shiftRight_shiftLeft_or tokens (Nat.mod_lt _ (by decide))

@[simp] theorem unpackRefillOffset_packBucket {tokens offset : Nat} (h : tokens < 2 ^ 32)
    (ho : offset < 2 ^ 32) : unpackRefillOffset (packBucket tokens offset) = offset := by
  rw [packBucket_eq h, unpackRefillOffset, and_mask_eq_mod, Nat.mod_eq_of_lt ho]
  exact Bits.shiftLeft_or_mod tokens ho

/-! ## The bucket -/

/-- The constant fields of a `TokenBucket`. The capacity is a burst of at most 65535 tokens, so it
fits the upper half of the word. The rate is what `new` computes of it, once, in floating point. -/
structure TokenBucket where
  capacityFixed : Nat
  refillRatePerMsFixed : Nat
  capacity_lt : capacityFixed < 2 ^ 32

namespace TokenBucket

/-- `TokenBucket::new`, after the rate has been converted. -/
def new (refillRatePerMsFixed burst : Nat) : TokenBucket where
  capacityFixed := min burst 65535 * fixedOne
  refillRatePerMsFixed := refillRatePerMsFixed
  capacity_lt := by
    unfold fixedOne
    omega

/-- The initial word: full, refilled at time zero. -/
def initial (b : TokenBucket) : Nat := packBucket b.capacityFixed 0

/-- `elapsed_ms`: a wrapping 32-bit difference. -/
def elapsedMs (nowMs refillMs : Nat) : Nat := (nowMs + 2 ^ 32 - refillMs) % 2 ^ 32

/-- `new_tokens`: the tokens of the word after the refill. -/
def newTokens (b : TokenBucket) (nowMs current : Nat) : Nat :=
  let tokensToAdd := elapsedMs nowMs (unpackRefillOffset current) * b.refillRatePerMsFixed % 2 ^ 64
  min ((unpackTokens current + tokensToAdd) % 2 ^ 64) b.capacityFixed

/-- What one pass of the loop decides: whether the tokens suffice, and the word to exchange. -/
def attempt (b : TokenBucket) (nFixed nowMs current : Nat) : Bool × Nat :=
  if nFixed ≤ b.newTokens nowMs current then
    (true, packBucket (b.newTokens nowMs current - nFixed) nowMs)
  else (false, packBucket (b.newTokens nowMs current) nowMs)

variable {b : TokenBucket} {nFixed nowMs current : Nat}

theorem newTokens_le_capacity : b.newTokens nowMs current ≤ b.capacityFixed := Nat.min_le_right _ _

theorem newTokens_lt : b.newTokens nowMs current < 2 ^ 32 :=
  newTokens_le_capacity.trans_lt b.capacity_lt

/-- The refill adds at most what has accrued, if the refill time is not in the future. -/
theorem newTokens_le (hnow : nowMs < 2 ^ 32) (hold : unpackRefillOffset current ≤ nowMs) :
    b.newTokens nowMs current ≤ unpackTokens current +
      (nowMs - unpackRefillOffset current) * b.refillRatePerMsFixed := by
  have helapsed : elapsedMs nowMs (unpackRefillOffset current) =
      nowMs - unpackRefillOffset current := by
    unfold elapsedMs
    omega
  unfold newTokens
  rw [helapsed]
  refine (Nat.min_le_left _ _).trans ((Nat.mod_le _ _).trans ?_)
  exact Nat.add_le_add_left (Nat.mod_le _ _) _

/-- What an attempt hands out. -/
def grant (b : TokenBucket) (nFixed nowMs current : Nat) : Nat :=
  if (b.attempt nFixed nowMs current).1 then nFixed else 0

/-- Nothing is handed out that is not there. -/
theorem grant_le : b.grant nFixed nowMs current ≤ b.newTokens nowMs current := by
  unfold grant attempt
  split
  · next hn => exact hn
  · exact Nat.zero_le _

/-- The word to exchange packs what is left. -/
theorem attempt_snd : (b.attempt nFixed nowMs current).2 =
    packBucket (b.newTokens nowMs current - b.grant nFixed nowMs current) nowMs := by
  unfold grant attempt
  split
  · rfl
  · exact congrArg (packBucket · nowMs) (Nat.sub_zero _).symm

/-- What is taken and what is left is exactly what the refill has found. -/
theorem attempt_balance (b : TokenBucket) (nFixed current : Nat) (hnow : nowMs < 2 ^ 32) :
    unpackRefillOffset (b.attempt nFixed nowMs current).2 = nowMs ∧
    unpackTokens (b.attempt nFixed nowMs current).2 + b.grant nFixed nowMs current =
      b.newTokens nowMs current := by
  have hleft : b.newTokens nowMs current - b.grant nFixed nowMs current < 2 ^ 32 :=
    (Nat.sub_le _ _).trans_lt newTokens_lt
  rw [attempt_snd, unpackTokens_packBucket hleft, unpackRefillOffset_packBucket hleft hnow]
  exact ⟨rfl, Nat.sub_add_cancel grant_le⟩

/-- **The accounting of one exchange**: what is taken and what is left is covered by what was there
and what has accrued. -/
theorem attempt_accounts (nFixed : Nat) (hnow : nowMs < 2 ^ 32)
    (hold : unpackRefillOffset current ≤ nowMs) :
    unpackRefillOffset (b.attempt nFixed nowMs current).2 = nowMs ∧
    unpackTokens (b.attempt nFixed nowMs current).2 + b.grant nFixed nowMs current ≤
      unpackTokens current + (nowMs - unpackRefillOffset current) * b.refillRatePerMsFixed := by
  obtain ⟨hrefilled, hbalance⟩ := b.attempt_balance nFixed current hnow
  exact ⟨hrefilled, hbalance.trans_le (newTokens_le hnow hold)⟩

/-- `try_acquire_n` without interference. -/
def tryAcquireN (b : TokenBucket) (n : F64) (now packed : Nat) : Bool × Nat :=
  if n.nonpos then (true, packed) else b.attempt (floatToFixed n) (now % 2 ^ 32) packed

/-- `available_tokens`. A number of at most 32 bits is divided by a power of two, which is exact. -/
def availableTokens (b : TokenBucket) (now packed : Nat) : ℚ :=
  min (fixedToFloat (b.newTokens (now % 2 ^ 32) packed)) (fixedToFloat b.capacityFixed)

end TokenBucket

/-! ## Concurrent callers -/

/-- The clock (milliseconds since the bucket was created) and the word. -/
structure BucketShared where
  now : Nat
  packed : Nat

/-- Where a call of `try_acquire_n` is. -/
inductive AcquirePc where
  | start
  | load (nowMs : Nat)
  | exchange (nowMs current : Nat)
  | done (acquired : Bool)
  deriving DecidableEq

/-- A call of `try_acquire_n`. -/
structure Caller where
  n : F64
  pc : AcquirePc

/-- One atomic step of a call. The exchange is a weak one: it may fail for no reason. -/
def acquireStep (b : TokenBucket) (sh : BucketShared) (c : Caller) (spurious : Bool) :
    Option (BucketShared × Caller) :=
  match c.pc with
  | .start =>
    if c.n.nonpos then some (sh, { c with pc := .done true })
    else some (sh, { c with pc := .load (sh.now % 2 ^ 32) })
  | .load nowMs => some (sh, { c with pc := .exchange nowMs sh.packed })
  | .exchange nowMs current =>
    let (enough, word) := b.attempt (floatToFixed c.n) nowMs current
    if sh.packed = current ∧ spurious = false then
      some ({ sh with packed := word }, { c with pc := .done enough })
    else if enough then some (sh, { c with pc := .load nowMs })
    else some (sh, { c with pc := .done false })
  | .done _ => none

/-- Calls on several threads, and a clock that moves forward. -/
def bucketMachine (b : TokenBucket) : Machine BucketShared Caller Bool Nat where
  thread := acquireStep b
  env sh ms := { sh with now := sh.now + ms }

/-- A call that is not disturbed does what `tryAcquireN` does. -/
theorem bucketMachine_alone (b : TokenBucket) (n : F64) (sh : BucketShared) :
    (bucketMachine b).system.Reach System.Anything ⟨sh, [⟨n, .start⟩]⟩
      ⟨{ sh with packed := (b.tryAcquireN n sh.now sh.packed).2 },
        [⟨n, .done (b.tryAcquireN n sh.now sh.packed).1⟩]⟩ := by
  have hrun : ∀ k c, (bucketMachine b).system.exec ⟨sh, [⟨n, .start⟩]⟩
      (List.replicate k (.thread 0 false)) = some c →
      (bucketMachine b).system.Reach System.Anything ⟨sh, [⟨n, .start⟩]⟩ c :=
    fun k c h => .of_exec h
  by_cases hn : n.nonpos
  · apply hrun 1
    simp [System.exec, Machine.system, Machine.step, bucketMachine, acquireStep,
      TokenBucket.tryAcquireN, hn]
  · apply hrun 3
    simp [System.exec, List.replicate, Machine.system, Machine.step, bucketMachine, acquireStep,
      TokenBucket.tryAcquireN, hn]

/-! ## The bound -/

/-- What a call has got. -/
def Caller.granted (c : Caller) : Nat := if c.pc = .done true then floatToFixed c.n else 0

/-- What all calls have got. -/
def granted (callers : List Caller) : Nat := (callers.map Caller.granted).sum

/-- The clock reading and the loaded word of a call that is about to exchange. -/
def Caller.exchange? (c : Caller) : Option (Nat × Nat) :=
  match c.pc with
  | .exchange nowMs current => some (nowMs, current)
  | _ => none

/-- No exchange succeeds on a word that was refilled after the caller read the clock. -/
def ExchangesFresh (c : Config BucketShared Caller) : Label Bool Nat → Prop
  | .env _ => True
  | .thread i spurious => ∀ caller ∈ c.threads[i]?, ∀ e ∈ caller.exchange?,
      c.shared.packed = e.2 → spurious = false → unpackRefillOffset e.2 ≤ e.1

instance (c : Config BucketShared Caller) : (l : Label Bool Nat) → Decidable (ExchangesFresh c l)
  | .env _ => inferInstanceAs (Decidable True)
  | .thread i _ => inferInstanceAs (Decidable (∀ caller ∈ c.threads[i]?, _))

/-- A clock reading is from the past. -/
def Caller.Read (now : Nat) (c : Caller) : Prop :=
  match c.pc with
  | .load nowMs | .exchange nowMs _ => nowMs ≤ now
  | _ => True

/-- What is kept while the clock is below `2 ^ 32`. -/
structure Accounted (b : TokenBucket) (sh : BucketShared) (callers : List Caller) : Prop where
  refilled : unpackRefillOffset sh.packed ≤ sh.now
  read : ∀ c ∈ callers, c.Read sh.now
  accounts : granted callers + unpackTokens sh.packed ≤
    b.capacityFixed + unpackRefillOffset sh.packed * b.refillRatePerMsFixed

theorem granted_middle (pre post : List Caller) (c : Caller) :
    granted (pre ++ c :: post) = c.granted + granted (pre ++ post) :=
  sum_map_middle Caller.granted pre post c

theorem Accounted.init (b : TokenBucket) {callers : List Caller}
    (hstart : ∀ c ∈ callers, c.pc = .start) : Accounted b ⟨0, b.initial⟩ callers where
  refilled := by
    show unpackRefillOffset (packBucket b.capacityFixed 0) ≤ 0
    rw [unpackRefillOffset_packBucket b.capacity_lt (by decide)]
  read c hc := by simp [Caller.Read, hstart c hc]
  accounts := by
    have hgranted : granted callers = 0 := by
      rw [granted, List.sum_eq_zero_iff_forall_eq_nat]
      intro g hg
      obtain ⟨c, hc, rfl⟩ := List.mem_map.mp hg
      simp [Caller.granted, hstart c hc]
    show granted callers + unpackTokens (packBucket b.capacityFixed 0) ≤ _
    rw [hgranted, unpackTokens_packBucket b.capacity_lt]
    omega

/-- The clock moves. -/
theorem Accounted.tick {b : TokenBucket} {sh : BucketShared} {callers : List Caller}
    (h : Accounted b sh callers) (ms : Nat) :
    Accounted b { sh with now := sh.now + ms } callers where
  refilled := h.refilled.trans (Nat.le_add_right _ _)
  read c hc := by
    have hread := h.read c hc
    unfold Caller.Read at hread ⊢
    split <;> simp_all <;> omega
  accounts := h.accounts

/-- One step of one call. -/
theorem Accounted.step {b : TokenBucket} {sh sh' : BucketShared} {pre post : List Caller}
    {c c' : Caller} {spurious : Bool} (h : Accounted b sh (pre ++ c :: post))
    (hnow : sh.now < 2 ^ 32)
    (hok : ExchangesFresh ⟨sh, pre ++ c :: post⟩ (.thread pre.length spurious))
    (hstep : acquireStep b sh c spurious = some (sh', c')) :
    Accounted b sh' (pre ++ c' :: post) := by
  obtain ⟨hrefilled, hread, haccounts⟩ := h
  obtain ⟨hc, hothers⟩ := forall_mem_middle.mp hread
  rw [granted_middle] at haccounts
  -- a step that leaves the word alone and grants nothing
  have hquiet : sh' = sh → c'.granted = 0 → c'.Read sh.now →
      Accounted b sh' (pre ++ c' :: post) := by
    rintro rfl hg hr
    refine ⟨hrefilled, forall_mem_middle.mpr ⟨hr, hothers⟩, ?_⟩
    rw [granted_middle, hg]
    omega
  cases hpc : c.pc with
  | start =>
      simp only [acquireStep, hpc] at hstep
      split at hstep <;> cases hstep
      · next hn =>
        apply hquiet rfl _ trivial
        show (if AcquirePc.done true = .done true then floatToFixed c.n else 0) = 0
        rw [if_pos rfl, floatToFixed_of_nonpos hn]
      · exact hquiet rfl rfl (Nat.mod_le _ _)
  | load nowMs =>
      simp only [acquireStep, hpc] at hstep
      cases hstep
      have hle : nowMs ≤ sh.now := by simpa [Caller.Read, hpc] using hc
      exact hquiet rfl rfl hle
  | exchange nowMs current =>
      have hle : nowMs ≤ sh.now := by simpa [Caller.Read, hpc] using hc
      simp only [acquireStep, hpc] at hstep
      split at hstep
      · next hswap =>
        cases hstep
        have hold : unpackRefillOffset current ≤ nowMs :=
          hok c (by simp) (nowMs, current) (by simp [Caller.exchange?, hpc]) hswap.1 hswap.2
        obtain ⟨hoffset, haccount⟩ :=
          TokenBucket.attempt_accounts (b := b) (floatToFixed c.n) (hle.trans_lt hnow) hold
        refine ⟨hoffset.trans_le hle, forall_mem_middle.mpr ⟨trivial, hothers⟩, ?_⟩
        have hgrant : Caller.granted ⟨c.n, .done (b.attempt (floatToFixed c.n) nowMs current).1⟩ =
            b.grant (floatToFixed c.n) nowMs current := by
          simp only [Caller.granted, TokenBucket.grant, AcquirePc.done.injEq]
        rw [granted_middle, hgrant, hoffset]
        rw [hswap.1] at haccounts
        -- what accrued up to the old refill time and since then is what accrued up to now
        have haccrued : unpackRefillOffset current * b.refillRatePerMsFixed +
            (nowMs - unpackRefillOffset current) * b.refillRatePerMsFixed =
              nowMs * b.refillRatePerMsFixed := by
          rw [← Nat.add_mul, Nat.add_sub_cancel' hold]
        show _ + unpackTokens (b.attempt (floatToFixed c.n) nowMs current).2 ≤ _
        omega
      · split at hstep <;> cases hstep
        · exact hquiet rfl rfl hle
        · exact hquiet rfl rfl trivial
  | done acquired =>
      simp only [acquireStep, hpc] at hstep
      cases hstep

/-- A call does not move the clock. -/
theorem acquireStep_now {b : TokenBucket} {sh sh' : BucketShared} {c c' : Caller} {spurious : Bool}
    (h : acquireStep b sh c spurious = some (sh', c')) : sh'.now = sh.now := by
  unfold acquireStep at h
  split at h
  · split at h <;> cases h <;> rfl
  · cases h
    rfl
  · simp only at h
    split at h
    · cases h
      rfl
    · split at h <;> cases h <;> rfl
  · cases h

/-- The accounting, up to the point where the clock wraps. -/
def AccountedBelow (b : TokenBucket) (sh : BucketShared) (callers : List Caller) : Prop :=
  sh.now < 2 ^ 32 → Accounted b sh callers

/-- **The rate limit**: in every run whose exchanges are fresh, the calls get no more than the
capacity and what accrues. -/
theorem granted_le (b : TokenBucket) {callers : List Caller} (hstart : ∀ c ∈ callers, c.pc = .start)
    {c : Config BucketShared Caller}
    (h : (bucketMachine b).system.Reach ExchangesFresh ⟨⟨0, b.initial⟩, callers⟩ c) {T : Nat}
    (hT : c.shared.now ≤ T) (hlt : T < 2 ^ 32) :
    granted c.threads ≤ b.capacityFixed + T * b.refillRatePerMsFixed := by
  have hinv : AccountedBelow b c.shared c.threads := by
    refine Machine.invariant (fun _ => .init b hstart) ?_ ?_ h
    · intro sh ts ms hs _ hnow
      exact (hs ((Nat.le_add_right _ _).trans_lt hnow)).tick ms
    · intro sh pre l post spurious sh' l' hs hok hstep hnow
      rw [acquireStep_now hstep] at hnow
      exact (hs hnow).step hnow hok hstep
  obtain ⟨hrefilled, -, haccounts⟩ := hinv (hT.trans_lt hlt)
  calc granted c.threads
      ≤ b.capacityFixed + unpackRefillOffset c.shared.packed * b.refillRatePerMsFixed :=
        (Nat.le_add_right _ _).trans haccounts
    _ ≤ b.capacityFixed + T * b.refillRatePerMsFixed :=
        Nat.add_le_add_left (Nat.mul_le_mul_right _ (hrefilled.trans hT)) _

/-- One token, refilled at one token each millisecond. -/
def TokenBucket.single : TokenBucket := .new fixedOne 1

/-- Three calls for one token. -/
def threeCallers : Config BucketShared Caller :=
  ⟨⟨0, TokenBucket.single.initial⟩, List.replicate 3 ⟨.finite 1, .start⟩⟩

/-- Two calls before the clock moves, one after. -/
def inTurn : List (Label Bool Nat) :=
  [.thread 0 false, .thread 0 false, .thread 0 false, .thread 1 false, .thread 1 false,
    .thread 1 false, .env 1, .thread 2 false, .thread 2 false, .thread 2 false]

theorem granted_le_inTurn :
    ∃ c, (bucketMachine .single).system.Reach ExchangesFresh threeCallers c ∧
      granted c.threads = 2 * fixedOne ∧
      granted c.threads ≤ TokenBucket.single.capacityFixed +
        1 * TokenBucket.single.refillRatePerMsFixed := by
  have hrun : (((bucketMachine .single).system.restrict ExchangesFresh).exec threeCallers
      inTurn).any (fun c => granted c.threads = 2 * fixedOne && c.shared.now ≤ 1) = true := by
    decide +kernel
  obtain ⟨c, hc, hend⟩ := (Option.any_eq_true ..).mp hrun
  simp only [Bool.and_eq_true, decide_eq_true_eq] at hend
  have hreach := System.Reach.of_exec_restrict hc
  exact ⟨c, hreach, hend.1,
    granted_le .single (by simp) hreach hend.2 (by decide)⟩

/-- The first call reads the clock, and loads the word only after the second has refilled it
later. -/
def staleClock : List (Label Bool Nat) :=
  [.thread 0 false, .env 1, .thread 1 false, .thread 1 false, .thread 1 false, .thread 0 false,
    .thread 0 false, .thread 2 false, .thread 2 false, .thread 2 false]

/-- **The limit is exceeded**: three tokens in one millisecond, where two are allowed. -/
theorem exists_limit_exceeded :
    ¬ ∀ (b : TokenBucket) (callers : List Caller), (∀ c ∈ callers, c.pc = .start) →
      ∀ c : Config BucketShared Caller,
      (bucketMachine b).system.Reach System.Anything ⟨⟨0, b.initial⟩, callers⟩ c →
      ∀ T, c.shared.now ≤ T → T < 2 ^ 32 →
      granted c.threads ≤ b.capacityFixed + T * b.refillRatePerMsFixed := by
  intro h
  have hrun : ((bucketMachine .single).system.exec threeCallers staleClock).any
      (fun c => granted c.threads = 3 * fixedOne && c.shared.now ≤ 1) = true := by decide +kernel
  obtain ⟨c, hc, hend⟩ := (Option.any_eq_true ..).mp hrun
  simp only [Bool.and_eq_true, decide_eq_true_eq] at hend
  have hle := h .single _ (by simp) c (.of_exec hc) 1 hend.2 (by decide)
  rw [hend.1] at hle
  exact absurd hle (by decide)

end Rauta
