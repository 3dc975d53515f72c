import Rauta.RateLimiter.WellFormed

/-!
# What an accepted limit amounts to

`parse_rate_limit_annotation` takes every rate that is not `<= 0`, and every burst.
`TokenBucket::new` makes fixed-point numbers of them: the burst is clamped, the rate per millisecond
is not, and it loses what is below 2^-16. Both ends show. A rate that is too large overflows the
product with the elapsed time (`RateFits`), and one that is too small is no rate at all
(`F64.Perceptible`).
-/

namespace Rauta

open Interleaving Transition

/-- The rate of an accepted annotation is not `<= 0`. -/
theorem nonpos_of_parseRateLimitAnnotation {parse : Str → Option F64} {text : Str} {rate : F64}
    {burst : Nat} (h : parseRateLimitAnnotation parse text = .ok (rate, burst)) :
    rate.nonpos = false := by
  unfold parseRateLimitAnnotation at h
  split at h
  · cases h
  · simp only at h
    split at h
    · cases h
    · split at h
      · cases h
      · next rate' _ =>
        split at h
        · cases h
        · next hpos =>
          cases hburst : parseBurst rate' ‹List Str›.head? with
          | error e =>
              rw [hburst] at h
              cases h
          | ok burst' =>
              rw [hburst] at h
              cases h
              simpa using hpos

namespace TokenBucket

/-- The clock and the word of a bucket in use, at some point of some run. -/
def Reachable (b : TokenBucket) (sh : BucketShared) : Prop :=
  ∃ callers threads, (∀ c ∈ callers, c.pc = .start) ∧
    (bucketMachine b).system.Reach System.Anything ⟨⟨0, b.initial⟩, callers⟩ ⟨sh, threads⟩

variable {b : TokenBucket} {sh : BucketShared}

theorem reachable_initial : b.Reachable ⟨0, b.initial⟩ := ⟨[], [], by simp, .refl⟩

theorem Reachable.wellFormed (h : b.Reachable sh) : b.WellFormed sh.packed := by
  obtain ⟨callers, threads, hstart, hreach⟩ := h
  exact (wordKept_of_reach hstart (reach_clockMachine hreach)).word

/-- No time, no tokens. -/
theorem newTokens_initial : b.newTokens 0 b.initial = b.capacityFixed := by
  have hlt := b.capacity_lt
  simp only [newTokens, initial, elapsedMs, unpackTokens_packBucket hlt,
    unpackRefillOffset_packBucket hlt (show 0 < 2 ^ 32 by decide)]
  simp only [Nat.zero_add, Nat.sub_zero, Nat.mod_self, Nat.zero_mul, Nat.zero_mod, Nat.add_zero]
  omega

/-- One call can take all there is. -/
theorem reachable_empty (b : TokenBucket) : b.Reachable ⟨0, packBucket 0 0⟩ := by
  by_cases hzero : b.capacityFixed = 0
  · have hinitial : b.initial = packBucket 0 0 := by rw [initial, hzero]
    rw [← hinitial]
    exact reachable_initial
  · have hfixed : floatToFixed (.finite (fixedToFloat b.capacityFixed)) = b.capacityFixed := by
      have hlt := b.capacity_lt
      have hexact : fixedToFloat b.capacityFixed * fixedOne = b.capacityFixed :=
        div_mul_cancel₀ _ (by decide)
      show min ⌊fixedToFloat b.capacityFixed * fixedOne⌋₊ (2 ^ 64 - 1) = b.capacityFixed
      rw [hexact, Nat.floor_natCast]
      omega
    have hasks : F64.nonpos (.finite (fixedToFloat b.capacityFixed)) = false := by
      have hpos : 0 < fixedToFloat b.capacityFixed :=
        div_pos (Nat.cast_pos.mpr (Nat.pos_of_ne_zero hzero)) (by decide)
      simpa [F64.nonpos] using hpos
    have htakes : b.tryAcquireN (.finite (fixedToFloat b.capacityFixed)) 0 b.initial =
        (true, packBucket 0 0) := by
      rw [tryAcquireN, hasks, if_neg Bool.false_ne_true, hfixed, attempt, Nat.zero_mod,
        newTokens_initial, if_pos (Nat.le_refl _), Nat.sub_self]
    have halone := bucketMachine_alone b (.finite (fixedToFloat b.capacityFixed)) ⟨0, b.initial⟩
    rw [htakes] at halone
    exact ⟨_, _, by simp, halone⟩

end TokenBucket

/-! ## Large rates -/

namespace TokenBucket

variable {b : TokenBucket}

/-- What a refill multiplies and adds stays below 2^64. -/
def RefillFits (b : TokenBucket) (packed elapsedMs : Nat) : Prop :=
  elapsedMs * b.refillRatePerMsFixed < 2 ^ 64 ∧
    unpackTokens packed + elapsedMs * b.refillRatePerMsFixed < 2 ^ 64

/-- It is the full bucket and the longest time that decide. -/
theorem forall_refillFits_iff :
    (∀ sh, b.Reachable sh → ∀ elapsedMs < 2 ^ 32, b.RefillFits sh.packed elapsedMs) ↔
      b.capacityFixed + (2 ^ 32 - 1) * b.refillRatePerMsFixed < 2 ^ 64 := by
  constructor
  · intro h
    have hfull := (h _ reachable_initial (2 ^ 32 - 1) (by decide)).2
    rwa [show unpackTokens b.initial = b.capacityFixed from
      unpackTokens_packBucket b.capacity_lt 0] at hfull
  · intro h sh hsh elapsedMs helapsed
    have htokens := hsh.wellFormed.fields.1
    have hproduct : elapsedMs * b.refillRatePerMsFixed ≤ (2 ^ 32 - 1) * b.refillRatePerMsFixed :=
      Nat.mul_le_mul_right _ (by omega)
    exact ⟨by omega, by omega⟩

end TokenBucket

/-- The first rate per millisecond that is too large, in fixed point. Without a burst there is room
for one unit more. -/
def excessiveRate (burst : Nat) : Nat := 2 ^ 32 + if burst = 0 then 2 else 1

/-- The rate per millisecond is below that. It is somewhat over 65536 tokens. -/
def RateFits (round : ℚ → ℚ) (burst : Nat) : F64 → Prop
  | .nan => True
  | .finite rate => round (rate / 1000) * fixedOne < excessiveRate burst
  | _ => False

/-- **When the arithmetic fits**: for an accepted annotation, exactly if its rate does. -/
theorem refillFits_iff {F : FloatOps} {text : Str} {rate : F64} {burst : Nat}
    (haccepted : parseRateLimitAnnotation F.parse text = .ok (rate, burst)) :
    (∀ sh, (TokenBucket.ofRate F.round rate burst).Reachable sh → ∀ elapsedMs < 2 ^ 32,
      (TokenBucket.ofRate F.round rate burst).RefillFits sh.packed elapsedMs) ↔
      RateFits F.round burst rate := by
  have hpos := nonpos_of_parseRateLimitAnnotation haccepted
  rw [TokenBucket.forall_refillFits_iff]
  -- with a burst, the capacity uses up what is left above the product
  have hbound : ∀ r, (TokenBucket.new r burst).capacityFixed + (2 ^ 32 - 1) * r < 2 ^ 64 ↔
      r < excessiveRate burst := by
    intro r
    simp only [TokenBucket.new, fixedOne, excessiveRate]
    split <;> omega
  show (TokenBucket.new _ burst).capacityFixed + (2 ^ 32 - 1) * floatToFixed _ < _ ↔ _
  rw [hbound]
  have hsmall : 0 < excessiveRate burst ∧ excessiveRate burst ≤ 2 ^ 64 - 1 := by
    unfold excessiveRate
    split <;> omega
  cases rate with
  | nan => simpa [F64.perMs, floatToFixed, RateFits] using hsmall.1
  | negInf => cases hpos
  | posInf => simpa [F64.perMs, floatToFixed, RateFits] using hsmall.2
  | finite q =>
      simp only [F64.perMs, floatToFixed, RateFits, min_lt_iff]
      rw [or_iff_left (not_lt.mpr hsmall.2), Nat.floor_lt' hsmall.1.ne']

/-- The exact values of plain decimals. -/
def decimals : FloatOps where
  round := id
  parse text :=
    match text.splitOn '.' with
    | [whole] => (parseU64 whole).map fun w => .finite w
    | [whole, fraction] =>
      (parseU64 whole).bind fun w => (parseU64 fraction).map fun f =>
        .finite (w + f / 10 ^ fraction.length)
    | _ => none

/-- The bucket of `100rps,burst=200`. -/
def hundredPerSecond : TokenBucket := .ofRate decimals.round (.finite 100) 200

theorem refillFits_hundredPerSecond :
    parseRateLimitAnnotation decimals.parse "100rps,burst=200".toList = .ok (.finite 100, 200) ∧
    ∀ elapsedMs < 2 ^ 32, hundredPerSecond.RefillFits hundredPerSecond.initial elapsedMs := by
  have haccepted : parseRateLimitAnnotation decimals.parse "100rps,burst=200".toList =
      .ok (.finite 100, 200) := by decide +kernel
  have hfits : RateFits decimals.round 200 (.finite 100) := by
    show (100 / 1000 * fixedOne : ℚ) < excessiveRate 200
    decide +kernel
  exact ⟨haccepted, (refillFits_iff haccepted).mpr hfits ⟨0, hundredPerSecond.initial⟩
    TokenBucket.reachable_initial⟩

/-- **The product overflows**: a hundred million requests per second, and 2^32 - 1 ms. -/
theorem exists_refill_overflow :
    ¬ ∀ (F : FloatOps) (text : Str) (rate : F64) (burst : Nat),
      parseRateLimitAnnotation F.parse text = .ok (rate, burst) →
      ∀ sh, (TokenBucket.ofRate F.round rate burst).Reachable sh → ∀ elapsedMs < 2 ^ 32,
      (TokenBucket.ofRate F.round rate burst).RefillFits sh.packed elapsedMs := by
  intro h
  have haccepted : parseRateLimitAnnotation decimals.parse "100000000rps".toList =
      .ok (.finite 100000000, 100000000) := by decide +kernel
  have hrate : (TokenBucket.ofRate decimals.round (.finite 100000000)
      100000000).refillRatePerMsFixed = 6553600000 := by decide +kernel
  obtain ⟨hproduct, -⟩ :=
    h decimals _ _ _ haccepted _ TokenBucket.reachable_initial (2 ^ 32 - 1) (by decide)
  rw [hrate] at hproduct
  omega

/-! ## Small rates -/

namespace TokenBucket

variable {b : TokenBucket} {sh : BucketShared}

/-- When `try_acquire` returns true. -/
theorem tryAcquire_iff {now packed : Nat} :
    (b.tryAcquireN (.finite 1) now packed).1 ↔ fixedOne ≤ b.newTokens (now % 2 ^ 32) packed := by
  have hfixed : floatToFixed (.finite 1) = fixedOne := by decide +kernel
  have hasks : F64.nonpos (.finite 1) = false := by decide +kernel
  rw [tryAcquireN, hasks, if_neg Bool.false_ne_true, hfixed, attempt]
  split
  · next h => simpa using h
  · next h => simpa using h

/-- The clock can show any time since the refill. -/
theorem exists_elapsedMs_eq {refillMs elapsed : Nat} (now : Nat) (hrefill : refillMs < 2 ^ 32)
    (helapsed : elapsed < 2 ^ 32) :
    ∃ idleMs, elapsedMs ((now + idleMs) % 2 ^ 32) refillMs = elapsed := by
  refine ⟨refillMs + elapsed + 2 ^ 32 - now % 2 ^ 32, ?_⟩
  unfold elapsedMs
  omega

/-- Any rate but zero brings a token at some time, even one for which the product overflows. -/
theorem exists_token {rate tokens : Nat} (hpos : 0 < rate) (hrate : rate < 2 ^ 64)
    (htokens : tokens < 2 ^ 32) :
    ∃ elapsed < 2 ^ 32, fixedOne ≤ (tokens + elapsed * rate % 2 ^ 64) % 2 ^ 64 := by
  unfold fixedOne
  by_cases hhas : 65536 ≤ tokens
  · exact ⟨0, by decide, by omega⟩
  · -- a rate near either end of the 64 bits takes 2^16 ms, any other one takes one
    by_cases hend : rate < 65536 ∨ 2 ^ 64 - 65536 < rate
    · exact ⟨65536, by decide, by omega⟩
    · exact ⟨1, by decide, by omega⟩

/-- Without a rate, an empty bucket stays empty. -/
theorem newTokens_empty (hzero : b.refillRatePerMsFixed = 0) (nowMs : Nat) :
    b.newTokens nowMs (packBucket 0 0) = 0 := by
  simp [newTokens, hzero]

/-- From wherever the bucket is, it is enough to wait. -/
def Recovers (b : TokenBucket) : Prop :=
  ∀ sh, b.Reachable sh → ∃ idleMs, (b.tryAcquireN (.finite 1) (sh.now + idleMs) sh.packed).1

theorem recovers_iff_fixed (hrate : b.refillRatePerMsFixed < 2 ^ 64) :
    b.Recovers ↔ fixedOne ≤ b.capacityFixed ∧ 0 < b.refillRatePerMsFixed := by
  constructor
  · intro h
    obtain ⟨idleMs, htrue⟩ := h _ b.reachable_empty
    rw [tryAcquire_iff] at htrue
    refine ⟨htrue.trans newTokens_le_capacity, Nat.pos_of_ne_zero fun hzero => ?_⟩
    rw [newTokens_empty hzero] at htrue
    exact absurd htrue (by decide)
  · rintro ⟨hcapacity, hpos⟩ sh hsh
    obtain ⟨htokens, hoffset, -⟩ := hsh.wellFormed.fields
    obtain ⟨elapsed, helapsed, henough⟩ :=
      exists_token hpos hrate (htokens.trans_lt b.capacity_lt)
    obtain ⟨idleMs, hidle⟩ := exists_elapsedMs_eq sh.now hoffset helapsed
    refine ⟨idleMs, tryAcquire_iff.mpr ?_⟩
    simp only [newTokens, hidle]
    exact le_min henough hcapacity

end TokenBucket

/-- The rate per millisecond is not lost in the conversion: it is at least 2^-16 tokens. -/
def F64.Perceptible : F64 → Prop
  | .nan => False
  | .finite rate => 1000 ≤ rate * fixedOne
  | _ => True

theorem floatToFixed_perMs_pos_iff {rate : F64} (h : rate.nonpos = false) :
    0 < floatToFixed (rate.perMs id) ↔ rate.Perceptible := by
  cases rate with
  | nan => simp [F64.perMs, floatToFixed, F64.Perceptible]
  | negInf => cases h
  | posInf => simp [F64.perMs, floatToFixed, F64.Perceptible]
  | finite q =>
      have hscale : q / 1000 * fixedOne = q * fixedOne / 1000 := by ring
      simp only [F64.perMs, floatToFixed, F64.Perceptible, id_eq, lt_min_iff, hscale, Nat.floor_pos,
        one_le_div (show (0 : ℚ) < 1000 by norm_num)]
      simp

/-- The cast saturates. -/
theorem floatToFixed_lt (x : F64) : floatToFixed x < 2 ^ 64 := by
  cases x with
  | nan => decide
  | negInf => decide
  | posInf => decide
  | finite q => exact (Nat.min_le_right _ _).trans_lt (by decide)

/-- **When a limit does not starve its route**: exactly if it has a burst, and a rate that can be
perceived. -/
theorem recovers_iff {parse : Str → Option F64} {text : Str} {rate : F64} {burst : Nat}
    (haccepted : parseRateLimitAnnotation parse text = .ok (rate, burst)) :
    (∀ sh, (TokenBucket.ofRate id rate burst).Reachable sh → ∃ idleMs,
      ((TokenBucket.ofRate id rate burst).tryAcquireN (.finite 1) (sh.now + idleMs) sh.packed).1) ↔
      1 ≤ burst ∧ rate.Perceptible := by
  have hrate : (TokenBucket.ofRate id rate burst).refillRatePerMsFixed < 2 ^ 64 :=
    floatToFixed_lt _
  have hcapacity : fixedOne ≤ (TokenBucket.ofRate id rate burst).capacityFixed ↔ 1 ≤ burst := by
    show fixedOne ≤ min burst 65535 * fixedOne ↔ _
    unfold fixedOne
    omega
  have hpos := nonpos_of_parseRateLimitAnnotation haccepted
  rw [← floatToFixed_perMs_pos_iff hpos, ← hcapacity]
  exact TokenBucket.recovers_iff_fixed hrate

/-- Once it is empty, a bucket of ten tokens per second gets a token again. -/
theorem recovers_tenPerSecond :
    parseRateLimitAnnotation decimals.parse "10rps,burst=5".toList = .ok (.finite 10, 5) ∧
    ∃ idleMs, ((TokenBucket.ofRate id (.finite 10) 5).tryAcquireN (.finite 1) (0 + idleMs)
      (packBucket 0 0)).1 := by
  have haccepted : parseRateLimitAnnotation decimals.parse "10rps,burst=5".toList =
      .ok (.finite 10, 5) := by decide +kernel
  have hperceptible : F64.Perceptible (.finite 10) := by
    show (1000 : ℚ) ≤ 10 * fixedOne
    decide +kernel
  exact ⟨haccepted,
    (recovers_iff haccepted).mpr ⟨by decide, hperceptible⟩ ⟨0, packBucket 0 0⟩
      (TokenBucket.reachable_empty _)⟩

/-- **Routes that are starved**: no burst lets nothing through, and a request every hundred seconds
is let through once. -/
theorem exists_route_starved :
    parseRateLimitAnnotation decimals.parse "10rps,burst=0".toList = .ok (.finite 10, 0) ∧
    (∀ idleMs, ((TokenBucket.ofRate id (.finite 10) 0).tryAcquireN (.finite 1) idleMs
      (TokenBucket.ofRate id (.finite 10) 0).initial).1 = false) ∧
    parseRateLimitAnnotation decimals.parse "0.01rps".toList = .ok (.finite (1 / 100), 1) ∧
    ∃ sh, (TokenBucket.ofRate id (.finite (1 / 100)) 1).Reachable sh ∧
      ∀ idleMs, ((TokenBucket.ofRate id (.finite (1 / 100)) 1).tryAcquireN (.finite 1)
        (sh.now + idleMs) sh.packed).1 = false := by
  refine ⟨by decide +kernel, ?_, by decide +kernel, ⟨0, packBucket 0 0⟩,
    TokenBucket.reachable_empty _, ?_⟩
  · intro idleMs
    have hcapacity : (TokenBucket.ofRate id (.finite 10) 0).capacityFixed = 0 := rfl
    rw [← Bool.not_eq_true, TokenBucket.tryAcquire_iff]
    exact fun h => absurd (h.trans TokenBucket.newTokens_le_capacity) (by rw [hcapacity]; decide)
  · intro idleMs
    have hrate : (TokenBucket.ofRate id (.finite (1 / 100)) 1).refillRatePerMsFixed = 0 := by
      decide +kernel
    rw [← Bool.not_eq_true, TokenBucket.tryAcquire_iff, TokenBucket.newTokens_empty hrate]
    decide

end Rauta
