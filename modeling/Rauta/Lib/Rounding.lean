import Mathlib.Algebra.Order.Field.Rat
import Mathlib.Data.Rat.Floor
import Mathlib.Order.Monotone.Basic
import Mathlib.Tactic.FieldSimp
import Mathlib.Tactic.NormNum
import Mathlib.Tactic.Positivity

/-!
# Rounding to a binary format

A floating-point operation returns its exact result, rounded to a number of the format. What a
program can rely on, whatever the rounding mode, are two laws: a number of the format is left alone,
and a larger number is not rounded to a smaller one (`IsRounding`).

They decide every comparison of a rounded result with a number of the format, provided that the
exact result is not too close to it: there has to be a number of the format in between
(`IsRounding.le_iff`). So a quotient of integers that are not too large has the right ceiling
(`IsRounding.ceil_natCast_div`).
-/

namespace Rounding

/-- The numbers of a format with `precision` bits and a smallest exponent. -/
def Representable (precision minExponent : Nat) (q : ℚ) : Prop :=
  ∃ (k : ℤ) (j : Nat), |k| ≤ 2 ^ precision ∧ j ≤ minExponent ∧ q = k / 2 ^ j

/-- The laws of rounding to the format. -/
structure IsRounding (precision minExponent : Nat) (round : ℚ → ℚ) : Prop where
  mono : Monotone round
  exact : ∀ q, Representable precision minExponent q → round q = q

/-- Rounding to an IEEE 754 double. -/
abbrev IsBinary64 : (ℚ → ℚ) → Prop := IsRounding 53 1074

variable {precision minExponent : Nat} {round : ℚ → ℚ} {q r : ℚ}

/-- Exact arithmetic satisfies the laws. -/
theorem isRounding_id : IsRounding precision minExponent id := ⟨monotone_id, fun _ _ => rfl⟩

theorem representable_intCast {k : ℤ} (hk : |k| ≤ 2 ^ precision) :
    Representable precision minExponent k :=
  ⟨k, 0, hk, Nat.zero_le _, by simp⟩

theorem representable_natCast {c : Nat} (hc : c ≤ 2 ^ precision) :
    Representable precision minExponent c := by
  have habs : |(c : ℤ)| ≤ 2 ^ precision := by
    rw [Nat.abs_cast]
    exact_mod_cast hc
  have hint : Representable precision minExponent (c : ℤ) := representable_intCast habs
  rwa [Int.cast_natCast] at hint

/-- A little more than an integer. -/
theorem representable_add_inv {c d : Nat} (hd : d ≤ minExponent)
    (hfits : (c + 1) * 2 ^ d ≤ 2 ^ precision) :
    Representable precision minExponent (c + 1 / 2 ^ d) := by
  refine ⟨((c * 2 ^ d + 1 : Nat) : ℤ), d, ?_, hd, ?_⟩
  · have hle : c * 2 ^ d + 1 ≤ 2 ^ precision := by
      have hone := Nat.two_pow_pos d
      rw [Nat.succ_mul] at hfits
      omega
    rw [Nat.abs_cast]
    exact_mod_cast hle
  · push_cast
    field_simp

/-- A quotient that is rounded up. -/
theorem exists_div_up {n m : Nat} (hn : 0 < n) (hm : 0 < m) :
    ∃ c, (n + m - 1) / m = c + 1 ∧ c * m + 1 ≤ n ∧ n ≤ (c + 1) * m := by
  obtain ⟨c, hc⟩ : ∃ c, (n + m - 1) / m = c + 1 :=
    Nat.exists_eq_add_one.mpr (Nat.div_pos (by omega) hm)
  refine ⟨c, hc, ?_, ?_⟩
  · have hle := Nat.div_mul_le_self (n + m - 1) m
    rw [hc, Nat.succ_mul] at hle
    omega
  · have hlt := Nat.lt_div_mul_add (a := n + m - 1) hm
    rw [hc] at hlt
    omega

namespace IsRounding

variable (h : IsRounding precision minExponent round)

include h

/-- What is at most a number of the format still is when rounded. -/
theorem le_of_le (hr : Representable precision minExponent r) (hle : q ≤ r) : round q ≤ r :=
  (h.mono hle).trans_eq (h.exact r hr)

/-- What is at least a number of the format still is when rounded. -/
theorem ge_of_ge (hr : Representable precision minExponent r) (hle : r ≤ q) : r ≤ round q :=
  (h.exact r hr).symm.trans_le (h.mono hle)

/-- **Comparing a rounded number**: it is as good as the exact one, if there is a number of the
format between the two when the exact one is larger. -/
theorem le_iff (hr : Representable precision minExponent r)
    (hgap : r < q → ∃ r', Representable precision minExponent r' ∧ r < r' ∧ r' ≤ q) :
    round q ≤ r ↔ q ≤ r := by
  constructor
  · intro hround
    by_contra hlt
    obtain ⟨r', hr', hrr', hle⟩ := hgap (not_le.mp hlt)
    exact absurd hround (not_le.mpr (hrr'.trans_le (h.ge_of_ge hr' hle)))
  · exact h.le_of_le hr

/-- A quotient of integers is rounded up as if it were exact, as long as the format has numbers
that are closer to an integer than the quotient can come. -/
theorem ceil_natCast_div {n m d : Nat} (hn : 0 < n) (hm : 0 < m) (hmd : m ≤ 2 ^ d)
    (hd : d ≤ minExponent) (hfits : n * 2 ^ d ≤ 2 ^ precision) :
    ⌈round (n / m)⌉₊ = (n + m - 1) / m := by
  obtain ⟨c, hc, hlt, hge⟩ := exists_div_up hn hm
  have hmpos : (0 : ℚ) < m := Nat.cast_pos.mpr hm
  have hcn : c + 1 ≤ n := (Nat.succ_le_succ (Nat.le_mul_of_pos_right c hm)).trans hlt
  have hstep : (c + 1) * 2 ^ d ≤ 2 ^ precision := (Nat.mul_le_mul_right _ hcn).trans hfits
  have hceil : c + 1 ≤ 2 ^ precision :=
    (Nat.le_mul_of_pos_right _ (Nat.two_pow_pos d)).trans hstep
  rw [hc, Nat.ceil_eq_iff (Nat.succ_ne_zero c), Nat.succ_sub_one]
  constructor
  · -- the quotient is at least one `m`-th above `c`, so it does not come down to `c`
    have hquotient : (c + 1 / 2 ^ d : ℚ) ≤ n / m := by
      have hinv : (1 / 2 ^ d : ℚ) ≤ 1 / m :=
        one_div_le_one_div_of_le hmpos (by exact_mod_cast hmd)
      have hsum : (c + 1 / m : ℚ) ≤ n / m := by
        rw [le_div_iff₀ hmpos, add_mul, one_div_mul_cancel hmpos.ne']
        exact_mod_cast hlt
      exact (add_le_add_right hinv _).trans hsum
    have hround := h.ge_of_ge (representable_add_inv hd hstep) hquotient
    have hgap : (0 : ℚ) < 1 / 2 ^ d := by positivity
    exact (lt_add_of_pos_right _ hgap).trans_le hround
  · refine h.le_of_le (representable_natCast hceil) ?_
    rw [div_le_iff₀ hmpos]
    exact_mod_cast hge

end IsRounding

end Rounding
