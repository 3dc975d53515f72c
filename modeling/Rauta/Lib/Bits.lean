import Mathlib.Data.Nat.Bitwise

/-!
# Fields of a machine word

Words are natural numbers. A word is put together from fields by shifting and or-ing, and taken
apart by shifting and masking. The lemmas here undo one such step: a high part `a` over a low part
`b` of `i` bits.
-/

namespace Bits

variable {a b i : Nat}

theorem shiftLeft_or (a : Nat) (h : b < 2 ^ i) : a <<< i ||| b = a * 2 ^ i + b := by
  rw [← Nat.shiftLeft_add_eq_or_of_lt h, Nat.shiftLeft_eq]

/-- The high part comes back by shifting. -/
theorem shiftRight_shiftLeft_or (a : Nat) (h : b < 2 ^ i) : (a <<< i ||| b) >>> i = a := by
  rw [shiftLeft_or a h, Nat.shiftRight_eq_div_pow, Nat.add_comm,
    Nat.add_mul_div_right _ _ (Nat.two_pow_pos i), Nat.div_eq_of_lt h, Nat.zero_add]

/-- The low part comes back by masking. -/
theorem shiftLeft_or_mod (a : Nat) (h : b < 2 ^ i) : (a <<< i ||| b) % 2 ^ i = b := by
  rw [shiftLeft_or a h, Nat.mul_add_mod', Nat.mod_eq_of_lt h]

/-- A field comes out by masking in place and shifting. -/
theorem and_mask_shiftRight (w i k : Nat) :
    (w &&& (2 ^ k - 1) <<< i) >>> i = w / 2 ^ i % 2 ^ k := by
  rw [Nat.shiftRight_and_distrib, Nat.shiftLeft_shiftRight, Nat.and_two_pow_sub_one_eq_mod,
    Nat.shiftRight_eq_div_pow]

/-- Exclusive or with a low part leaves the high part alone. -/
theorem xor_of_lt (a : Nat) (h : b < 2 ^ i) :
    a ^^^ b = a / 2 ^ i * 2 ^ i + (a % 2 ^ i ^^^ b) := by
  have hdiv : (a ^^^ b) / 2 ^ i = a / 2 ^ i := by
    rw [Nat.xor_div_two_pow, Nat.div_eq_of_lt h, Nat.xor_zero]
  have hmod : (a ^^^ b) % 2 ^ i = a % 2 ^ i ^^^ b := by
    rw [Nat.xor_mod_two_pow, Nat.mod_eq_of_lt h]
  rw [← hdiv, ← hmod, Nat.div_add_mod']

end Bits
