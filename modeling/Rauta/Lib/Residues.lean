import Mathlib.Algebra.Order.Floor.Div
import Mathlib.Data.Int.CardIntervalMod

/-!
# Remainders in a block of consecutive numbers

Of `n` consecutive numbers, `n / m` rounded down or up have a given remainder modulo `m`, wherever
the block begins.
-/

namespace Residues

open Finset

variable {m c : Nat}

/-- A remainder of a sum is a remainder of the last summand. -/
theorem add_mod_eq_iff (hc : c < m) (a x : Nat) :
    (a + x) % m = c ↔ x ≡ c + (m - a % m) [MOD m] := by
  have ha : a % m < m := Nat.mod_lt a (by omega)
  have hshift : (a + (c + (m - a % m))) % m = c := by
    rw [← Nat.mod_add_mod, show a % m + (c + (m - a % m)) = c + m by omega, Nat.add_mod_right,
      Nat.mod_eq_of_lt hc]
  constructor
  · intro h
    exact Nat.ModEq.add_left_cancel' a (h.trans hshift.symm)
  · intro h
    exact Eq.trans (Nat.ModEq.add_left a h) hshift

/-- A block, moved to zero. -/
theorem Ico_filter_mod_eq (hc : c < m) (a n : Nat) : {x ∈ Ico a (a + n) | x % m = c} =
    {x ∈ range n | x ≡ c + (m - a % m) [MOD m]}.map (addLeftEmbedding a) := by
  ext x
  simp only [mem_filter, mem_Ico, mem_map, mem_range, addLeftEmbedding_apply]
  constructor
  · rintro ⟨⟨hle, hlt⟩, hx⟩
    refine ⟨x - a, ⟨by omega, ?_⟩, by omega⟩
    rw [← add_mod_eq_iff hc, Nat.add_sub_cancel' hle]
    exact hx
  · rintro ⟨y, ⟨hy, hmod⟩, rfl⟩
    exact ⟨⟨by omega, by omega⟩, (add_mod_eq_iff hc a y).mpr hmod⟩

theorem succ_div_eq_ceilDiv {n : Nat} (hm : 0 < m) (h : 0 < n % m) : n / m + 1 = n ⌈/⌉ m := by
  have hmod := Nat.mod_lt n hm
  have hsplit : n + m - 1 = (n % m - 1) + m * (n / m + 1) := by
    rw [Nat.mul_add, Nat.mul_one]
    have := Nat.mod_add_div n m
    omega
  have hrest : (n % m - 1) / m = 0 := Nat.div_eq_of_lt (by omega)
  rw [Nat.ceilDiv_eq_add_pred_div, hsplit, Nat.add_mul_div_left _ _ hm, hrest, Nat.zero_add]

/-- **How often a remainder comes up** in a block. -/
theorem card_Ico_filter_mod (hc : c < m) (a n : Nat) :
    #{x ∈ Ico a (a + n) | x % m = c} = n / m ∨ #{x ∈ Ico a (a + n) | x % m = c} = n ⌈/⌉ m := by
  have hm : 0 < m := by omega
  rw [Ico_filter_mod_eq hc, card_map, ← Nat.count_eq_card_filter_range, Nat.count_modEq_card _ hm]
  split
  · next hlt => exact Or.inr (succ_div_eq_ceilDiv hm (by omega))
  · exact Or.inl rfl

end Residues
