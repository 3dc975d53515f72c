import Mathlib.Data.List.Perm.Subperm
import Mathlib.Data.Nat.Bitwise

/-!
# Searching a list of candidates

A search goes through candidates, some of them repeated, and takes the first one that passes a test.
All that its answers depend on is the order in which the candidates come up first
(`find?_congr_iff`). A search that notes which candidates it has tried may stop when it has tried
them all (`mem_of_length_eq`), and it may note them in the bits of a number (`Marks`).
-/

namespace Search

variable {α : Type*} [BEq α] [LawfulBEq α]

/-! ## The order of first occurrence -/

theorem find?_filter_ne {p : α → Bool} {a : α} (h : p a = false) (l : List α) :
    (l.filter (! · == a)).find? p = l.find? p := by
  rw [List.find?_filter]
  congr 1
  funext b
  by_cases hb : b == a
  · simp [eq_of_beq hb, h]
  · simp [hb]

/-- Repeated candidates are looked at in vain. -/
theorem find?_eraseDups (p : α → Bool) (l : List α) : l.eraseDups.find? p = l.find? p := by
  induction hn : l.length using Nat.strong_induction_on generalizing l with
  | _ n ih =>
      cases l with
      | nil => rfl
      | cons a l =>
          rw [List.eraseDups_cons, List.find?_cons, List.find?_cons]
          cases hp : p a with
          | true => rfl
          | false =>
              have hlt : (l.filter (! · == a)).length < n :=
                (List.length_filter_le _ _).trans_lt (by simp [← hn])
              exact (ih _ hlt _ rfl).trans (find?_filter_ne hp l)

/-- **Two searches answer alike under every test** exactly if their candidates come up first in the
same order. -/
theorem find?_congr_iff {l l' : List α} :
    (∀ p, l.find? p = l'.find? p) ↔ l.eraseDups = l'.eraseDups := by
  refine ⟨fun h => ?_, fun h p => by rw [← find?_eraseDups, h, find?_eraseDups]⟩
  induction hn : l.length using Nat.strong_induction_on generalizing l l' with
  | _ n ih =>
      -- the test that always passes finds the head
      have hhead := h fun _ => true
      cases l with
      | nil =>
          cases l' with
          | nil => rfl
          | cons a' l' => cases hhead
      | cons a l =>
          cases l' with
          | nil => cases hhead
          | cons a' l' =>
              obtain rfl : a = a' := Option.some.inj hhead
              rw [List.eraseDups_cons, List.eraseDups_cons]
              congr 1
              have hlt : (l.filter (! · == a)).length < n :=
                (List.length_filter_le _ _).trans_lt (by simp [← hn])
              refine ih _ hlt (fun p => ?_) rfl
              -- a test of the rest is a test of the whole that the head fails
              have hp := h fun b => !b == a && p b
              simpa [List.find?_filter, List.find?_cons] using hp

/-! ## Noting what was tried -/

/-- If as many indices were tried as there are, all were. -/
theorem mem_of_length_eq {tried : List Nat} {n i : Nat} (hnodup : tried.Nodup)
    (hlt : ∀ i ∈ tried, i < n) (hlen : tried.length = n) (hi : i < n) : i ∈ tried := by
  have hsub : tried ⊆ List.range n := fun j hj => List.mem_range.mpr (hlt j hj)
  have hperm : tried.Perm (List.range n) :=
    (List.subperm_of_subset hnodup hsub).perm_of_length_le (by simp [hlen])
  exact hperm.mem_iff.mpr (List.mem_range.mpr hi)

/-- The bits of the mask below `w` are the indices that were tried. -/
def Marks (w mask : Nat) (tried : List Nat) : Prop := ∀ i < w, mask.testBit i = decide (i ∈ tried)

theorem marks_nil (w : Nat) : Marks w 0 [] := by
  intro i _
  simp

theorem Marks.and_bit {w mask i : Nat} {tried : List Nat} (h : Marks w mask tried) (hi : i < w) :
    mask &&& 1 <<< i ≠ 0 ↔ i ∈ tried := by
  rw [Nat.one_shiftLeft, Nat.and_two_pow, h i hi]
  by_cases hmem : i ∈ tried <;> simp [hmem]

theorem Marks.or_bit {w mask i : Nat} {tried : List Nat} (h : Marks w mask tried) :
    Marks w (mask ||| 1 <<< i) (i :: tried) := by
  intro j hj
  rw [Nat.testBit_or, h j hj, Nat.one_shiftLeft, Nat.testBit_two_pow]
  by_cases hij : i = j
  · simp [hij]
  · simp [hij, Ne.symm hij]

end Search
