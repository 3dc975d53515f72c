import Mathlib.Data.List.Sort

/-!
# Stable sorting and filters

A stable sort keeps the order of the elements that compare equal. So it does not matter whether a
list is filtered before or after it is sorted, and the first element of a class of equals is the
same in the list and in the sorted list.
-/

namespace StableSort

variable {α : Type} {r : α → α → Prop} [DecidableRel r] {p : α → Bool}

/-- In front of the greater elements, insertion is `cons`. -/
theorem orderedInsert_of_forall {a : α} {l : List α} (h : ∀ b ∈ l, r a b) :
    l.orderedInsert r a = a :: l := by
  cases l with
  | nil => rfl
  | cons b l => exact List.orderedInsert_cons_of_le r l (h b List.mem_cons_self)

variable [IsTrans α r]

theorem filter_orderedInsert (a : α) {l : List α} (hl : l.Pairwise r) :
    (l.orderedInsert r a).filter p =
      if p a then (l.filter p).orderedInsert r a else l.filter p := by
  induction l with
  | nil => cases hp : p a <;> simp [hp]
  | cons b l ih =>
      obtain ⟨hb, hl⟩ := List.pairwise_cons.mp hl
      by_cases hab : r a b
      · -- `a` goes in front of the list, and so in front of what is left of it
        have hfront : ∀ c ∈ (b :: l).filter p, r a c := by
          intro c hc
          rcases List.mem_cons.mp (List.mem_of_mem_filter hc) with rfl | hmem
          · exact hab
          · exact IsTrans.trans _ _ _ hab (hb c hmem)
        rw [List.orderedInsert_cons_of_le r l hab, orderedInsert_of_forall hfront]
        cases hp : p a <;> simp [hp]
      · rw [List.orderedInsert_of_not_le r l hab, List.filter_cons, ih hl, List.filter_cons]
        cases hpb : p b <;> cases hpa : p a <;> simp [hab]

variable [Std.Total r]

/-- **Filters and stable sorting commute.** -/
theorem filter_insertionSort (p : α → Bool) (l : List α) :
    (l.insertionSort r).filter p = (l.filter p).insertionSort r := by
  induction l with
  | nil => rfl
  | cons a l ih =>
      rw [List.insertionSort_cons, filter_orderedInsert a (List.pairwise_insertionSort r l), ih]
      cases hp : p a <;> simp [hp]

/-- **Stability**: the first element of a class of equals stays the first. -/
theorem find?_insertionSort (hp : ∀ a b, p a → p b → r a b) (l : List α) :
    (l.insertionSort r).find? p = l.find? p := by
  have hsame : (l.filter p).Pairwise r := by
    refine List.pairwise_of_forall_mem_list ?_
    intro a ha b hb
    exact hp a b (List.of_mem_filter ha) (List.of_mem_filter hb)
  rw [← List.head?_filter, filter_insertionSort, hsame.insertionSort_eq, List.head?_filter]

end StableSort
