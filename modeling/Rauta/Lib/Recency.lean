import Mathlib.Data.List.Basic

/-!
# Order of last use

A log says for each step which key it used, if any. Keys are ordered by their last use
(`UsedBefore`). A cache that evicts the least recently used key keeps a list of its keys in that
order: `InRecencyOrder.concat` says that moving the used key to the end is enough, and that any keys
may be left out.
-/

namespace Recency

variable {κ : Type} {log : List (Option κ)} {l l' : List κ} {k k' : κ} {i : Nat}

/-- The last use of the key is step `i`. -/
def LastUse (log : List (Option κ)) (k : κ) (i : Nat) : Prop :=
  log[i]? = some (some k) ∧ ∀ j, i < j → log[j]? ≠ some (some k)

/-- The last use of `k` is older than that of `k'`. -/
def UsedBefore (log : List (Option κ)) (k k' : κ) : Prop :=
  ∃ i j, LastUse log k i ∧ LastUse log k' j ∧ i < j

/-- The key has been used, and the others of the list later than it. -/
structure InRecencyOrder (log : List (Option κ)) (l : List κ) : Prop where
  used : ∀ k ∈ l, ∃ i, LastUse log k i
  sorted : l.Pairwise (UsedBefore log)

theorem inRecencyOrder_nil : InRecencyOrder log [] := ⟨by simp, .nil⟩

theorem LastUse.lt (h : LastUse log k i) : i < log.length :=
  (List.getElem?_eq_some_iff.mp h.1).1

/-- The step that is appended is the last use of the key it uses. -/
theorem lastUse_concat_self : LastUse (log ++ [some k]) k log.length := by
  refine ⟨by simp, fun j hj => ?_⟩
  rw [List.getElem?_eq_none (by simp; omega)]
  exact (Option.some_ne_none _).symm

/-- Another step does not change the last use of a key. -/
theorem LastUse.concat (h : LastUse log k i) {u : Option κ} (hu : u ≠ some k) :
    LastUse (log ++ [u]) k i := by
  have hi := h.lt
  constructor
  · rw [List.getElem?_append_left hi]
    exact h.1
  · intro j hj
    rcases Nat.lt_trichotomy j log.length with hlt | rfl | hgt
    · rw [List.getElem?_append_left hlt]
      exact h.2 j hj
    · simpa using hu
    · rw [List.getElem?_eq_none (by simp; omega)]
      exact (Option.some_ne_none _).symm

theorem UsedBefore.concat (h : UsedBefore log k k') {u : Option κ} (hk : u ≠ some k)
    (hk' : u ≠ some k') : UsedBefore (log ++ [u]) k k' := by
  obtain ⟨i, j, hi, hj, hij⟩ := h
  exact ⟨i, j, hi.concat hk, hj.concat hk', hij⟩

/-- **One more step**: some of the keys, none of which is used, and the used key at the end. -/
theorem InRecencyOrder.concat (h : InRecencyOrder log l) (hsub : l'.Sublist l) {u : Option κ}
    (hu : ∀ k ∈ l', u ≠ some k) : InRecencyOrder (log ++ [u]) (l' ++ u.toList) := by
  have hold : ∀ k ∈ l', ∃ i, LastUse (log ++ [u]) k i ∧ i < log.length := by
    intro k hk
    obtain ⟨i, hi⟩ := h.used k (hsub.subset hk)
    exact ⟨i, hi.concat (hu k hk), hi.lt⟩
  constructor
  · intro k hk
    rcases List.mem_append.mp hk with hk | hk
    · obtain ⟨i, hi, -⟩ := hold k hk
      exact ⟨i, hi⟩
    · obtain rfl := Option.mem_toList.mp hk
      exact ⟨_, lastUse_concat_self⟩
  · refine List.pairwise_append.mpr ⟨?_, ?_, ?_⟩
    · refine (h.sorted.sublist hsub).imp_of_mem fun hk hk' hbefore => ?_
      exact hbefore.concat (hu _ hk) (hu _ hk')
    · cases u <;> simp
    · intro k hk k' hk'
      obtain rfl := Option.mem_toList.mp hk'
      obtain ⟨i, hi, hlt⟩ := hold k hk
      exact ⟨i, _, hi, lastUse_concat_self, hlt⟩

end Recency
