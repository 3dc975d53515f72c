import Mathlib.Data.List.DropRight

/-!
# Runs in a sequence

A run of `k` copies of `a` in a row ends at position `i` of a sequence if the first `i` elements end
with `k` copies (`RunEndsAt`). A counter that goes up with every `a` and back to zero with
everything else is the length of the run the sequence ends with (`trailing`), and a run of `k` ends
where it is at least `k` (`replicate_suffix_iff`).

A latch is switched on by a run of one kind and off by a run of the other. `Latched` is what its
position says about the sequence, `latched_concat` what one more element does to it.
-/

namespace Runs

variable {α : Type} [DecidableEq α] {a b x : α} {k m i : Nat} {l : List α}

/-- The number of copies of `a` the sequence ends with. -/
def trailing (a : α) (l : List α) : Nat := (l.rtakeWhile (· = a)).length

@[simp] theorem trailing_nil : trailing a [] = 0 := by simp [trailing]

/-- The counter goes up with every `a`. -/
@[simp] theorem trailing_concat_self : trailing a (l ++ [a]) = trailing a l + 1 := by
  simp [trailing]

/-- It goes back to zero with everything else. -/
theorem trailing_concat_of_ne (h : x ≠ a) : trailing a (l ++ [x]) = 0 := by
  simp [trailing, h]

theorem trailing_le_length : trailing a l ≤ l.length := (List.rtakeWhile_suffix _ _).length_le

/-- A run of `k` ends the sequence exactly if the counter has reached `k`. -/
theorem replicate_suffix_iff : List.replicate k a <:+ l ↔ k ≤ trailing a l := by
  induction l using List.reverseRecOn generalizing k with
  | nil => simp
  | append_singleton l x ih =>
      cases k with
      | zero => simp
      | succ k =>
          rw [List.replicate_succ', List.suffix_concat_iff]
          by_cases hx : x = a
          · subst hx
            rw [trailing_concat_self]
            simp [ih]
          · rw [trailing_concat_of_ne hx]
            simp [Ne.symm hx]

/-- A run of `k` copies of `a` ends at position `i`. -/
def RunEndsAt (a : α) (k : Nat) (l : List α) (i : Nat) : Prop :=
  i ≤ l.length ∧ List.replicate k a <:+ l.take i

omit [DecidableEq α] in
/-- Whether a run ended at an earlier position does not change. -/
theorem runEndsAt_concat (hi : i ≤ l.length) :
    RunEndsAt a k (l ++ [x]) i ↔ RunEndsAt a k l i := by
  unfold RunEndsAt
  rw [List.take_append_of_le_length hi, List.length_append]
  exact and_congr_left fun _ => iff_of_true (Nat.le_succ_of_le hi) hi

theorem runEndsAt_length : RunEndsAt a k l l.length ↔ k ≤ trailing a l := by
  rw [RunEndsAt, List.take_length, replicate_suffix_iff]
  exact and_iff_right (Nat.le_refl _)

/-- The last run of `k` copies of `a` has ended, and since then no run of `m` copies of `b` has. -/
def Latched (a : α) (k : Nat) (b : α) (m : Nat) (l : List α) : Prop :=
  ∃ i, RunEndsAt a k l i ∧ (∀ j, i < j → ¬ RunEndsAt a k l j) ∧ ∀ j, i < j → ¬ RunEndsAt b m l j

omit [DecidableEq α] in
theorem not_latched_nil (hk : 0 < k) : ¬ Latched a k b m [] := by
  rintro ⟨i, ⟨-, hsuffix⟩, -⟩
  have := hsuffix.length_le
  simp at this
  omega

omit [DecidableEq α] in
/-- No run ends after position `i` of a longer sequence: none did before, and none does now. -/
theorem forall_not_runEndsAt_concat (hi : i ≤ l.length) :
    (∀ j, i < j → ¬ RunEndsAt a k (l ++ [x]) j) ↔
      (∀ j, i < j → ¬ RunEndsAt a k l j) ∧ ¬ RunEndsAt a k (l ++ [x]) (l ++ [x]).length := by
  have hlen : (l ++ [x]).length = l.length + 1 := by simp
  constructor
  · intro h
    refine ⟨fun j hij hrun => ?_, h _ (by omega)⟩
    exact h j hij ((runEndsAt_concat hrun.1).mpr hrun)
  · rintro ⟨hbefore, hnow⟩ j hij hrun
    rcases Nat.lt_or_ge l.length j with hj | hj
    · have hjle := hrun.1
      obtain rfl : j = (l ++ [x]).length := by omega
      exact hnow hrun
    · exact hbefore j hij ((runEndsAt_concat hj).mp hrun)

/-- **One more element** switches the latch on if it ends a run of the one kind, leaves it off or
switches it off if it ends a run of the other kind, and otherwise leaves it as it was. -/
theorem latched_concat :
    Latched a k b m (l ++ [x]) ↔ k ≤ trailing a (l ++ [x]) ∨
      Latched a k b m l ∧ ¬ k ≤ trailing a (l ++ [x]) ∧ ¬ m ≤ trailing b (l ++ [x]) := by
  rw [← runEndsAt_length, ← runEndsAt_length]
  constructor
  · rintro ⟨i, hi, hlast, hoff⟩
    rcases Nat.lt_or_ge l.length i with hlt | hle
    · -- the last run ends with the new element
      left
      have hile := hi.1
      rw [List.length_append, List.length_singleton] at hile
      obtain rfl : i = (l ++ [x]).length := by simp; omega
      exact hi
    · right
      obtain ⟨hlast', hnow⟩ := (forall_not_runEndsAt_concat hle).mp hlast
      obtain ⟨hoff', hoffNow⟩ := (forall_not_runEndsAt_concat hle).mp hoff
      exact ⟨⟨i, (runEndsAt_concat hle).mp hi, hlast', hoff'⟩, hnow, hoffNow⟩
  · rintro (hnow | ⟨⟨i, hi, hlast, hoff⟩, hnow, hoffNow⟩)
    · exact ⟨_, hnow, fun j hj hrun => absurd hrun.1 (by omega),
        fun j hj hrun => absurd hrun.1 (by omega)⟩
    · exact ⟨i, (runEndsAt_concat hi.1).mpr hi,
        (forall_not_runEndsAt_concat hi.1).mpr ⟨hlast, hnow⟩,
        (forall_not_runEndsAt_concat hi.1).mpr ⟨hoff, hoffNow⟩⟩

end Runs
