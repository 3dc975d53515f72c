import Mathlib.Logic.Basic

/-!
# Statements about the past

What a system has gone through is a list of records, the oldest first; a step appends one. `Since`
is the past-time operator that reference counts, leases and subscriptions are described with: the
last time something was granted is later than every time it was taken back.

`since_concat` is the equation an invariant proof needs: it says what one more record does.
-/

namespace History

variable {ε : Type} {P Q : ε → Prop} {history : List ε}

/-- Some record satisfies `P`, and no later one satisfies `Q`. -/
def Since (P Q : ε → Prop) (history : List ε) : Prop :=
  ∃ before e after, history = before ++ e :: after ∧ P e ∧ ∀ e' ∈ after, ¬ Q e'

@[simp] theorem not_since_nil : ¬ Since P Q [] := by
  rintro ⟨before, e, after, h, -⟩
  simp at h

theorem since_concat (e : ε) : Since P Q (history ++ [e]) ↔ P e ∨ Since P Q history ∧ ¬ Q e := by
  constructor
  · rintro ⟨before, x, after, h, hP, hQ⟩
    -- the record in question is the new one, or the new one comes after it
    rcases List.eq_nil_or_concat after with rfl | ⟨after, y, rfl⟩
    · obtain ⟨-, he⟩ := List.append_inj' h rfl
      cases he
      exact .inl hP
    · have h' : history ++ [e] = (before ++ x :: after) ++ [y] := by simpa using h
      obtain ⟨hhistory, he⟩ := List.append_inj' h' rfl
      cases he
      have hkept : ∀ e' ∈ after, ¬ Q e' := fun e' he' => hQ e' (by simp [he'])
      exact .inr ⟨⟨before, x, after, hhistory, hP, hkept⟩, hQ e (by simp)⟩
  · rintro (hP | ⟨⟨before, x, after, rfl, hP, hQ⟩, hne⟩)
    · exact ⟨history, e, [], rfl, hP, by simp⟩
    · refine ⟨before, x, after ++ [e], by simp, hP, ?_⟩
      intro e' he'
      rcases List.mem_append.mp he' with h | h
      · exact hQ e' h
      · cases List.mem_singleton.mp h
        exact hne

/-- The same by positions. -/
theorem since_of_getElem? {i : Nat} {e : ε} (hi : history[i]? = some e) (hP : P e)
    (hQ : ∀ j e', i < j → history[j]? = some e' → ¬ Q e') : Since P Q history := by
  obtain ⟨hlt, rfl⟩ := List.getElem?_eq_some_iff.mp hi
  refine ⟨history.take i, history[i], history.drop (i + 1), ?_, hP, ?_⟩
  · rw [← List.drop_eq_getElem_cons hlt, List.take_append_drop]
  · intro e' he'
    obtain ⟨j, hj⟩ := List.getElem?_of_mem he'
    rw [List.getElem?_drop] at hj
    exact hQ (i + 1 + j) e' (by omega) hj

end History
