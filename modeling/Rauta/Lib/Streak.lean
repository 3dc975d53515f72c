import Mathlib.Data.List.Infix

/-!
# Streaks

An automaton that waits for `k` events of one kind in a row. It counts, starts anew with every other
event, and once it has seen the streak it stays where it is. It has seen it exactly if the streak is
somewhere in what it has read (`run_eq_none_iff`). What was counted before stands for so many events
in front.
-/

namespace Streak

variable {α : Type} [DecidableEq α]

/-- One event: `some n` while `n` events have been counted, `none` once the streak has been seen. -/
def step (k : Nat) (a : α) : Option Nat → α → Option Nat
  | none, _ => none
  | some n, x => if x = a then if k ≤ n + 1 then none else some (n + 1) else some 0

/-- A sequence of events. -/
def run (k : Nat) (a : α) (start : Option Nat) (events : List α) : Option Nat :=
  events.foldl (step k a) start

variable {k n : Nat} {a b : α} {l : List α}

@[simp] theorem run_none : run k a none l = none := by
  induction l with
  | nil => rfl
  | cons x l ih => exact ih

theorem run_cons (start : Option Nat) : run k a start (b :: l) = run k a (step k a start b) l := rfl

omit [DecidableEq α] in
/-- A streak at the front ends with the first other event. -/
theorem replicate_prefix_le (hab : b ≠ a)
    (h : List.replicate k a <+: List.replicate n a ++ b :: l) : k ≤ n := by
  induction n generalizing k with
  | zero =>
      cases k with
      | zero => exact Nat.le_refl _
      | succ k => exact absurd (List.cons_prefix_cons.mp h).1.symm hab
  | succ n ih =>
      cases k with
      | zero => exact Nat.zero_le _
      | succ k => exact Nat.succ_le_succ (ih (List.cons_prefix_cons.mp h).2)

omit [DecidableEq α] in
/-- Too few events before another one do not help. -/
theorem replicate_infix_skip (hab : b ≠ a) (hn : n < k) :
    List.replicate k a <:+: List.replicate n a ++ b :: l ↔ List.replicate k a <:+: l := by
  induction n with
  | zero =>
      rw [List.replicate_zero, List.nil_append, List.infix_cons_iff]
      refine or_iff_right fun h => ?_
      exact absurd (replicate_prefix_le (n := 0) hab h) (Nat.not_le.mpr hn)
  | succ n ih =>
      rw [List.replicate_succ, List.cons_append, List.infix_cons_iff, ih (Nat.lt_of_succ_lt hn)]
      refine or_iff_right fun h => ?_
      exact absurd (replicate_prefix_le (n := n + 1) hab h) (Nat.not_le.mpr hn)

/-- **The streak has been seen** exactly if it is in the events, with what was counted in front. -/
theorem run_eq_none_iff (hn : n < k) :
    run k a (some n) l = none ↔ List.replicate k a <:+: List.replicate n a ++ l := by
  induction l generalizing n with
  | nil =>
      rw [List.append_nil]
      refine iff_of_false (by simp [run]) fun h => ?_
      exact absurd h.length_le (by simpa using hn)
  | cons x l ih =>
      rw [run_cons]
      by_cases hx : x = a
      · subst hx
        -- one more in front
        have hfront : List.replicate n x ++ x :: l = List.replicate (n + 1) x ++ l := by
          rw [List.replicate_succ', List.append_assoc, List.singleton_append]
        by_cases hk : k ≤ n + 1
        · obtain rfl : k = n + 1 := by omega
          simp only [step, ↓reduceIte, hk, run_none, true_iff, hfront]
          exact (List.prefix_append _ _).isInfix
        · simp only [step, ↓reduceIte, hk]
          rw [ih (by omega), hfront]
      · simp only [step, hx, ↓reduceIte]
        rw [ih (by omega), replicate_infix_skip hx hn]
        simp

end Streak
