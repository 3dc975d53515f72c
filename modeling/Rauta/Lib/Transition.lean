import Mathlib.Logic.Basic

/-!
# Labelled transition systems

The common ground of every "in all runs" statement of this development. A system is a partial
step function: `step s a = none` means that the label `a` is not enabled in `s`.

Runs come in two forms.

* `System.Reach ok s₀ s` — the propositional form: `s` is reached from `s₀` by steps that all
  satisfy `ok`. The predicate looks at the state *before* the step and at the label, so it is the
  place for a condition on the environment; `Anything` is the predicate that asks for nothing.
* `System.exec s₀ labels` — the executable form, for a concrete schedule.

`Reach.of_exec` and `Reach.of_exec_restrict` go from the second to the first, `Reach.invariant` is
the induction over runs that every safety proof uses. What happened in a run, as opposed to where it
led, is written to a history variable (`System.observed`).
-/

namespace Transition

variable {σ α : Type}

/-- A transition system with states `σ` and labels `α`. -/
structure System (σ α : Type) where
  step : σ → α → Option σ

namespace System

/-- No condition on the steps of a run. -/
def Anything : σ → α → Prop := fun _ _ => True

/-- The states reached from `s₀` by steps that satisfy `ok`. -/
inductive Reach (S : System σ α) (ok : σ → α → Prop) (s₀ : σ) : σ → Prop
  | refl : Reach S ok s₀ s₀
  | tail {s s' : σ} {a : α} : Reach S ok s₀ s → ok s a → S.step s a = some s' → Reach S ok s₀ s'

/-- Run a schedule; `none` as soon as a label is not enabled. -/
def exec (S : System σ α) : σ → List α → Option σ
  | s, [] => some s
  | s, a :: as => (S.step s a).bind fun s' => exec S s' as

variable {S : System σ α} {ok ok' : σ → α → Prop} {s₀ s : σ}

/-- **Induction over runs**: what holds initially and is kept by every allowed step holds in every
state reached. -/
theorem Reach.invariant {Inv : σ → Prop} (h₀ : Inv s₀)
    (hstep : ∀ s a s', Inv s → ok s a → S.step s a = some s' → Inv s')
    (h : S.Reach ok s₀ s) : Inv s := by
  induction h with
  | refl => exact h₀
  | tail _ hok hs ih => exact hstep _ _ _ ih hok hs

/-- A run under a stronger condition is a run under a weaker one. -/
theorem Reach.mono (hmono : ∀ s a, ok s a → ok' s a) (h : S.Reach ok s₀ s) :
    S.Reach ok' s₀ s := by
  induction h with
  | refl => exact .refl
  | tail _ hok hs ih => exact ih.tail (hmono _ _ hok) hs

theorem Reach.trans {s₁ : σ} (h₁ : S.Reach ok s₀ s₁) (h₂ : S.Reach ok s₁ s) :
    S.Reach ok s₀ s := by
  induction h₂ with
  | refl => exact h₁
  | tail _ hok hs ih => exact ih.tail hok hs

/-- A schedule that executes is a run. -/
theorem Reach.of_exec {labels : List α} (h : S.exec s₀ labels = some s) :
    S.Reach Anything s₀ s := by
  induction labels generalizing s₀ with
  | nil =>
      cases h
      exact .refl
  | cons a as ih =>
      obtain ⟨s₁, h₁, h₂⟩ := Option.bind_eq_some_iff.mp h
      exact (Reach.refl.tail trivial h₁).trans (ih h₂)

theorem exec_concat (labels : List α) (a : α) :
    S.exec s₀ (labels ++ [a]) = (S.exec s₀ labels).bind fun s => S.step s a := by
  induction labels generalizing s₀ with
  | nil => simp [exec]
  | cons b labels ih => simp [exec, ih, Option.bind_assoc]

/-- The same system with the steps that do not satisfy `ok` disabled. -/
def restrict (S : System σ α) (ok : σ → α → Prop) [∀ s a, Decidable (ok s a)] : System σ α :=
  ⟨fun s a => if ok s a then S.step s a else none⟩

/-- A schedule that executes in the restricted system is a run under the condition. -/
theorem Reach.of_exec_restrict [∀ s a, Decidable (ok s a)] {labels : List α}
    (h : (S.restrict ok).exec s₀ labels = some s) : S.Reach ok s₀ s := by
  induction labels generalizing s₀ with
  | nil =>
      cases h
      exact .refl
  | cons a as ih =>
      obtain ⟨s₁, h₁, h₂⟩ := Option.bind_eq_some_iff.mp h
      simp only [restrict, Option.ite_none_right_eq_some] at h₁
      exact (Reach.refl.tail h₁.1 h₁.2).trans (ih h₂)

/-- The same system with a history variable, which every step updates and none reads. -/
def observed {η : Type} (S : System σ α) (record : σ → α → σ → η → η) : System (σ × η) α :=
  ⟨fun s a => (S.step s.1 a).map fun s' => (s', record s.1 a s' s.2)⟩

/-- Observing does not disturb: every run is the run of an observed system. -/
theorem Reach.observed {η : Type} (record : σ → α → σ → η → η) (h : S.Reach Anything s₀ s)
    (x₀ : η) :
    ∃ x, (S.observed record).Reach Anything (s₀, x₀) (s, x) := by
  induction h with
  | refl => exact ⟨x₀, .refl⟩
  | @tail s s' a _ _ hstep ih =>
      obtain ⟨x, hx⟩ := ih
      refine ⟨record s a s' x, hx.tail (a := a) trivial ?_⟩
      simp [System.observed, hstep]

end System

end Transition
