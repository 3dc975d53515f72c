import Mathlib.Data.List.Basic

/-!
# Simulation of reactive machines

A reactive machine answers every input at once. Two such machines are compared by what they answer
to the same inputs: a relation between their states that every step keeps, and under which the
answers are equal, makes all their answers equal (`Simulates.observe_eq`).
-/

namespace Simulation

variable {σ τ ι ο : Type}

/-- A machine that reads an input, changes its state and answers. -/
structure Reactive (σ ι ο : Type) where
  step : σ → ι → σ × ο

namespace Reactive

/-- The answers to a sequence of inputs. -/
def observe (m : Reactive σ ι ο) : σ → List ι → List ο
  | _, [] => []
  | s, i :: is => (m.step s i).2 :: m.observe (m.step s i).1 is

/-- The state after a sequence of inputs. -/
def run (m : Reactive σ ι ο) (s : σ) (inputs : List ι) : σ :=
  inputs.foldl (fun s i => (m.step s i).1) s

theorem run_cons (m : Reactive σ ι ο) (s : σ) (i : ι) (is : List ι) :
    m.run s (i :: is) = m.run (m.step s i).1 is := rfl

/-- Related states answer an allowed input alike, and stay related. -/
def Simulates (m : Reactive σ ι ο) (m' : Reactive τ ι ο) (ok : ι → Prop) (R : σ → τ → Prop) :
    Prop :=
  ∀ s t i, ok i → R s t → (m.step s i).2 = (m'.step t i).2 ∧ R (m.step s i).1 (m'.step t i).1

/-- **Simulation**: from related states on, all answers agree. -/
theorem Simulates.observe_eq {m : Reactive σ ι ο} {m' : Reactive τ ι ο} {ok : ι → Prop}
    {R : σ → τ → Prop} (h : m.Simulates m' ok R) {s : σ} {t : τ} (hst : R s t) {inputs : List ι}
    (hok : ∀ i ∈ inputs, ok i) : m.observe s inputs = m'.observe t inputs := by
  induction inputs generalizing s t with
  | nil => rfl
  | cons i is ih =>
      obtain ⟨hanswer, hnext⟩ := h s t i (hok i List.mem_cons_self) hst
      have hrest : ∀ j ∈ is, ok j := fun j hj => hok j (List.mem_cons_of_mem _ hj)
      rw [observe, observe, hanswer, ih hnext hrest]

end Reactive

end Simulation
