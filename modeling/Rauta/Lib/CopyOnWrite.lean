import Rauta.Lib.Interleaving

/-!
# A shared value that is updated by copying

A cell holds a value behind a pointer. A writer loads the pointer, makes a modified copy of what it
points to, and stores a pointer to the copy: two atomic steps, with any number of writers in
between. The steps cannot fail, so a writer that was overtaken stores a copy of an outdated value.

The cell logs the stores, as a history variable; a writer remembers how many there were when it
loaded. `StoresFresh` is the condition that nobody is overtaken, and then the value is what the
logged updates make of the initial one (`value_eq_applyAll`). That every update is logged exactly
once holds in any case (`log_perm`).
-/

namespace CopyOnWrite

open Interleaving Transition

variable {σ Op : Type}

/-- The value, and the updates that have been stored, oldest first. -/
structure Cell (σ Op : Type) where
  value : σ
  log : List Op

/-- Where a writer is. -/
inductive WriterPc (σ : Type) where
  | start
  | loaded (snapshot : σ) (version : Nat)
  | done

/-- A writer and its update. -/
structure Writer (σ Op : Type) where
  op : Op
  pc : WriterPc σ

/-- The writer has stored its copy. -/
def Writer.isDone (w : Writer σ Op) : Bool :=
  match w.pc with
  | .done => true
  | _ => false

section Runs

variable (apply : Op → σ → σ)

/-- One step of a writer. -/
def writerStep (c : Cell σ Op) (w : Writer σ Op) (_ : Unit) : Option (Cell σ Op × Writer σ Op) :=
  match w.pc with
  | .start => some (c, { w with pc := .loaded c.value c.log.length })
  | .loaded snapshot _ => some (⟨apply w.op snapshot, c.log ++ [w.op]⟩, { w with pc := .done })
  | .done => none

/-- Any number of writers. -/
def machine : Machine (Cell σ Op) (Writer σ Op) Unit Empty where
  thread := writerStep apply
  env _ e := nomatch e

/-- The cell and the writers before they start. -/
def initial (value : σ) (ops : List Op) : Config (Cell σ Op) (Writer σ Op) :=
  ⟨⟨value, []⟩, ops.map (⟨·, .start⟩)⟩

/-- The updates, one after the other. -/
def applyAll (ops : List Op) (value : σ) : σ := ops.foldl (fun v op => apply op v) value

end Runs

/-- How many stores there were when the writer loaded, if it is about to store. -/
def Writer.version? (w : Writer σ Op) : Option Nat :=
  match w.pc with
  | .loaded _ version => some version
  | _ => none

/-- A writer that stores has not been overtaken since it loaded. -/
def StoresFresh (c : Config (Cell σ Op) (Writer σ Op)) : Label Unit Empty → Prop
  | .env _ => True
  | .thread i _ => ∀ w ∈ c.threads[i]?, ∀ version ∈ w.version?, version = c.shared.log.length

instance (c : Config (Cell σ Op) (Writer σ Op)) :
    (l : Label Unit Empty) → Decidable (StoresFresh c l)
  | .env _ => isTrue trivial
  | .thread i _ => inferInstanceAs (Decidable (∀ w ∈ c.threads[i]?, _))

variable {apply : Op → σ → σ} {value : σ} {ops : List Op} {c : Config (Cell σ Op) (Writer σ Op)}

/-- The updates of the writers that are done. -/
def stored (ws : List (Writer σ Op)) : List Op := (ws.filter Writer.isDone).map Writer.op

/-- The log is that of the writers that are done. -/
def Logged (cell : Cell σ Op) (ws : List (Writer σ Op)) : Prop := cell.log.Perm (stored ws)

/-- **Every update is stored once**, in all runs. -/
theorem logged_of_reach (h : (machine apply).system.Reach System.Anything (initial value ops) c) :
    Logged c.shared c.threads := by
  refine Machine.invariant ?_ ?_ ?_ h
  · have hnone : (initial value ops).threads.filter Writer.isDone = [] := by
      simp [initial, List.filter_eq_nil_iff, Writer.isDone]
    rw [Logged, stored, hnone]
    exact List.Perm.nil
  · intro cell ws e
    exact nomatch e
  · intro cell pre w post _ cell' w' hperm _ hstep
    cases hpc : w.pc with
    | start =>
        simp only [machine, writerStep, hpc] at hstep
        cases hstep
        simpa [Logged, stored, Writer.isDone, hpc] using hperm
    | loaded snapshot version =>
        simp only [machine, writerStep, hpc] at hstep
        cases hstep
        have hbefore : stored (pre ++ w :: post) = stored pre ++ stored post := by
          simp [stored, Writer.isDone, hpc]
        have hafter : stored (pre ++ { w with pc := .done } :: post) =
            stored pre ++ w.op :: stored post := by
          simp [stored, List.filter_cons, Writer.isDone]
        rw [Logged, hbefore] at hperm
        rw [Logged, hafter]
        have hfront : (cell.log ++ [w.op]).Perm (w.op :: (stored pre ++ stored post)) :=
          (List.perm_append_singleton _ _).trans (hperm.cons _)
        exact hfront.trans List.perm_middle.symm
    | done =>
        simp only [machine, writerStep, hpc] at hstep
        cases hstep

/-- The writers have the given updates. -/
def Carries (ops : List Op) (_ : Cell σ Op) (ws : List (Writer σ Op)) : Prop :=
  ws.map Writer.op = ops

/-- A run changes what the writers have done, not which updates they have. -/
theorem carries_of_reach (h : (machine apply).system.Reach System.Anything (initial value ops) c) :
    Carries ops c.shared c.threads := by
  refine Machine.invariant ?_ ?_ ?_ h
  · simp [Carries, initial, Function.comp_def]
  · intro cell ws e
    exact nomatch e
  · intro cell pre w post _ cell' w' hops _ hstep
    have hop : w'.op = w.op := by
      simp only [machine, writerStep] at hstep
      split at hstep <;> cases hstep <;> rfl
    simpa [Carries, hop] using hops

/-- When all writers are done, the log is some order of all updates. -/
theorem log_perm (h : (machine apply).system.Reach System.Anything (initial value ops) c)
    (hdone : ∀ w ∈ c.threads, w.isDone) : c.shared.log.Perm ops := by
  have hperm := logged_of_reach h
  have hops : c.threads.map Writer.op = ops := carries_of_reach h
  rwa [Logged, stored, List.filter_eq_self.mpr hdone, hops] at hperm

/-- The value is what the log makes of the initial one, and so is every fresh snapshot. -/
structure Faithful (apply : Op → σ → σ) (value : σ) (cell : Cell σ Op) (ws : List (Writer σ Op)) :
    Prop where
  current : cell.value = applyAll apply cell.log value
  fresh : ∀ w ∈ ws, ∀ snapshot version, w.pc = .loaded snapshot version →
    version ≤ cell.log.length ∧ (version = cell.log.length → snapshot = cell.value)

/-- **No update is lost** when nobody stores after having been overtaken. -/
theorem value_eq_applyAll (h : (machine apply).system.Reach StoresFresh (initial value ops) c) :
    c.shared.value = applyAll apply c.shared.log value := by
  suffices hinv : Faithful apply value c.shared c.threads from hinv.current
  refine Machine.invariant ?_ ?_ ?_ h
  · refine ⟨rfl, ?_⟩
    intro w hw snapshot version hpc
    obtain ⟨op, -, rfl⟩ := List.mem_map.mp hw
    cases hpc
  · intro cell ws e
    exact nomatch e
  · intro cell pre w post _ cell' w' hinv hok hstep
    obtain ⟨hown, hothers⟩ := forall_mem_middle.mp hinv.fresh
    cases hpc : w.pc with
    | start =>
        simp only [machine, writerStep, hpc] at hstep
        cases hstep
        refine ⟨hinv.current, forall_mem_middle.mpr ⟨?_, hothers⟩⟩
        rintro snapshot version ⟨⟩
        exact ⟨Nat.le_refl _, fun _ => rfl⟩
    | loaded snapshot version =>
        simp only [machine, writerStep, hpc] at hstep
        cases hstep
        have hfresh : version = cell.log.length := by
          exact hok w (by simp) version (by simp [Writer.version?, hpc])
        have hsnapshot := (hown snapshot version hpc).2 hfresh
        refine ⟨?_, forall_mem_middle.mpr ⟨?_, ?_⟩⟩
        · show apply w.op snapshot = applyAll apply (cell.log ++ [w.op]) value
          rw [hsnapshot, hinv.current, applyAll, applyAll, List.foldl_append]
          rfl
        · rintro _ _ ⟨⟩
        · -- every other snapshot is outdated now
          intro u hu snapshot' version' hpc'
          have hle := (hothers u hu snapshot' version' hpc').1
          simp only [List.length_append, List.length_singleton]
          exact ⟨by omega, by omega⟩
    | done =>
        simp only [machine, writerStep, hpc] at hstep
        cases hstep

end CopyOnWrite
