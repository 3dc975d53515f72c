import Rauta.Lib.Interleaving

/-!
# A cell with lock-free readers and a lock for writers

A cell holds a value behind a pointer. Some operations may find their answer in the value that is
there: they load the pointer without the lock and return, if they do. Everybody else takes the lock,
loads again, looks again, and only then stores a modified copy (double-checked locking). Loading,
taking the lock, storing and releasing it are single steps, with any number of other callers in
between.

Each call takes effect in one step, in which it is written to the log: the load in which it finds
its answer, or its store. The log is a history variable, as are the positions in it between which
a call runs.

The calls are linearizable (`linearizable`): the log is what one caller gets who makes the same
calls one after the other (`Protocol.history`), and a call that has returned is in the log with its
result, between its begin and its end. No caller waits for ever (`exists_finished`).
-/

namespace LockedCell

open Interleaving Transition

variable {σ Op R : Type}

/-- What callers do to the value. -/
structure Protocol (σ Op R : Type) where
  /-- The operation looks at the value before it takes the lock. -/
  optimistic : Op → Bool
  /-- The answer, if the value has one already. -/
  peek : Op → σ → Option R
  /-- Otherwise, the value to store and the answer. A ticket is handed out for each store. -/
  update : Op → (ticket : Nat) → σ → σ × R

/-- A call that has taken effect. -/
structure Entry (Op R : Type) where
  op : Op
  ticket : Nat
  result : R
  stored : Bool

/-! ## One caller -/

namespace Protocol

variable (P : Protocol σ Op R)

/-- An operation on the value, if nobody interferes. -/
def perform (st : σ × Nat) (op : Op) : Entry Op R × (σ × Nat) :=
  match P.peek op st.1 with
  | some r => (⟨op, st.2, r, false⟩, st)
  | none => (⟨op, st.2, (P.update op st.2 st.1).2, true⟩, ((P.update op st.2 st.1).1, st.2 + 1))

/-- The value after some operations, and the next ticket. -/
def final (st : σ × Nat) (ops : List Op) : σ × Nat :=
  ops.foldl (fun st op => (P.perform st op).2) st

/-- What the operations come to, one after the other. -/
def history : σ × Nat → List Op → List (Entry Op R)
  | _, [] => []
  | st, op :: ops => (P.perform st op).1 :: history (P.perform st op).2 ops

variable {P}

@[simp] theorem perform_op (st : σ × Nat) (op : Op) : (P.perform st op).1.op = op := by
  unfold perform
  split <;> rfl

@[simp] theorem history_op (st : σ × Nat) (ops : List Op) :
    (P.history st ops).map Entry.op = ops := by
  induction ops generalizing st with
  | nil => rfl
  | cons op ops ih => rw [history, List.map_cons, perform_op, ih]

theorem final_append (st : σ × Nat) (ops ops' : List Op) :
    P.final st (ops ++ ops') = P.final (P.final st ops) ops' :=
  List.foldl_append ..

theorem history_append (st : σ × Nat) (ops ops' : List Op) :
    P.history st (ops ++ ops') = P.history st ops ++ P.history (P.final st ops) ops' := by
  induction ops generalizing st with
  | nil => rfl
  | cons op ops ih =>
      rw [List.cons_append, history, history, ih]
      rfl

theorem history_concat (st : σ × Nat) (ops : List Op) (op : Op) :
    P.history st (ops ++ [op]) = P.history st ops ++ [(P.perform (P.final st ops) op).1] :=
  history_append st ops [op]

theorem final_concat (st : σ × Nat) (ops : List Op) (op : Op) :
    P.final st (ops ++ [op]) = (P.perform (P.final st ops) op).2 :=
  final_append st ops [op]

/-- An entry is what its operation comes to after those before it. -/
theorem history_split {st : σ × Nat} {ops : List Op} {before after : List (Entry Op R)}
    {e : Entry Op R} (h : P.history st ops = before ++ e :: after) :
    before = P.history st (before.map Entry.op) ∧
      e = (P.perform (P.final st (before.map Entry.op)) e.op).1 := by
  have hops : ops = before.map Entry.op ++ e.op :: after.map Entry.op := by
    rw [← history_op (P := P) st ops, h, List.map_append, List.map_cons]
  rw [hops, history_append, history] at h
  have hlength : (P.history st (before.map Entry.op)).length = before.length := by
    rw [← List.length_map (f := Entry.op), history_op, List.length_map]
  obtain ⟨hbefore, hrest⟩ := List.append_inj h hlength
  exact ⟨hbefore.symm, (List.cons.inj hrest).1.symm⟩

end Protocol

/-! ## Any number of callers -/

/-- The cell: the value, the lock, the next ticket, and the calls that have taken effect. -/
structure Cell (σ Op R : Type) where
  value : σ
  held : Bool
  tickets : Nat
  log : List (Entry Op R)

/-- Where a call is. `finish` is the length of the log when it returned. -/
inductive Pc (σ R : Type) where
  | start
  | waiting
  | locked
  | loaded (snapshot : σ)
  | releasing (result : R)
  | done (result : R) (finish : Nat)

/-- A call. `since` is the length of the log when it first looked at the value, and zero before. -/
structure Caller (σ Op R : Type) where
  op : Op
  since : Nat
  pc : Pc σ R

namespace Caller

/-- The caller has the lock. -/
def inside (t : Caller σ Op R) : Nat :=
  match t.pc with
  | .locked | .loaded _ | .releasing _ => 1
  | _ => 0

/-- The steps that are left, at most. -/
def stepsLeft (t : Caller σ Op R) : Nat :=
  match t.pc with
  | .start => 5
  | .waiting => 4
  | .locked => 3
  | .loaded _ => 2
  | .releasing _ => 1
  | .done .. => 0

end Caller

section Runs

variable (P : Protocol σ Op R)

/-- One step of a call. -/
def callStep (cell : Cell σ Op R) (t : Caller σ Op R) (_ : Unit) :
    Option (Cell σ Op R × Caller σ Op R) :=
  match t.pc with
  | .start =>
    let t := { t with since := cell.log.length }
    match P.peek t.op cell.value with
    | some r =>
      let log := cell.log ++ [⟨t.op, cell.tickets, r, false⟩]
      some ({ cell with log := log }, { t with pc := .done r log.length })
    | none => some (cell, { t with pc := .waiting })
  | .waiting =>
    if cell.held then none else some ({ cell with held := true }, { t with pc := .locked })
  | .locked =>
    match P.peek t.op cell.value with
    | some r =>
      let log := cell.log ++ [⟨t.op, cell.tickets, r, false⟩]
      some ({ cell with log := log }, { t with pc := .releasing r })
    | none => some (cell, { t with pc := .loaded cell.value })
  | .loaded snapshot =>
    let (value, r) := P.update t.op cell.tickets snapshot
    some ({ cell with
        value := value
        tickets := cell.tickets + 1
        log := cell.log ++ [⟨t.op, cell.tickets, r, true⟩] },
      { t with pc := .releasing r })
  | .releasing r => some ({ cell with held := false }, { t with pc := .done r cell.log.length })
  | .done .. => none

/-- Any number of callers. -/
def machine : Machine (Cell σ Op R) (Caller σ Op R) Unit Empty where
  thread := callStep P
  env _ e := nomatch e

/-- A call before its first step. -/
def Caller.new (op : Op) : Caller σ Op R := ⟨op, 0, if P.optimistic op then .start else .waiting⟩

/-- The cell and the calls before they begin. -/
def initial (value : σ) (ops : List Op) : Config (Cell σ Op R) (Caller σ Op R) :=
  ⟨⟨value, false, 0, []⟩, ops.map (Caller.new P)⟩

end Runs

/-! ## Linearizability -/

/-- What is known of a call. -/
structure CallOk (P : Protocol σ Op R) (cell : Cell σ Op R) (t : Caller σ Op R) : Prop where
  /-- The holder of the lock has loaded the current value, and found no answer in it. -/
  loaded : ∀ snapshot, t.pc = .loaded snapshot →
    snapshot = cell.value ∧ P.peek t.op cell.value = none
  since_le : t.since ≤ cell.log.length
  /-- A call that has taken effect is in the log. -/
  releasing : ∀ r, t.pc = .releasing r →
    ∃ i e, t.since ≤ i ∧ cell.log[i]? = some e ∧ e.op = t.op ∧ e.result = r
  done : ∀ r finish, t.pc = .done r finish → finish ≤ cell.log.length ∧
    ∃ i e, t.since ≤ i ∧ i < finish ∧ cell.log[i]? = some e ∧ e.op = t.op ∧ e.result = r

/-- What runs preserve. -/
structure Inv (P : Protocol σ Op R) (value : σ) (cell : Cell σ Op R) (ts : List (Caller σ Op R)) :
    Prop where
  history : cell.log = P.history (value, 0) (cell.log.map Entry.op)
  final : (cell.value, cell.tickets) = P.final (value, 0) (cell.log.map Entry.op)
  mutex : (ts.map Caller.inside).sum = if cell.held then 1 else 0
  calls : ∀ t ∈ ts, CallOk P cell t

variable {P : Protocol σ Op R} {value : σ} {cell cell' : Cell σ Op R} {t t' : Caller σ Op R}

theorem inside_of_loaded {snapshot : σ} (h : t.pc = .loaded snapshot) : t.inside = 1 := by
  simp [Caller.inside, h]

/-- Other calls add to the log, and do not touch the value of a caller with the lock. -/
theorem CallOk.mono (h : CallOk P cell t) {more : List (Entry Op R)}
    (hlog : cell'.log = cell.log ++ more) (hvalue : cell'.value = cell.value ∨ t.inside = 0) :
    CallOk P cell' t where
  loaded snapshot hpc := by
    rcases hvalue with hvalue | hout
    · rw [hvalue]
      exact h.loaded snapshot hpc
    · rw [inside_of_loaded hpc] at hout
      cases hout
  since_le := by
    rw [hlog, List.length_append]
    exact Nat.le_trans h.since_le (Nat.le_add_right _ _)
  releasing r hpc := by
    obtain ⟨i, e, hi, he, hentry⟩ := h.releasing r hpc
    refine ⟨i, e, hi, ?_, hentry⟩
    rw [hlog, List.getElem?_append_left (List.getElem?_eq_some_iff.mp he).1, he]
  done r finish hpc := by
    obtain ⟨hfinish, i, e, hi, hlt, he, hentry⟩ := h.done r finish hpc
    refine ⟨?_, i, e, hi, hlt, ?_, hentry⟩
    · rw [hlog, List.length_append]
      exact Nat.le_trans hfinish (Nat.le_add_right _ _)
    · rw [hlog, List.getElem?_append_left (List.getElem?_eq_some_iff.mp he).1, he]

/-- **What a step does**: it takes effect, as the operation does if nobody interferes, or leaves
value and log alone. Only a holder of the lock changes the value. -/
theorem callStep_effect (h : CallOk P cell t) (hstep : callStep P cell t () = some (cell', t')) :
    (cell'.log = cell.log ∧ (cell'.value, cell'.tickets) = (cell.value, cell.tickets)) ∨
    (cell'.log = cell.log ++ [(P.perform (cell.value, cell.tickets) t.op).1] ∧
      (cell'.value, cell'.tickets) = (P.perform (cell.value, cell.tickets) t.op).2 ∧
      (cell'.value = cell.value ∨ t.inside = 1)) := by
  unfold callStep at hstep
  cases hpc : t.pc with
  | start =>
      simp only [hpc] at hstep
      split at hstep
      · next r hr =>
        cases hstep
        exact .inr ⟨by simp [Protocol.perform, hr], by simp [Protocol.perform, hr], .inl rfl⟩
      · cases hstep
        exact .inl ⟨rfl, rfl⟩
  | waiting =>
      simp only [hpc] at hstep
      split at hstep
      · cases hstep
      · cases hstep
        exact .inl ⟨rfl, rfl⟩
  | locked =>
      simp only [hpc] at hstep
      split at hstep
      · next r hr =>
        cases hstep
        exact .inr ⟨by simp [Protocol.perform, hr], by simp [Protocol.perform, hr], .inl rfl⟩
      · cases hstep
        exact .inl ⟨rfl, rfl⟩
  | loaded snapshot =>
      simp only [hpc] at hstep
      obtain ⟨rfl, hnone⟩ := h.loaded snapshot hpc
      cases hstep
      exact .inr ⟨by simp [Protocol.perform, hnone], by simp [Protocol.perform, hnone],
        .inr (inside_of_loaded hpc)⟩
  | releasing r =>
      simp only [hpc] at hstep
      cases hstep
      exact .inl ⟨rfl, rfl⟩
  | done r finish =>
      simp only [hpc] at hstep
      cases hstep

/-- The lock is taken once, and given back. -/
theorem callStep_inside (hstep : callStep P cell t () = some (cell', t')) {others : Nat}
    (h : t.inside + others = if cell.held then 1 else 0) :
    t'.inside + others = if cell'.held then 1 else 0 := by
  unfold callStep at hstep
  cases hpc : t.pc <;> simp only [hpc] at hstep
  case start =>
    split at hstep <;> cases hstep <;> simpa [Caller.inside, hpc] using h
  case waiting =>
    split at hstep
    · cases hstep
    · next hfree =>
      cases hstep
      simp only [Caller.inside, hpc, hfree] at h ⊢
      simp only [if_true, Bool.false_eq_true, if_false] at h ⊢
      omega
  case locked =>
    split at hstep <;> cases hstep <;> simpa [Caller.inside, hpc] using h
  case loaded =>
    cases hstep
    simpa [Caller.inside, hpc] using h
  case releasing =>
    cases hstep
    simp only [Caller.inside, hpc] at h ⊢
    split at h
    · simp only [Bool.false_eq_true, if_false]
      omega
    · omega
  case done => cases hstep

/-- The call that moves. -/
theorem CallOk.step (h : CallOk P cell t) (hstep : callStep P cell t () = some (cell', t')) :
    CallOk P cell' t' := by
  unfold callStep at hstep
  cases hpc : t.pc <;> simp only [hpc] at hstep
  case start =>
    split at hstep
    · next r hr =>
      cases hstep
      refine ⟨by simp, by simp, by simp, ?_⟩
      rintro _ _ ⟨⟩
      exact ⟨Nat.le_refl _, cell.log.length, _, Nat.le_refl _, by simp, List.getElem?_concat_length,
        rfl, rfl⟩
    · cases hstep
      exact ⟨by simp, Nat.le_refl _, by simp, by simp⟩
  case waiting =>
    split at hstep
    · cases hstep
    · cases hstep
      exact ⟨by simp, h.since_le, by simp, by simp⟩
  case locked =>
    split at hstep
    · next r hr =>
      cases hstep
      refine ⟨by simp, ?_, ?_, by simp⟩
      · simp only [List.length_append]
        exact Nat.le_trans h.since_le (Nat.le_add_right _ _)
      · rintro _ ⟨⟩
        exact ⟨cell.log.length, _, h.since_le, List.getElem?_concat_length, rfl, rfl⟩
    · next hnone =>
      cases hstep
      refine ⟨?_, h.since_le, by simp, by simp⟩
      rintro _ ⟨⟩
      exact ⟨rfl, hnone⟩
  case loaded snapshot =>
    cases hstep
    refine ⟨by simp, ?_, ?_, by simp⟩
    · simp only [List.length_append]
      exact Nat.le_trans h.since_le (Nat.le_add_right _ _)
    · rintro _ ⟨⟩
      exact ⟨cell.log.length, _, h.since_le, List.getElem?_concat_length, rfl, rfl⟩
  case releasing r =>
    obtain ⟨i, e, hi, he, hentry⟩ := h.releasing r hpc
    cases hstep
    refine ⟨by simp, h.since_le, by simp, ?_⟩
    rintro _ _ ⟨⟩
    exact ⟨Nat.le_refl _, i, e, hi, (List.getElem?_eq_some_iff.mp he).1, he, hentry⟩
  case done => cases hstep

/-- The step lemma. -/
theorem Inv.step {pre post : List (Caller σ Op R)} (h : Inv P value cell (pre ++ t :: post))
    (hstep : callStep P cell t () = some (cell', t')) : Inv P value cell' (pre ++ t' :: post) := by
  obtain ⟨hown, hothers⟩ := forall_mem_middle.mp h.calls
  have hmutex := h.mutex
  rw [sum_map_middle] at hmutex
  have heffect := callStep_effect hown hstep
  refine ⟨?_, ?_, ?_, forall_mem_middle.mpr ⟨hown.step hstep, fun u hu => ?_⟩⟩
  · rcases heffect with ⟨hlog, -⟩ | ⟨hlog, -⟩
    · rw [hlog]
      exact h.history
    · rw [hlog, List.map_append, List.map_singleton, Protocol.perform_op, Protocol.history_concat,
        ← h.history, ← h.final]
  · rcases heffect with ⟨hlog, hvalue⟩ | ⟨hlog, hvalue, -⟩
    · rw [hlog, hvalue]
      exact h.final
    · rw [hlog, hvalue, List.map_append, List.map_singleton, Protocol.perform_op,
        Protocol.final_concat, ← h.final]
  · rw [sum_map_middle]
    exact callStep_inside hstep hmutex
  · rcases heffect with ⟨hlog, hvalue⟩ | ⟨hlog, -, hvalue⟩
    · exact (hothers u hu).mono (hlog.trans (List.append_nil _).symm)
        (.inl (Prod.mk.inj hvalue).1)
    · refine (hothers u hu).mono hlog (hvalue.imp_right fun hinside => ?_)
      -- two callers cannot have the lock
      obtain ⟨l, l', hsplit⟩ := List.append_of_mem hu
      rw [hsplit, sum_map_middle] at hmutex
      split at hmutex <;> omega

theorem inv_of_reach {ops : List Op} {c : Config (Cell σ Op R) (Caller σ Op R)}
    (h : (machine P).system.Reach System.Anything (initial P value ops) c) :
    Inv P value c.shared c.threads := by
  refine Machine.invariant ⟨rfl, rfl, ?_, ?_⟩ ?_ ?_ h
  · have hout : ∀ op, (Caller.new P op).inside = 0 := by
      intro op
      cases hop : P.optimistic op <;> simp [Caller.new, Caller.inside, hop]
    simp [initial, Function.comp_def, hout]
  · intro t ht
    obtain ⟨op, -, rfl⟩ := List.mem_map.mp ht
    unfold Caller.new
    split <;> exact ⟨by simp, Nat.zero_le _, by simp, by simp⟩
  · intro cell ts e
    exact nomatch e
  · intro cell pre t post _ cell' t' hinv _ hstep
    exact hinv.step hstep

/-- **Linearizability.** The log is what a single caller gets by the same operations, and so is the
value; a call that has returned is in the log, between its begin and its end. -/
theorem linearizable {ops : List Op} {c : Config (Cell σ Op R) (Caller σ Op R)}
    (h : (machine P).system.Reach System.Anything (initial P value ops) c) :
    c.shared.log = P.history (value, 0) (c.shared.log.map Entry.op) ∧
    (c.shared.value, c.shared.tickets) = P.final (value, 0) (c.shared.log.map Entry.op) ∧
    ∀ t ∈ c.threads, ∀ r finish, t.pc = .done r finish → finish ≤ c.shared.log.length ∧
      ∃ i e, t.since ≤ i ∧ i < finish ∧ c.shared.log[i]? = some e ∧ e.op = t.op ∧ e.result = r := by
  have hinv := inv_of_reach h
  exact ⟨hinv.history, hinv.final, fun t ht => (hinv.calls t ht).done⟩

/-! ## Progress -/

/-- A call that has not returned can move, unless it waits for the lock. -/
theorem exists_callStep (hleft : t.stepsLeft ≠ 0) (hfree : cell.held = false ∨ t.inside = 1) :
    ∃ cell' t', callStep P cell t () = some (cell', t') ∧ t'.stepsLeft < t.stepsLeft := by
  unfold callStep
  cases hpc : t.pc <;> simp only [Caller.stepsLeft, Caller.inside, hpc] at hleft hfree ⊢
  case start => split <;> exact ⟨_, _, rfl, by simp⟩
  case waiting =>
    rcases hfree with hfree | hfree
    · rw [hfree]
      exact ⟨_, _, rfl, by simp⟩
    · cases hfree
  case locked => split <;> exact ⟨_, _, rfl, by simp⟩
  case loaded => exact ⟨_, _, rfl, by simp⟩
  case releasing => exact ⟨_, _, rfl, by simp⟩
  case done => exact absurd rfl hleft

/-- Somebody can move, unless all have returned. -/
theorem Inv.exists_mover {ts : List (Caller σ Op R)} (h : Inv P value cell ts)
    (hleft : ¬ ∀ t ∈ ts, t.stepsLeft = 0) :
    ∃ t ∈ ts, t.stepsLeft ≠ 0 ∧ (cell.held = false ∨ t.inside = 1) := by
  cases hheld : cell.held with
  | false =>
      push Not at hleft
      obtain ⟨t, ht, hne⟩ := hleft
      exact ⟨t, ht, hne, .inl rfl⟩
  | true =>
      have hsum : 0 < (ts.map Caller.inside).sum := by
        rw [h.mutex, hheld]
        exact Nat.one_pos
      obtain ⟨x, hmem, hpos⟩ := List.sum_pos_iff_exists_pos_nat.mp hsum
      obtain ⟨t, ht, rfl⟩ := List.mem_map.mp hmem
      refine ⟨t, ht, ?_⟩
      unfold Caller.inside at hpos ⊢
      unfold Caller.stepsLeft
      cases hpc : t.pc <;> simp_all

theorem done_of_stepsLeft (h : t.stepsLeft = 0) : ∃ r finish, t.pc = .done r finish := by
  unfold Caller.stepsLeft at h
  cases hpc : t.pc with
  | done r finish => exact ⟨r, finish, rfl⟩
  | _ =>
      rw [hpc] at h
      cases h

/-- **No caller waits for ever**: every run can be continued until all calls have returned. -/
theorem exists_finished {ops : List Op} {c : Config (Cell σ Op R) (Caller σ Op R)}
    (h : (machine P).system.Reach System.Anything (initial P value ops) c) :
    ∃ c', (machine P).system.Reach System.Anything c c' ∧
      ∀ t ∈ c'.threads, ∃ r finish, t.pc = .done r finish := by
  -- every step leaves fewer
  induction hn : (c.threads.map Caller.stepsLeft).sum using Nat.strongRecOn generalizing c with
  | ind n ih =>
      by_cases hall : ∀ t ∈ c.threads, t.stepsLeft = 0
      · exact ⟨c, .refl, fun t ht => done_of_stepsLeft (hall t ht)⟩
      · obtain ⟨t, ht, hleft, hfree⟩ := (inv_of_reach h).exists_mover hall
        obtain ⟨cell', t', hstep, hlt⟩ := exists_callStep (P := P) hleft hfree
        obtain ⟨cell, ts⟩ := c
        obtain ⟨pre, post, hsplit⟩ := List.append_of_mem ht
        simp only at hsplit
        subst hsplit
        have hmove : (machine P).system.step ⟨cell, pre ++ t :: post⟩ (.thread pre.length ()) =
            some ⟨cell', pre ++ t' :: post⟩ := Machine.step_middle pre post hstep
        have hless : ((pre ++ t' :: post).map Caller.stepsLeft).sum < n := by
          rw [← hn, sum_map_middle, sum_map_middle]
          omega
        obtain ⟨c', hreach, hdone⟩ := ih _ hless (h.tail trivial hmove) rfl
        exact ⟨c', (System.Reach.refl.tail trivial hmove).trans hreach, hdone⟩

end LockedCell
