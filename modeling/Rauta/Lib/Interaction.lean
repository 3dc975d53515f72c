import Mathlib.Data.List.Induction
import Mathlib.Data.List.Perm.Basic
import Rauta.Lib.Interleaving

/-!
# Programs that make calls

A `Prog` is a program as its surroundings see it: it ends, or makes a call and goes on with the
answer. What the calls do is left open, so that a statement about all runs of a program
(`Prog.Keeps`, `Prog.Uses`) holds whatever they answer, and hence in any company.

`Service` says what the calls do to a state that programs share. `Service.machine` runs a pool of
programs over it, in all interleavings and with programs that are cancelled while they wait; a call
is one step. The machine keeps a log of the calls, and every program has a trail of its own.
Two facts connect them: a trail is a run of its program (`Service.run_of_reach`), and the log
consists of the trails (`Service.log_perm`). A part of the state that no call of the programs
changes stays what it was (`Service.view_eq_of_uses`). A `Ledger` keeps accounts of calls that come
in pairs.
-/

namespace Interaction

open Interleaving Transition

/-- What can be called, and what a call answers. -/
structure Signature where
  Call : Type
  Answer : Call → Type

/-- A call that has been answered. -/
structure Event (S : Signature) where
  call : S.Call
  answer : S.Answer call

/-- A program. -/
inductive Prog (S : Signature) (α : Type) where
  | done (a : α)
  | call (c : S.Call) (next : S.Answer c → Prog S α)

variable {S : Signature} {α β σ Act Env : Type}

namespace Prog

/-! ## Composition -/

/-- One program after the other. -/
def andThen : Prog S α → (α → Prog S β) → Prog S β
  | done a, f => f a
  | call c next, f => call c fun answer => (next answer).andThen f

instance : Monad (Prog S) where
  pure := done
  bind := andThen

/-- Make a call. -/
def ask (c : S.Call) : Prog S (S.Answer c) := call c done

/-! ## Runs -/

/-- Some calls are made and answered, and this is what is left to do. -/
inductive Run : Prog S α → List (Event S) → Prog S α → Prop
  | nil (p : Prog S α) : Run p [] p
  | cons {c : S.Call} {next : S.Answer c → Prog S α} {answer : S.Answer c} {es : List (Event S)}
      {p : Prog S α} : Run (next answer) es p → Run (call c next) (⟨c, answer⟩ :: es) p

variable {p p' : Prog S α} {es : List (Event S)}

theorem Run.concat {c : S.Call} {next : S.Answer c → Prog S α} (h : Run p es (call c next))
    (answer : S.Answer c) : Run p (es ++ [⟨c, answer⟩]) (next answer) := by
  generalize hrest : call c next = rest at h
  induction h with
  | nil p =>
      subst hrest
      exact .cons (.nil _)
  | cons _ ih => exact .cons (ih hrest)

/-- Before a call is answered, it is made. -/
theorem Run.exists_call {e : Event S} (h : Run p es p') (he : e ∈ es) :
    ∃ before next, Run p before (call e.call next) := by
  induction h with
  | nil p => cases he
  | cons _ ih =>
      rcases List.mem_cons.mp he with rfl | he
      · exact ⟨[], _, .nil _⟩
      · obtain ⟨before, next, hrun⟩ := ih he
        exact ⟨_, next, .cons hrun⟩

/-! ## Monitors

A monitor reads the calls of a program one by one and keeps a state of its own: the state of a
protocol that the program should follow. -/

variable {τ : Type} {monitor : τ → Event S → τ} {ok : τ → Prop} {final : α → τ → Prop} {t : τ}

/-- From the given state on, the monitor stays in states that are all right, whatever is answered,
and ends in a state that fits the result. -/
def Keeps (monitor : τ → Event S → τ) (ok : τ → Prop) (final : α → τ → Prop) :
    τ → Prog S α → Prop
  | t, done a => ok t ∧ final a t
  | t, call c next => ok t ∧ ∀ answer, Keeps monitor ok final (monitor t ⟨c, answer⟩) (next answer)

theorem Keeps.now (h : Keeps monitor ok final t p) : ok t := by
  cases p with
  | done a => exact h.1
  | call c next => exact h.1

theorem Keeps.imp {final' : α → τ → Prop} (h : Keeps monitor ok final t p)
    (himp : ∀ a t, final a t → final' a t) : Keeps monitor ok final' t p := by
  induction p generalizing t with
  | done a => exact ⟨h.1, himp a t h.2⟩
  | call c next ih => exact ⟨h.1, fun answer => ih answer (h.2 answer)⟩

/-- A call, and what follows it. -/
theorem Keeps.ask {c : S.Call} {f : S.Answer c → Prog S α} (hok : ok t)
    (hf : ∀ answer, Keeps monitor ok final (monitor t ⟨c, answer⟩) (f answer)) :
    Keeps monitor ok final t (Prog.ask c >>= f) :=
  ⟨hok, hf⟩

/-- A call that the monitor takes no notice of. -/
theorem Keeps.skip {c : S.Call} {f : S.Answer c → Prog S α} (hok : ok t)
    (hskip : ∀ answer, monitor t ⟨c, answer⟩ = t)
    (hf : ∀ answer, Keeps monitor ok final t (f answer)) :
    Keeps monitor ok final t (Prog.ask c >>= f) := by
  refine .ask hok fun answer => ?_
  rw [hskip]
  exact hf answer

/-- **One program after the other.** -/
theorem Keeps.bind {final' : β → τ → Prop} {f : α → Prog S β} (h : Keeps monitor ok final t p)
    (hf : ∀ a t, ok t → final a t → Keeps monitor ok final' t (f a)) :
    Keeps monitor ok final' t (p >>= f) := by
  induction p generalizing t with
  | done a => exact hf a t h.1 h.2
  | call c next ih => exact ⟨h.1, fun answer => ih answer (h.2 answer)⟩

/-- **The monitor follows every run.** -/
theorem Keeps.run (h : Keeps monitor ok final t p) (hrun : Run p es p') :
    Keeps monitor ok final (es.foldl monitor t) p' := by
  induction hrun generalizing t with
  | nil p => exact h
  | cons _ ih => exact ih (h.2 _)

/-! ## Kinds of calls -/

/-- Whatever is answered, the program only makes calls of a kind. -/
def Uses (P : S.Call → Prop) : Prog S α → Prop
  | done _ => True
  | call c next => P c ∧ ∀ answer, (next answer).Uses P

variable {P : S.Call → Prop} {f : α → Prog S β}

theorem Uses.ask {c : S.Call} {f : S.Answer c → Prog S α} (hc : P c)
    (hf : ∀ answer, (f answer).Uses P) : (Prog.ask c >>= f).Uses P :=
  ⟨hc, hf⟩

theorem Uses.bind (h : p.Uses P) (hf : ∀ a, (f a).Uses P) : (p >>= f).Uses P := by
  induction p with
  | done a => exact hf a
  | call c next ih => exact ⟨h.1, fun answer => ih answer (h.2 answer)⟩

theorem Uses.imp {Q : S.Call → Prop} (h : p.Uses P) (himp : ∀ c, P c → Q c) : p.Uses Q := by
  induction p with
  | done a => exact trivial
  | call c next ih => exact ⟨himp c h.1, fun answer => ih answer (h.2 answer)⟩

/-- A monitor stays where it is if it takes no notice of the calls. -/
theorem Uses.keeps (h : p.Uses P) (hok : ok t)
    (hskip : ∀ c answer, P c → monitor t ⟨c, answer⟩ = t) :
    p.Keeps monitor ok (fun _ t' => t' = t) t := by
  induction p with
  | done a => exact ⟨hok, rfl⟩
  | call c next ih =>
      refine ⟨hok, fun answer => ?_⟩
      rw [hskip c answer h.1]
      exact ih answer (h.2 answer)

theorem Uses.run (h : p.Uses P) (hrun : Run p es p') : p'.Uses P := by
  induction hrun with
  | nil p => exact h
  | cons _ ih => exact ih (h.2 _)

end Prog

/-! ## Many programs -/

/-- What the calls do to a state that the programs share, which of them a program can be cancelled
in, and what else happens to the state. Some answers come from outside; they are in the label. -/
structure Service (S : Signature) (σ Act Env : Type) where
  respond : σ → (c : S.Call) → Act → Option (σ × S.Answer c)
  awaits : S.Call → Bool
  env : σ → Env → σ

/-- A program of the pool: where it started, what is left of it unless it was cancelled, and the
calls it has made. -/
structure Task (S : Signature) (α : Type) where
  start : Prog S α
  rest : Option (Prog S α)
  trail : List (Event S)

/-- A program that has not begun. -/
def Task.new (start : Prog S α) : Task S α := ⟨start, some start, []⟩

/-- The trail is a run of the program, and if the program was cancelled, then where it waited. -/
def Task.Running (V : Service S σ Act Env) (t : Task S α) : Prop :=
  ∃ p, t.start.Run t.trail p ∧
    (t.rest = some p ∨ t.rest = none ∧ ∃ c next, p = .call c next ∧ V.awaits c = true)

/-- The state, with the log of all calls. -/
structure Logged (S : Signature) (σ : Type) where
  state : σ
  log : List (Event S)

/-- A step of a program, which is cancelled if there is no label. -/
def Service.step (V : Service S σ Act Env) (sh : Logged S σ) (t : Task S α) (a : Option Act) :
    Option (Logged S σ × Task S α) :=
  match t.rest with
  | some (.call c next) =>
    match a with
    | some a => (V.respond sh.state c a).map fun r =>
        (⟨r.1, sh.log ++ [⟨c, r.2⟩]⟩,
          { t with rest := some (next r.2), trail := t.trail ++ [⟨c, r.2⟩] })
    | none => if V.awaits c then some (sh, { t with rest := none }) else none
  | _ => none

/-- All interleavings of the programs. -/
def Service.machine (V : Service S σ Act Env) (α : Type) :
    Machine (Logged S σ) (Task S α) (Option Act) Env where
  thread := V.step
  env sh e := { sh with state := V.env sh.state e }

/-- A pool of programs, before any of them begins. -/
def Task.pool (s : σ) (programs : List (Prog S α)) :
    Config (Logged S σ) (Task S α) :=
  ⟨⟨s, []⟩, programs.map .new⟩

namespace Service

variable {V : Service S σ Act Env} {sh sh' : Logged S σ} {t t' : Task S α}
  {c : Config (Logged S σ) (Task S α)} {ok : Config (Logged S σ) (Task S α) →
    Label (Option Act) Env → Prop} {s : σ} {programs : List (Prog S α)}

/-- **What a step does**: a call is answered, or the program is cancelled in it. -/
theorem step_cases {a : Option Act} (h : V.step sh t a = some (sh', t')) :
    ∃ call next, t.rest = some (.call call next) ∧
      ((∃ act s' answer, a = some act ∧ V.respond sh.state call act = some (s', answer) ∧
          sh' = ⟨s', sh.log ++ [⟨call, answer⟩]⟩ ∧
          t' = { t with rest := some (next answer), trail := t.trail ++ [⟨call, answer⟩] }) ∨
        (a = none ∧ V.awaits call = true ∧ sh' = sh ∧ t' = { t with rest := none })) := by
  unfold step at h
  split at h
  · next call next hrest =>
    refine ⟨call, next, hrest, ?_⟩
    split at h
    · next act =>
      obtain ⟨⟨s', answer⟩, hrespond, heq⟩ := Option.map_eq_some_iff.mp h
      cases heq
      exact Or.inl ⟨act, s', answer, rfl, hrespond, rfl, rfl⟩
    · obtain ⟨hawaits, heq⟩ := Option.ite_none_right_eq_some.mp h
      cases heq
      exact Or.inr ⟨rfl, hawaits, rfl, rfl⟩
  · cases h

/-! ### Runs -/

theorem running_step {a : Option Act} (h : V.step sh t a = some (sh', t')) (ht : t.Running V) :
    t'.Running V := by
  obtain ⟨p, hrun, hrest⟩ := ht
  obtain ⟨call, next, hcall, hstep⟩ := step_cases h
  obtain rfl : p = .call call next := by
    rcases hrest with hrest | ⟨hrest, -⟩
    · exact Option.some.inj (hrest.symm.trans hcall)
    · rw [hrest] at hcall
      cases hcall
  rcases hstep with ⟨act, s', answer, -, -, -, rfl⟩ | ⟨-, hawaits, -, rfl⟩
  · exact ⟨next answer, hrun.concat answer, Or.inl rfl⟩
  · exact ⟨_, hrun, Or.inr ⟨rfl, call, next, rfl, hawaits⟩⟩

theorem start_step {a : Option Act} (h : V.step sh t a = some (sh', t')) : t'.start = t.start := by
  obtain ⟨_, _, -, ⟨_, _, _, -, -, -, rfl⟩ | ⟨-, -, -, rfl⟩⟩ := step_cases h <;> rfl

/-- **Trails are runs**: whatever the others do, a program has made some run of its own. -/
theorem run_of_reach (h : (V.machine α).system.Reach ok (Task.pool s programs) c) :
    ∀ t ∈ c.threads, t.start ∈ programs ∧ t.Running V := by
  refine @Machine.invariant _ _ _ _ _ _ _ (fun _ ts => ∀ t ∈ ts, t.start ∈ programs ∧ t.Running V) _
    ?_ (fun _ _ _ hinv _ => hinv) ?_ h
  · intro t ht
    obtain ⟨p, hp, rfl⟩ := List.mem_map.mp ht
    exact ⟨hp, p, .nil p, Or.inl rfl⟩
  · intro sh pre t post a sh' t' hinv _ hstep
    rw [forall_mem_middle] at hinv ⊢
    exact ⟨⟨start_step hstep ▸ hinv.1.1, running_step hstep hinv.1.2⟩, hinv.2⟩

/-- What a step logs, it adds to the trail. -/
theorem log_step {a : Option Act} (h : V.step sh t a = some (sh', t')) :
    ∃ es, sh'.log = sh.log ++ es ∧ t'.trail = t.trail ++ es := by
  obtain ⟨call, _, -, ⟨_, _, answer, -, -, rfl, rfl⟩ | ⟨-, -, rfl, rfl⟩⟩ := step_cases h
  · exact ⟨[⟨call, answer⟩], rfl, rfl⟩
  · exact ⟨[], by simp, by simp⟩

/-- **The log consists of the trails**, in some order. -/
theorem log_perm (h : (V.machine α).system.Reach ok (Task.pool s programs) c) :
    c.shared.log.Perm (c.threads.flatMap (·.trail)) := by
  refine @Machine.invariant _ _ _ _ _ _ _ (fun sh ts => sh.log.Perm (ts.flatMap (·.trail))) _
    ?_ (fun _ _ _ hinv _ => hinv) ?_ h
  · have hnone : (programs.map Task.new).flatMap (·.trail) = [] := by
      simp [List.flatMap_map, Task.new]
    rw [Task.pool, hnone]
  · intro sh pre t post a sh' t' hinv _ hstep
    obtain ⟨es, hlog, htrail⟩ := log_step hstep
    rw [hlog]
    refine (hinv.append_right es).trans ?_
    simp only [List.flatMap_append, List.flatMap_cons, htrail, List.append_assoc]
    exact (List.perm_append_comm.append_left _).append_left _

/-! ### Kinds of calls -/

theorem uses_step {P : S.Call → Prop} {a : Option Act} (h : V.step sh t a = some (sh', t'))
    (ht : ∀ p, t.rest = some p → p.Uses P) : ∀ p, t'.rest = some p → p.Uses P := by
  obtain ⟨call, next, hrest, ⟨_, _, answer, -, -, -, rfl⟩ | ⟨-, -, -, rfl⟩⟩ := step_cases h
  · rintro p ⟨⟩
    exact (ht _ hrest).2 answer
  · rintro p ⟨⟩

/-- **If no call of the programs changes a part of the state**, then it stays what it was, and the
calls are answered accordingly. -/
theorem view_eq_of_uses {τ : Type} {P : S.Call → Prop} {Fits : Event S → Prop} (view : σ → τ)
    (hprograms : ∀ p ∈ programs, p.Uses P)
    (henv : ∀ c e, ok c (.env e) → view (V.env c.shared.state e) = view c.shared.state)
    (hcall : ∀ s' call act s'' answer, P call → V.respond s' call act = some (s'', answer) →
      view s'' = view s' ∧ (view s' = view s → Fits ⟨call, answer⟩))
    (h : (V.machine α).system.Reach ok (Task.pool s programs) c) :
    view c.shared.state = view s ∧ ∀ e ∈ c.shared.log, Fits e := by
  refine (@Machine.invariant _ _ _ _ _ _ _ (fun sh ts =>
    (∀ t ∈ ts, ∀ p, t.rest = some p → p.Uses P) ∧ view sh.state = view s ∧
      ∀ e ∈ sh.log, Fits e) _ ?_ ?_ ?_ h).2
  · refine ⟨?_, rfl, by simp [Task.pool]⟩
    intro t ht
    obtain ⟨p, hp, rfl⟩ := List.mem_map.mp ht
    rintro _ ⟨⟩
    exact hprograms p hp
  · rintro sh ts e ⟨huses, hview, hlog⟩ hok
    exact ⟨huses, (henv ⟨sh, ts⟩ e hok).trans hview, hlog⟩
  · rintro sh pre t post a sh' t' ⟨huses, hview, hlog⟩ - hstep
    rw [forall_mem_middle] at huses ⊢
    refine ⟨⟨uses_step hstep huses.1, huses.2⟩, ?_⟩
    obtain ⟨call, next, hrest, ⟨act, s', answer, -, hrespond, rfl, -⟩ | ⟨-, -, rfl, -⟩⟩ :=
      step_cases hstep
    · obtain ⟨hsame, hfits⟩ := hcall _ _ _ _ _ (huses.1 _ hrest).1 hrespond
      refine ⟨hsame.trans hview, fun e he => ?_⟩
      rcases List.mem_append.mp he with he | he
      · exact hlog e he
      · obtain rfl := List.mem_singleton.mp he
        exact hfits hview
    · exact ⟨hview, hlog⟩

/-! ### Monitors -/

variable {τ : Type} {monitor : τ → Event S → τ} {good : τ → Prop} {final : α → τ → Prop} {start : τ}

/-- **A pool is monitored like its programs**: at every moment each of them has some way to go that
the monitor approves of, and one that was cancelled was waiting. -/
theorem keeps_of_reach (hprograms : ∀ p ∈ programs, p.Keeps monitor good final start)
    (h : (V.machine α).system.Reach ok (Task.pool s programs) c) {t : Task S α}
    (ht : t ∈ c.threads) :
    ∃ p, p.Keeps monitor good final (t.trail.foldl monitor start) ∧
      (t.rest = some p ∨ t.rest = none ∧ ∃ call next, p = .call call next ∧
        V.awaits call = true) := by
  obtain ⟨hstart, p, hrun, hrest⟩ := run_of_reach h t ht
  exact ⟨p, (hprograms _ hstart).run hrun, hrest⟩

/-- What the monitor says of a program that is over. -/
theorem final_of_reach (hprograms : ∀ p ∈ programs, p.Keeps monitor good final start)
    (h : (V.machine α).system.Reach ok (Task.pool s programs) c) {t : Task S α}
    (ht : t ∈ c.threads) {a : α} (hdone : t.rest = some (.done a)) :
    final a (t.trail.foldl monitor start) := by
  obtain ⟨p, hp, hrest | ⟨hrest, -⟩⟩ := keeps_of_reach hprograms h ht
  · obtain rfl : p = .done a := Option.some.inj (hrest.symm.trans hdone)
    exact hp.2
  · rw [hrest] at hdone
    cases hdone

/-- What it says of a program that was cancelled. -/
theorem waiting_of_reach (hprograms : ∀ p ∈ programs, p.Keeps monitor good final start)
    (h : (V.machine α).system.Reach ok (Task.pool s programs) c) {t : Task S α}
    (ht : t ∈ c.threads) (hcancelled : t.rest = none) :
    ∃ call next, V.awaits call = true ∧
      (Prog.call call next).Keeps monitor good final (t.trail.foldl monitor start) := by
  obtain ⟨p, hp, hrest | ⟨-, call, next, rfl, hawaits⟩⟩ := keeps_of_reach hprograms h ht
  · rw [hrest] at hcancelled
    cases hcancelled
  · exact ⟨call, next, hawaits, hp⟩

end Service

/-! ## Accounts -/

/-- One kind of call makes a debt and another one pays it, and the monitor knows who owes. -/
structure Ledger {τ : Type} (monitor : τ → Event S → τ) (good : τ → Prop) (owes : τ → Bool)
    (opens pays : Event S → Bool) : Prop where
  before : ∀ t e, good (monitor t e) → good t
  balance : ∀ t e, good (monitor t e) →
    (owes t).toNat + (opens e).toNat = (owes (monitor t e)).toNat + (pays e).toNat

namespace Ledger

variable {τ : Type} {monitor : τ → Event S → τ} {good : τ → Prop} {owes : τ → Bool}
  {opens pays : Event S → Bool} {start : τ}

/-- Over a trail: what was opened was paid or is owed. -/
theorem trail (h : Ledger monitor good owes opens pays) (hstart : owes start = false)
    {es : List (Event S)} (hgood : good (es.foldl monitor start)) :
    es.countP opens = es.countP pays + (owes (es.foldl monitor start)).toNat := by
  induction es using List.reverseRecOn with
  | nil => simp [hstart]
  | append_singleton es e ih =>
    rw [List.foldl_append, List.foldl_cons, List.foldl_nil] at hgood ⊢
    have hbefore := ih (h.before _ e hgood)
    have hstep := h.balance _ e hgood
    have hsingle : ∀ test : Event S → Bool, [e].countP test = (test e).toNat := by
      intro test
      cases htest : test e <;> simp [htest]
    rw [List.countP_append, List.countP_append, hsingle, hsingle]
    omega

/-- The accounts of the trails add up. -/
theorem flatMap_trail (h : Ledger monitor good owes opens pays) (hstart : owes start = false)
    {ts : List (Task S α)} (hgood : ∀ t ∈ ts, good (t.trail.foldl monitor start)) :
    (ts.flatMap (·.trail)).countP opens = (ts.flatMap (·.trail)).countP pays +
      ts.countP (fun t => owes (t.trail.foldl monitor start)) := by
  induction ts with
  | nil => rfl
  | cons t ts ih =>
    obtain ⟨ht, hts⟩ := List.forall_mem_cons.mp hgood
    have htrail := h.trail hstart ht
    have howes : (owes (t.trail.foldl monitor start)).toNat =
        if owes (t.trail.foldl monitor start) = true then 1 else 0 := by
      cases owes (t.trail.foldl monitor start) <;> rfl
    rw [List.flatMap_cons, List.countP_append, List.countP_append, List.countP_cons, ih hts, htrail,
      ← howes]
    omega

/-- **Over a run of a pool**: the log shows what the programs still owe. -/
theorem log_of_reach (h : Ledger monitor good owes opens pays) (hstart : owes start = false)
    {V : Service S σ Act Env} {final : α → τ → Prop} {s : σ} {programs : List (Prog S α)}
    {ok : Config (Logged S σ) (Task S α) → Label (Option Act) Env → Prop}
    {c : Config (Logged S σ) (Task S α)}
    (hprograms : ∀ p ∈ programs, p.Keeps monitor good final start)
    (hreach : (V.machine α).system.Reach ok (Task.pool s programs) c) :
    c.shared.log.countP opens = c.shared.log.countP pays +
      c.threads.countP (fun t => owes (t.trail.foldl monitor start)) := by
  have hperm := Service.log_perm hreach
  rw [hperm.countP_eq, hperm.countP_eq]
  refine h.flatMap_trail hstart fun t ht => ?_
  obtain ⟨p, hp, -⟩ := Service.keeps_of_reach hprograms hreach ht
  exact hp.now

end Ledger

end Interaction
