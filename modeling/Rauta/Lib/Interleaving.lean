import Mathlib.Algebra.Ring.Nat
import Mathlib.Data.List.Basic
import Rauta.Lib.Transition

/-!
# Interleaved threads over a shared state

A `Machine` says what one atomic step of one thread does to the shared state and to the thread's own
local state, and what the environment (the clock) may do in between. `Machine.system` is the
transition system of *all* interleavings of a finite pool of threads: a label names the thread that
moves, or the environment.

A thread of the pool is one call of the program. A thread that makes two calls one after the other
is covered too: it is two pool entries, the second of which starts after the first has finished.

The one fact every invariant proof needs is `thread_cases`: a thread step splits the pool around the
thread that moved, `pre ++ l :: post`, and leaves `pre ++ l' :: post`.
-/

namespace Interleaving

open Transition

variable {Sh Loc Act Env : Type}

/-- One atomic step of a thread, and one move of the environment. -/
structure Machine (Sh Loc Act Env : Type) where
  thread : Sh → Loc → Act → Option (Sh × Loc)
  env : Sh → Env → Sh

/-- A shared state and the pool of threads. -/
structure Config (Sh Loc : Type) where
  shared : Sh
  threads : List Loc

/-- Who moves. -/
inductive Label (Act Env : Type) where
  | thread (i : Nat) (a : Act)
  | env (e : Env)

/-- A statement about all threads of a pool, split around one of them. -/
theorem forall_mem_middle {P : Loc → Prop} {pre post : List Loc} {l : Loc} :
    (∀ t ∈ pre ++ l :: post, P t) ↔ P l ∧ ∀ t ∈ pre ++ post, P t := by
  simp only [List.mem_append, List.mem_cons]
  constructor
  · intro h
    exact ⟨h l (Or.inr (Or.inl rfl)), fun t ht => h t (ht.imp_right Or.inr)⟩
  · rintro ⟨hl, h⟩ t (ht | rfl | ht)
    · exact h t (Or.inl ht)
    · exact hl
    · exact h t (Or.inr ht)

/-- A sum over all threads of a pool, split around one of them. -/
theorem sum_map_middle (f : Loc → Nat) (pre post : List Loc) (l : Loc) :
    ((pre ++ l :: post).map f).sum = f l + ((pre ++ post).map f).sum := by
  simp only [List.map_append, List.map_cons, List.sum_append, List.sum_cons]
  omega

namespace Machine

/-- The step of a configuration: thread `i` of the pool, or the environment. -/
def step (M : Machine Sh Loc Act Env) (c : Config Sh Loc) : Label Act Env → Option (Config Sh Loc)
  | .env e => some { c with shared := M.env c.shared e }
  | .thread i a =>
    match c.threads[i]? with
    | none => none
    | some l => (M.thread c.shared l a).map fun r => ⟨r.1, c.threads.set i r.2⟩

/-- All interleavings of the pool. -/
def system (M : Machine Sh Loc Act Env) : System (Config Sh Loc) (Label Act Env) := ⟨M.step⟩

variable {M : Machine Sh Loc Act Env} {c c' : Config Sh Loc}

/-- **What a thread step does**: the pool splits around the thread that moved. -/
theorem thread_cases {i : Nat} {a : Act} (h : M.step c (.thread i a) = some c') :
    ∃ pre l post sh' l', c.threads = pre ++ l :: post ∧ i = pre.length ∧
      M.thread c.shared l a = some (sh', l') ∧ c' = ⟨sh', pre ++ l' :: post⟩ := by
  simp only [step] at h
  split at h
  · cases h
  · next l hl =>
    obtain ⟨⟨sh', l'⟩, hr, hc⟩ := Option.map_eq_some_iff.mp h
    obtain ⟨hi, hget⟩ := List.getElem?_eq_some_iff.mp hl
    have hlen : (c.threads.take i).length = i := List.length_take_of_le (Nat.le_of_lt hi)
    have hsplit : c.threads = c.threads.take i ++ l :: c.threads.drop (i + 1) := by
      rw [← hget, ← List.drop_eq_getElem_cons hi, List.take_append_drop]
    refine ⟨c.threads.take i, l, c.threads.drop (i + 1), sh', l', hsplit, hlen.symm, hr, ?_⟩
    rw [← hc]
    congr 1
    conv_lhs => rw [hsplit]
    rw [List.set_append_right _ _ (Nat.le_of_eq hlen), hlen, Nat.sub_self, List.set_cons_zero]

/-- Any thread of the pool may move. -/
theorem step_middle {sh sh' : Sh} (pre post : List Loc) {l l' : Loc} {a : Act}
    (h : M.thread sh l a = some (sh', l')) :
    M.step ⟨sh, pre ++ l :: post⟩ (.thread pre.length a) = some ⟨sh', pre ++ l' :: post⟩ := by
  simp [step, h]

/-- **Invariants of a machine**: it is enough to look at the environment and at one thread among
the others. -/
theorem invariant {ok : Config Sh Loc → Label Act Env → Prop} {Inv : Sh → List Loc → Prop}
    {c₀ : Config Sh Loc} (h₀ : Inv c₀.shared c₀.threads)
    (henv : ∀ sh ts e, Inv sh ts → ok ⟨sh, ts⟩ (.env e) → Inv (M.env sh e) ts)
    (hthread : ∀ sh pre l post a sh' l', Inv sh (pre ++ l :: post) →
      ok ⟨sh, pre ++ l :: post⟩ (.thread pre.length a) →
      M.thread sh l a = some (sh', l') → Inv sh' (pre ++ l' :: post))
    (h : M.system.Reach ok c₀ c) : Inv c.shared c.threads := by
  induction h with
  | refl => exact h₀
  | @tail c c' label _ hok hstep hinv =>
      cases label with
      | env e =>
          cases hstep
          exact henv _ _ _ hinv hok
      | thread i a =>
          obtain ⟨pre, l, post, sh', l', hsplit, rfl, hl, rfl⟩ := thread_cases hstep
          obtain ⟨sh, ts⟩ := c
          subst hsplit
          exact hthread _ _ _ _ _ _ _ hinv hok hl

end Machine

end Interleaving
