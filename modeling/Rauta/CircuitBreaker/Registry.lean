import Mathlib.Data.List.AList
import Mathlib.Data.List.Induction
import Rauta.Common
import Rauta.Lib.History
import Rauta.Lib.LockedCell

/-!
# The registry of breakers

`CircuitBreakerManager` keeps a breaker for each backend in a map behind an `ArcSwap`.
`get_breaker` loads the map without a lock and creates a breaker under the lock if there is none;
`remove_backend` always takes the lock. This is the cell of `Lib/LockedCell`, so the calls are
linearizable, and what is left is about one call after the other: a breaker stays in the map from
its publication to the next removal of its backend (`lookup_final_iff`).

A breaker counts the failures of its backend, so two of them for one backend would each see a part
of the failures. This cannot happen between two removals: there is one that all callers get.
-/

namespace Rauta

open History LockedCell Transition

/-- The map from backend ids to breakers. A breaker is named by the order of creation. -/
abbrev BreakerMap := AList fun _ : Str => Nat

/-- A call on the manager. -/
inductive RegistryCall where
  | getBreaker (backendId : Str)
  | removeBackend (backendId : Str)
  deriving DecidableEq

/-- `get_breaker` and `remove_backend`. A poisoned lock is recovered, so taking it cannot fail. -/
def breakerRegistry : Protocol BreakerMap RegistryCall (Option Nat) where
  optimistic
    | .getBreaker _ => true
    | .removeBackend _ => false
  peek
    | .getBreaker backendId, breakers => (breakers.lookup backendId).map some
    | .removeBackend _, _ => none
  update
    | .getBreaker backendId, breaker, snapshot => (snapshot.insert backendId breaker, some breaker)
    | .removeBackend backendId, _, snapshot => (snapshot.erase backendId, none)

/-- A call that has taken effect. -/
abbrev RegistryEntry := Entry RegistryCall (Option Nat)

/-- The call has put the breaker into the map. -/
def Publishes (backendId : Str) (breaker : Nat) (e : RegistryEntry) : Prop :=
  e.op = .getBreaker backendId ∧ e.stored = true ∧ e.result = some breaker

/-- The call has removed the backend. -/
def Removes (backendId : Str) (e : RegistryEntry) : Prop := e.op = .removeBackend backendId

/-! ## One call after the other -/

variable {backendId : Str} {breaker : Nat} {st : BreakerMap × Nat}

theorem perform_getBreaker_some (h : st.1.lookup backendId = some breaker) :
    breakerRegistry.perform st (.getBreaker backendId) =
      (⟨.getBreaker backendId, st.2, some breaker, false⟩, st) := by
  simp [Protocol.perform, breakerRegistry, h]

theorem perform_getBreaker_none (h : st.1.lookup backendId = none) :
    breakerRegistry.perform st (.getBreaker backendId) =
      (⟨.getBreaker backendId, st.2, some st.2, true⟩, (st.1.insert backendId st.2, st.2 + 1)) := by
  simp [Protocol.perform, breakerRegistry, h]

theorem perform_removeBackend (st : BreakerMap × Nat) (backendId : Str) :
    breakerRegistry.perform st (.removeBackend backendId) =
      (⟨.removeBackend backendId, st.2, none, true⟩, (st.1.erase backendId, st.2 + 1)) := rfl

/-- What a call does to the entry of a backend. -/
theorem lookup_perform (op : RegistryCall) :
    (breakerRegistry.perform st op).2.1.lookup backendId = some breaker ↔
      Publishes backendId breaker (breakerRegistry.perform st op).1 ∨
        st.1.lookup backendId = some breaker ∧
          ¬ Removes backendId (breakerRegistry.perform st op).1 := by
  cases op with
  | getBreaker id =>
      cases hlookup : st.1.lookup id with
      | some other => simp [perform_getBreaker_some hlookup, Publishes, Removes]
      | none =>
          rw [perform_getBreaker_none hlookup]
          by_cases heq : backendId = id
          · subst heq
            simp [Publishes, Removes, AList.lookup_insert, hlookup]
          · simp [Publishes, Removes, AList.lookup_insert_ne heq, Ne.symm heq]
  | removeBackend id =>
      rw [perform_removeBackend]
      by_cases heq : backendId = id
      · subst heq
        simp [Publishes, Removes, AList.lookup_erase]
      · simp [Publishes, Removes, AList.lookup_erase_ne heq, Ne.symm heq]

/-- **A breaker stays** from its publication to the next removal of its backend, whatever happens
to the others. -/
theorem lookup_final_iff (ops : List RegistryCall) (backendId : Str) (breaker : Nat) :
    (breakerRegistry.final (∅, 0) ops).1.lookup backendId = some breaker ↔
      Since (Publishes backendId breaker) (Removes backendId)
        (breakerRegistry.history (∅, 0) ops) := by
  induction ops using List.reverseRecOn with
  | nil => simp [Protocol.final, Protocol.history]
  | append_singleton ops op ih =>
      rw [Protocol.final_concat, Protocol.history_concat, since_concat, lookup_perform, ih]

/-! ## Any number of threads -/

section Log

variable {ops : List RegistryCall} {log : List RegistryEntry}
  (hlog : log = breakerRegistry.history (∅, 0) ops)

include hlog

/-- After a publication, and until the next removal, a call finds the breaker in the map. -/
theorem lookup_between {i k : Nat} {e e' : RegistryEntry} (hi : log[i]? = some e)
    (hpublishes : Publishes backendId breaker e) (hlt : i < k) (hk : log[k]? = some e')
    (hkept : ∀ j d, i < j → j < k → log[j]? = some d → ¬ Removes backendId d) :
    ∃ st : BreakerMap × Nat, st.1.lookup backendId = some breaker ∧
      e' = (breakerRegistry.perform st e'.op).1 := by
  obtain ⟨hlength, rfl⟩ := List.getElem?_eq_some_iff.mp hk
  have hsplit : log = log.take k ++ log[k] :: log.drop (k + 1) := by
    rw [← List.drop_eq_getElem_cons hlength, List.take_append_drop]
  obtain ⟨hbefore, he'⟩ := Protocol.history_split (hlog.symm.trans hsplit)
  refine ⟨_, (lookup_final_iff _ backendId breaker).mpr ?_, he'⟩
  rw [← hbefore]
  refine since_of_getElem? (i := i) (e := e) ?_ hpublishes fun j d hij hj => ?_
  · rw [List.getElem?_take_of_lt hlt, hi]
  · obtain ⟨hjlt, -⟩ := List.getElem?_eq_some_iff.mp hj
    have hjk : j < k := Nat.lt_of_lt_of_le hjlt (List.length_take_le k log)
    rw [List.getElem?_take_of_lt hjk] at hj
    exact hkept j d hij hjk hj

end Log

/-- A call, and where it is. -/
abbrev RegistryThread := Caller BreakerMap RegistryCall (Option Nat)

/-- Two publications for one backend have a removal between them. -/
def PublishedOnce (log : List RegistryEntry) : Prop :=
  ∀ (backendId : Str) (breaker breaker' i k : Nat) (e e' : RegistryEntry), log[i]? = some e →
    log[k]? = some e' → i < k → Publishes backendId breaker e → Publishes backendId breaker' e' →
      ∃ j d, i < j ∧ j < k ∧ log[j]? = some d ∧ Removes backendId d

/-- A call of `get_breaker` that begins after a publication and ends before the next removal returns
the breaker that was published. -/
def ReturnsPublished (log : List RegistryEntry) (t : RegistryThread) : Prop :=
  ∀ (backendId : Str) (r : Option Nat) (finish : Nat), t.op = .getBreaker backendId →
    t.pc = .done r finish → ∀ (breaker i : Nat) (e : RegistryEntry), log[i]? = some e →
      Publishes backendId breaker e → i < t.since →
      (∀ j d, i < j → j < finish → log[j]? = some d → ¬ Removes backendId d) → r = some breaker

/-- **The registry is linearizable**, for any number of threads and in all interleavings: between
two removals of a backend one breaker is published for it, and all callers in that time return it. A
breaker is in the map exactly if its backend has not been removed since it was published, whatever
happens to other backends. -/
theorem registry_linearizable {calls : List RegistryCall}
    {c : Interleaving.Config (Cell BreakerMap RegistryCall (Option Nat)) RegistryThread}
    (h : (machine breakerRegistry).system.Reach System.Anything
      (initial breakerRegistry ∅ calls) c) :
    PublishedOnce c.shared.log ∧ (∀ t ∈ c.threads, ReturnsPublished c.shared.log t) ∧
    ∀ backendId breaker, c.shared.value.lookup backendId = some breaker ↔
      Since (Publishes backendId breaker) (Removes backendId) c.shared.log := by
  obtain ⟨hlog, hfinal, hdone⟩ := linearizable h
  refine ⟨?_, ?_, ?_⟩
  · intro backendId breaker breaker' i k e e' hi hk hlt hpublishes hpublishes'
    by_contra hnone
    push Not at hnone
    obtain ⟨st, hst, he'⟩ := lookup_between hlog hi hpublishes hlt hk hnone
    -- the second call would have found the breaker of the first
    rw [hpublishes'.1, perform_getBreaker_some hst] at he'
    have hstored := hpublishes'.2.1
    rw [he'] at hstored
    cases hstored
  · intro t ht backendId r finish hop hpc breaker i e hi hpublishes hsince hkept
    obtain ⟨-, k, e', hk, hkfinish, hget, hop', rfl⟩ := hdone t ht r finish hpc
    obtain ⟨st, hst, he'⟩ := lookup_between hlog hi hpublishes (Nat.lt_of_lt_of_le hsince hk) hget
      fun j d hij hjk => hkept j d hij (Nat.lt_trans hjk hkfinish)
    rw [hop', hop, perform_getBreaker_some hst] at he'
    rw [he']
  · intro backendId breaker
    have hvalue := congrArg Prod.fst hfinal
    simp only at hvalue
    rw [hvalue, lookup_final_iff, ← hlog]

/-- Two threads ask for one breaker. -/
def twoGets : Interleaving.Config (Cell BreakerMap RegistryCall (Option Nat)) RegistryThread :=
  initial breakerRegistry ∅ [.getBreaker "a".toList, .getBreaker "a".toList]

/-- The first creates it, the second finds it. -/
theorem registry_linearizable_twoGets : ∃ c,
    (machine breakerRegistry).system.exec twoGets
        [.thread 0 (), .thread 0 (), .thread 0 (), .thread 0 (), .thread 1 ()] = some c ∧
      ∃ t ∈ c.threads, t.since = 1 ∧ t.pc = .done (some 0) 2 ∧ PublishedOnce c.shared.log ∧
        ReturnsPublished c.shared.log t := by
  obtain ⟨c, hc, hthread⟩ : ∃ c, (machine breakerRegistry).system.exec twoGets
      [.thread 0 (), .thread 0 (), .thread 0 (), .thread 0 (), .thread 1 ()] = some c ∧
        c.threads[1]? = some ⟨.getBreaker "a".toList, 1, .done (some 0) 2⟩ := ⟨_, rfl, rfl⟩
  obtain ⟨honce, hreturns, -⟩ := registry_linearizable (System.Reach.of_exec hc)
  have hmem := List.mem_of_getElem? hthread
  exact ⟨c, hc, _, hmem, rfl, rfl, honce, hreturns _ hmem⟩

/-- All calls return, sooner or later. -/
theorem registry_finishes {calls : List RegistryCall}
    {c : Interleaving.Config (Cell BreakerMap RegistryCall (Option Nat)) RegistryThread}
    (h : (machine breakerRegistry).system.Reach System.Anything
      (initial breakerRegistry ∅ calls) c) :
    ∃ c', (machine breakerRegistry).system.Reach System.Anything c c' ∧
      ∀ t ∈ c'.threads, ∃ r finish, t.pc = .done r finish :=
  exists_finished h

end Rauta
