import Rauta.Health.Window
import Rauta.Lib.CopyOnWrite

/-!
# Concurrent updates of the health data

`record_backend_response` and `drain_backend` both load the `HealthData` snapshot, modify a copy
and store it. The module documentation of `route_snapshot.rs` speaks of a mutex that serialises the
writers; there is none, so this is the copy-on-write cell of `Lib/CopyOnWrite` with `HealthOp` as
its updates.

What a sequence of updates leaves behind is read off the sequence (`isDraining_applyAll`,
`window_applyAll`). With the library this gives the state after concurrent calls, as long as no call
stores after having been overtaken.
-/

namespace Rauta

open CopyOnWrite Interleaving Transition

/-! ## Sequences of updates -/

/-- A call that updates the health data. The clock is read between the load and the store. -/
inductive HealthOp where
  | recordBackendResponse (backend : Backend) (statusCode : Nat)
  | drainBackend (backend : Backend) (now drainTimeout : Nat)
  deriving DecidableEq

namespace HealthOp

/-- What the call does to its copy. -/
def apply : HealthOp → HealthData → HealthData
  | .recordBackendResponse b statusCode, d => d.recordBackendResponse b statusCode
  | .drainBackend b now drainTimeout, d => d.drainBackend b now drainTimeout

/-- What the call adds to the window of a backend. -/
def response (b : Backend) : HealthOp → Option Bool
  | .recordBackendResponse b' statusCode =>
    if b' = b then some (BackendHealth.isError statusCode) else none
  | .drainBackend .. => none

end HealthOp

/-- The window of a backend; a backend without an entry has an empty one. -/
def HealthData.window (d : HealthData) (b : Backend) : List Bool :=
  ((d.backendHealth.lookup b).getD .new).window

theorem isDraining_apply {op : HealthOp} {d : HealthData} {b : Backend} (h : d.isDraining b) :
    (op.apply d).isDraining b := by
  cases op with
  | recordBackendResponse b' statusCode => exact h
  | drainBackend b' now drainTimeout =>
      rw [HealthOp.apply, HealthData.isDraining_drainBackend, h, Bool.or_true]

/-- A backend that was drained is draining. -/
theorem isDraining_applyAll {ops : List HealthOp} {d : HealthData} {b : Backend}
    (h : d.isDraining b ∨ ∃ now drainTimeout, .drainBackend b now drainTimeout ∈ ops) :
    (applyAll HealthOp.apply ops d).isDraining b := by
  induction ops generalizing d with
  | nil =>
      rcases h with h | ⟨now, drainTimeout, hmem⟩
      · exact h
      · cases hmem
  | cons op ops ih =>
      apply ih
      rcases h with h | ⟨now, drainTimeout, hmem⟩
      · exact Or.inl (isDraining_apply h)
      · rcases List.mem_cons.mp hmem with rfl | hmem
        · left
          simp [HealthOp.apply, HealthData.isDraining_drainBackend]
        · exact Or.inr ⟨now, drainTimeout, hmem⟩

/-- The window of a backend after one more update. -/
theorem window_apply {op : HealthOp} {d : HealthData} {b : Backend} {responses : List Bool}
    (h : d.window b = responses.rtake windowSize) :
    (op.apply d).window b = (responses ++ (op.response b).toList).rtake windowSize := by
  cases op with
  | recordBackendResponse b' statusCode =>
      by_cases heq : b' = b
      · subst heq
        have hwindow : (d.recordBackendResponse b' statusCode).window b' =
            (((d.backendHealth.lookup b').getD .new).recordResponse statusCode).window := by
          simp [HealthData.window, HealthData.recordBackendResponse, AList.lookup_insert]
        rw [HealthOp.apply, hwindow, HealthOp.response, if_pos rfl, Option.toList_some]
        exact BackendHealth.window_recordResponse h statusCode
      · have hkept : (d.recordBackendResponse b' statusCode).window b = d.window b := by
          simp [HealthData.window, HealthData.recordBackendResponse,
            AList.lookup_insert_ne (Ne.symm heq)]
        simp [HealthOp.apply, hkept, h, HealthOp.response, heq]
  | drainBackend b' now drainTimeout =>
      rw [HealthOp.response, Option.toList_none, List.append_nil]
      exact h

/-- The window of a backend holds the last responses recorded for it. -/
theorem window_applyAll {ops : List HealthOp} {d : HealthData} {b : Backend} {responses : List Bool}
    (h : d.window b = responses.rtake windowSize) :
    (applyAll HealthOp.apply ops d).window b =
      (responses ++ ops.filterMap (HealthOp.response b)).rtake windowSize := by
  induction ops generalizing d responses with
  | nil =>
      rw [List.filterMap_nil, List.append_nil]
      exact h
  | cons op ops ih =>
      have hcons : (op :: ops).filterMap (HealthOp.response b) =
          (op.response b).toList ++ ops.filterMap (HealthOp.response b) := by
        cases hop : op.response b <;> simp [hop]
      rw [hcons, ← List.append_assoc]
      exact ih (window_apply h)

/-! ## Concurrent calls -/

/-- Nothing is lost: who was drained is draining, and the window of a backend holds the last of all
responses recorded for it, in the order of the stores. -/
structure HealthKept (calls : List HealthOp) (cell : Cell HealthData HealthOp) : Prop where
  draining : ∀ b now drainTimeout, .drainBackend b now drainTimeout ∈ calls →
    cell.value.isDraining b
  stores : cell.log.Perm calls
  windows : ∀ b, cell.value.window b = (cell.log.filterMap (HealthOp.response b)).rtake windowSize

/-- **No health update is lost** by calls of which none stores after having been overtaken. -/
theorem healthKept_of_storesFresh {calls : List HealthOp}
    {c : Config (Cell HealthData HealthOp) (CopyOnWrite.Writer HealthData HealthOp)}
    (h : (machine HealthOp.apply).system.Reach StoresFresh (initial .new calls) c)
    (hdone : ∀ w ∈ c.threads, w.isDone) : HealthKept calls c.shared := by
  have hvalue := value_eq_applyAll h
  have hperm := log_perm (h.mono fun _ _ _ => trivial) hdone
  constructor
  · intro b now drainTimeout hmem
    rw [hvalue]
    exact isDraining_applyAll (Or.inr ⟨now, drainTimeout, hperm.mem_iff.mpr hmem⟩)
  · exact hperm
  · intro b
    have hnew : HealthData.new.window b = List.rtake [] windowSize := rfl
    rw [hvalue, window_applyAll hnew, List.nil_append]

/-- A response and a removal, of two backends. -/
def responseAndDrain : List HealthOp :=
  [.recordBackendResponse .sample 500, .drainBackend (.fromIpv4 10 0 1 2 8080 100) 0 30]

/-- One call after the other. -/
theorem healthKept_of_storesFresh_inTurn :
    ∃ c, (machine HealthOp.apply).system.Reach StoresFresh (initial .new responseAndDrain) c ∧
      (∀ w ∈ c.threads, w.isDone) ∧ HealthKept responseAndDrain c.shared := by
  have hrun : (((machine HealthOp.apply).system.restrict StoresFresh).exec
      (initial .new responseAndDrain) ([0, 0, 1, 1].map (.thread · ()))).any
      (fun c => c.threads.all Writer.isDone) = true := by decide +kernel
  obtain ⟨c, hc, hall⟩ := (Option.any_eq_true ..).mp hrun
  have hdone : ∀ w ∈ c.threads, w.isDone := List.all_eq_true.mp hall
  have hreach := System.Reach.of_exec_restrict hc
  exact ⟨c, hreach, hdone, healthKept_of_storesFresh hreach hdone⟩

/-- **A lost removal**: both calls load before either stores, and the backend is not draining. -/
theorem exists_lost_health_update :
    ¬ ∀ (calls : List HealthOp) c,
      (machine HealthOp.apply).system.Reach System.Anything (initial .new calls) c →
      (∀ w ∈ c.threads, w.isDone) → HealthKept calls c.shared := by
  intro h
  have hrun : ((machine HealthOp.apply).system.exec (initial .new responseAndDrain)
      ([0, 1, 1, 0].map (.thread · ()))).any (fun c => c.threads.all Writer.isDone &&
        !c.shared.value.isDraining (.fromIpv4 10 0 1 2 8080 100)) = true := by decide +kernel
  obtain ⟨c, hc, hend⟩ := (Option.any_eq_true ..).mp hrun
  obtain ⟨hall, hlost⟩ := (Bool.and_eq_true _ _).mp hend
  have hkept := h responseAndDrain c (.of_exec hc) (List.all_eq_true.mp hall)
  have := hkept.draining (.fromIpv4 10 0 1 2 8080 100) 0 30 (by simp [responseAndDrain])
  simp [this] at hlost

end Rauta
