import Mathlib.Data.List.AList
import Rauta.Common

/-!
# Backend health

The three things that make a backend ineligible for new requests.

* *Passive* health (`BackendHealth`): a sliding window over the last responses, kept by
  `record_backend_response`.
* *Draining* (`BackendDraining`): the backend is being removed.
* *Active* health (`HealthChecker`): consecutive results of TCP probes.

The first two live together in the `HealthData` snapshot that requests read. A `HashMap` is an
association list with distinct keys (`AList`); instants are natural numbers.
-/

namespace Rauta

/-! ## Passive health -/

/-- `WINDOW_SIZE`. -/
def windowSize : Nat := 100

/-- The last responses of a backend, oldest first; `true` is an error. The window never holds more
than `windowSize` entries. -/
structure BackendHealth where
  window : List Bool
  bounded : window.length ≤ windowSize

namespace BackendHealth

/-- `BackendHealth::new`. -/
def new : BackendHealth := ⟨[], Nat.zero_le _⟩

/-- `error_count` of the window. -/
def errorCount (h : BackendHealth) : Nat := h.window.count true

/-- `is_healthy`: the error rate is at most one half. The source divides two counts of at most `100`
as `f64` and compares with `0.5`; the quotient rounds to at most `0.5` exactly when the doubled
count is at most the total (`isHealthyF64_eq_isHealthy` in `Health/Window`). -/
def isHealthy (h : BackendHealth) : Bool :=
  h.window.length = 0 || 2 * h.errorCount ≤ h.window.length

/-- The empty window needs no case of its own: it has no errors. -/
theorem isHealthy_iff {h : BackendHealth} :
    h.isHealthy = true ↔ 2 * h.errorCount ≤ h.window.length := by
  have hle : h.errorCount ≤ h.window.length := List.count_le_length
  unfold isHealthy
  constructor
  · intro hh
    rcases Bool.or_eq_true_iff.mp hh with h0 | hle2
    · have := of_decide_eq_true h0
      omega
    · exact of_decide_eq_true hle2
  · intro hh
    exact Bool.or_eq_true_iff.mpr (Or.inr (decide_eq_true hh))

/-- The status codes that count as an error. -/
def isError (statusCode : Nat) : Bool := 500 ≤ statusCode && statusCode < 600

/-- What `record_response` keeps of the window: a full one loses its oldest entry. -/
def kept (h : BackendHealth) : List Bool :=
  if h.window.length = windowSize then h.window.tail else h.window

theorem kept_length (h : BackendHealth) : h.kept.length < windowSize := by
  have hb := h.bounded
  unfold kept
  split
  · rw [List.length_tail]
    unfold windowSize at *
    omega
  · omega

/-- `record_response`. -/
def recordResponse (h : BackendHealth) (statusCode : Nat) : BackendHealth where
  window := h.kept ++ [isError statusCode]
  bounded := by
    rw [List.length_append, List.length_singleton]
    exact h.kept_length

/-- A response that is no error does not make a healthy backend unhealthy: the errors do not grow,
and the window does not shrink. -/
theorem isHealthy_recordResponse_of_not_error {h : BackendHealth} {statusCode : Nat}
    (hh : h.isHealthy) (hs : isError statusCode = false) :
    (h.recordResponse statusCode).isHealthy := by
  have hcount : h.kept.count true ≤ h.window.count true := by
    unfold kept
    split
    · exact (List.tail_sublist _).count_le _
    · exact Nat.le_refl _
  have hlen : h.window.length ≤ h.kept.length + 1 := by
    unfold kept
    split
    · rw [List.length_tail]; omega
    · omega
  rw [isHealthy_iff] at hh ⊢
  have hcount' : (h.recordResponse statusCode).errorCount = h.kept.count true := by
    simp [errorCount, recordResponse, hs]
  have hlen' : (h.recordResponse statusCode).window.length = h.kept.length + 1 := by
    simp [recordResponse]
  have : h.errorCount = h.window.count true := rfl
  omega

end BackendHealth

/-! ## Draining, and the snapshot -/

/-- A backend that is being removed; after the deadline the entry may be cleaned up. -/
structure BackendDraining where
  deadline : Nat

/-- `HealthData`: the snapshot behind the `ArcSwap`. -/
structure HealthData where
  backendHealth : AList (fun _ : Backend => BackendHealth)
  drainingBackends : AList (fun _ : Backend => BackendDraining)

namespace HealthData

/-- `HealthData::new`. -/
def new : HealthData := ⟨∅, ∅⟩

/-- Passive health as selection reads it: a backend without a window is healthy. -/
def isHealthyPassive (d : HealthData) (b : Backend) : Bool :=
  ((d.backendHealth.lookup b).map BackendHealth.isHealthy).getD true

/-- `draining_backends.contains_key`. -/
def isDraining (d : HealthData) (b : Backend) : Bool := (d.drainingBackends.lookup b).isSome

/-- The body of `record_backend_response`, on the copied snapshot. -/
def recordBackendResponse (d : HealthData) (b : Backend) (statusCode : Nat) : HealthData :=
  let h := (d.backendHealth.lookup b).getD .new
  { d with backendHealth := d.backendHealth.insert b (h.recordResponse statusCode) }

/-- The body of `drain_backend`, on the copied snapshot. -/
def drainBackend (d : HealthData) (b : Backend) (now drainTimeout : Nat) : HealthData :=
  { d with drainingBackends := d.drainingBackends.insert b ⟨now + drainTimeout⟩ }

theorem isDraining_drainBackend (d : HealthData) (b b' : Backend) (now drainTimeout : Nat) :
    (d.drainBackend b now drainTimeout).isDraining b' = (decide (b' = b) || d.isDraining b') := by
  by_cases h : b' = b
  · subst h
    simp [isDraining, drainBackend, AList.lookup_insert]
  · simp [isDraining, drainBackend, h, AList.lookup_insert_ne h]

theorem isHealthyPassive_recordBackendResponse_self (d : HealthData) (b : Backend) (status : Nat) :
    (d.recordBackendResponse b status).isHealthyPassive b =
      (((d.backendHealth.lookup b).getD .new).recordResponse status).isHealthy := by
  simp [isHealthyPassive, recordBackendResponse, AList.lookup_insert]

/-- A response of one backend says nothing about another. -/
theorem isHealthyPassive_recordBackendResponse_of_ne (d : HealthData) {b b' : Backend}
    (status : Nat) (hne : b' ≠ b) :
    (d.recordBackendResponse b status).isHealthyPassive b' = d.isHealthyPassive b' := by
  simp [isHealthyPassive, recordBackendResponse, AList.lookup_insert_ne hne]

end HealthData

/-! ## Active health -/

/-- `HealthCheckConfig`; durations in nanoseconds. -/
structure HealthCheckConfig where
  enabled : Bool
  interval : Nat
  timeout : Nat
  unhealthyThreshold : Nat
  healthyThreshold : Nat

/-- The defaults: probing is off. -/
def HealthCheckConfig.default : HealthCheckConfig where
  enabled := false
  interval := 5000000000
  timeout := 2000000000
  unhealthyThreshold := 3
  healthyThreshold := 2

inductive HealthStatus where
  | healthy
  | unhealthy
  deriving DecidableEq, Repr

/-- The probe results of one backend. -/
structure BackendHealthState where
  status : HealthStatus
  consecutiveSuccesses : Nat
  consecutiveFailures : Nat
  lastCheck : Option Nat
  lastLatencyMs : Option Nat

/-- `BackendHealthState::new`: optimistically healthy. -/
def BackendHealthState.new : BackendHealthState := ⟨.healthy, 0, 0, none, none⟩

namespace BackendHealthState

/-- `record_success`. The counter is a `u32`. -/
def recordSuccess (st : BackendHealthState) (latencyMs now : Nat) (config : HealthCheckConfig) :
    BackendHealthState :=
  let successes := (st.consecutiveSuccesses + 1) % 2 ^ 32
  { status := if config.healthyThreshold ≤ successes then .healthy else st.status
    consecutiveSuccesses := successes
    consecutiveFailures := 0
    lastCheck := some now
    lastLatencyMs := some latencyMs }

/-- `record_failure`. The latency of the last success stays. -/
def recordFailure (st : BackendHealthState) (now : Nat) (config : HealthCheckConfig) :
    BackendHealthState :=
  let failures := (st.consecutiveFailures + 1) % 2 ^ 32
  { st with
    status := if config.unhealthyThreshold ≤ failures then .unhealthy else st.status
    consecutiveFailures := failures
    consecutiveSuccesses := 0
    lastCheck := some now }

end BackendHealthState

/-- `HealthChecker`, with the probe loops it has spawned (each for a backend, on behalf of a route).
`inRuntime` is whether a tokio runtime is there to spawn on. -/
structure HealthChecker where
  config : HealthCheckConfig
  inRuntime : Bool
  states : AList (fun _ : Backend => BackendHealthState)
  tasks : List (Backend × Str)

namespace HealthChecker

/-- `HealthChecker::new`. -/
def new (config : HealthCheckConfig) (inRuntime : Bool) : HealthChecker :=
  ⟨config, inRuntime, ∅, []⟩

/-- `is_healthy`: healthy unless the probes say otherwise. -/
def isHealthy (hc : HealthChecker) (b : Backend) : Bool :=
  ((hc.states.lookup b).map fun st => decide (st.status = .healthy)).getD true

/-- `entry(backend).or_insert_with(BackendHealthState::new)`. -/
def track (states : AList (fun _ : Backend => BackendHealthState)) (b : Backend) :
    AList (fun _ : Backend => BackendHealthState) :=
  if (states.lookup b).isSome then states else states.insert b .new

/-- `start_checking`. -/
def startChecking (hc : HealthChecker) (backends : List Backend) (routeName : Str) :
    HealthChecker :=
  if hc.config.enabled then
    { hc with
      states := backends.foldl track hc.states
      tasks := if hc.inRuntime then hc.tasks ++ backends.map (·, routeName) else hc.tasks }
  else hc

/-- With probing off `start_checking` does nothing. -/
theorem startChecking_of_disabled {hc : HealthChecker} (h : hc.config.enabled = false)
    (backends : List Backend) (routeName : Str) :
    hc.startChecking backends routeName = hc := by
  simp [startChecking, h]

/-- Tracking is optimistic, as `is_healthy` is about backends that are not tracked. -/
theorem isHealthy_startChecking (hc : HealthChecker) (backends : List Backend) (routeName : Str)
    (b : Backend) : (hc.startChecking backends routeName).isHealthy b = hc.isHealthy b := by
  have htrack : ∀ (states : AList fun _ : Backend => BackendHealthState) (b' : Backend),
      (((track states b').lookup b).map fun st => decide (st.status = .healthy)).getD true =
        ((states.lookup b).map fun st => decide (st.status = .healthy)).getD true := by
    intro states b'
    unfold track
    split
    · rfl
    · next hnew =>
      by_cases heq : b = b'
      · subst heq
        rw [AList.lookup_insert, Option.not_isSome_iff_eq_none.mp hnew]
        rfl
      · rw [AList.lookup_insert_ne heq]
  have hfold : ∀ states : AList fun _ : Backend => BackendHealthState,
      (((backends.foldl track states).lookup b).map
        fun st => decide (st.status = .healthy)).getD true =
          ((states.lookup b).map fun st => decide (st.status = .healthy)).getD true := by
    induction backends with
    | nil => exact fun states => rfl
    | cons b' rest ih => exact fun states => (ih (track states b')).trans (htrack states b')
  unfold startChecking
  split
  · exact hfold hc.states
  · rfl

end HealthChecker

end Rauta
