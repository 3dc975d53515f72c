import Rauta.Health
import Rauta.Lib.Runs

/-!
# Active health has hysteresis

A backend becomes unhealthy after `unhealthy_threshold` failed probes in a row and healthy again
after `healthy_threshold` successful ones. The source keeps two counters; they are the lengths of
the runs the probes so far end with (`Tracks`), so the status is the latch of `Lib/Runs`, switched
on by failures and off by successes. Shorter runs of either kind leave it where it is.
-/

namespace Rauta

open Runs

/-- The result of a probe, with what it is recorded with. -/
inductive Probe where
  | success (latencyMs now : Nat)
  | failure (now : Nat)

/-- Whether the backend answered. -/
def Probe.answered : Probe → Bool
  | .success .. => true
  | .failure .. => false

namespace BackendHealthState

/-- What the probe loop does with a result. -/
def record (config : HealthCheckConfig) (st : BackendHealthState) : Probe → BackendHealthState
  | .success latencyMs now => st.recordSuccess latencyMs now config
  | .failure now => st.recordFailure now config

/-- The state after these results: the counters are the runs at the end, the status is the latch. -/
structure Tracks (config : HealthCheckConfig) (results : List Bool) (st : BackendHealthState) :
    Prop where
  successes : st.consecutiveSuccesses = trailing true results
  failures : st.consecutiveFailures = trailing false results
  status : st.status = .unhealthy ↔
    Latched false config.unhealthyThreshold true config.healthyThreshold results

variable {config : HealthCheckConfig} {results : List Bool} {st : BackendHealthState}

theorem tracks_new (hU : 1 ≤ config.unhealthyThreshold) : Tracks config [] .new where
  successes := rfl
  failures := rfl
  status := iff_of_false (by decide) (not_latched_nil hU)

/-- A success: the failures start anew, and the successes may switch the status. -/
theorem Tracks.recordSuccess (h : Tracks config results st) (hlen : results.length + 1 < 2 ^ 32)
    (hU : 1 ≤ config.unhealthyThreshold) (latencyMs now : Nat) :
    Tracks config (results ++ [true]) (st.recordSuccess latencyMs now config) := by
  have hle : trailing true results ≤ results.length := trailing_le_length
  have hcount : (st.consecutiveSuccesses + 1) % 2 ^ 32 = trailing true (results ++ [true]) := by
    rw [h.successes, trailing_concat_self, Nat.mod_eq_of_lt (by omega)]
  have hreset : trailing false (results ++ [true]) = 0 := trailing_concat_of_ne (by decide)
  have hstatus : (st.recordSuccess latencyMs now config).status =
      if config.healthyThreshold ≤ trailing true (results ++ [true]) then .healthy
      else st.status := by
    rw [← hcount]
    rfl
  refine ⟨hcount, hreset.symm, ?_⟩
  have hnot : ¬ config.unhealthyThreshold ≤ 0 := by omega
  rw [latched_concat, hreset, ← h.status, hstatus]
  by_cases hreached : config.healthyThreshold ≤ trailing true (results ++ [true])
  · rw [if_pos hreached]
    exact iff_of_false (by decide) fun hon => hon.elim hnot fun hon => hon.2.2 hreached
  · rw [if_neg hreached]
    exact ⟨fun hon => .inr ⟨hon, hnot, hreached⟩, fun hon => hon.elim (absurd · hnot) And.left⟩

/-- A failure: the successes start anew, and the failures may switch the status. -/
theorem Tracks.recordFailure (h : Tracks config results st) (hlen : results.length + 1 < 2 ^ 32)
    (hH : 1 ≤ config.healthyThreshold) (now : Nat) :
    Tracks config (results ++ [false]) (st.recordFailure now config) := by
  have hle : trailing false results ≤ results.length := trailing_le_length
  have hcount : (st.consecutiveFailures + 1) % 2 ^ 32 = trailing false (results ++ [false]) := by
    rw [h.failures, trailing_concat_self, Nat.mod_eq_of_lt (by omega)]
  have hreset : trailing true (results ++ [false]) = 0 := trailing_concat_of_ne (by decide)
  have hstatus : (st.recordFailure now config).status =
      if config.unhealthyThreshold ≤ trailing false (results ++ [false]) then .unhealthy
      else st.status := by
    rw [← hcount]
    rfl
  refine ⟨hreset.symm, hcount, ?_⟩
  have hnot : ¬ config.healthyThreshold ≤ 0 := by omega
  rw [latched_concat, hreset, ← h.status, hstatus]
  by_cases hreached : config.unhealthyThreshold ≤ trailing false (results ++ [false])
  · rw [if_pos hreached]
    exact iff_of_true rfl (.inl hreached)
  · rw [if_neg hreached]
    exact ⟨fun hon => .inr ⟨hon, hreached, hnot⟩,
      fun hon => hon.elim (absurd · hreached) And.left⟩

/-- The state after a sequence of probes that does not overflow the counters. -/
theorem tracks_foldl_record (hU : 1 ≤ config.unhealthyThreshold) (hH : 1 ≤ config.healthyThreshold)
    (probes : List Probe) (hlen : probes.length < 2 ^ 32) :
    Tracks config (probes.map Probe.answered) (probes.foldl (record config) .new) := by
  induction probes using List.reverseRecOn with
  | nil => exact tracks_new hU
  | append_singleton probes probe ih =>
      rw [List.length_append, List.length_singleton] at hlen
      have hbefore := ih (by omega)
      have hlen' : (probes.map Probe.answered).length + 1 < 2 ^ 32 := by
        rw [List.length_map]
        exact hlen
      rw [List.foldl_append, List.map_append]
      cases probe with
      | success latencyMs now => exact hbefore.recordSuccess hlen' hU latencyMs now
      | failure now => exact hbefore.recordFailure hlen' hH now

/-- **Exact hysteresis**: the backend is unhealthy if and only if some run of failures has reached
its threshold, and no run of successes has reached its own after the last such run. -/
theorem status_foldl_record_iff (hU : 1 ≤ config.unhealthyThreshold)
    (hH : 1 ≤ config.healthyThreshold) (probes : List Probe) (hlen : probes.length < 2 ^ 32) :
    (probes.foldl (record config) .new).status = .unhealthy ↔
      ∃ i, RunEndsAt false config.unhealthyThreshold (probes.map Probe.answered) i ∧
        (∀ j, i < j →
          ¬ RunEndsAt false config.unhealthyThreshold (probes.map Probe.answered) j) ∧
        ∀ j, i < j → ¬ RunEndsAt true config.healthyThreshold (probes.map Probe.answered) j :=
  (tracks_foldl_record hU hH probes hlen).status

/-- Three failures and one success, with the default thresholds. -/
theorem status_foldl_record_iff_default :
    ([Probe.failure 0, .failure 5, .failure 10, .success 1 15].foldl (record .default) .new).status
        = .unhealthy ↔
      ∃ i, RunEndsAt false 3 [false, false, false, true] i ∧
        (∀ j, i < j → ¬ RunEndsAt false 3 [false, false, false, true] j) ∧
        ∀ j, i < j → ¬ RunEndsAt true 2 [false, false, false, true] j :=
  status_foldl_record_iff (by decide) (by decide) _ (by simp)

end BackendHealthState

end Rauta
