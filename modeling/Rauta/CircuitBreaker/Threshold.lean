import Rauta.CircuitBreaker.Sequential
import Rauta.Lib.Streak

/-!
# The failure threshold

A breaker that only gets reports waits for a streak of failures, and counts it in 16 bits of its
word. The threshold has 32. As long as the count that reaches the threshold comes from one that
could be stored, the word shows the automaton of `Streak` (`Shows`). Beyond 65536 the stored count
wraps before it gets there, and the breaker stays closed for ever (`Sequence.closed`).
-/

namespace Rauta

/-- The call is a report. -/
def TimedCall.Reports (call : TimedCall) : Prop := call.op ≠ .allowRequest

/-- The state that the last call shows, starting from a state. -/
def lastState (start : CircuitState) (observations : List Observation) : CircuitState :=
  (observations.map Observation.state).getLastD start

theorem lastState_cons (start : CircuitState) (o : Observation) (observations : List Observation) :
    lastState start (o :: observations) = lastState o.state observations := by
  rw [lastState, List.map_cons, List.getLastD_cons, lastState]

/-- The word of a closed breaker with so many failures, or of an open one. -/
def Shows (packed : Nat) : Option Nat → Prop
  | none => unpackStateField packed = stateOpen
  | some n => unpackStateField packed = stateClosed ∧ unpackFailures packed = n

theorem shows_initial : Shows BreakerShared.initial.packed (some 0) := ⟨by decide, by decide⟩

theorem Shows.state_iff {sh : BreakerShared} {count : Option Nat} (h : Shows sh.packed count) :
    sh.state = .opened ↔ count = none := by
  cases count with
  | none =>
      have hopen : unpackStateField sh.packed = stateOpen := h
      simp [BreakerShared.state, hopen, stateFromU64]
  | some n =>
      have hclosed : unpackStateField sh.packed = stateClosed := h.1
      simp [BreakerShared.state, hclosed, stateFromU64]

section Report

variable {b : CircuitBreaker} {sh : BreakerShared}

/-- A report to an open breaker changes nothing. -/
theorem CircuitBreaker.outcome_open {op : BreakerOp} (hop : op ≠ .allowRequest)
    (h : unpackStateField sh.packed = stateOpen) : (b.outcome sh op).1.packed = sh.packed := by
  have hnext : b.next sh.packed op = .done .recorded := by
    cases op with
    | allowRequest => exact absurd rfl hop
    | recordSuccess => simp only [next, successNext, h]
    | recordFailure => simp only [next, failureNext, h]
  rw [outcome_of_done hnext, BreakerShared.entered_packed]

/-- A success in Closed starts the count anew. -/
theorem CircuitBreaker.outcome_success (h : unpackStateField sh.packed = stateClosed) :
    (b.outcome sh .recordSuccess).1.packed = packState stateClosed 0 0 0 := by
  have hnext : b.next sh.packed .recordSuccess =
      .exchange sh.packed (packState stateClosed 0 0 0) false := by
    simp only [next, successNext, h]
  rw [outcome_of_exchange hnext, BreakerShared.exchanged_packed]

/-- A failure in Closed is counted, and opens the breaker if it reaches the threshold. -/
theorem CircuitBreaker.outcome_failure (h : unpackStateField sh.packed = stateClosed) :
    (b.outcome sh .recordFailure).1.packed =
      packState
        (if b.failureThreshold ≤ unpackFailures sh.packed + 1 then stateOpen else stateClosed)
        (unpackFailures sh.packed + 1) 0 0 := by
  by_cases hreached : b.failureThreshold ≤ unpackFailures sh.packed + 1
  · have hnext : b.next sh.packed .recordFailure =
        .exchange sh.packed (packState stateOpen (unpackFailures sh.packed + 1) 0 0) false := by
      simp only [next, failureNext, h, ge_iff_le, hreached, ↓reduceIte]
    rw [outcome_of_exchange hnext, BreakerShared.exchanged_packed, if_pos hreached]
  · have hnext : b.next sh.packed .recordFailure =
        .exchange sh.packed (packState stateClosed (unpackFailures sh.packed + 1) 0 0) false := by
      simp only [next, failureNext, h, ge_iff_le, hreached, ↓reduceIte]
    rw [outcome_of_exchange hnext, BreakerShared.exchanged_packed, if_neg hreached]

/-- One report, for a threshold that the count can reach. -/
theorem Shows.outcome (hsmall : b.failureThreshold ≤ 65536) {op : BreakerOp}
    (hop : op ≠ .allowRequest) {count : Option Nat} (h : Shows sh.packed count) :
    Shows (b.outcome sh op).1.packed
      (Streak.step (max 1 b.failureThreshold) BreakerOp.recordFailure count op) := by
  cases count with
  | none =>
      rw [CircuitBreaker.outcome_open hop h]
      exact h
  | some n =>
      obtain ⟨hclosed, rfl⟩ := h
      cases op with
      | allowRequest => exact absurd rfl hop
      | recordSuccess =>
          rw [CircuitBreaker.outcome_success hclosed]
          exact ⟨by decide, by decide⟩
      | recordFailure =>
          rw [CircuitBreaker.outcome_failure hclosed]
          by_cases hreached : b.failureThreshold ≤ unpackFailures sh.packed + 1
          · have hstreak : max 1 b.failureThreshold ≤ unpackFailures sh.packed + 1 := by omega
            simp only [Streak.step, ↓reduceIte, hreached, hstreak]
            exact unpackStateField_packState _ _ _ (by decide)
          · have hstreak : ¬ max 1 b.failureThreshold ≤ unpackFailures sh.packed + 1 := by omega
            simp only [Streak.step, ↓reduceIte, hreached, hstreak]
            refine ⟨unpackStateField_packState _ _ _ (by decide), ?_⟩
            -- the count is below the threshold, so it still has 16 bits
            rw [unpackFailures_packState _ _ _ (by decide)]
            exact Nat.mod_eq_of_lt (by omega)

end Report

/-! ## Histories of reports -/

/-- The breaker is open exactly if the automaton has seen its streak. -/
theorem Sequence.lastState_iff {b : CircuitBreaker} (hsmall : b.failureThreshold ≤ 65536)
    {sh : BreakerShared} {calls : List TimedCall} {observations : List Observation}
    (hseq : Sequence b sh calls observations) (hreports : ∀ c ∈ calls, c.Reports)
    {count : Option Nat} (h : Shows sh.packed count) :
    lastState sh.state observations = .opened ↔
      Streak.run (max 1 b.failureThreshold) BreakerOp.recordFailure count
        (calls.map TimedCall.op) = none := by
  induction hseq generalizing count with
  | nil => exact h.state_iff
  | @cons sh sh' call calls result observations _ hreturns _ ih =>
      obtain ⟨hreport, hreports⟩ := List.forall_mem_cons.mp hreports
      have hbefore : Shows (sh.at call.timeUs).packed count := h
      have hshows := hbefore.outcome hsmall hreport
      rw [returns_iff.mp hreturns] at hshows
      rw [List.map_cons, Streak.run_cons, lastState_cons]
      exact ih hreports hshows

/-- A threshold that the count cannot reach: the breaker stays closed. -/
theorem Sequence.closed {b : CircuitBreaker} (hlarge : 65536 < b.failureThreshold)
    {sh : BreakerShared} {calls : List TimedCall} {observations : List Observation}
    (hseq : Sequence b sh calls observations) (hreports : ∀ c ∈ calls, c.Reports)
    (h : unpackStateField sh.packed = stateClosed) :
    lastState sh.state observations = .closed := by
  induction hseq with
  | nil => simp [lastState, BreakerShared.state, h, stateFromU64]
  | @cons sh sh' call calls result observations _ hreturns _ ih =>
      obtain ⟨hreport, hreports⟩ := List.forall_mem_cons.mp hreports
      have hbefore : unpackStateField (sh.at call.timeUs).packed = stateClosed := h
      have hclosed : unpackStateField (b.outcome (sh.at call.timeUs) call.op).1.packed =
          stateClosed := by
        cases hop : call.op with
        | allowRequest => exact absurd hop hreport
        | recordSuccess =>
            rw [CircuitBreaker.outcome_success hbefore]
            decide
        | recordFailure =>
            have hlt := unpackFailures_lt (sh.at call.timeUs).packed
            rw [CircuitBreaker.outcome_failure hbefore, if_neg (by omega)]
            exact unpackStateField_packState _ _ _ (by decide)
      rw [returns_iff.mp hreturns] at hclosed
      rw [lastState_cons]
      exact ih hreports hclosed

/-- Failures that are reported one after the other, at the time of creation. -/
def failuresAtOnce (n : Nat) : List TimedCall := List.replicate n ⟨.recordFailure, 0⟩

theorem reports_failuresAtOnce (n : Nat) : ∀ c ∈ failuresAtOnce n, c.Reports := by
  intro c hc
  rw [List.eq_of_mem_replicate hc]
  exact BreakerOp.noConfusion

/-- With too large a threshold, any number of failures leaves the breaker closed. -/
theorem exists_failures_closed {b : CircuitBreaker} (hlarge : 65536 < b.failureThreshold)
    (n : Nat) :
    ∃ observations, Sequence b .initial (failuresAtOnce n) observations ∧
      lastState .closed observations = .closed := by
  have hlater : ∀ c ∈ failuresAtOnce n, BreakerShared.initial.now ≤ c.timeUs * 1000 :=
    fun c _ => Nat.zero_le _
  have hsorted : (failuresAtOnce n).Pairwise fun c c' => c.timeUs ≤ c'.timeUs :=
    List.pairwise_replicate.mpr (Or.inr (Nat.le_refl _))
  have hseq := (sequence_iff_observe hlater hsorted (b := b)).mpr rfl
  exact ⟨_, hseq, hseq.closed hlarge (reports_failuresAtOnce n) (by decide)⟩

/-- **The breaker opens at its threshold**, in all histories of reports, exactly if the threshold is
at most 65536. -/
theorem opens_at_threshold_iff (failureThreshold : UInt32) (timeout : Nat) :
    (∀ calls observations, (∀ c ∈ calls, c.Reports) →
      Sequence (.new failureThreshold.toNat timeout) .initial calls observations →
      (lastState .closed observations = .opened ↔
        List.replicate (max 1 failureThreshold.toNat) BreakerOp.recordFailure <:+:
          calls.map TimedCall.op)) ↔
      failureThreshold.toNat ≤ 65536 := by
  constructor
  · intro h
    by_contra hlarge
    obtain ⟨observations, hseq, hclosed⟩ :=
      exists_failures_closed (b := .new failureThreshold.toNat timeout) (Nat.not_le.mp hlarge)
        failureThreshold.toNat
    have hstreak : List.replicate (max 1 failureThreshold.toNat) BreakerOp.recordFailure <:+:
        (failuresAtOnce failureThreshold.toNat).map TimedCall.op := by
      rw [failuresAtOnce, List.map_replicate, max_eq_right (by omega)]
    have hopen := (h _ _ (reports_failuresAtOnce _) hseq).mpr hstreak
    rw [hclosed] at hopen
    cases hopen
  · intro hsmall calls observations hreports hseq
    have hopen := hseq.lastState_iff hsmall hreports shows_initial
    rw [Streak.run_eq_none_iff (by omega)] at hopen
    exact hopen

/-- **The breaker that never opens**: its threshold is 65537, and so many failures are reported. -/
theorem exists_threshold_not_reached : ∃ calls observations, (∀ c ∈ calls, TimedCall.Reports c) ∧
    Sequence (.new 65537 0) .initial calls observations ∧
    List.replicate (max 1 65537) BreakerOp.recordFailure <:+: calls.map TimedCall.op ∧
    lastState .closed observations = .closed := by
  obtain ⟨observations, hseq, hclosed⟩ :=
    exists_failures_closed (b := .new 65537 0) (by decide) 65537
  refine ⟨failuresAtOnce 65537, observations, reports_failuresAtOnce _, hseq, ?_, hclosed⟩
  rw [failuresAtOnce, List.map_replicate]
  exact List.infix_rfl

end Rauta
