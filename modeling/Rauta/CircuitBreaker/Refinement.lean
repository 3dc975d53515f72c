import Rauta.CircuitBreaker.Sequential

/-!
# The breaker of the textbook

`BreakerPhase` is the circuit breaker as one would explain it: three states with unbounded counters
and the time of the last failure. The two words of a breaker represent such a phase (`Represents`),
and every call keeps to it, so that a sequence of calls gets the same answers and shows the same
states. The one limit is the timestamp, in which the clock must fit.
-/

namespace Rauta

open Simulation Transition

/-! ## The textbook breaker -/

/-- Closed with a number of consecutive failures; Open since the last failure at a time; Half-Open
with the successes and the admitted requests so far. -/
inductive BreakerPhase where
  | closed (failures : Nat)
  | opened (lastFailureUs : Nat)
  | halfOpen (successes admitted : Nat)

namespace BreakerPhase

/-- What `state()` shows. -/
def state : BreakerPhase → CircuitState
  | closed _ => .closed
  | opened _ => .opened
  | halfOpen _ _ => .halfOpen

variable (failureThreshold timeout timeUs : Nat)

/-- A request is asked for. -/
def allowRequest : BreakerPhase → BreakerPhase × BreakerResult
  | closed failures => (closed failures, .allowed)
  | opened lastFailureUs =>
    if lastFailureUs * 1000 + timeout ≤ timeUs * 1000 then (halfOpen 0 1, .allowed)
    else (opened lastFailureUs, .rejected)
  | halfOpen successes admitted =>
    if admitted < 3 then (halfOpen successes (admitted + 1), .allowed)
    else (halfOpen successes admitted, .rejected)

/-- A success is reported. -/
def recordSuccess : BreakerPhase → BreakerPhase
  | closed _ => closed 0
  | opened lastFailureUs => opened lastFailureUs
  | halfOpen successes admitted =>
    if successes + 1 = 3 then closed 0 else halfOpen (successes + 1) admitted

/-- A failure is reported. -/
def recordFailure : BreakerPhase → BreakerPhase
  | closed failures =>
    if failures + 1 = failureThreshold then opened timeUs else closed (failures + 1)
  | opened _ => opened timeUs
  | halfOpen _ _ => opened timeUs

/-- A call. -/
def call (phase : BreakerPhase) : BreakerOp → BreakerPhase × BreakerResult
  | .allowRequest => phase.allowRequest timeout timeUs
  | .recordSuccess => (phase.recordSuccess, .recorded)
  | .recordFailure => (phase.recordFailure failureThreshold timeUs, .recorded)

end BreakerPhase

/-- The textbook breaker as a machine that answers call by call. -/
def textbookBreaker (failureThreshold timeout : Nat) :
    Reactive BreakerPhase TimedCall Observation where
  step phase c :=
    let (phase', result) := phase.call failureThreshold timeout c.timeUs c.op
    (phase', ⟨result, phase'.state⟩)

/-- How the two words represent a phase. The failures that led to Open are of no further use. -/
def Represents (failureThreshold : Nat) (sh : BreakerShared) : BreakerPhase → Prop
  | .closed failures => failures < failureThreshold ∧ sh.packed = packState stateClosed failures 0 0
  | .opened lastFailureUs =>
    (∃ failures, sh.packed = packState stateOpen failures 0 0) ∧
      sh.lastFailureUs = lastFailureUs + 1
  | .halfOpen successes admitted =>
    successes < 3 ∧ admitted ≤ 3 ∧ sh.packed = packState stateHalfOpen 0 successes admitted

section Refinement

variable {failureThreshold timeout : Nat} {sh : BreakerShared} {phase : BreakerPhase}

theorem Represents.state_eq (h : Represents failureThreshold sh phase) :
    sh.state = phase.state := by
  have hpacked : ∃ state failures successes halfOpenReqs, state < 4 ∧
      stateFromU64 state = phase.state ∧
        sh.packed = packState state failures successes halfOpenReqs := by
    cases phase with
    | closed failures => exact ⟨_, _, _, _, by decide, rfl, h.2⟩
    | opened lastFailureUs =>
        obtain ⟨⟨failures, hpacked⟩, -⟩ := h
        exact ⟨_, _, _, _, by decide, rfl, hpacked⟩
    | halfOpen successes admitted => exact ⟨_, _, _, _, by decide, rfl, h.2.2⟩
  obtain ⟨state, failures, successes, halfOpenReqs, hlt, hstate, hpacked⟩ := hpacked
  rw [BreakerShared.state, hpacked, unpackStateField_packState _ _ _ hlt, hstate]

/-- `should_attempt_reset` compares the times. -/
theorem shouldAttemptReset_iff (htimeout : 0 < timeout) (lastFailureUs timeUs : Nat) :
    (CircuitBreaker.new failureThreshold timeout).shouldAttemptReset (lastFailureUs + 1)
        (timeUs * 1000) ↔ lastFailureUs * 1000 + timeout ≤ timeUs * 1000 := by
  simp only [CircuitBreaker.shouldAttemptReset, CircuitBreaker.new, Nat.add_sub_cancel]
  by_cases hlater : timeUs * 1000 > lastFailureUs * 1000
  · simp [hlater]
    omega
  · simp [hlater]
    omega

/-- The call of a breaker returns, with the phase and the result of the textbook. -/
def Follows (failureThreshold timeout : Nat) (sh : BreakerShared) (op : BreakerOp)
    (expected : BreakerPhase × BreakerResult) : Prop :=
  ((CircuitBreaker.new failureThreshold timeout).outcome sh op).2 = expected.2 ∧
    Represents failureThreshold ((CircuitBreaker.new failureThreshold timeout).outcome sh op).1
      expected.1

theorem follows_of_done {op : BreakerOp} {result : BreakerResult}
    (hnext : (CircuitBreaker.new failureThreshold timeout).next sh.packed op = .done result)
    (h : Represents failureThreshold (sh.entered op) phase) :
    Follows failureThreshold timeout sh op (phase, result) := by
  rw [Follows, CircuitBreaker.outcome_of_done hnext]
  exact ⟨rfl, h⟩

theorem follows_of_exchange {op : BreakerOp} {current word : Nat} {clears : Bool}
    (hnext : (CircuitBreaker.new failureThreshold timeout).next sh.packed op =
      .exchange current word clears)
    (h : Represents failureThreshold (sh.exchanged op word clears) phase) :
    Follows failureThreshold timeout sh op (phase, op.result) := by
  rw [Follows, CircuitBreaker.outcome_of_exchange hnext]
  exact ⟨rfl, h⟩

/-- The fields of a packed word, if its counters fit. -/
structure HasFields (packed state failures successes halfOpenReqs : Nat) : Prop where
  state_eq : unpackStateField packed = state
  failures_eq : unpackFailures packed = failures
  successes_eq : unpackSuccesses packed = successes
  reqs_eq : unpackHalfOpenReqs packed = halfOpenReqs

theorem hasFields_packState {state failures successes halfOpenReqs : Nat} (hstate : state < 4)
    (hf : failures < 2 ^ 16) (hs : successes < 2 ^ 16) (hr : halfOpenReqs < 2 ^ 16) :
    HasFields (packState state failures successes halfOpenReqs) state failures successes
      halfOpenReqs where
  state_eq := unpackStateField_packState _ _ _ hstate
  failures_eq := by rw [unpackFailures_packState _ _ _ hstate, Nat.mod_eq_of_lt hf]
  successes_eq := by rw [unpackSuccesses_packState _ _ _ hstate, Nat.mod_eq_of_lt hs]
  reqs_eq := by rw [unpackHalfOpenReqs_packState _ _ _ hstate, Nat.mod_eq_of_lt hr]

theorem Represents.hasFields_closed (hmax : failureThreshold ≤ 65535) {failures : Nat}
    (h : Represents failureThreshold sh (.closed failures)) :
    HasFields sh.packed stateClosed failures 0 0 := by
  obtain ⟨hlt, hpacked⟩ := h
  rw [hpacked]
  exact hasFields_packState (by decide) (by omega) (by decide) (by decide)

theorem Represents.hasFields_halfOpen {successes admitted : Nat}
    (h : Represents failureThreshold sh (.halfOpen successes admitted)) :
    HasFields sh.packed stateHalfOpen 0 successes admitted := by
  obtain ⟨hs, ha, hpacked⟩ := h
  rw [hpacked]
  exact hasFields_packState (by decide) (by decide) (by omega) (by omega)

/-- `allow_request` keeps to the textbook. -/
theorem Represents.allowRequest (hmax : failureThreshold ≤ 65535) (htimeout : 0 < timeout)
    (h : Represents failureThreshold sh phase) (timeUs : Nat) :
    Follows failureThreshold timeout (sh.at timeUs) .allowRequest
      (phase.allowRequest timeout timeUs) := by
  cases phase with
  | closed failures =>
      refine follows_of_done ?_ h
      simp [BreakerShared.at, CircuitBreaker.next, CircuitBreaker.allowNext,
        (h.hasFields_closed hmax).state_eq]
  | opened lastFailureUs =>
      obtain ⟨⟨failures, hpacked⟩, htime⟩ := h
      have hnext : (CircuitBreaker.new failureThreshold timeout).next (sh.at timeUs).packed
          .allowRequest = .loadFailure (sh.at timeUs).packed := by
        simp (disch := decide) [BreakerShared.at, CircuitBreaker.next, CircuitBreaker.allowNext,
          hpacked, unpackStateField_packState]
      have hreset : (CircuitBreaker.new failureThreshold timeout).shouldAttemptReset
          ((sh.at timeUs).entered .allowRequest).lastFailureUs (sh.at timeUs).now ↔
            lastFailureUs * 1000 + timeout ≤ timeUs * 1000 := by
        rw [← shouldAttemptReset_iff htimeout, ← htime]
        rfl
      rw [Follows, CircuitBreaker.outcome_of_wait hnext, BreakerPhase.allowRequest]
      by_cases helapsed : lastFailureUs * 1000 + timeout ≤ timeUs * 1000
      · rw [if_pos (hreset.mpr helapsed), if_pos helapsed]
        exact ⟨rfl, by decide, by decide, BreakerShared.exchanged_packed⟩
      · rw [if_neg (mt hreset.mp helapsed), if_neg helapsed]
        exact ⟨rfl, ⟨failures, hpacked⟩, htime⟩
  | halfOpen successes admitted =>
      have hfields := h.hasFields_halfOpen
      obtain ⟨hsuccesses, hadmitted, hpacked⟩ := h
      rw [BreakerPhase.allowRequest]
      by_cases hfew : admitted < 3
      · rw [if_pos hfew]
        have hnext : (CircuitBreaker.new failureThreshold timeout).next (sh.at timeUs).packed
            .allowRequest = .exchange sh.packed (packState stateHalfOpen 0 successes (admitted + 1))
              false := by
          simp [BreakerShared.at, CircuitBreaker.next, CircuitBreaker.allowNext, CircuitBreaker.new,
            hfields.state_eq, hfields.failures_eq, hfields.successes_eq, hfields.reqs_eq, hfew]
        exact follows_of_exchange hnext ⟨hsuccesses, by omega, BreakerShared.exchanged_packed⟩
      · rw [if_neg hfew]
        refine follows_of_done ?_ ⟨hsuccesses, hadmitted, hpacked⟩
        simp [BreakerShared.at, CircuitBreaker.next, CircuitBreaker.allowNext, CircuitBreaker.new,
          hfields.state_eq, hfields.reqs_eq, hfew]

/-- `record_success` keeps to the textbook. -/
theorem Represents.recordSuccess (hmin : 1 ≤ failureThreshold) (hmax : failureThreshold ≤ 65535)
    (h : Represents failureThreshold sh phase) (timeUs : Nat) :
    Follows failureThreshold timeout (sh.at timeUs) .recordSuccess
      (phase.recordSuccess, .recorded) := by
  cases phase with
  | closed failures =>
      have hnext : (CircuitBreaker.new failureThreshold timeout).next (sh.at timeUs).packed
          .recordSuccess = .exchange sh.packed (packState stateClosed 0 0 0) false := by
        simp [BreakerShared.at, CircuitBreaker.next, CircuitBreaker.successNext,
          (h.hasFields_closed hmax).state_eq]
      exact follows_of_exchange hnext ⟨hmin, BreakerShared.exchanged_packed⟩
  | opened lastFailureUs =>
      refine follows_of_done ?_ h
      obtain ⟨⟨failures, hpacked⟩, -⟩ := h
      simp (disch := decide) [BreakerShared.at, CircuitBreaker.next, CircuitBreaker.successNext,
        hpacked, unpackStateField_packState]
  | halfOpen successes admitted =>
      have hfields := h.hasFields_halfOpen
      obtain ⟨hsuccesses, hadmitted, hpacked⟩ := h
      rw [BreakerPhase.recordSuccess]
      by_cases hlast : successes + 1 = 3
      · rw [if_pos hlast]
        have hnext : (CircuitBreaker.new failureThreshold timeout).next (sh.at timeUs).packed
            .recordSuccess = .exchange sh.packed (packState stateClosed 0 0 0) true := by
          simp [BreakerShared.at, CircuitBreaker.next, CircuitBreaker.successNext,
            CircuitBreaker.new, hfields.state_eq, hfields.successes_eq, hlast]
        exact follows_of_exchange hnext ⟨hmin, BreakerShared.exchanged_packed⟩
      · rw [if_neg hlast]
        have hfew : ¬ 3 ≤ successes + 1 := by omega
        have hnext : (CircuitBreaker.new failureThreshold timeout).next (sh.at timeUs).packed
            .recordSuccess =
              .exchange sh.packed (packState stateHalfOpen 0 (successes + 1) admitted) false := by
          simp [BreakerShared.at, CircuitBreaker.next, CircuitBreaker.successNext,
            CircuitBreaker.new, hfields.state_eq, hfields.failures_eq, hfields.successes_eq,
            hfields.reqs_eq, hfew]
        exact follows_of_exchange hnext ⟨by omega, hadmitted, BreakerShared.exchanged_packed⟩

/-- Until the clock exceeds its 64 bits, so does `record_failure`. -/
theorem Represents.recordFailure (hmax : failureThreshold ≤ 65535)
    (h : Represents failureThreshold sh phase) {timeUs : Nat} (hearly : timeUs + 1 < 2 ^ 64) :
    Follows failureThreshold timeout (sh.at timeUs) .recordFailure
      (phase.recordFailure failureThreshold timeUs, .recorded) := by
  have htime : ((sh.at timeUs).entered .recordFailure).lastFailureUs = timeUs + 1 := by
    show elapsedUs (timeUs * 1000 / 1000) = _
    rw [Nat.mul_div_cancel _ (by decide), elapsedUs_of_lt hearly]
  have htime' : ∀ word, ((sh.at timeUs).exchanged .recordFailure word false).lastFailureUs =
      timeUs + 1 := by
    intro word
    exact BreakerShared.swap_lastFailureUs.trans htime
  cases phase with
  | closed failures =>
      have hfields := h.hasFields_closed hmax
      rw [BreakerPhase.recordFailure]
      by_cases htrip : failures + 1 = failureThreshold
      · rw [if_pos htrip]
        have hnext : (CircuitBreaker.new failureThreshold timeout).next (sh.at timeUs).packed
            .recordFailure =
              .exchange sh.packed (packState stateOpen (failures + 1) 0 0) false := by
          simp [BreakerShared.at, CircuitBreaker.next, CircuitBreaker.failureNext,
            CircuitBreaker.new, hfields.state_eq, hfields.failures_eq, htrip]
        exact follows_of_exchange hnext ⟨⟨_, BreakerShared.exchanged_packed⟩, htime' _⟩
      · rw [if_neg htrip]
        have hfew : failures + 1 < failureThreshold := lt_of_le_of_ne h.1 htrip
        have hnext : (CircuitBreaker.new failureThreshold timeout).next (sh.at timeUs).packed
            .recordFailure =
              .exchange sh.packed (packState stateClosed (failures + 1) 0 0) false := by
          simp [BreakerShared.at, CircuitBreaker.next, CircuitBreaker.failureNext,
            CircuitBreaker.new, hfields.state_eq, hfields.failures_eq, Nat.not_le.mpr hfew]
        exact follows_of_exchange hnext ⟨hfew, BreakerShared.exchanged_packed⟩
  | opened lastFailureUs =>
      obtain ⟨⟨failures, hpacked⟩, -⟩ := h
      refine follows_of_done ?_ ⟨⟨failures, hpacked⟩, htime⟩
      simp (disch := decide) [BreakerShared.at, CircuitBreaker.next, CircuitBreaker.failureNext,
        hpacked, unpackStateField_packState]
  | halfOpen successes admitted =>
      have hfields := h.hasFields_halfOpen
      have hnext : (CircuitBreaker.new failureThreshold timeout).next (sh.at timeUs).packed
          .recordFailure = .exchange sh.packed (packState stateOpen 0 0 0) false := by
        simp [BreakerShared.at, CircuitBreaker.next, CircuitBreaker.failureNext, hfields.state_eq]
      exact follows_of_exchange hnext ⟨⟨_, BreakerShared.exchanged_packed⟩, htime' _⟩

/-- The time of the call fits into the timestamp, if it is a failure. -/
def TimedCall.Early (c : TimedCall) : Prop := c.op = .recordFailure → c.timeUs + 1 < 2 ^ 64

/-- **The packed breaker simulates the textbook**, call by call. -/
theorem sequential_simulates (hmin : 1 ≤ failureThreshold) (hmax : failureThreshold ≤ 65535)
    (htimeout : 0 < timeout) :
    (CircuitBreaker.new failureThreshold timeout).sequential.Simulates
      (textbookBreaker failureThreshold timeout) TimedCall.Early (Represents failureThreshold) := by
  intro sh phase c hearly h
  have hfollows : Follows failureThreshold timeout (sh.at c.timeUs) c.op
      (phase.call failureThreshold timeout c.timeUs c.op) := by
    cases hop : c.op with
    | allowRequest => exact h.allowRequest hmax htimeout c.timeUs
    | recordSuccess => exact h.recordSuccess hmin hmax c.timeUs
    | recordFailure => exact h.recordFailure hmax (hearly hop)
  exact ⟨congrArg₂ Observation.mk hfollows.1 hfollows.2.state_eq, hfollows.2⟩

/-- **Refinement**: sequential calls can be made, and return and show what the textbook says, as
long as failures are recorded before the timestamp runs out of bits. -/
theorem sequence_iff (hmin : 1 ≤ failureThreshold) (hmax : failureThreshold ≤ 65535)
    (htimeout : 0 < timeout) {calls : List TimedCall}
    (hsorted : calls.Pairwise fun c c' => c.timeUs ≤ c'.timeUs) (hearly : ∀ c ∈ calls, c.Early)
    {observations : List Observation} :
    Sequence (.new failureThreshold timeout) .initial calls observations ↔
      observations = (textbookBreaker failureThreshold timeout).observe (.closed 0) calls := by
  have hstart : Represents failureThreshold .initial (.closed 0) := ⟨hmin, rfl⟩
  rw [sequence_iff_observe (fun c _ => Nat.zero_le _) hsorted,
    (sequential_simulates hmin hmax htimeout).observe_eq hstart hearly]

end Refinement

/-- A breaker trips, waits, lets a request through and trips again. -/
theorem sequence_cycle : Sequence (.new 1 1000) .initial
    [⟨.recordFailure, 7⟩, ⟨.allowRequest, 7⟩, ⟨.allowRequest, 8⟩, ⟨.recordFailure, 9⟩]
    [⟨.recorded, .opened⟩, ⟨.rejected, .opened⟩, ⟨.allowed, .halfOpen⟩, ⟨.recorded, .opened⟩] :=
  (sequence_iff (by decide) (by decide) (by decide) (by decide)
    (by simp [TimedCall.Early])).mpr rfl

/-- **The last microsecond**: a failure at `2 ^ 64 - 1` is stored as "never failed", and the breaker
does not leave Open after the timeout. -/
theorem exists_sequence_unlike :
    ¬ ∀ failureThreshold timeout, 1 ≤ failureThreshold → failureThreshold ≤ 65535 → 0 < timeout →
      ∀ calls : List TimedCall, (calls.Pairwise fun c c' => c.timeUs ≤ c'.timeUs) →
      ∀ observations, Sequence (.new failureThreshold timeout) .initial calls observations →
        observations = (textbookBreaker failureThreshold timeout).observe (.closed 0) calls := by
  intro h
  let calls : List TimedCall := [⟨.recordFailure, 2 ^ 64 - 1⟩, ⟨.allowRequest, 2 ^ 64⟩]
  have hsorted : calls.Pairwise fun c c' => c.timeUs ≤ c'.timeUs := by decide
  have hsequence : Sequence (.new 1 1) .initial calls
      [⟨.recorded, .opened⟩, ⟨.rejected, .opened⟩] :=
    (sequence_iff_observe (fun c _ => Nat.zero_le _) hsorted).mpr (by decide +kernel)
  cases h 1 1 (by decide) (by decide) (by decide) calls hsorted _ hsequence

end Rauta
