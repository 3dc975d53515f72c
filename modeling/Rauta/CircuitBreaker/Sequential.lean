import Rauta.CircuitBreaker.Basic
import Rauta.Lib.Simulation

/-!
# Calls one at a time

A call that runs alone, whatever compare-exchanges fail for no reason on the way, ends with what
`CircuitBreaker.outcome` says, and it can end (`returns_iff`). So a breaker that is used by one call
at a time answers like a machine without steps in between (`sequence_iff_observe`).
-/

namespace Rauta

open Simulation Transition

/-! ## A call that runs alone -/

/-- The steps of a single call. -/
def aloneSystem (b : CircuitBreaker) : System (BreakerShared × BreakerCall) Bool :=
  ⟨fun s spurious => breakerStep b s.1 s.2 spurious⟩

/-- A call can return this result and leave these words behind. -/
def Returns (b : CircuitBreaker) (sh : BreakerShared) (op : BreakerOp) (sh' : BreakerShared)
    (result : BreakerResult) : Prop :=
  ∃ t, (aloneSystem b).Reach System.Anything (sh, .new op) (sh', t) ∧ t.pc = .done result

/-- The words when a call enters its loop: a failure has stored its timestamp. -/
def BreakerShared.entered (sh : BreakerShared) (op : BreakerOp) : BreakerShared :=
  if op = .recordFailure then
    { sh with lastFailureUs := elapsedUs (sh.now / 1000), storedUs := sh.now / 1000 }
  else sh

/-- The clock reading that a call keeps. -/
def BreakerShared.reading (sh : BreakerShared) (op : BreakerOp) : Nat :=
  if op = .recordFailure then sh.now / 1000 else 0

/-- The words after a compare-exchange, and after the store that may follow. -/
def BreakerShared.exchanged (sh : BreakerShared) (op : BreakerOp) (word : Nat) (clears : Bool) :
    BreakerShared :=
  if clears then { (sh.entered op).swap (sh.reading op) word with lastFailureUs := 0 }
  else (sh.entered op).swap (sh.reading op) word

/-- What a call does if nothing interferes. -/
def CircuitBreaker.outcome (b : CircuitBreaker) (sh : BreakerShared) (op : BreakerOp) :
    BreakerShared × BreakerResult :=
  match b.next sh.packed op with
  | .done result => (sh.entered op, result)
  | .exchange _ word clears => (sh.exchanged op word clears, op.result)
  | _ =>
    if b.shouldAttemptReset (sh.entered op).lastFailureUs sh.now then
      (sh.exchanged op CircuitBreaker.probing false, op.result)
    else (sh.entered op, .rejected)

section Alone

variable {b : CircuitBreaker} {sh : BreakerShared} {op : BreakerOp}

@[simp] theorem BreakerShared.entered_packed : (sh.entered op).packed = sh.packed := by
  unfold entered
  split <;> rfl

@[simp] theorem BreakerShared.entered_now : (sh.entered op).now = sh.now := by
  unfold entered
  split <;> rfl

@[simp] theorem BreakerShared.exchanged_packed {word : Nat} {clears : Bool} :
    (sh.exchanged op word clears).packed = word := by
  unfold exchanged
  split <;> simp

/-- The call in its loop. -/
def BreakerCall.looping (sh : BreakerShared) (op : BreakerOp) (pc : BreakerPc) (epoch : Nat) :
    BreakerCall :=
  ⟨op, pc, sh.reading op, epoch⟩

/-- Where a call that runs alone can be. In the loop it knows the current word, and what it is about
to do leads to the outcome. -/
inductive OnTheWay (b : CircuitBreaker) (sh : BreakerShared) (op : BreakerOp) :
    BreakerShared × BreakerCall → Prop
  | start : OnTheWay b sh op (sh, .new op)
  | store : op = .recordFailure → OnTheWay b sh op (sh, .looping sh op .store 0)
  | load {epoch : Nat} : OnTheWay b sh op (sh.entered op, .looping sh op .load epoch)
  | wait {epoch : Nat} : b.next sh.packed op = .loadFailure sh.packed →
      OnTheWay b sh op (sh.entered op, .looping sh op (.loadFailure sh.packed) epoch)
  | check {epoch : Nat} : b.next sh.packed op = .loadFailure sh.packed → OnTheWay b sh op
      (sh.entered op, .looping sh op (.readClock sh.packed (sh.entered op).lastFailureUs) epoch)
  | exchange {word epoch : Nat} {clears : Bool} :
      b.outcome sh op = (sh.exchanged op word clears, op.result) →
      (clears → op = .recordSuccess) →
      OnTheWay b sh op (sh.entered op, .looping sh op (.exchange sh.packed word clears) epoch)
  | clear {word epoch : Nat} : b.outcome sh op = (sh.exchanged op word true, .recorded) →
      OnTheWay b sh op
        ((sh.entered op).swap (sh.reading op) word, .looping sh op .clear epoch)
  | done {sh' : BreakerShared} {result : BreakerResult} {epoch : Nat} :
      b.outcome sh op = (sh', result) →
      OnTheWay b sh op (sh', .looping sh op (.done result) epoch)

/-- The outcome, by what the call does with the word it loads. -/
theorem CircuitBreaker.outcome_of_done {result : BreakerResult}
    (h : b.next sh.packed op = .done result) : b.outcome sh op = (sh.entered op, result) := by
  simp only [outcome, h]

theorem CircuitBreaker.outcome_of_exchange {current word : Nat} {clears : Bool}
    (h : b.next sh.packed op = .exchange current word clears) :
    b.outcome sh op = (sh.exchanged op word clears, op.result) := by
  simp only [outcome, h]

theorem CircuitBreaker.outcome_of_wait {current : Nat}
    (h : b.next sh.packed op = .loadFailure current) : b.outcome sh op =
      if b.shouldAttemptReset (sh.entered op).lastFailureUs sh.now then
        (sh.exchanged op CircuitBreaker.probing false, op.result)
      else (sh.entered op, .rejected) := by
  simp only [outcome, h]

/-- The first steps lead into the loop. -/
theorem breakerStep_new (hop : op ≠ .recordFailure) (spurious : Bool) :
    breakerStep b sh (.new op) spurious = some (sh.entered op, .looping sh op .load 0) := by
  simp [breakerStep, BreakerCall.new, BreakerCall.looping, BreakerShared.reading,
    BreakerShared.entered, hop]

theorem breakerStep_new_failure (hop : op = .recordFailure) (spurious : Bool) :
    breakerStep b sh (.new op) spurious = some (sh, .looping sh op .store 0) := by
  simp [breakerStep, BreakerCall.new, BreakerCall.looping, BreakerShared.reading, hop]

theorem breakerStep_store (hop : op = .recordFailure) (spurious : Bool) :
    breakerStep b sh (.looping sh op .store 0) spurious =
      some (sh.entered op, .looping sh op .load 0) := by
  simp [breakerStep, BreakerCall.looping, BreakerShared.reading, BreakerShared.entered, hop]

theorem breakerStep_load (epoch : Nat) (spurious : Bool) :
    breakerStep b (sh.entered op) (.looping sh op .load epoch) spurious =
      some (sh.entered op, .looping sh op (b.next sh.packed op) epoch) := by
  simp [breakerStep, BreakerCall.looping]

/-- Every step keeps the call on the way. -/
theorem OnTheWay.step {s s' : BreakerShared × BreakerCall} {spurious : Bool}
    (h : OnTheWay b sh op s) (hstep : breakerStep b s.1 s.2 spurious = some s') :
    OnTheWay b sh op s' := by
  cases h with
  | start =>
      by_cases hop : op = .recordFailure
      · rw [breakerStep_new_failure hop] at hstep
        cases hstep
        exact .store hop
      · rw [breakerStep_new hop] at hstep
        cases hstep
        exact .load
  | store hop =>
      rw [breakerStep_store hop] at hstep
      cases hstep
      exact .load
  | @load epoch =>
      rw [breakerStep_load] at hstep
      cases hstep
      have hcases := b.next_cases op sh.packed
      generalize hnext : b.next sh.packed op = pc at hcases
      cases hcases with
      | done _ => exact .done (CircuitBreaker.outcome_of_done hnext)
      | wait _ _ => exact .wait hnext
      | exchange hexchange _ =>
          refine .exchange (CircuitBreaker.outcome_of_exchange hnext) ?_
          rintro rfl
          exact hexchange.of_clears
  | wait hnext =>
      cases hstep
      exact .check hnext
  | @check epoch hnext =>
      have houtcome := CircuitBreaker.outcome_of_wait hnext
      simp only [breakerStep, BreakerCall.looping, BreakerShared.entered_now] at hstep
      by_cases hreset : b.shouldAttemptReset (sh.entered op).lastFailureUs sh.now
      · rw [if_pos hreset] at hstep houtcome
        cases hstep
        exact .exchange houtcome (fun h => absurd h Bool.false_ne_true)
      · rw [if_neg hreset] at hstep houtcome
        cases hstep
        exact .done houtcome
  | @exchange word epoch clears houtcome hclears =>
      simp only [breakerStep, BreakerCall.looping, BreakerShared.entered_packed, true_and] at hstep
      by_cases hspurious : spurious = false
      · rw [if_pos hspurious] at hstep
        cases hstep
        cases clears with
        | true =>
            obtain rfl := hclears rfl
            exact .clear houtcome
        | false => exact .done houtcome
      · rw [if_neg hspurious] at hstep
        cases hstep
        exact .load
  | @clear word epoch houtcome =>
      cases hstep
      exact .done houtcome
  | done => cases hstep

/-- One more step, whose compare-exchange does not fail for no reason. -/
theorem reach_step {s₀ s' : BreakerShared × BreakerCall} {sh₁ : BreakerShared} {t : BreakerCall}
    (h : (aloneSystem b).Reach System.Anything s₀ (sh₁, t))
    (hstep : breakerStep b sh₁ t false = some s') :
    (aloneSystem b).Reach System.Anything s₀ s' :=
  h.tail trivial hstep

/-- The call reaches its loop. -/
theorem reach_load (b : CircuitBreaker) (sh : BreakerShared) (op : BreakerOp) :
    (aloneSystem b).Reach System.Anything (sh, .new op)
      (sh.entered op, .looping sh op .load 0) := by
  by_cases hop : op = .recordFailure
  · exact reach_step (reach_step .refl (breakerStep_new_failure hop false))
      (breakerStep_store hop false)
  · exact reach_step .refl (breakerStep_new hop false)

/-- A compare-exchange of the current word, with what follows it. -/
theorem reach_exchanged (b : CircuitBreaker) (sh : BreakerShared) (word epoch : Nat) {clears : Bool}
    (hclears : clears → op = .recordSuccess) :
    ∃ t, (aloneSystem b).Reach System.Anything
      (sh.entered op, .looping sh op (.exchange sh.packed word clears) epoch)
      (sh.exchanged op word clears, t) ∧ t.pc = .done op.result := by
  have hswap : breakerStep b (sh.entered op)
      (.looping sh op (.exchange sh.packed word clears) epoch) false =
      some ((sh.entered op).swap (sh.reading op) word,
        .looping sh op (if clears then .clear else .done op.result) epoch) := by
    simp [breakerStep, BreakerCall.looping]
  have hreach := reach_step .refl hswap
  cases clears with
  | false => exact ⟨_, hreach, rfl⟩
  | true =>
      obtain rfl := hclears rfl
      exact ⟨_, reach_step hreach rfl, rfl⟩

/-- **A call that runs alone** ends, and in one way only. -/
theorem returns_iff {sh' : BreakerShared} {result : BreakerResult} :
    Returns b sh op sh' result ↔ b.outcome sh op = (sh', result) := by
  constructor
  · rintro ⟨t, hreach, hdone⟩
    have hway : OnTheWay b sh op (sh', t) := by
      refine hreach.invariant .start ?_
      intro s spurious s' hs _ hstep
      exact hs.step hstep
    cases hway with
    | done houtcome =>
        cases hdone
        exact houtcome
    | _ => cases hdone
  · intro houtcome
    -- whatever the word is, the loop is left after one round
    have hload := reach_step (reach_load b sh op) (breakerStep_load 0 false)
    have hcases := b.next_cases op sh.packed
    generalize hnext : b.next sh.packed op = pc at hcases hload
    cases hcases with
    | done _ =>
        rw [CircuitBreaker.outcome_of_done hnext] at houtcome
        cases houtcome
        exact ⟨_, hload, rfl⟩
    | wait _ _ =>
        rw [CircuitBreaker.outcome_of_wait hnext] at houtcome
        have hcheck := reach_step hload rfl
        by_cases hreset : b.shouldAttemptReset (sh.entered op).lastFailureUs sh.now
        · rw [if_pos hreset] at houtcome
          cases houtcome
          have hprobe := reach_step hcheck (if_pos (by simpa using hreset))
          have hkeeps : false → op = .recordSuccess := fun h => absurd h Bool.false_ne_true
          obtain ⟨t, hreach, hdone⟩ := reach_exchanged b sh _ _ hkeeps
          exact ⟨t, hprobe.trans hreach, hdone⟩
        · rw [if_neg hreset] at houtcome
          cases houtcome
          exact ⟨_, reach_step hcheck (if_neg (by simpa using hreset)), rfl⟩
    | @exchange word clears hexchange _ =>
        rw [CircuitBreaker.outcome_of_exchange hnext] at houtcome
        cases houtcome
        have hclears : clears → op = .recordSuccess := by
          rintro rfl
          exact hexchange.of_clears
        obtain ⟨t, hreach, hdone⟩ := reach_exchanged b sh word 0 hclears
        exact ⟨t, hload.trans hreach, hdone⟩

/-- What a call does to the packed word: nothing, or one of the exchanges. A report in Half-Open is
never without effect. -/
theorem CircuitBreaker.outcome_packed (b : CircuitBreaker) (sh : BreakerShared) (op : BreakerOp) :
    ((b.outcome sh op).1.packed = sh.packed ∧
      (op ≠ .allowRequest → unpackStateField sh.packed ≠ stateHalfOpen)) ∨
    ∃ word clears, b.Exchange op sh.packed word clears ∧ (b.outcome sh op).1.packed = word := by
  have hcases := b.next_cases op sh.packed
  generalize hnext : b.next sh.packed op = pc at hcases
  cases hcases with
  | done hreport =>
      rw [outcome_of_done hnext]
      exact Or.inl ⟨BreakerShared.entered_packed, hreport⟩
  | wait hop hopen =>
      rw [outcome_of_wait hnext]
      subst hop
      split
      · exact Or.inr ⟨_, _, .probe hopen, BreakerShared.exchanged_packed⟩
      · exact Or.inl ⟨BreakerShared.entered_packed, fun hop => absurd rfl hop⟩
  | @exchange word clears hexchange _ =>
      rw [outcome_of_exchange hnext]
      exact Or.inr ⟨word, clears, hexchange, BreakerShared.exchanged_packed⟩

theorem CircuitBreaker.outcome_now (b : CircuitBreaker) (sh : BreakerShared) (op : BreakerOp) :
    (b.outcome sh op).1.now = sh.now := by
  have hexchanged : ∀ word clears, (sh.exchanged op word clears).now = sh.now := by
    intro word clears
    unfold BreakerShared.exchanged BreakerShared.swap
    split <;> split <;> simp
  unfold outcome
  split
  · exact BreakerShared.entered_now
  · exact hexchanged _ _
  · split
    · exact hexchanged _ _
    · exact BreakerShared.entered_now

end Alone

/-! ## Sequences of calls -/

/-- `CircuitState`. -/
inductive CircuitState where
  | closed
  | opened
  | halfOpen
  deriving DecidableEq, Repr

/-- `state_from_u64`. -/
def stateFromU64 : Nat → CircuitState
  | stateOpen => .opened
  | stateHalfOpen => .halfOpen
  | _ => .closed

/-- `state`. -/
def BreakerShared.state (sh : BreakerShared) : CircuitState :=
  stateFromU64 (unpackStateField sh.packed)

theorem BreakerShared.initial_state : initial.state = .closed := rfl

theorem state_eq_halfOpen_iff {sh : BreakerShared} :
    sh.state = .halfOpen ↔ unpackStateField sh.packed = stateHalfOpen := by
  unfold BreakerShared.state
  generalize unpackStateField sh.packed = n
  constructor
  · intro h
    unfold stateFromU64 at h
    split at h
    · cases h
    · rfl
    · cases h
  · rintro rfl
    rfl

/-- A call at a time, in whole microseconds since the breaker was created. -/
structure TimedCall where
  op : BreakerOp
  timeUs : Nat

/-- What a call shows: its result, and the state of the breaker afterwards. -/
structure Observation where
  result : BreakerResult
  state : CircuitState
  deriving DecidableEq, Repr

/-- The clock is set for a call. -/
def BreakerShared.at (sh : BreakerShared) (timeUs : Nat) : BreakerShared :=
  { sh with now := timeUs * 1000 }

/-- Calls that are made one after the other, each when the one before has returned. -/
inductive Sequence (b : CircuitBreaker) : BreakerShared → List TimedCall → List Observation → Prop
  | nil {sh : BreakerShared} : Sequence b sh [] []
  | cons {sh sh' : BreakerShared} {call : TimedCall} {calls : List TimedCall}
      {result : BreakerResult} {observations : List Observation} :
      sh.now ≤ call.timeUs * 1000 → Returns b (sh.at call.timeUs) call.op sh' result →
      Sequence b sh' calls observations →
      Sequence b sh (call :: calls) (⟨result, sh'.state⟩ :: observations)

/-- The breaker as a machine that answers call by call. -/
def CircuitBreaker.sequential (b : CircuitBreaker) :
    Reactive BreakerShared TimedCall Observation where
  step sh call :=
    let (sh', result) := b.outcome (sh.at call.timeUs) call.op
    (sh', ⟨result, sh'.state⟩)

/-- Calls in the order of time can be made, and show what the machine answers. -/
theorem sequence_iff_observe {b : CircuitBreaker} {sh : BreakerShared} {calls : List TimedCall}
    (hlater : ∀ c ∈ calls, sh.now ≤ c.timeUs * 1000)
    (hsorted : calls.Pairwise fun c c' => c.timeUs ≤ c'.timeUs) {observations : List Observation} :
    Sequence b sh calls observations ↔ observations = b.sequential.observe sh calls := by
  induction calls generalizing sh observations with
  | nil =>
      constructor
      · rintro ⟨⟩
        rfl
      · rintro rfl
        exact .nil
  | cons call calls ih =>
      obtain ⟨hfirst, hrest⟩ := List.pairwise_cons.mp hsorted
      have hnow : ((b.sequential.step sh call).1).now = call.timeUs * 1000 :=
        b.outcome_now (sh.at call.timeUs) call.op
      have hlater' : ∀ c ∈ calls, (b.sequential.step sh call).1.now ≤ c.timeUs * 1000 := by
        intro c hc
        rw [hnow]
        exact Nat.mul_le_mul_right _ (hfirst c hc)
      constructor
      · intro h
        cases h with
        | @cons _ sh' _ _ result rest _ hreturns hseq =>
            have hstep : b.sequential.step sh call = (sh', ⟨result, sh'.state⟩) := by
              simp only [CircuitBreaker.sequential, returns_iff.mp hreturns]
            rw [hstep] at hlater'
            rw [Reactive.observe, hstep, (ih hlater' hrest).mp hseq]
      · rintro rfl
        exact .cons (hlater call List.mem_cons_self) (returns_iff.mpr rfl)
          ((ih hlater' hrest).mpr rfl)

end Rauta
