import Rauta.Lib.Bits
import Rauta.Lib.Interleaving

/-!
# The circuit breaker

A breaker keeps its state and three counters in one atomic word, and the time of the last failure in
another. `allow_request`, `record_success` and `record_failure` are loops around a compare-exchange
of the first word; the second word is loaded and stored on the side.

`breakerStep` is one atomic step of one of these calls, and `breakerMachine` is any number of calls
with a clock. `CircuitBreaker.Exchange` lists the compare-exchanges that a call can be about to
make, and `BreakerStep` the steps; every invariant is proved along these two.
-/

namespace Rauta

open Interleaving Transition

/-! ## The packed word -/

/-- `STATE_CLOSED`. -/
@[match_pattern] abbrev stateClosed : Nat := 0

/-- `STATE_OPEN`. -/
@[match_pattern] abbrev stateOpen : Nat := 1

/-- `STATE_HALFOPEN`. -/
@[match_pattern] abbrev stateHalfOpen : Nat := 2

/-- `pack_state`. -/
def packState (state failures successes halfOpenReqs : Nat) : Nat :=
  (state <<< 62) % 2 ^ 64 ||| (failures &&& 0xFFFF) <<< 32 ||| (successes &&& 0xFFFF) <<< 16 |||
    (halfOpenReqs &&& 0xFFFF)

/-- `unpack_state_field`. -/
def unpackStateField (packed : Nat) : Nat := (packed &&& 0x3 <<< 62) >>> 62

/-- `unpack_failures`. -/
def unpackFailures (packed : Nat) : Nat := (packed &&& 0xFFFF <<< 32) >>> 32

/-- `unpack_successes`. -/
def unpackSuccesses (packed : Nat) : Nat := (packed &&& 0xFFFF <<< 16) >>> 16

/-- `unpack_half_open_reqs`. -/
def unpackHalfOpenReqs (packed : Nat) : Nat := packed &&& 0xFFFF

section Packing

variable {state : Nat} (failures successes halfOpenReqs : Nat)

theorem and_field (n : Nat) : n &&& 0xFFFF = n % 2 ^ 16 := Nat.and_two_pow_sub_one_eq_mod n 16

/-- The word as a number. -/
theorem packState_eq (h : state < 4) : packState state failures successes halfOpenReqs =
    ((state * 2 ^ 30 + failures % 2 ^ 16) * 2 ^ 16 + successes % 2 ^ 16) * 2 ^ 16 +
      halfOpenReqs % 2 ^ 16 := by
  have hmod : ∀ n : Nat, n % 2 ^ 16 < 2 ^ 16 := fun n => Nat.mod_lt _ (by decide)
  have hstate : (state <<< 62) % 2 ^ 64 = (state <<< 30) <<< 32 := by
    rw [← Nat.shiftLeft_add, Nat.shiftLeft_eq, Nat.mod_eq_of_lt]
    omega
  have hfail : failures % 2 ^ 16 < 2 ^ 30 := (hmod _).trans (by decide)
  unfold packState
  rw [and_field, and_field, and_field, hstate, ← Nat.shiftLeft_or_distrib,
    Bits.shiftLeft_or _ hfail, show 32 = 16 + 16 from rfl, Nat.shiftLeft_add,
    ← Nat.shiftLeft_or_distrib, Bits.shiftLeft_or _ (hmod _), Bits.shiftLeft_or _ (hmod _)]

theorem unpackStateField_packState (h : state < 4) :
    unpackStateField (packState state failures successes halfOpenReqs) = state := by
  rw [packState_eq _ _ _ h]
  refine (Bits.and_mask_shiftRight _ 62 2).trans ?_
  omega

theorem unpackFailures_packState (h : state < 4) :
    unpackFailures (packState state failures successes halfOpenReqs) = failures % 2 ^ 16 := by
  rw [packState_eq _ _ _ h]
  refine (Bits.and_mask_shiftRight _ 32 16).trans ?_
  omega

theorem unpackSuccesses_packState (h : state < 4) :
    unpackSuccesses (packState state failures successes halfOpenReqs) = successes % 2 ^ 16 := by
  rw [packState_eq _ _ _ h]
  refine (Bits.and_mask_shiftRight _ 16 16).trans ?_
  omega

theorem unpackHalfOpenReqs_packState (h : state < 4) :
    unpackHalfOpenReqs (packState state failures successes halfOpenReqs) =
      halfOpenReqs % 2 ^ 16 := by
  rw [unpackHalfOpenReqs, and_field, packState_eq _ _ _ h]
  omega

theorem unpackFailures_lt (packed : Nat) : unpackFailures packed < 2 ^ 16 := by
  rw [show unpackFailures packed = packed / 2 ^ 32 % 2 ^ 16 from Bits.and_mask_shiftRight _ 32 16]
  exact Nat.mod_lt _ (by decide)

theorem unpackSuccesses_lt (packed : Nat) : unpackSuccesses packed < 2 ^ 16 := by
  rw [show unpackSuccesses packed = packed / 2 ^ 16 % 2 ^ 16 from Bits.and_mask_shiftRight _ 16 16]
  exact Nat.mod_lt _ (by decide)

theorem unpackHalfOpenReqs_lt (packed : Nat) : unpackHalfOpenReqs packed < 2 ^ 16 := by
  rw [unpackHalfOpenReqs, and_field]
  exact Nat.mod_lt _ (by decide)

end Packing

/-! ## A breaker -/

/-- The configuration of a `CircuitBreaker`. Times are in nanoseconds since `created_at`. -/
structure CircuitBreaker where
  failureThreshold : Nat
  timeout : Nat
  halfOpenMaxRequests : Nat

/-- `CircuitBreaker::new`. -/
def CircuitBreaker.new (failureThreshold timeout : Nat) : CircuitBreaker :=
  ⟨failureThreshold, timeout, 3⟩

/-- `should_attempt_reset`, for a loaded timestamp and a clock reading. -/
def CircuitBreaker.shouldAttemptReset (b : CircuitBreaker) (lastFailureUs now : Nat) : Bool :=
  if lastFailureUs = 0 then false
  else
    -- one microsecond was added, so that zero can stand for no failure
    let lastFailureDuration := (lastFailureUs - 1) * 1000
    if now > lastFailureDuration then now - lastFailureDuration ≥ b.timeout else false

/-- A timestamp of zero is waited for in vain, any other one not. -/
theorem CircuitBreaker.exists_shouldAttemptReset_iff (b : CircuitBreaker) {lastFailureUs : Nat} :
    (∃ now, b.shouldAttemptReset lastFailureUs now) ↔ lastFailureUs ≠ 0 := by
  constructor
  · rintro ⟨now, hnow⟩ rfl
    cases hnow
  · intro h
    refine ⟨(lastFailureUs - 1) * 1000 + b.timeout + 1, ?_⟩
    simp [shouldAttemptReset, h]
    omega

theorem CircuitBreaker.le_of_shouldAttemptReset {b : CircuitBreaker} {lastFailureUs now : Nat}
    (h : b.shouldAttemptReset lastFailureUs now) :
    lastFailureUs ≠ 0 ∧ (lastFailureUs - 1) * 1000 + b.timeout ≤ now := by
  unfold shouldAttemptReset at h
  split at h
  · cases h
  · next hne =>
    simp only at h
    split at h
    · have := of_decide_eq_true h
      exact ⟨hne, by omega⟩
    · cases h

/-- `elapsed().as_micros() as u64 + 1`, for a reading in microseconds. -/
def elapsedUs (readingUs : Nat) : Nat := (readingUs % 2 ^ 64 + 1) % 2 ^ 64

theorem elapsedUs_of_lt {readingUs : Nat} (h : readingUs + 1 < 2 ^ 64) :
    elapsedUs readingUs = readingUs + 1 := by
  unfold elapsedUs
  omega

/-! ## Calls as atomic steps -/

/-- The three functions. -/
inductive BreakerOp where
  | allowRequest
  | recordSuccess
  | recordFailure
  deriving DecidableEq, Repr

/-- How a call ends. -/
inductive BreakerResult where
  | allowed
  | rejected
  | recorded
  deriving DecidableEq, Repr

/-- Where a call is: what it does next, with its local variables. -/
inductive BreakerPc where
  | start
  /-- About to store the timestamp. -/
  | store
  /-- About to load the packed word. -/
  | load
  /-- `allow_request` in Open: about to load the timestamp. -/
  | loadFailure (current : Nat)
  /-- `allow_request` in Open: about to read the clock. -/
  | readClock (current lastFailureUs : Nat)
  /-- About to compare-exchange; `clears` if the timestamp is cleared after a success. -/
  | exchange (current word : Nat) (clears : Bool)
  /-- About to clear the timestamp. -/
  | clear
  | done (result : BreakerResult)
  deriving DecidableEq, Repr

/-- A call. The clock reading of `record_failure`, in microseconds, is kept until the end, and
`epoch` is a history variable: how often the breaker had opened when the call loaded the
timestamp. -/
structure BreakerCall where
  op : BreakerOp
  pc : BreakerPc
  readingUs : Nat
  epoch : Nat
  deriving DecidableEq, Repr

/-- A call that has not begun. -/
def BreakerCall.new (op : BreakerOp) : BreakerCall := ⟨op, .start, 0, 0⟩

/-- The clock and the two atomics. The rest are history variables: how often the breaker has opened,
the clock reading of the call that opened it last, and the clock reading that was stored last. -/
structure BreakerShared where
  now : Nat
  packed : Nat
  lastFailureUs : Nat
  opens : Nat
  openedUs : Nat
  storedUs : Nat

/-- The atomics of `CircuitBreaker::new`. -/
def BreakerShared.initial : BreakerShared := ⟨0, packState stateClosed 0 0 0, 0, 0, 0, 0⟩

namespace CircuitBreaker

variable (b : CircuitBreaker) (current : Nat)

/-- What `allow_request` does with the word it has loaded. -/
def allowNext : BreakerPc :=
  match unpackStateField current with
  | stateClosed => .done .allowed
  | stateOpen => .loadFailure current
  | stateHalfOpen =>
    if unpackHalfOpenReqs current < b.halfOpenMaxRequests then
      .exchange current (packState stateHalfOpen (unpackFailures current) (unpackSuccesses current)
        (unpackHalfOpenReqs current + 1)) false
    else .done .rejected
  | _ => .done .rejected

/-- What `record_success` does with the word it has loaded. -/
def successNext : BreakerPc :=
  match unpackStateField current with
  | stateClosed => .exchange current (packState stateClosed 0 0 0) false
  | stateHalfOpen =>
    let successes := unpackSuccesses current + 1
    if successes ≥ b.halfOpenMaxRequests then .exchange current (packState stateClosed 0 0 0) true
    else .exchange current (packState stateHalfOpen (unpackFailures current) successes
      (unpackHalfOpenReqs current)) false
  | _ => .done .recorded

/-- What `record_failure` does with the word it has loaded. -/
def failureNext : BreakerPc :=
  match unpackStateField current with
  | stateClosed =>
    let failures := unpackFailures current + 1
    if failures ≥ b.failureThreshold then .exchange current (packState stateOpen failures 0 0) false
    else .exchange current (packState stateClosed failures 0 0) false
  -- one failed probe is enough
  | stateHalfOpen => .exchange current (packState stateOpen 0 0 0) false
  | _ => .done .recorded

/-- The body of the loop of a call, up to the compare-exchange. -/
def next : BreakerOp → BreakerPc
  | .allowRequest => b.allowNext current
  | .recordSuccess => b.successNext current
  | .recordFailure => b.failureNext current

/-- The word by which `allow_request` leaves Open. -/
def probing : Nat := packState stateHalfOpen 0 0 1

end CircuitBreaker

/-- What a call returns after its compare-exchange. -/
def BreakerOp.result : BreakerOp → BreakerResult
  | .allowRequest => .allowed
  | _ => .recorded

/-- The breaker goes from another state to Open. -/
def Opening (current word : Nat) : Prop :=
  unpackStateField current ≠ stateOpen ∧ unpackStateField word = stateOpen

instance (current word : Nat) : Decidable (Opening current word) :=
  inferInstanceAs (Decidable (_ ∧ _))

/-- The word is exchanged by a call with the given clock reading. -/
def BreakerShared.swap (sh : BreakerShared) (readingUs word : Nat) : BreakerShared :=
  if Opening sh.packed word then
    { sh with packed := word, opens := sh.opens + 1, openedUs := readingUs }
  else { sh with packed := word }

/-- One atomic step of a call. The compare-exchange is a weak one: it may fail for no reason. -/
def breakerStep (b : CircuitBreaker) (sh : BreakerShared) (t : BreakerCall) (spurious : Bool) :
    Option (BreakerShared × BreakerCall) :=
  match t.pc with
  | .start =>
    if t.op = .recordFailure then some (sh, { t with pc := .store, readingUs := sh.now / 1000 })
    else some (sh, { t with pc := .load })
  | .store =>
    some ({ sh with lastFailureUs := elapsedUs t.readingUs, storedUs := t.readingUs },
      { t with pc := .load })
  | .load => some (sh, { t with pc := b.next sh.packed t.op })
  | .loadFailure current =>
    some (sh, { t with pc := .readClock current sh.lastFailureUs, epoch := sh.opens })
  | .readClock current lastFailureUs =>
    if b.shouldAttemptReset lastFailureUs sh.now then
      some (sh, { t with pc := .exchange current CircuitBreaker.probing false })
    else some (sh, { t with pc := .done .rejected })
  | .exchange current word clears =>
    if sh.packed = current ∧ spurious = false then
      some (sh.swap t.readingUs word, { t with pc := if clears then .clear else .done t.op.result })
    -- lost, or failed for no reason: the loop starts again with the current word
    else some (sh, { t with pc := .load })
  | .clear => some ({ sh with lastFailureUs := 0 }, { t with pc := .done .recorded })
  | .done _ => none

/-- Calls on several threads, and a clock that moves forward. -/
def breakerMachine (b : CircuitBreaker) : Machine BreakerShared BreakerCall Bool Nat where
  thread := breakerStep b
  env sh ns := { sh with now := sh.now + ns }

/-! ## What a call can do -/

/-- The compare-exchanges of the three functions: from which word, to which word, and whether the
timestamp is cleared afterwards. -/
inductive CircuitBreaker.Exchange (b : CircuitBreaker) : BreakerOp → Nat → Nat → Bool → Prop
  | probe {current : Nat} : unpackStateField current = stateOpen →
      Exchange b .allowRequest current probing false
  | accept {current : Nat} : unpackStateField current = stateHalfOpen →
      unpackHalfOpenReqs current < b.halfOpenMaxRequests →
      Exchange b .allowRequest current (packState stateHalfOpen (unpackFailures current)
        (unpackSuccesses current) (unpackHalfOpenReqs current + 1)) false
  | reset {current : Nat} : unpackStateField current = stateClosed →
      Exchange b .recordSuccess current (packState stateClosed 0 0 0) false
  | close {current : Nat} : unpackStateField current = stateHalfOpen →
      b.halfOpenMaxRequests ≤ unpackSuccesses current + 1 →
      Exchange b .recordSuccess current (packState stateClosed 0 0 0) true
  | succeed {current : Nat} : unpackStateField current = stateHalfOpen →
      unpackSuccesses current + 1 < b.halfOpenMaxRequests →
      Exchange b .recordSuccess current (packState stateHalfOpen (unpackFailures current)
        (unpackSuccesses current + 1) (unpackHalfOpenReqs current)) false
  | trip {current : Nat} : unpackStateField current = stateClosed →
      b.failureThreshold ≤ unpackFailures current + 1 →
      Exchange b .recordFailure current (packState stateOpen (unpackFailures current + 1) 0 0) false
  | fail {current : Nat} : unpackStateField current = stateClosed →
      unpackFailures current + 1 < b.failureThreshold →
      Exchange b .recordFailure current (packState stateClosed (unpackFailures current + 1) 0 0)
        false
  | reopen {current : Nat} : unpackStateField current = stateHalfOpen →
      Exchange b .recordFailure current (packState stateOpen 0 0 0) false

/-- A call is where its function can be. -/
def BreakerCall.Planned (b : CircuitBreaker) (t : BreakerCall) : Prop :=
  match t.pc with
  | .store => t.op = .recordFailure
  | .loadFailure current | .readClock current _ =>
    t.op = .allowRequest ∧ unpackStateField current = stateOpen
  | .exchange current word clears => b.Exchange t.op current word clears
  | .clear => t.op = .recordSuccess
  | .start | .load | .done _ => True

theorem BreakerCall.Planned.exchange {b : CircuitBreaker} {t : BreakerCall} {current word : Nat}
    {clears : Bool} (h : t.Planned b) (hpc : t.pc = .exchange current word clears) :
    b.Exchange t.op current word clears := by
  unfold Planned at h
  rw [hpc] at h
  exact h

/-- The steps of a call. -/
inductive BreakerStep (b : CircuitBreaker) (sh : BreakerShared) (t : BreakerCall) :
    BreakerShared → BreakerCall → Prop
  | enter : t.pc = .start → t.op ≠ .recordFailure → BreakerStep b sh t sh { t with pc := .load }
  | read : t.pc = .start → t.op = .recordFailure →
      BreakerStep b sh t sh { t with pc := .store, readingUs := sh.now / 1000 }
  | store : t.pc = .store → BreakerStep b sh t
      { sh with lastFailureUs := elapsedUs t.readingUs, storedUs := t.readingUs }
      { t with pc := .load }
  | load : t.pc = .load → BreakerStep b sh t sh { t with pc := b.next sh.packed t.op }
  | loadFailure {current : Nat} : t.pc = .loadFailure current → BreakerStep b sh t sh
      { t with pc := .readClock current sh.lastFailureUs, epoch := sh.opens }
  | elapsed {current lastFailureUs : Nat} : t.pc = .readClock current lastFailureUs →
      b.shouldAttemptReset lastFailureUs sh.now →
      BreakerStep b sh t sh { t with pc := .exchange current CircuitBreaker.probing false }
  | reject {current lastFailureUs : Nat} : t.pc = .readClock current lastFailureUs →
      BreakerStep b sh t sh { t with pc := .done .rejected }
  | swap {word : Nat} {clears : Bool} : t.pc = .exchange sh.packed word clears →
      BreakerStep b sh t (sh.swap t.readingUs word)
        { t with pc := if clears then .clear else .done t.op.result }
  | retry {current word : Nat} {clears : Bool} : t.pc = .exchange current word clears →
      BreakerStep b sh t sh { t with pc := .load }
  | clear : t.pc = .clear →
      BreakerStep b sh t { sh with lastFailureUs := 0 } { t with pc := .done .recorded }

section Exchange

variable {b : CircuitBreaker} {op : BreakerOp} {current word : Nat} {clears : Bool}

theorem CircuitBreaker.Exchange.of_clears (h : b.Exchange op current word true) :
    op = .recordSuccess := by
  cases h
  rfl

/-- Only a failure opens the breaker, and only from another state. -/
theorem CircuitBreaker.Exchange.opening (h : b.Exchange op current word clears)
    (hopen : unpackStateField word = stateOpen) :
    op = .recordFailure ∧ Opening current word := by
  cases h with
  | trip hstate _ => exact ⟨rfl, by rw [hstate]; decide, hopen⟩
  | reopen hstate => exact ⟨rfl, by rw [hstate]; decide, hopen⟩
  | probe _ =>
      rw [CircuitBreaker.probing, unpackStateField_packState _ _ _ (by decide)] at hopen
      cases hopen
  | accept _ _ | reset _ | close _ _ | succeed _ _ | fail _ _ =>
      rw [unpackStateField_packState _ _ _ (by decide)] at hopen
      cases hopen

/-- Only `allow_request` leaves Open, and only to Half-Open. -/
theorem CircuitBreaker.Exchange.of_open (h : b.Exchange op current word clears)
    (hopen : unpackStateField current = stateOpen) : word = probing ∧ clears = false := by
  cases h with
  | probe _ => exact ⟨rfl, rfl⟩
  | accept hstate _ | reset hstate | close hstate _ | succeed hstate _ | trip hstate _
  | fail hstate _ | reopen hstate =>
      rw [hstate] at hopen
      cases hopen

/-- What a call can do with the word it has loaded: return, look at the timestamp, or exchange the
word. A report is never dropped in Half-Open, and a word loaded in Open is not exchanged before the
timestamp is looked at. -/
inductive CircuitBreaker.Next (b : CircuitBreaker) (op : BreakerOp) (current : Nat) :
    BreakerPc → Prop
  | done {result : BreakerResult} :
      (op ≠ .allowRequest → unpackStateField current ≠ stateHalfOpen) →
      Next b op current (.done result)
  | wait : op = .allowRequest → unpackStateField current = stateOpen →
      Next b op current (.loadFailure current)
  | exchange {word : Nat} {clears : Bool} : b.Exchange op current word clears →
      unpackStateField current ≠ stateOpen → Next b op current (.exchange current word clears)

theorem CircuitBreaker.allowNext_cases (b : CircuitBreaker) (current : Nat) :
    b.Next .allowRequest current (b.allowNext current) := by
  unfold allowNext
  split
  · exact .done fun hop => absurd rfl hop
  · next hstate => exact .wait rfl hstate
  · next hstate =>
    split
    · next hfew => exact .exchange (.accept hstate hfew) (hstate.trans_ne (by decide))
    · exact .done fun hop => absurd rfl hop
  · exact .done fun hop => absurd rfl hop

theorem CircuitBreaker.successNext_cases (b : CircuitBreaker) (current : Nat) :
    b.Next .recordSuccess current (b.successNext current) := by
  unfold successNext
  split
  · next hstate => exact .exchange (.reset hstate) (hstate.trans_ne (by decide))
  · next hstate =>
    have hopen := hstate.trans_ne (by decide : stateHalfOpen ≠ stateOpen)
    simp only
    split
    · next henough => exact .exchange (.close hstate henough) hopen
    · next hfew => exact .exchange (.succeed hstate (Nat.lt_of_not_le hfew)) hopen
  · next hstate => exact .done fun _ => hstate

theorem CircuitBreaker.failureNext_cases (b : CircuitBreaker) (current : Nat) :
    b.Next .recordFailure current (b.failureNext current) := by
  unfold failureNext
  split
  · next hstate =>
    have hopen := hstate.trans_ne (by decide : stateClosed ≠ stateOpen)
    simp only
    split
    · next henough => exact .exchange (.trip hstate henough) hopen
    · next hfew => exact .exchange (.fail hstate (Nat.lt_of_not_le hfew)) hopen
  · next hstate => exact .exchange (.reopen hstate) (hstate.trans_ne (by decide))
  · next hstate => exact .done fun _ => hstate

theorem CircuitBreaker.next_cases (b : CircuitBreaker) (op : BreakerOp) (current : Nat) :
    b.Next op current (b.next current op) := by
  cases op with
  | allowRequest => exact b.allowNext_cases current
  | recordSuccess => exact b.successNext_cases current
  | recordFailure => exact b.failureNext_cases current

end Exchange

section Steps

variable {b : CircuitBreaker} {sh sh' : BreakerShared} {t t' : BreakerCall} {spurious : Bool}

/-- `breakerStep` takes only these steps. -/
theorem breakerStep_cases (h : breakerStep b sh t spurious = some (sh', t')) :
    BreakerStep b sh t sh' t' := by
  cases hpc : t.pc with
  | start =>
      simp only [breakerStep, hpc] at h
      split at h
      · next hop =>
        cases h
        exact .read hpc hop
      · next hop =>
        cases h
        exact .enter hpc hop
  | store =>
      simp only [breakerStep, hpc] at h
      cases h
      exact .store hpc
  | load =>
      simp only [breakerStep, hpc] at h
      cases h
      exact .load hpc
  | loadFailure current =>
      simp only [breakerStep, hpc] at h
      cases h
      exact .loadFailure hpc
  | readClock current lastFailureUs =>
      simp only [breakerStep, hpc] at h
      split at h
      · next hreset =>
        cases h
        exact .elapsed hpc hreset
      · cases h
        exact .reject hpc
  | exchange current word clears =>
      simp only [breakerStep, hpc] at h
      split at h
      · next hswap =>
        cases h
        obtain ⟨rfl, -⟩ := hswap
        exact .swap hpc
      · cases h
        exact .retry hpc
  | clear =>
      simp only [breakerStep, hpc] at h
      cases h
      exact .clear hpc
  | done result =>
      simp only [breakerStep, hpc] at h
      cases h

/-- After loading, a call is where its function can be. -/
theorem BreakerCall.planned_next (b : CircuitBreaker) (t : BreakerCall) (current : Nat) :
    Planned b { t with pc := b.next current t.op } := by
  have hnext := b.next_cases t.op current
  generalize b.next current t.op = pc at hnext
  cases hnext with
  | done _ => trivial
  | wait hop hopen => exact ⟨hop, hopen⟩
  | exchange hexchange _ => exact hexchange

theorem BreakerStep.op_eq (h : BreakerStep b sh t sh' t') : t'.op = t.op := by
  cases h <;> rfl

theorem BreakerStep.planned (h : BreakerStep b sh t sh' t') (ht : t.Planned b) : t'.Planned b := by
  cases h with
  | enter hpc hop => trivial
  | read hpc hop => exact hop
  | store hpc => trivial
  | load hpc => exact t.planned_next b sh.packed
  | loadFailure hpc =>
      unfold BreakerCall.Planned at ht
      rw [hpc] at ht
      exact ht
  | elapsed hpc hreset =>
      unfold BreakerCall.Planned at ht
      rw [hpc] at ht
      show b.Exchange t.op _ _ _
      rw [ht.1]
      exact .probe ht.2
  | reject hpc => trivial
  | swap hpc =>
      have hexchange := BreakerCall.Planned.exchange ht hpc
      split
      · next hclears =>
        subst hclears
        exact hexchange.of_clears
      · trivial
  | retry hpc => trivial
  | clear hpc => trivial

/-- An exchange that fails for no reason changes nothing. -/
theorem breakerStep_spurious (h : breakerStep b sh t true = some (sh', t')) :
    sh'.packed = sh.packed := by
  unfold breakerStep at h
  split at h
  · split at h <;> cases h <;> rfl
  · cases h
    rfl
  · cases h
    rfl
  · cases h
    rfl
  · split at h <;> cases h <;> rfl
  · rw [if_neg (by simp)] at h
    cases h
    rfl
  · cases h
    rfl
  · cases h

/-- A call does not move the clock. -/
theorem BreakerStep.now_eq (h : BreakerStep b sh t sh' t') : sh'.now = sh.now := by
  cases h with
  | swap hpc =>
      unfold BreakerShared.swap
      split <;> rfl
  | _ => rfl

end Steps

section Swap

variable {sh : BreakerShared} {readingUs word : Nat}

@[simp] theorem BreakerShared.swap_packed : (sh.swap readingUs word).packed = word := by
  unfold swap
  split <;> rfl

@[simp] theorem BreakerShared.swap_lastFailureUs :
    (sh.swap readingUs word).lastFailureUs = sh.lastFailureUs := by
  unfold swap
  split <;> rfl

end Swap

/-! ## Runs -/

/-- The clock, in microseconds, is below the limit of 64 bits. -/
def BreakerShared.Early (sh : BreakerShared) : Prop := sh.now / 1000 + 1 < 2 ^ 64

instance (sh : BreakerShared) : Decidable sh.Early := inferInstanceAs (Decidable (_ < _))

/-- What is kept as long as the clock is early. -/
def WhileEarly (Inv : BreakerShared → List BreakerCall → Prop) (sh : BreakerShared)
    (calls : List BreakerCall) : Prop :=
  sh.Early → Inv sh calls

/-- **Invariants of a breaker**: the clock may move, and one call may take a step. -/
theorem breakerMachine_invariant {b : CircuitBreaker}
    {ok : Config BreakerShared BreakerCall → Label Bool Nat → Prop}
    {Inv : BreakerShared → List BreakerCall → Prop} {c₀ c : Config BreakerShared BreakerCall}
    (h₀ : Inv c₀.shared c₀.threads)
    (htick : ∀ sh calls ns, Inv sh calls → Inv { sh with now := sh.now + ns } calls)
    (hstep : ∀ sh pre t post spurious sh' t', Inv sh (pre ++ t :: post) → sh.Early →
      ok ⟨sh, pre ++ t :: post⟩ (.thread pre.length spurious) → BreakerStep b sh t sh' t' →
      Inv sh' (pre ++ t' :: post))
    (h : (breakerMachine b).system.Reach ok c₀ c) (hearly : c.shared.Early) :
    Inv c.shared c.threads := by
  have hinv : WhileEarly Inv c.shared c.threads := by
    refine Machine.invariant (fun _ => h₀) ?_ ?_ h
    · intro sh calls ns hs _ hlater
      have hle : sh.now / 1000 ≤ (sh.now + ns) / 1000 := Nat.div_le_div_right (Nat.le_add_right _ _)
      have hearly : sh.Early := (Nat.add_le_add_right hle 1).trans_lt hlater
      exact htick sh calls ns (hs hearly)
    · intro sh pre t post spurious sh' t' hs hok hstep' hlater
      have hstep' := breakerStep_cases hstep'
      have hearly : sh.Early := by
        unfold BreakerShared.Early at hlater ⊢
        rwa [hstep'.now_eq] at hlater
      exact hstep _ _ _ _ _ _ _ (hs hearly) hearly hok hstep'
  exact hinv hearly

end Rauta
