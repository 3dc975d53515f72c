import Rauta.CircuitBreaker.Sequential

/-!
# Reports and the period they belong to

A breaker that is used by one call at a time, with the book-keeping that the source leaves out:
`Ledger` notes of every request that was let through in which Half-Open period that was, and when it
has reported a success, in which period that arrived. Every report belongs to a request that was
admitted before and has not reported yet; the answers may come late and in any order.

The breaker itself cannot tell the requests apart. It closes after three successes that arrive while
it is Half-Open (`Counts`), whenever their requests were admitted.
-/

namespace Rauta

open Transition

/-! ## The ledger -/

/-- What a request has reported. A success is noted with the Half-Open period it arrived in, if it
arrived in one. -/
inductive Report where
  | pending
  | failure
  | success (period : Option Nat)
  deriving DecidableEq

/-- A request that was let through, with the Half-Open period it was admitted in, if any. -/
structure Admission where
  period : Option Nat
  report : Report
  deriving DecidableEq

/-- The request has reported a success. -/
def Admission.succeeded (r : Admission) : Bool :=
  match r.report with
  | .success _ => true
  | _ => false

/-- A breaker, the number of Half-Open periods so far, and the requests that were let through. -/
structure Ledger where
  sh : BreakerShared
  periods : Nat
  requests : List Admission

namespace Ledger

/-- A new breaker. -/
def initial : Ledger := ⟨.initial, 0, []⟩

/-- The current Half-Open period. -/
def period (s : Ledger) : Option Nat := if s.sh.state = .halfOpen then some s.periods else none

/-- A call has left these words behind; a new period may have begun. -/
def moved (s : Ledger) (sh : BreakerShared) : Ledger :=
  { s with
    sh := sh
    periods := if s.sh.state ≠ .halfOpen ∧ sh.state = .halfOpen then s.periods + 1 else s.periods }

/-- A request is asked for, or the outcome of the `i`-th admitted request is reported. -/
inductive Event where
  | ask (timeUs : Nat)
  | report (i : Nat) (success : Bool) (timeUs : Nat)

/-- `allow_request`. -/
def ask (b : CircuitBreaker) (s : Ledger) (timeUs : Nat) : Ledger :=
  let (sh, result) := b.outcome (s.sh.at timeUs) .allowRequest
  let s' := s.moved sh
  if result = .allowed then { s' with requests := s.requests ++ [⟨s'.period, .pending⟩] } else s'

/-- `record_success` or `record_failure`, for a request. -/
def answer (b : CircuitBreaker) (s : Ledger) (i : Nat) (r : Admission) (success : Bool)
    (timeUs : Nat) : Ledger :=
  let op := if success then .recordSuccess else .recordFailure
  let report := if success then .success s.period else .failure
  { s.moved (b.outcome (s.sh.at timeUs) op).1 with
    requests := s.requests.set i { r with report := report } }

/-- Calls in the order of time; a request reports once. -/
def step (b : CircuitBreaker) (s : Ledger) : Event → Option Ledger
  | .ask timeUs => if s.sh.now ≤ timeUs * 1000 then some (s.ask b timeUs) else none
  | .report i success timeUs =>
    match s.requests[i]? with
    | none => none
    | some r =>
      if r.report = .pending ∧ s.sh.now ≤ timeUs * 1000 then some (s.answer b i r success timeUs)
      else none

/-- One breaker, used by one call at a time. -/
def system (b : CircuitBreaker) : System Ledger Event := ⟨step b⟩

/-- The requests whose success arrived in a Half-Open period. -/
def succeededIn (s : Ledger) (period : Nat) : Nat :=
  s.requests.countP fun r => r.report = .success (some period)

/-- The requests that were admitted in a Half-Open period and have reported a success. -/
def probesSucceeded (s : Ledger) (period : Nat) : Nat :=
  s.requests.countP fun r => r.period = some period ∧ r.succeeded

end Ledger

/-! ## What a call does in Half-Open -/

section HalfOpen

variable {b : CircuitBreaker} {sh : BreakerShared} {op : BreakerOp}

/-- The success counter of a breaker that is Half-Open after a call: a success has been added, an
admission has left it, or it is zero because the period has just begun. -/
theorem successes_of_halfOpen (hfits : b.halfOpenMaxRequests ≤ 2 ^ 16)
    (h : (b.outcome sh op).1.state = .halfOpen) :
    (sh.state = .halfOpen ∧ op = .allowRequest ∧
      unpackSuccesses (b.outcome sh op).1.packed = unpackSuccesses sh.packed) ∨
    (sh.state = .halfOpen ∧ op = .recordSuccess ∧
      unpackSuccesses (b.outcome sh op).1.packed = unpackSuccesses sh.packed + 1) ∨
    (sh.state ≠ .halfOpen ∧ op = .allowRequest ∧
      unpackSuccesses (b.outcome sh op).1.packed = 0) := by
  simp only [ne_eq, state_eq_halfOpen_iff] at h ⊢
  rcases b.outcome_packed sh op with ⟨hpacked, hreport⟩ | ⟨word, clears, hexchange, hpacked⟩
  · rw [hpacked] at h ⊢
    refine Or.inl ⟨h, ?_, rfl⟩
    by_contra hop
    exact hreport hop h
  · rw [hpacked] at h ⊢
    cases hexchange with
    | probe hopen =>
        refine Or.inr (Or.inr ⟨?_, rfl, unpackSuccesses_packState _ _ _ (by decide)⟩)
        rw [hopen]
        decide
    | accept hstate _ =>
        refine Or.inl ⟨hstate, rfl, ?_⟩
        rw [unpackSuccesses_packState _ _ _ (by decide), Nat.mod_eq_of_lt (unpackSuccesses_lt _)]
    | succeed hstate hfew =>
        refine Or.inr (Or.inl ⟨hstate, rfl, ?_⟩)
        rw [unpackSuccesses_packState _ _ _ (by decide), Nat.mod_eq_of_lt (hfew.trans_le hfits)]
    | reset _ | close _ _ | trip _ _ | fail _ _ | reopen _ =>
        rw [unpackStateField_packState _ _ _ (by decide)] at h
        cases h

/-- Only a success closes the breaker from Half-Open, and only as the last of the required
number. -/
theorem successes_of_close (hhalf : sh.state = .halfOpen)
    (hclosed : (b.outcome sh op).1.state = .closed) :
    op = .recordSuccess ∧ b.halfOpenMaxRequests ≤ unpackSuccesses sh.packed + 1 := by
  have hstate := state_eq_halfOpen_iff.mp hhalf
  rcases b.outcome_packed sh op with ⟨hpacked, -⟩ | ⟨word, clears, hexchange, hpacked⟩
  · rw [BreakerShared.state, hpacked, hstate] at hclosed
    cases hclosed
  · rw [BreakerShared.state, hpacked] at hclosed
    cases hexchange with
    | close _ henough => exact ⟨rfl, henough⟩
    | probe hopen =>
        rw [hopen] at hstate
        cases hstate
    | reset hold | trip hold _ | fail hold _ =>
        rw [hold] at hstate
        cases hstate
    | accept _ _ | succeed _ _ | reopen _ =>
        rw [unpackStateField_packState _ _ _ (by decide)] at hclosed
        cases hclosed

end HalfOpen

/-! ## The invariant -/

namespace Ledger

/-- In Half-Open the breaker counts the successes that arrived in this period; none belongs to a
later one. -/
structure Counts (s : Ledger) : Prop where
  successes : s.sh.state = .halfOpen → unpackSuccesses s.sh.packed = s.succeededIn s.periods
  past : ∀ r ∈ s.requests, ∀ p, r.report = .success (some p) → p ≤ s.periods

section Step

variable {b : CircuitBreaker} {s : Ledger} {sh : BreakerShared} {timeUs i : Nat} {r : Admission}

theorem moved_periods_ge (s : Ledger) (sh : BreakerShared) : s.periods ≤ (s.moved sh).periods := by
  simp only [moved]
  split <;> omega

/-- No new period begins if the breaker was, or is not, Half-Open. -/
theorem moved_periods_eq (h : s.sh.state = .halfOpen ∨ sh.state ≠ .halfOpen) :
    (s.moved sh).periods = s.periods := by
  simp only [moved]
  rw [if_neg]
  tauto

/-- A success is counted once. -/
theorem succeededIn_set (hr : s.requests[i]? = some r) (hpending : r.report = .pending)
    (period : Nat) :
    (s.requests.set i { r with report := .success (some period) }).countP
      (fun r => r.report = .success (some period)) = s.succeededIn period + 1 := by
  obtain ⟨hlt, rfl⟩ := List.getElem?_eq_some_iff.mp hr
  rw [List.countP_set hlt]
  simp [hpending, succeededIn]

/-- A request that has not reported yet is in no count. -/
theorem countP_append_pending (requests : List Admission) (period : Option Nat) (p : Nat) :
    List.countP (fun r => r.report = .success (some p)) (requests ++ [⟨period, .pending⟩]) =
      List.countP (fun r => r.report = .success (some p)) requests := by
  simp

theorem Counts.ask (hfits : b.halfOpenMaxRequests ≤ 2 ^ 16) (h : s.Counts) :
    (s.ask b timeUs).Counts := by
  have hmoved : (s.moved (b.outcome (s.sh.at timeUs) .allowRequest).1).Counts := by
    refine ⟨fun hhalf => ?_, fun r hr p hp => (h.past r hr p hp).trans (moved_periods_ge _ _)⟩
    rcases successes_of_halfOpen hfits hhalf with ⟨hold, -, heq⟩ | ⟨-, hop, -⟩ | ⟨hold, -, heq⟩
    · rw [moved_periods_eq (Or.inl hold)]
      exact heq.trans (h.successes hold)
    · cases hop
    · -- a new period: no success has been noted for it
      have hperiods : (s.moved (b.outcome (s.sh.at timeUs) .allowRequest).1).periods =
          s.periods + 1 := if_pos ⟨hold, hhalf⟩
      refine heq.trans (Eq.symm (List.countP_eq_zero.mpr ?_))
      intro r hr
      rw [decide_eq_true_eq, hperiods]
      intro hreport
      have := h.past r hr _ hreport
      omega
  unfold Ledger.ask
  simp only
  split
  · refine ⟨fun hhalf => ?_, ?_⟩
    · rw [succeededIn, countP_append_pending]
      exact hmoved.successes hhalf
    · intro r hr p hp
      rcases List.mem_append.mp hr with hr | hr
      · exact hmoved.past r hr p hp
      · rw [List.mem_singleton.mp hr] at hp
        cases hp
  · exact hmoved

theorem Counts.answer (hfits : b.halfOpenMaxRequests ≤ 2 ^ 16) (h : s.Counts)
    (hr : s.requests[i]? = some r) (hpending : r.report = .pending) (success : Bool) :
    (s.answer b i r success timeUs).Counts := by
  refine ⟨fun hhalf => ?_, ?_⟩
  · cases success with
    | false =>
        rcases successes_of_halfOpen hfits hhalf with ⟨-, hop, -⟩ | ⟨-, hop, -⟩ | ⟨-, hop, -⟩ <;>
          cases hop
    | true =>
        rcases successes_of_halfOpen hfits hhalf with ⟨-, hop, -⟩ | ⟨hold, -, heq⟩ | ⟨-, hop, -⟩
        · cases hop
        · have hperiods :
              (s.moved (b.outcome (s.sh.at timeUs) .recordSuccess).1).periods = s.periods :=
            moved_periods_eq (Or.inl hold)
          have hperiod : s.period = some s.periods := if_pos hold
          refine heq.trans ?_
          simp only [Ledger.answer, succeededIn, hperiods, hperiod, ↓reduceIte]
          exact (congrArg (· + 1) (h.successes hold)).trans (succeededIn_set hr hpending _).symm
        · cases hop
  · intro r' hr' p hp
    rcases List.mem_or_eq_of_mem_set hr' with hr' | rfl
    · exact (h.past r' hr' p hp).trans (moved_periods_ge _ _)
    · cases success with
      | false => cases hp
      | true =>
          have hperiod : s.period = some p := by simpa using hp
          unfold period at hperiod
          split at hperiod
          · cases hperiod
            exact moved_periods_ge _ _
          · cases hperiod

theorem ask_sh : (s.ask b timeUs).sh = (b.outcome (s.sh.at timeUs) .allowRequest).1 := by
  unfold Ledger.ask
  simp only
  split <;> rfl

/-- The events: a request is asked for, or one that is pending reports. -/
theorem step_cases {e : Event} {s' : Ledger} (h : s.step b e = some s') :
    (∃ timeUs, s' = s.ask b timeUs) ∨
    ∃ i r success timeUs, s.requests[i]? = some r ∧ r.report = .pending ∧
      s' = s.answer b i r success timeUs := by
  cases e with
  | ask timeUs =>
      simp only [step] at h
      split at h
      · cases h
        exact Or.inl ⟨timeUs, rfl⟩
      · cases h
  | report i success timeUs =>
      simp only [step] at h
      split at h
      · cases h
      · next r hr =>
        split at h
        · next henabled =>
          cases h
          exact Or.inr ⟨i, r, success, timeUs, hr, henabled.1, rfl⟩
        · cases h

/-- Every event keeps the counts. -/
theorem Counts.step (hfits : b.halfOpenMaxRequests ≤ 2 ^ 16) (h : s.Counts) {e : Event}
    {s' : Ledger} (hstep : s.step b e = some s') : s'.Counts := by
  rcases step_cases hstep with ⟨timeUs, rfl⟩ | ⟨i, r, success, timeUs, hr, hpending, rfl⟩
  · exact h.ask hfits
  · exact h.answer hfits hr hpending success

theorem Counts.initial : Ledger.initial.Counts where
  successes h := by cases h
  past r hr := by cases hr

/-- An event that closes the breaker from Half-Open is the last of the required successes. -/
theorem Counts.close (h : s.Counts) {e : Event} {s' : Ledger} (hstep : s.step b e = some s')
    (hhalf : s.sh.state = .halfOpen) (hclosed : s'.sh.state = .closed) :
    b.halfOpenMaxRequests ≤ s'.succeededIn s.periods := by
  have hhalf' : ∀ timeUs, (s.sh.at timeUs).state = .halfOpen := fun _ => hhalf
  rcases step_cases hstep with ⟨timeUs, rfl⟩ | ⟨i, r, success, timeUs, hr, hpending, rfl⟩
  · rw [ask_sh] at hclosed
    obtain ⟨hop, -⟩ := successes_of_close (hhalf' timeUs) hclosed
    cases hop
  · obtain ⟨hop, henough⟩ := successes_of_close (hhalf' timeUs) hclosed
    cases success with
    | false => cases hop
    | true =>
        have hperiod : s.period = some s.periods := if_pos hhalf
        simp only [Ledger.answer, succeededIn, hperiod, ↓reduceIte]
        rw [succeededIn_set hr hpending, ← h.successes hhalf]
        exact henough

end Step

/-- **Recovery is decided by reports**: the breaker goes from Half-Open to Closed only if as many
admitted requests as it lets through in Half-Open have reported a success in the current period. -/
theorem succeeded_of_close {failureThreshold timeout : Nat} {s s' : Ledger} {e : Event}
    (h : (system (.new failureThreshold timeout)).Reach System.Anything initial s)
    (hstep : (system (.new failureThreshold timeout)).step s e = some s')
    (hhalf : s.sh.state = .halfOpen) (hclosed : s'.sh.state = .closed) :
    (CircuitBreaker.new failureThreshold timeout).halfOpenMaxRequests ≤
      s'.succeededIn s.periods := by
  have hfits : (CircuitBreaker.new failureThreshold timeout).halfOpenMaxRequests ≤ 2 ^ 16 := by
    simp [CircuitBreaker.new]
  have hcounts : s.Counts := by
    refine h.invariant .initial ?_
    intro s e s' hs _ hstep
    exact hs.step hfits hstep
  exact hcounts.close hstep hhalf hclosed

/-- The breaker opens at the first failure; after the timeout three requests are let through, and
the first two succeed. -/
def probing : List Event :=
  [.ask 0, .report 0 false 0, .ask 1, .ask 1, .ask 1, .report 1 true 1, .report 2 true 1]

/-- The success of the third closes it. -/
theorem succeeded_of_close_probes : ∃ s s',
    (system (.new 1 1000)).step s (.report 3 true 1) = some s' ∧ s.sh.state = .halfOpen ∧
      s'.sh.state = .closed ∧ 3 ≤ s'.succeededIn s.periods := by
  have hrun : ((system (.new 1 1000)).exec initial probing).any (fun s =>
      ((system (.new 1 1000)).step s (.report 3 true 1)).any fun s' =>
        s.sh.state = .halfOpen ∧ s'.sh.state = .closed) = true := by decide +kernel
  obtain ⟨s, hs, hrun⟩ := (Option.any_eq_true ..).mp hrun
  obtain ⟨s', hs', hstates⟩ := (Option.any_eq_true ..).mp hrun
  obtain ⟨hhalf, hclosed⟩ := of_decide_eq_true hstates
  exact ⟨s, s', hs', hhalf, hclosed, succeeded_of_close (System.Reach.of_exec hs) hs' hhalf hclosed⟩

/-- Four requests are admitted while the breaker is Closed, and the first of them fails. After the
timeout one request is let through, and then two of the others succeed. -/
def belated : List Event :=
  [.ask 0, .ask 0, .ask 0, .ask 0, .report 0 false 0, .ask 1, .report 1 true 1, .report 2 true 1]

/-- **Late answers close the breaker**: the success of the last of them closes it, while the only
request of the period is still pending. -/
theorem exists_close_without_probes :
    ¬ ∀ failureThreshold timeout s e s',
      (system (.new failureThreshold timeout)).Reach System.Anything initial s →
      (system (.new failureThreshold timeout)).step s e = some s' →
      s.sh.state = .halfOpen → s'.sh.state = .closed →
      (CircuitBreaker.new failureThreshold timeout).halfOpenMaxRequests ≤
        s'.probesSucceeded s.periods := by
  intro h
  have hrun : ((system (.new 1 1000)).exec initial belated).any (fun s =>
      ((system (.new 1 1000)).step s (.report 3 true 1)).any fun s' =>
        s.sh.state = .halfOpen ∧ s'.sh.state = .closed ∧
          s'.probesSucceeded s.periods = 0) = true := by
    decide +kernel
  obtain ⟨s, hs, hrun⟩ := (Option.any_eq_true ..).mp hrun
  obtain ⟨s', hs', hstates⟩ := (Option.any_eq_true ..).mp hrun
  obtain ⟨hhalf, hclosed, hzero⟩ := of_decide_eq_true hstates
  have hle := h 1 1000 s _ s' (System.Reach.of_exec hs) hs' hhalf hclosed
  rw [hzero] at hle
  cases hle

end Ledger

end Rauta
