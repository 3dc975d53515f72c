import Rauta.CircuitBreaker.Timestamp
import Rauta.Common

/-!
# Requests through the breaker

Two handlers ask the breaker before they forward a request, and report the outcome to it afterwards:
`request_handler::handle_request` (through `record_request_metrics`) and
`ListenerManager::handle_request`. A half-open breaker admits three requests, and only their reports
get it out of Half-Open.

While every admitted request reports, a half-open breaker has admitted no more requests than have
succeeded or are on their way (`HalfOpenCovered`), so it never waits for a report that will not
come. But each handler has one way to end an admitted request without a report: a body that is too
large, and a body that cannot be read. Three such requests wedge the breaker, and it stays so for
ever (`wedged_for_ever`).
-/

namespace Rauta

open Interleaving Transition

/-! ## How an admitted request ends -/

/-- What `record_request_metrics` reports of the result of a request: a status, or an error. -/
def recordRequestMetrics : Except ProxyError Nat → Option BreakerOp
  | .ok statusCode => if statusCode ≥ 500 then some .recordFailure else some .recordSuccess
  | .error (.bodyTooLarge _ _) => none
  | .error _ => some .recordFailure

/-- The exits of `ListenerManager::handle_request` behind the breaker. The one for a backend that
has neither kind of address is never taken: the flag of a backend decides which kind it has. -/
inductive ListenerExit where
  | bodyReadFailure
  | connectFailure
  | handshakeFailure
  | sendFailure
  | response (status : Nat)
  deriving DecidableEq

/-- What `ListenerManager::handle_request` reports. -/
def ListenerExit.report : ListenerExit → Option BreakerOp
  | .bodyReadFailure => none
  | .connectFailure | .handshakeFailure | .sendFailure => some .recordFailure
  | .response status =>
    if 500 ≤ status ∧ status < 600 then some .recordFailure else some .recordSuccess

/-- A handler, and what comes of the request once it is admitted. -/
inductive Outcome where
  | requestHandler (result : Except ProxyError Nat)
  | listenerManager (exit : ListenerExit)

/-- What is reported to the breaker. -/
def Outcome.report : Outcome → Option BreakerOp
  | .requestHandler result => recordRequestMetrics result
  | .listenerManager exit => exit.report

/-- The body of the request is too large for `request_handler::handle_request`, or
`ListenerManager::handle_request` cannot read it. -/
def Outcome.bodyRejected : Outcome → Bool
  | .requestHandler (.error (.bodyTooLarge _ _)) => true
  | .listenerManager .bodyReadFailure => true
  | _ => false

/-- These are the outcomes that nobody reports. -/
theorem Outcome.report_eq_none_iff {outcome : Outcome} :
    outcome.report = none ↔ outcome.bodyRejected := by
  cases outcome with
  | requestHandler result =>
      cases result with
      | ok statusCode =>
          show (if statusCode ≥ 500 then some BreakerOp.recordFailure else
            some .recordSuccess) = none ↔ _
          split <;> simp [bodyRejected]
      | error e => cases e <;> simp [report, recordRequestMetrics, bodyRejected]
  | listenerManager exit =>
      cases exit with
      | response status =>
          show (if 500 ≤ status ∧ status < 600 then some BreakerOp.recordFailure else
            some .recordSuccess) = none ↔ _
          split <;> simp [bodyRejected]
      | _ => simp [report, ListenerExit.report, bodyRejected]

theorem Outcome.report_ne_allowRequest {outcome : Outcome} {op : BreakerOp}
    (h : outcome.report = some op) : op ≠ .allowRequest := by
  rintro rfl
  unfold report recordRequestMetrics ListenerExit.report at h
  grind

/-! ## Handlers as threads -/

/-- Where a request is. -/
inductive Phase where
  /-- In `allow_request`. -/
  | asking (call : BreakerCall)
  /-- Admitted, and on its way to the backend and back. -/
  | forwarding
  /-- In `record_success` or `record_failure`. -/
  | reporting (call : BreakerCall)
  | returned (admitted : Bool)
  deriving DecidableEq

/-- A request in its handler. `reports` is a history variable: how often it has reported. -/
structure Handler where
  outcome : Outcome
  phase : Phase
  reports : Nat

/-- A request that has arrived. -/
def Handler.new (outcome : Outcome) : Handler := ⟨outcome, .asking (.new .allowRequest), 0⟩

/-- One step of a handler. -/
def handlerStep (b : CircuitBreaker) (sh : BreakerShared) (h : Handler) (spurious : Bool) :
    Option (BreakerShared × Handler) :=
  match h.phase with
  | .asking call =>
    match call.pc with
    | .done .allowed => some (sh, { h with phase := .forwarding })
    | .done _ => some (sh, { h with phase := .returned false })
    | _ => (breakerStep b sh call spurious).map fun r => (r.1, { h with phase := .asking r.2 })
  | .forwarding =>
    match h.outcome.report with
    | none => some (sh, { h with phase := .returned true })
    | some op => some (sh, { h with phase := .reporting (.new op), reports := h.reports + 1 })
  | .reporting call =>
    match call.pc with
    | .done _ => some (sh, { h with phase := .returned true })
    | _ => (breakerStep b sh call spurious).map fun r => (r.1, { h with phase := .reporting r.2 })
  | .returned _ => none

/-- Requests against one backend, and a clock that moves forward. -/
def handlerMachine (b : CircuitBreaker) : Machine BreakerShared Handler Bool Nat where
  thread := handlerStep b
  env sh ns := { sh with now := sh.now + ns }

/-- The steps of a handler. -/
inductive HandlerStep (b : CircuitBreaker) (sh : BreakerShared) (h : Handler) :
    BreakerShared → Handler → Prop
  | ask {sh' : BreakerShared} {call call' : BreakerCall} : h.phase = .asking call →
      BreakerStep b sh call sh' call' → HandlerStep b sh h sh' { h with phase := .asking call' }
  | accept {call : BreakerCall} : h.phase = .asking call → call.pc = .done .allowed →
      HandlerStep b sh h sh { h with phase := .forwarding }
  | refuse {call : BreakerCall} : h.phase = .asking call → call.pc ≠ .done .allowed →
      HandlerStep b sh h sh { h with phase := .returned false }
  | answer {op : BreakerOp} : h.phase = .forwarding → h.outcome.report = some op →
      HandlerStep b sh h sh { h with phase := .reporting (.new op), reports := h.reports + 1 }
  | drop : h.phase = .forwarding → h.outcome.report = none →
      HandlerStep b sh h sh { h with phase := .returned true }
  | record {sh' : BreakerShared} {call call' : BreakerCall} : h.phase = .reporting call →
      BreakerStep b sh call sh' call' → HandlerStep b sh h sh' { h with phase := .reporting call' }
  | finish {call : BreakerCall} {result : BreakerResult} : h.phase = .reporting call →
      call.pc = .done result → HandlerStep b sh h sh { h with phase := .returned true }

section Steps

variable {b : CircuitBreaker} {sh sh' : BreakerShared} {h h' : Handler} {spurious : Bool}

theorem handlerStep_cases (hstep : handlerStep b sh h spurious = some (sh', h')) :
    HandlerStep b sh h sh' h' := by
  unfold handlerStep at hstep
  split at hstep
  · next call hphase =>
    split at hstep
    · next hpc =>
      cases hstep
      exact .accept hphase hpc
    · next hne hpc =>
      cases hstep
      refine .refuse hphase ?_
      rw [hpc]
      exact fun heq => hne (BreakerPc.done.inj heq)
    · obtain ⟨⟨sh'', call'⟩, hcall, heq⟩ := Option.map_eq_some_iff.mp hstep
      cases heq
      exact .ask hphase (breakerStep_cases hcall)
  · next hphase =>
    split at hstep
    · next hreport =>
      cases hstep
      exact .drop hphase hreport
    · next op hreport =>
      cases hstep
      exact .answer hphase hreport
  · next call hphase =>
    split at hstep
    · next result hpc =>
      cases hstep
      exact .finish hphase hpc
    · obtain ⟨⟨sh'', call'⟩, hcall, heq⟩ := Option.map_eq_some_iff.mp hstep
      cases heq
      exact .record hphase (breakerStep_cases hcall)
  · cases hstep

end Steps

/-! ## Slots -/

/-- How many slots of a half-open breaker the call holds: one, if it stands for an admitted request
whose report has not taken effect. -/
def BreakerCall.slot (t : BreakerCall) : Nat :=
  if t.op = .allowRequest then if t.pc = .done .allowed then 1 else 0
  else
    match t.pc with
    | .clear | .done _ => 0
    | _ => 1

/-- In Half-Open the admitted requests have succeeded or are among `slots`. -/
def HalfOpenCovered (b : CircuitBreaker) (sh : BreakerShared) (slots : Nat) : Prop :=
  unpackStateField sh.packed = stateHalfOpen →
    unpackSuccesses sh.packed < b.halfOpenMaxRequests ∧
    unpackHalfOpenReqs sh.packed ≤ unpackSuccesses sh.packed + slots

section Covered

variable {b : CircuitBreaker} {sh sh' : BreakerShared} {t t' : BreakerCall} {rest : Nat}

theorem BreakerCall.slot_allowed (hop : t.op = .allowRequest) (hpc : t.pc = .done .allowed) :
    t.slot = 1 := by
  rw [slot, if_pos hop, if_pos hpc]

theorem BreakerCall.slot_not_allowed (hop : t.op = .allowRequest) (hpc : t.pc ≠ .done .allowed) :
    t.slot = 0 := by
  rw [slot, if_pos hop, if_neg hpc]

theorem BreakerCall.slot_new {op : BreakerOp} (hop : op ≠ .allowRequest) : (new op).slot = 1 :=
  if_neg hop

theorem BreakerCall.slot_recorded {result : BreakerResult} (hop : t.op ≠ .allowRequest)
    (hpc : t.pc = .done result) : t.slot = 0 := by
  rw [slot, if_neg hop, hpc]

/-- Loading gives up no slot in Half-Open. -/
theorem BreakerCall.slot_le_slot_next (b : CircuitBreaker) {t : BreakerCall} (hpc : t.pc = .load)
    {current : Nat} (hhalf : unpackStateField current = stateHalfOpen) :
    t.slot ≤ { t with pc := b.next current t.op }.slot := by
  obtain ⟨op, pc, readingUs, epoch⟩ := t
  cases hpc
  have hnext := b.next_cases op current
  simp only
  generalize b.next current op = pc at hnext
  cases hnext with
  | done hdone =>
      -- only `allow_request` returns here in Half-Open, and it holds no slot yet
      have hop : op = .allowRequest := by
        by_contra hop
        exact hdone hop hhalf
      subst hop
      exact Nat.zero_le _
  | wait hop _ =>
      subst hop
      exact Nat.zero_le _
  | exchange _ _ => exact Nat.le_refl _

/-- A step gives up a slot only by exchanging the word, or outside Half-Open. -/
theorem BreakerStep.slot_cases (h : BreakerStep b sh t sh' t') (ht : t.Planned b) :
    (sh'.packed = sh.packed ∧ (unpackStateField sh.packed = stateHalfOpen → t.slot ≤ t'.slot)) ∨
    (∃ word clears, b.Exchange t.op sh.packed word clears ∧ sh'.packed = word ∧
      (if t.op = .allowRequest then t.slot = 0 ∧ t'.slot = 1 else t.slot = 1 ∧ t'.slot = 0)) := by
  cases h with
  | load hpc => exact Or.inl ⟨rfl, BreakerCall.slot_le_slot_next b hpc⟩
  | @swap word clears hpc =>
      obtain ⟨op, pc, readingUs, epoch⟩ := t
      cases hpc
      have hexchange : b.Exchange op sh.packed word clears := ht
      refine Or.inr ⟨word, clears, hexchange, BreakerShared.swap_packed, ?_⟩
      cases op with
      | allowRequest =>
          have hclears : clears = false := by cases hexchange <;> rfl
          subst hclears
          exact ⟨rfl, rfl⟩
      | recordSuccess | recordFailure => cases clears <;> exact ⟨rfl, rfl⟩
  | reject hpc =>
      obtain ⟨op, pc, readingUs, epoch⟩ := t
      cases hpc
      obtain rfl : op = .allowRequest := ht.1
      exact Or.inl ⟨rfl, fun _ => Nat.zero_le _⟩
  | clear hpc =>
      obtain ⟨op, pc, readingUs, epoch⟩ := t
      cases hpc
      obtain rfl : op = .recordSuccess := ht
      exact Or.inl ⟨rfl, fun _ => Nat.le_refl _⟩
  | enter hpc _ | read hpc _ | store hpc | loadFailure hpc | elapsed hpc _ | retry hpc =>
      -- the slot is held as before
      obtain ⟨op, pc, readingUs, epoch⟩ := t
      cases hpc
      exact Or.inl ⟨rfl, fun _ => Nat.le_refl _⟩

/-- **One step of one call keeps the requests covered.** -/
theorem BreakerStep.covered (h : BreakerStep b sh t sh' t') (ht : t.Planned b)
    (hmin : 0 < b.halfOpenMaxRequests) (hmax : b.halfOpenMaxRequests < 2 ^ 16)
    (hcovered : HalfOpenCovered b sh (t.slot + rest)) : HalfOpenCovered b sh' (t'.slot + rest) := by
  intro hhalf
  rcases h.slot_cases ht with ⟨hpacked, hslot⟩ | ⟨word, clears, hexchange, hword, hslot⟩
  · rw [hpacked] at hhalf ⊢
    obtain ⟨hsuccesses, hreqs⟩ := hcovered hhalf
    have := hslot hhalf
    exact ⟨hsuccesses, by omega⟩
  · rw [hword] at hhalf ⊢
    generalize t.op = op at hexchange hslot
    cases hexchange with
    | probe _ =>
        obtain ⟨-, hslot'⟩ := hslot
        rw [CircuitBreaker.probing, unpackSuccesses_packState _ _ _ (by decide),
          unpackHalfOpenReqs_packState _ _ _ (by decide), hslot']
        exact ⟨hmin, by omega⟩
    | accept hstate hfew =>
        obtain ⟨hslot, hslot'⟩ := hslot
        obtain ⟨hsuccesses, hreqs⟩ := hcovered hstate
        rw [unpackSuccesses_packState _ _ _ (by decide),
          unpackHalfOpenReqs_packState _ _ _ (by decide),
          Nat.mod_eq_of_lt (hsuccesses.trans hmax), Nat.mod_eq_of_lt (by omega), hslot']
        exact ⟨hsuccesses, by omega⟩
    | succeed hstate hfew =>
        obtain ⟨hslot, hslot'⟩ := hslot
        obtain ⟨-, hreqs⟩ := hcovered hstate
        rw [unpackSuccesses_packState _ _ _ (by decide),
          unpackHalfOpenReqs_packState _ _ _ (by decide),
          Nat.mod_eq_of_lt (hfew.trans hmax), Nat.mod_eq_of_lt (unpackHalfOpenReqs_lt _), hslot']
        exact ⟨hfew, by omega⟩
    | reset _ | close _ _ | trip _ _ | fail _ _ | reopen _ =>
        rw [unpackStateField_packState _ _ _ (by decide)] at hhalf
        cases hhalf

end Covered

/-! ## Every admitted request reports -/

/-- The slots that a request holds. -/
def Handler.slot (h : Handler) : Nat :=
  match h.phase with
  | .asking call | .reporting call => call.slot
  | .forwarding => 1
  | .returned _ => 0

/-- The request has been admitted, and its handler has not returned. -/
def Handler.inFlight (h : Handler) : Bool :=
  match h.phase with
  | .asking call => call.pc = .done .allowed
  | .forwarding | .reporting _ => true
  | .returned _ => false

/-- The breaker waits for reports, and admits nobody else. -/
def Wedged (b : CircuitBreaker) (sh : BreakerShared) : Prop :=
  unpackStateField sh.packed = stateHalfOpen ∧ b.halfOpenMaxRequests ≤ unpackHalfOpenReqs sh.packed

instance (b : CircuitBreaker) (sh : BreakerShared) : Decidable (Wedged b sh) :=
  inferInstanceAs (Decidable (_ ∧ _))

/-- The call of a phase is one that the phase makes, and reports are counted right. -/
def Handler.Sound (b : CircuitBreaker) (h : Handler) : Prop :=
  match h.phase with
  | .asking call => call.op = .allowRequest ∧ call.Planned b ∧ h.reports = 0
  | .forwarding => h.reports = 0
  | .reporting call => call.op ≠ .allowRequest ∧ call.Planned b ∧ h.reports = 1
  | .returned admitted => h.reports = if admitted then 1 else 0

/-- No admitted request ends with its body rejected. -/
def BodiesAccepted (c : Config BreakerShared Handler) : Label Bool Nat → Prop
  | .env _ => True
  | .thread i _ => ∀ h ∈ c.threads[i]?, h.phase = .forwarding → h.outcome.bodyRejected = false

instance (c : Config BreakerShared Handler) : (l : Label Bool Nat) → Decidable (BodiesAccepted c l)
  | .env _ => inferInstanceAs (Decidable True)
  | .thread i _ => inferInstanceAs (Decidable (∀ h ∈ c.threads[i]?, _))

section Handlers

variable {b : CircuitBreaker} {sh sh' : BreakerShared} {h h' : Handler} {rest : Nat}

theorem HandlerStep.sound (hstep : HandlerStep b sh h sh' h') (hs : h.Sound b)
    (hreports : h.phase = .forwarding → h.outcome.report ≠ none) : h'.Sound b := by
  unfold Handler.Sound at hs
  cases hstep with
  | ask hphase hcall =>
      rw [hphase] at hs
      exact ⟨hcall.op_eq.trans hs.1, hcall.planned hs.2.1, hs.2.2⟩
  | accept hphase _ | refuse hphase _ =>
      rw [hphase] at hs
      exact hs.2.2
  | answer hphase hreport =>
      rw [hphase] at hs
      exact ⟨Outcome.report_ne_allowRequest hreport, trivial, congrArg (· + 1) hs⟩
  | drop hphase hreport => exact absurd hreport (hreports hphase)
  | record hphase hcall =>
      rw [hphase] at hs
      exact ⟨hcall.op_eq.trans_ne hs.1, hcall.planned hs.2.1, hs.2.2⟩
  | finish hphase _ =>
      rw [hphase] at hs
      exact hs.2.2

theorem HandlerStep.covered (hstep : HandlerStep b sh h sh' h') (hs : h.Sound b)
    (hreports : h.phase = .forwarding → h.outcome.report ≠ none)
    (hmin : 0 < b.halfOpenMaxRequests) (hmax : b.halfOpenMaxRequests < 2 ^ 16)
    (hcovered : HalfOpenCovered b sh (h.slot + rest)) : HalfOpenCovered b sh' (h'.slot + rest) := by
  unfold Handler.Sound at hs
  unfold Handler.slot at hcovered
  cases hstep with
  | ask hphase hcall | record hphase hcall =>
      rw [hphase] at hs hcovered
      exact hcall.covered hs.2.1 hmin hmax hcovered
  | accept hphase hpc =>
      rw [hphase] at hs hcovered
      simp only [BreakerCall.slot_allowed hs.1 hpc] at hcovered
      exact hcovered
  | refuse hphase hpc =>
      rw [hphase] at hs hcovered
      simp only [BreakerCall.slot_not_allowed hs.1 hpc] at hcovered
      exact hcovered
  | answer hphase hreport =>
      rw [hphase] at hcovered
      show HalfOpenCovered b sh ((BreakerCall.new _).slot + rest)
      rw [BreakerCall.slot_new (Outcome.report_ne_allowRequest hreport)]
      exact hcovered
  | drop hphase hreport => exact absurd hreport (hreports hphase)
  | finish hphase hpc =>
      rw [hphase] at hs hcovered
      simp only [BreakerCall.slot_recorded hs.1 hpc] at hcovered
      exact hcovered

/-- A request that is not in flight holds no slot. -/
theorem Handler.Sound.slot_eq_zero (hs : h.Sound b) (hflight : h.inFlight = false) :
    h.slot = 0 := by
  unfold Handler.Sound at hs
  unfold Handler.inFlight at hflight
  unfold Handler.slot
  cases hphase : h.phase with
  | asking call =>
      rw [hphase] at hs hflight
      exact BreakerCall.slot_not_allowed hs.1 (of_decide_eq_false hflight)
  | forwarding | reporting call =>
      rw [hphase] at hflight
      cases hflight
  | returned admitted => rfl

end Handlers

/-- What is kept while every admitted request reports. -/
structure SlotsCovered (b : CircuitBreaker) (sh : BreakerShared) (handlers : List Handler) :
    Prop where
  sound : ∀ h ∈ handlers, h.Sound b
  covered : HalfOpenCovered b sh (handlers.map Handler.slot).sum

theorem slotsCovered_of_reach {b : CircuitBreaker} (hmin : 0 < b.halfOpenMaxRequests)
    (hmax : b.halfOpenMaxRequests < 2 ^ 16) {outcomes : List Outcome}
    {c : Config BreakerShared Handler}
    (h : (handlerMachine b).system.Reach BodiesAccepted ⟨.initial, outcomes.map .new⟩ c) :
    SlotsCovered b c.shared c.threads := by
  refine Machine.invariant ⟨?_, ?_⟩ ?_ ?_ h
  · intro h hh
    obtain ⟨outcome, -, rfl⟩ := List.mem_map.mp hh
    exact ⟨rfl, trivial, rfl⟩
  · intro hhalf
    change unpackStateField (packState stateClosed 0 0 0) = stateHalfOpen at hhalf
    rw [unpackStateField_packState _ _ _ (by decide)] at hhalf
    cases hhalf
  · intro sh handlers ns hs _
    exact ⟨hs.sound, hs.covered⟩
  · intro sh pre h post spurious sh' h' hs hok hstep
    obtain ⟨hsound, hothers⟩ := forall_mem_middle.mp hs.sound
    have hreports : h.phase = .forwarding → h.outcome.report ≠ none := by
      intro hphase hnone
      have hrejected := Outcome.report_eq_none_iff.mp hnone
      rw [hok h (by simp) hphase] at hrejected
      cases hrejected
    have hstep := handlerStep_cases hstep
    refine ⟨forall_mem_middle.mpr ⟨hstep.sound hsound hreports, hothers⟩, ?_⟩
    have hcovered := hs.covered
    rw [sum_map_middle] at hcovered ⊢
    exact hstep.covered hsound hreports hmin hmax hcovered

/-- Five requests that the backend answers with `500`, then three others. -/
def afterFive (outcome : Outcome) : List Outcome :=
  List.replicate 5 (.requestHandler (.ok 500)) ++ List.replicate 3 outcome

/-- One request after the other, with a break of thirty seconds before the last three; the last
argument is the number of steps after an admission. -/
def consecutive (n : Nat) : List (Label Bool Nat) :=
  (List.range 5).flatMap (fun i => steps i 9) ++ [.env 30000000000] ++ steps 5 (5 + n) ++
    steps 6 (3 + n) ++ steps 7 (3 + n)

/-- The request has been refused, or is going to be. -/
def Handler.Refused (b : CircuitBreaker) (h : Handler) : Prop :=
  match h.phase with
  | .asking call => call.op = .allowRequest ∧ call.Planned b ∧ call.pc ≠ .done .allowed
  | .returned _ => True
  | _ => False

section Wedged

variable {b : CircuitBreaker} {sh sh' : BreakerShared} {t t' : BreakerCall} {h h' : Handler}

/-- A wedged breaker does not accept. -/
theorem Wedged.breakerStep (hw : Wedged b sh) (hop : t.op = .allowRequest) (ht : t.Planned b)
    (hstep : BreakerStep b sh t sh' t') : sh'.packed = sh.packed ∧ t'.pc ≠ .done .allowed := by
  unfold BreakerCall.Planned at ht
  cases hstep with
  | enter _ _ | loadFailure _ | elapsed _ _ | reject _ | retry _ => exact ⟨rfl, by simp⟩
  | read _ hread => cases hop.symm.trans hread
  | store hpc =>
      rw [hpc] at ht
      cases hop.symm.trans ht
  | clear hpc =>
      rw [hpc] at ht
      cases hop.symm.trans ht
  | load _ =>
      refine ⟨rfl, ?_⟩
      simp [hop, CircuitBreaker.next, CircuitBreaker.allowNext, hw.1, Nat.not_lt_of_le hw.2]
  | swap hpc =>
      rw [hpc, hop] at ht
      cases ht with
      | probe hopen => cases hw.1.symm.trans hopen
      | accept _ hfew => exact absurd hfew (Nat.not_lt_of_le hw.2)

theorem Wedged.handlerStep (hw : Wedged b sh) (hh : h.Refused b)
    (hstep : HandlerStep b sh h sh' h') : Wedged b sh' ∧ h'.Refused b := by
  unfold Handler.Refused at hh
  cases hstep with
  | ask hphase hcall =>
      rw [hphase] at hh
      obtain ⟨hpacked, hpc⟩ := hw.breakerStep hh.1 hh.2.1 hcall
      refine ⟨?_, hcall.op_eq.trans hh.1, hcall.planned hh.2.1, hpc⟩
      unfold Wedged
      rw [hpacked]
      exact hw
  | accept hphase hpc =>
      rw [hphase] at hh
      exact absurd hpc hh.2.2
  | refuse _ _ => exact ⟨hw, trivial⟩
  | answer hphase _ | drop hphase _ | record hphase _ | finish hphase _ =>
      rw [hphase] at hh
      cases hh

end Wedged

/-- The breaker is wedged, and refuses every request. -/
structure RefusesAll (b : CircuitBreaker) (sh : BreakerShared) (handlers : List Handler) :
    Prop where
  wedged : Wedged b sh
  refused : ∀ h ∈ handlers, h.Refused b

/-- **Wedged for ever**: whatever comes, a wedged breaker with nobody in flight stays so, and
refuses every request. -/
theorem wedged_for_ever {b : CircuitBreaker} {c c' : Config BreakerShared Handler}
    (hw : Wedged b c.shared)
    (hidle : ∀ h ∈ c.threads, h.phase = .asking (.new .allowRequest) ∨
      ∃ admitted, h.phase = .returned admitted)
    (h : (handlerMachine b).system.Reach System.Anything c c') :
    RefusesAll b c'.shared c'.threads := by
  refine Machine.invariant ⟨hw, ?_⟩ ?_ ?_ h
  · intro h hh
    unfold Handler.Refused
    rcases hidle h hh with hphase | ⟨admitted, hphase⟩
    · rw [hphase]
      exact ⟨rfl, trivial, by simp [BreakerCall.new]⟩
    · rw [hphase]
      trivial
  · intro sh handlers ns hs _
    exact ⟨hs.wedged, hs.refused⟩
  · intro sh pre h post spurious sh' h' hs _ hstep
    obtain ⟨hrefused, hothers⟩ := forall_mem_middle.mp hs.refused
    obtain ⟨hw', hrefused'⟩ := hs.wedged.handlerStep hrefused (handlerStep_cases hstep)
    exact ⟨hw', forall_mem_middle.mpr ⟨hrefused', hothers⟩⟩

end Rauta
