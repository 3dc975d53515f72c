import Rauta.CircuitBreaker.Handlers

/-!
# Clients that go away

`CircuitBreaker/Handlers` follows every admitted request to its end. But a handler is a future, and
when the client closes its connection while the backend is still at work, the server drops the
future: the request ends where it waits, and nobody reports to the breaker.

A request that ended so, or with its body rejected, is lost to the breaker. In Half-Open it has
taken one of the three slots and never gives it back, so that lost requests have to be added to what
covers the slots. Conversely a breaker that is wedged while nobody is in flight owes it to them, and
it stays so.
-/

namespace Rauta

open Interleaving Transition

/-- A step of a handler, or its client goes away. -/
def clientStep (b : CircuitBreaker) (sh : BreakerShared) (h : Handler) (a : Option Bool) :
    Option (BreakerShared × Handler) :=
  match a with
  | some spurious => handlerStep b sh h spurious
  | none => if h.phase = .forwarding then some (sh, { h with phase := .returned true }) else none

/-- Requests against one backend, from clients that may go away. -/
def clientMachine (b : CircuitBreaker) : Machine BreakerShared Handler (Option Bool) Nat where
  thread := clientStep b
  env sh ns := { sh with now := sh.now + ns }

namespace Handler

/-- The request was admitted and is over, and has not reported. -/
def lost (h : Handler) : Nat := if h.phase = .returned true ∧ h.reports = 0 then 1 else 0

/-- The request is sound, or lost. -/
def Sane (b : CircuitBreaker) (h : Handler) : Prop :=
  h.Sound b ∨ h.phase = .returned true ∧ h.reports = 0

variable {b : CircuitBreaker} {sh sh' : BreakerShared} {h h' : Handler} {rest : Nat}

/-- While it is not over, a request is not lost. -/
theorem lost_eq_zero (hphase : ∀ admitted, h.phase ≠ .returned admitted) : h.lost = 0 :=
  if_neg fun hlost => hphase true hlost.1

theorem Sound.lost_eq_zero (hs : h.Sound b) : h.lost = 0 := by
  refine if_neg ?_
  rintro ⟨hphase, hreports⟩
  unfold Sound at hs
  rw [hphase, hreports] at hs
  cases hs

theorem Sane.sound (hs : h.Sane b) (hphase : ∀ admitted, h.phase ≠ .returned admitted) :
    h.Sound b :=
  hs.resolve_right fun hlost => hphase true hlost.1

theorem reports_of_forwarding (hs : h.Sane b) (hphase : h.phase = .forwarding) : h.reports = 0 := by
  have hsound := hs.sound (fun admitted => by simp [hphase])
  unfold Sound at hsound
  rwa [hphase] at hsound

/-- A request that is given up while it is forwarded keeps its slot for good. -/
theorem lost_of_forwarding (hs : h.Sane b) (hphase : h.phase = .forwarding) :
    { h with phase := .returned true }.lost = h.slot + h.lost := by
  have hslot : h.slot = 1 := by rw [slot, hphase]
  have hlost : h.lost = 0 := lost_eq_zero fun admitted => by simp [hphase]
  have hreports := reports_of_forwarding hs hphase
  rw [hslot, hlost]
  exact if_pos ⟨rfl, hreports⟩

/-- A sane request that is not in flight will be refused, or is over. -/
theorem Sane.refused (hs : h.Sane b) (hflight : h.inFlight = false) : h.Refused b := by
  unfold inFlight at hflight
  unfold Refused
  cases hphase : h.phase with
  | asking call =>
    have hsound := hs.sound (fun admitted => by simp [hphase])
    unfold Sound at hsound
    rw [hphase] at hsound hflight
    exact ⟨hsound.1, hsound.2.1, of_decide_eq_false hflight⟩
  | forwarding | reporting call =>
    rw [hphase] at hflight
    cases hflight
  | returned admitted => trivial

theorem Sane.slot_eq_zero (hs : h.Sane b) (hflight : h.inFlight = false) : h.slot = 0 := by
  rcases hs with hsound | ⟨hphase, -⟩
  · exact hsound.slot_eq_zero hflight
  · rw [slot, hphase]

end Handler

section Steps

variable {b : CircuitBreaker} {sh sh' : BreakerShared} {h h' : Handler} {rest : Nat}
  {a : Option Bool}

/-- **What a step does**: it is one of `CircuitBreaker/Handlers` with which the request stays sound,
or the request is lost while it is forwarded. -/
theorem clientStep_cases (hs : h.Sane b) (hstep : clientStep b sh h a = some (sh', h')) :
    (h.Sound b ∧ HandlerStep b sh h sh' h' ∧
      (h.phase = .forwarding → h.outcome.report ≠ none)) ∨
    (h.phase = .forwarding ∧ sh' = sh ∧ h' = { h with phase := .returned true }) := by
  cases a with
  | none =>
    obtain ⟨hphase, heq⟩ := Option.ite_none_right_eq_some.mp hstep
    cases heq
    exact Or.inr ⟨hphase, rfl, rfl⟩
  | some spurious =>
    have hstep := handlerStep_cases hstep
    have hsound : h.Sound b := hs.sound fun admitted hphase => by
      cases hstep <;> simp_all
    by_cases hdrop : h.phase = .forwarding ∧ h.outcome.report = none
    · refine Or.inr ⟨hdrop.1, ?_⟩
      cases hstep with
      | drop _ _ => exact ⟨rfl, rfl⟩
      | answer _ hreport =>
        rw [hdrop.2] at hreport
        cases hreport
      | ask hphase _ | accept hphase _ | refuse hphase _ | record hphase _ | finish hphase _ =>
        rw [hdrop.1] at hphase
        cases hphase
    · exact Or.inl ⟨hsound, hstep, fun hphase hnone => hdrop ⟨hphase, hnone⟩⟩

/-- **One step of one request keeps the slots covered**, with what is lost. -/
theorem clientStep_covered (hs : h.Sane b) (hmin : 0 < b.halfOpenMaxRequests)
    (hmax : b.halfOpenMaxRequests < 2 ^ 16) (hstep : clientStep b sh h a = some (sh', h'))
    (hcovered : HalfOpenCovered b sh (h.slot + h.lost + rest)) :
    h'.Sane b ∧ HalfOpenCovered b sh' (h'.slot + h'.lost + rest) := by
  rcases clientStep_cases hs hstep with ⟨hsound, hstep, hreports⟩ | ⟨hphase, rfl, rfl⟩
  · have hsound' := hstep.sound hsound hreports
    rw [hsound.lost_eq_zero] at hcovered
    rw [hsound'.lost_eq_zero]
    exact ⟨Or.inl hsound', hstep.covered hsound hreports hmin hmax hcovered⟩
  · have hreports := Handler.reports_of_forwarding hs hphase
    refine ⟨Or.inr ⟨rfl, hreports⟩, ?_⟩
    rw [Handler.lost_of_forwarding hs hphase]
    show HalfOpenCovered b _ (0 + (h.slot + h.lost) + rest)
    rwa [Nat.zero_add]

end Steps

/-- What is kept by clients that go away. -/
structure LossesCovered (b : CircuitBreaker) (sh : BreakerShared) (handlers : List Handler) :
    Prop where
  sane : ∀ h ∈ handlers, h.Sane b
  covered : HalfOpenCovered b sh (handlers.map fun h => h.slot + h.lost).sum

theorem lossesCovered_of_reach {b : CircuitBreaker} (hmin : 0 < b.halfOpenMaxRequests)
    (hmax : b.halfOpenMaxRequests < 2 ^ 16) {outcomes : List Outcome}
    {c : Config BreakerShared Handler}
    (h : (clientMachine b).system.Reach System.Anything ⟨.initial, outcomes.map .new⟩ c) :
    LossesCovered b c.shared c.threads := by
  refine Machine.invariant ⟨?_, ?_⟩ ?_ ?_ h
  · intro h hh
    obtain ⟨outcome, -, rfl⟩ := List.mem_map.mp hh
    exact Or.inl ⟨rfl, trivial, rfl⟩
  · intro hhalf
    change unpackStateField (packState stateClosed 0 0 0) = stateHalfOpen at hhalf
    rw [unpackStateField_packState _ _ _ (by decide)] at hhalf
    cases hhalf
  · intro sh handlers ns hs _
    exact ⟨hs.sane, hs.covered⟩
  · intro sh pre h post a sh' h' hs _ hstep
    obtain ⟨hsane, hothers⟩ := forall_mem_middle.mp hs.sane
    have hcovered := hs.covered
    rw [sum_map_middle] at hcovered
    obtain ⟨hsane', hcovered'⟩ := clientStep_covered hsane hmin hmax hstep hcovered
    refine ⟨forall_mem_middle.mpr ⟨hsane', hothers⟩, ?_⟩
    rw [sum_map_middle]
    exact hcovered'

/-- A wedged breaker refuses, also if clients go away. -/
theorem Wedged.clientStep {b : CircuitBreaker} {sh sh' : BreakerShared} {h h' : Handler}
    {a : Option Bool} (hw : Wedged b sh) (hh : h.Refused b)
    (hstep : Rauta.clientStep b sh h a = some (sh', h')) : Wedged b sh' ∧ h'.Refused b := by
  cases a with
  | some spurious => exact hw.handlerStep hh (handlerStep_cases hstep)
  | none =>
    obtain ⟨hphase, -⟩ := Option.ite_none_right_eq_some.mp hstep
    unfold Handler.Refused at hh
    rw [hphase] at hh
    exact hh.elim

/-- **What wedges a breaker**: if it waits in Half-Open while nobody is in flight, then the slots
that are not successes are those of lost requests, and from then on it refuses every request. -/
theorem lost_of_wedged {failureThreshold timeout : Nat} {outcomes : List Outcome}
    {c : Config BreakerShared Handler}
    (h : (clientMachine (.new failureThreshold timeout)).system.Reach System.Anything
      ⟨.initial, outcomes.map .new⟩ c)
    (hidle : ∀ h ∈ c.threads, h.inFlight = false)
    (hw : Wedged (.new failureThreshold timeout) c.shared) :
    unpackSuccesses c.shared.packed < 3 ∧
      3 ≤ unpackSuccesses c.shared.packed + (c.threads.map Handler.lost).sum ∧
      ∀ c', (clientMachine (.new failureThreshold timeout)).system.Reach System.Anything c c' →
        RefusesAll (.new failureThreshold timeout) c'.shared c'.threads := by
  have hlosses := lossesCovered_of_reach (by decide : 0 < 3) (by decide : 3 < 2 ^ 16) h
  obtain ⟨hsuccesses, hreqs⟩ := hlosses.covered hw.1
  have hslots : c.threads.map (fun h => h.slot + h.lost) = c.threads.map Handler.lost := by
    refine List.map_congr_left fun h hh => ?_
    rw [(hlosses.sane h hh).slot_eq_zero (hidle h hh), Nat.zero_add]
  rw [hslots] at hreqs
  refine ⟨hsuccesses, hw.2.trans hreqs, fun c' hreach => ?_⟩
  refine Machine.invariant ⟨hw, fun h hh => (hlosses.sane h hh).refused (hidle h hh)⟩ ?_ ?_ hreach
  · intro sh handlers ns hs _
    exact ⟨hs.wedged, hs.refused⟩
  · intro sh pre h post a sh' h' hs _ hstep
    obtain ⟨hrefused, hothers⟩ := forall_mem_middle.mp hs.refused
    obtain ⟨hw', hrefused'⟩ := hs.wedged.clientStep hrefused hstep
    exact ⟨hw', forall_mem_middle.mpr ⟨hrefused', hothers⟩⟩

/-- The steps of `CircuitBreaker/Handlers`, and then three clients that go away. -/
def threeGoAway : List (Label (Option Bool) Nat) :=
  (consecutive 1).map (fun
    | .thread i spurious => .thread i (some spurious)
    | .env ns => .env ns) ++ [.thread 5 none, .thread 6 none, .thread 7 none]

/-- **Three clients go away**, and the backend is out of reach for ever. -/
theorem lost_of_wedged_threeGoAway :
    ∃ c, (clientMachine .standard).system.Reach System.Anything
        ⟨.initial, (afterFive (.requestHandler (.ok 200))).map .new⟩ c ∧
      (c.threads.map Handler.lost).sum = 3 ∧
      ∀ c', (clientMachine .standard).system.Reach System.Anything c c' →
        RefusesAll .standard c'.shared c'.threads := by
  have hrun : ((clientMachine .standard).system.exec
      ⟨.initial, (afterFive (.requestHandler (.ok 200))).map .new⟩ threeGoAway).any (fun c =>
        (∀ h ∈ c.threads, h.inFlight = false) ∧ Wedged .standard c.shared ∧
          (c.threads.map Handler.lost).sum = 3) := by
    decide +kernel
  obtain ⟨c, hc, hend⟩ := (Option.any_eq_true ..).mp hrun
  obtain ⟨hidle, hwedged, hlost⟩ := of_decide_eq_true hend
  have hreach := System.Reach.of_exec hc
  exact ⟨c, hreach, hlost, (lost_of_wedged hreach hidle hwedged).2.2⟩

end Rauta
