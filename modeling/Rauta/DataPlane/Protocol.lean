import Rauta.DataPlane

/-!
# What a request owes its circuit breaker

`CircuitBreaker/Handlers` treats a request as a handful of steps: it asks the breaker, is forwarded
if it is admitted, and reports what has come of it. This module shows that the two functions of the
data plane are like that. `Conduct` is the protocol as a monitor, with a state for a breach of it,
and both functions keep to it whatever they are answered.

So the breaker of a backend can be given accounts: of the requests it has admitted, those that have
not reported are on their way, or were cancelled, or had a body that was rejected, or their handler
has panicked. All but the first will never report.
-/

namespace Rauta

open Interaction Interleaving Transition

/-! ## The protocol -/

/-- How far a request is with the circuit breakers. -/
inductive Conduct where
  | idle
  | refused
  | admitted (backendId : Str)
  | returned (backendId : Str) (outcome : Outcome)
  | reported
  /-- Admitted, and the handler has panicked. -/
  | abandoned (backendId : Str)
  /-- The protocol has been violated. -/
  | astray

namespace Conduct

/-- A breaker is asked. -/
def ask (backendId : Str) (allowed : Bool) : Conduct → Conduct
  | .idle => if allowed then .admitted backendId else .refused
  | _ => .astray

/-- The request has been forwarded, to the backend whose breaker has admitted it. Without an outcome
the handler has panicked. -/
def receive (backendId : Str) (outcome : Option Outcome) : Conduct → Conduct
  | .admitted admittedBy =>
    if backendId = admittedBy then outcome.elim (.abandoned backendId) (.returned backendId)
    else .astray
  | _ => .astray

/-- The outcome is reported, as it should be. -/
def report (backendId : Str) (op : BreakerOp) : Conduct → Conduct
  | .returned admittedBy outcome =>
    if backendId = admittedBy ∧ outcome.report = some op then .reported else .astray
  | _ => .astray

/-- One more call. -/
def watch (c : Conduct) (e : Event plane) : Conduct :=
  match e with
  | ⟨.allowRequest backendId, allowed⟩ => c.ask backendId allowed
  | ⟨.executeRequest _ route, execution⟩ =>
    c.receive route.backend.display (some (.requestHandler (forgetResult execution.result)))
  | ⟨.relay _ backend, relayed⟩ =>
    c.receive backend.listenerId (relayed.result.exit.map .listenerManager)
  | ⟨.recordSuccess backendId, _⟩ => c.report backendId .recordSuccess
  | ⟨.recordFailure backendId, _⟩ => c.report backendId .recordFailure
  | _ => c

/-- Nothing is left to do: nobody was asked, or the breaker has refused, or it has its report, or
the outcome is one that is not reported, or nobody is left to report it. -/
def Settled : Conduct → Prop
  | .idle | .refused | .reported | .abandoned _ => True
  | .returned _ outcome => outcome.report = none
  | .admitted _ | .astray => False

/-- The request has been admitted by the breaker and has not reported. -/
def owes (backendId : Str) : Conduct → Bool
  | .admitted admittedBy | .returned admittedBy _ | .abandoned admittedBy => admittedBy = backendId
  | _ => false

end Conduct

/-- The program keeps to the protocol, from a state on. -/
abbrev Proper (c : Conduct) (p : Prog plane (Option ClientResponse)) : Prop :=
  p.Keeps Conduct.watch (· ≠ .astray) (fun _ c => c.Settled) c

/-! ## The programs -/

section Reports

open Conduct

variable {id : Str} {outcome : Outcome}

/-- A failure is reported when it is due. -/
theorem keeps_recordFailure (h : outcome.report = some .recordFailure) :
    (Rauta.ask (.recordFailure id)).Keeps watch (· ≠ .astray) (fun _ c => c.Settled)
      (.returned id outcome) := by
  have hreport : ∀ answer, watch (.returned id outcome) ⟨.recordFailure id, answer⟩ = .reported :=
    fun _ => if_pos ⟨rfl, h⟩
  refine ⟨by simp, fun answer => ?_⟩
  rw [hreport]
  exact ⟨by simp, trivial⟩

/-- A success is reported when it is due. -/
theorem keeps_recordSuccess (h : outcome.report = some .recordSuccess) :
    (Rauta.ask (.recordSuccess id)).Keeps watch (· ≠ .astray) (fun _ c => c.Settled)
      (.returned id outcome) := by
  have hreport : ∀ answer, watch (.returned id outcome) ⟨.recordSuccess id, answer⟩ = .reported :=
    fun _ => if_pos ⟨rfl, h⟩
  refine ⟨by simp, fun answer => ?_⟩
  rw [hreport]
  exact ⟨by simp, trivial⟩

/-- What follows an answer of the breaker: the request is over, or it is forwarded. -/
theorem proper_allowRequest {refused forward : Prog plane (Option ClientResponse)}
    (hrefused : Proper .refused refused) (hforward : Proper (.admitted id) forward) :
    Proper .idle (do
      let allowed : Bool ← Rauta.ask (.allowRequest id)
      if !allowed then refused else forward) := by
  refine .ask (by simp) fun allowed => ?_
  cases (show Bool from allowed) with
  | false => exact hrefused
  | true => exact hforward

end Reports

namespace RequestHandler

open Conduct

theorem keeps_recordBackendResponse {c : Conduct} (hc : c ≠ .astray) (backend : Backend)
    (statusCode : Nat) :
    (recordBackendResponse backend statusCode).Keeps watch (· ≠ .astray) (fun _ c' => c' = c) c :=
  .skip hc (fun _ => rfl) fun _ => ⟨hc, fun _ => ⟨hc, rfl⟩⟩

/-- What `record_request_metrics` reports is what `CircuitBreaker/Handlers` says. -/
theorem keeps_recordRequestMetrics (result : Except ProxyError BackendResponse)
    (method : HttpMethod) (route : RouteMatch) (worker : Option Nat) :
    (recordRequestMetrics result method route worker).Keeps watch (· ≠ .astray)
      (fun _ c => c.Settled)
      (.returned route.backend.display (.requestHandler (forgetResult result))) := by
  cases result with
  | ok response =>
    refine .skip (by simp) (fun _ => rfl) fun _ => ?_
    refine (keeps_recordBackendResponse (by simp) _ _).bind ?_
    rintro _ _ - rfl
    split
    · next hstatus => exact keeps_recordFailure (if_pos hstatus)
    · next hstatus => exact keeps_recordSuccess (if_neg hstatus)
  | error e =>
    cases e with
    | bodyTooLarge size max => exact ⟨by simp, fun _ => ⟨by simp [watch], rfl⟩⟩
    | timeout message | backendError message | filterError message =>
      refine .skip (by simp) (fun _ => rfl) fun _ => ?_
      refine (keeps_recordBackendResponse (by simp) _ _).bind ?_
      rintro _ _ - rfl
      exact keeps_recordFailure rfl

theorem proper_forward (H : HttpCrate) (req : IncomingRequest) (route : RouteMatch)
    (worker : Option Nat) (requestId : Str) :
    Proper (.admitted route.backend.display) (forward H req route worker requestId) := by
  refine .ask (by simp) fun execution => ?_
  have hreceive : ∀ execution : Execution ⟨req, worker.isSome⟩ route,
      watch (.admitted route.backend.display)
          ⟨.executeRequest ⟨req, worker.isSome⟩ route, execution⟩ =
        .returned route.backend.display (.requestHandler (forgetResult execution.result)) :=
    fun _ => if_pos rfl
  rw [hreceive]
  exact (keeps_recordRequestMetrics ..).bind fun _ c hc hsettled => ⟨hc, hsettled⟩

theorem proper_serveRoute (H : HttpCrate) (req : IncomingRequest) (route : RouteMatch)
    (requestId : Str) : Proper .idle (serveRoute H req route requestId) := by
  refine .skip (by simp) (fun _ => rfl) fun worker => ?_
  cases route.redirect with
  | some redirect => exact ⟨by simp, trivial⟩
  | none =>
    refine .skip (by simp) (fun _ => rfl) fun allowed => ?_
    split
    · exact ⟨by simp, trivial⟩
    · cases req.applyRequestFilters H route.requestFilters with
      | error e => exact ⟨by simp, trivial⟩
      | ok req =>
        exact proper_allowRequest ⟨by simp, trivial⟩ (proper_forward H req route worker requestId)

/-- **`handle_request` keeps to the protocol.** -/
theorem proper_handleRequest (H : HttpCrate) (req : IncomingRequest) :
    Proper .idle (handleRequest H req) := by
  have hid : (requestId req).Keeps watch (· ≠ .astray) (fun _ c => c = .idle) .idle := by
    unfold requestId
    split
    · exact ⟨by simp, rfl⟩
    · exact .skip (by simp) (fun _ => rfl) fun _ => ⟨by simp, rfl⟩
  refine hid.bind ?_
  rintro requestId _ - rfl
  split
  · -- the endpoints of the handler itself have nothing to do with the breakers
    refine .skip (by simp) (fun _ => rfl) fun metrics => ?_
    split <;> exact ⟨by simp, trivial⟩
  split
  · exact ⟨by simp, trivial⟩
  split
  · exact .skip (by simp) (fun _ => rfl) fun _ => .skip (by simp) (fun _ => rfl) fun _ =>
      ⟨by simp, trivial⟩
  refine .skip (by simp) (fun _ => rfl) fun routeMatch => ?_
  split
  · exact proper_serveRoute H req _ requestId
  · exact .skip (by simp) (fun _ => rfl) fun _ => ⟨by simp, trivial⟩

end RequestHandler

namespace ListenerManager

open Conduct

theorem proper_forward (H : HttpCrate) (req : IncomingRequest) (backend : Backend) :
    Proper (.admitted backend.listenerId) (forward H req backend) := by
  refine .ask (by simp) fun relayed => ?_
  have hreceive : ∀ relayed : Relay req backend,
      watch (.admitted backend.listenerId) ⟨.relay req backend, relayed⟩ =
        (relayed.result.exit.map .listenerManager).elim (.abandoned backend.listenerId)
          (.returned backend.listenerId) :=
    fun _ => if_pos rfl
  rw [hreceive]
  dsimp only
  have hanswer : ∀ {c : Conduct} {p : Prog plane Unit} (response : Option ClientResponse),
      p.Keeps watch (· ≠ .astray) (fun _ c => c.Settled) c →
      Proper c (p >>= fun _ => pure response) :=
    fun _ hp => hp.bind fun _ c hc hsettled => ⟨hc, hsettled⟩
  generalize hresult : Relay.result _ = result
  cases result with
  | bodyReadFailure => exact ⟨by simp [RelayResult.exit], rfl⟩
  | panicked => exact ⟨by simp [RelayResult.exit], trivial⟩
  | connectFailure | handshakeFailure | sendFailure =>
    exact hanswer _ (keeps_recordFailure rfl)
  | response response =>
    dsimp only
    by_cases hstatus : 500 ≤ response.status ∧ response.status < 600
    · rw [if_pos hstatus]
      exact hanswer _ (keeps_recordFailure (if_pos hstatus))
    · rw [if_neg hstatus]
      exact hanswer _ (keeps_recordSuccess (if_neg hstatus))

/-- **And so does that of the listener.** -/
theorem proper_handleRequest (H : HttpCrate) (req : IncomingRequest)
    (peerAddr : Option (IpAddr × UInt16)) : Proper .idle (handleRequest H req peerAddr) := by
  unfold handleRequest
  split
  · exact ⟨by simp, trivial⟩
  split
  · exact ⟨by simp, trivial⟩
  refine .skip (by simp) (fun _ => rfl) fun routeMatch => ?_
  split
  · exact ⟨by simp, trivial⟩
  refine .skip (by simp) (fun _ => rfl) fun allowed => ?_
  split
  · exact ⟨by simp, trivial⟩
  · exact proper_allowRequest ⟨by simp, trivial⟩ (proper_forward H req _)

end ListenerManager

/-! ## The accounts of a breaker -/

/-- The breaker of the backend admits a request. -/
def admits (backendId : Str) (e : Event plane) : Bool :=
  match e with
  | ⟨.allowRequest id, allowed⟩ => id = backendId && allowed
  | _ => false

/-- The breaker of the backend gets a report. -/
def reports (backendId : Str) (e : Event plane) : Bool :=
  match e with
  | ⟨.recordSuccess id, _⟩ => id = backendId
  | ⟨.recordFailure id, _⟩ => id = backendId
  | _ => false

namespace Conduct

variable {c : Conduct} {id : Str}

/-- A breach is never made good. -/
theorem watch_astray (e : Event plane) : watch .astray e = .astray := by
  obtain ⟨call, answer⟩ := e
  cases call <;> rfl

theorem owes_ask {allowed : Bool} (id id' : Str) (h : c.ask id' allowed ≠ .astray) :
    (id' = id ∧ allowed = true ∧ c.owes id = false ∧ (c.ask id' allowed).owes id = true) ∨
      (¬ (id' = id ∧ allowed = true) ∧ (c.ask id' allowed).owes id = c.owes id) := by
  cases c with
  | idle =>
    cases allowed with
    | false => exact Or.inr ⟨by simp, rfl⟩
    | true =>
      by_cases hid : id' = id
      · exact Or.inl ⟨hid, rfl, rfl, by simp [ask, owes, hid]⟩
      · exact Or.inr ⟨by simp [hid], by simp [ask, owes, hid]⟩
  | refused | admitted _ | returned _ _ | reported | abandoned _ | astray => exact absurd rfl h

theorem owes_receive {outcome : Option Outcome} (id' : Str) (h : c.receive id' outcome ≠ .astray) :
    (c.receive id' outcome).owes id = c.owes id := by
  cases c with
  | admitted admittedBy =>
    by_cases hid : id' = admittedBy
    · cases outcome <;> simp [receive, owes, hid]
    · exact absurd (if_neg hid) h
  | idle | refused | returned _ _ | reported | abandoned _ | astray => exact absurd rfl h

theorem owes_report {op : BreakerOp} (id id' : Str) (h : c.report id' op ≠ .astray) :
    c.owes id = decide (id' = id) ∧ (c.report id' op).owes id = false := by
  cases c with
  | returned admittedBy outcome =>
    by_cases hdue : id' = admittedBy ∧ outcome.report = some op
    · rw [report, if_pos hdue, owes, hdue.1]
      exact ⟨rfl, rfl⟩
    · exact absurd (if_neg hdue) h
  | idle | refused | admitted _ | reported | abandoned _ | astray => exact absurd rfl h

/-- **One more call**: an admission is owed from then on, and a report pays. -/
theorem owes_watch (id : Str) {e : Event plane} (h : c.watch e ≠ .astray) :
    (c.owes id).toNat + (admits id e).toNat =
      ((c.watch e).owes id).toNat + (reports id e).toNat := by
  obtain ⟨call, answer⟩ := e
  cases call with
  | allowRequest id' =>
    change (c.owes id).toNat + (decide (id' = id) && _).toNat =
      ((c.ask id' answer).owes id).toNat + 0
    rcases owes_ask id id' h with ⟨rfl, hallowed, hbefore, hafter⟩ | ⟨hother, hsame⟩
    · rw [hbefore, hafter, hallowed]
      simp
    · have hno : (decide (id' = id) && answer) = false := by simpa using hother
      rw [hsame, hno]
      rfl
  | executeRequest message route | relay req backend =>
    exact congrArg (Bool.toNat · + 0) (owes_receive _ h).symm
  | recordSuccess id' =>
    change (c.owes id).toNat + 0 = ((c.report id' .recordSuccess).owes id).toNat + _
    obtain ⟨hbefore, hafter⟩ := owes_report id id' h
    rw [hbefore, hafter]
    exact Nat.add_comm _ _
  | recordFailure id' =>
    change (c.owes id).toNat + 0 = ((c.report id' .recordFailure).owes id).toNat + _
    obtain ⟨hbefore, hafter⟩ := owes_report id id' h
    rw [hbefore, hafter]
    exact Nat.add_comm _ _
  | _ => rfl

/-- An admission opens an account with the breaker, and a report closes it. -/
theorem ledger (id : Str) :
    Interaction.Ledger watch (· ≠ .astray) (owes id) (admits id) (reports id) where
  before c e h := by
    rintro rfl
    exact h (watch_astray e)
  balance _ _ h := owes_watch id h

end Conduct

theorem Arrival.proper (H : HttpCrate) (arrival : Arrival) : Proper .idle (arrival.program H) := by
  cases arrival with
  | proxyServer req => exact RequestHandler.proper_handleRequest H req
  | listener req peerAddr => exact ListenerManager.proper_handleRequest H req peerAddr

/-- How far a request of the pool is with the circuit breakers. -/
def conduct (t : Task plane (Option ClientResponse)) : Conduct := t.trail.foldl Conduct.watch .idle

section Accounts

variable {M : Matchit} {R : RegexCrate} {H : HttpCrate} {s : DataPlane} {arrivals : List Arrival}
  {c : Config (Logged plane DataPlane) (Task plane (Option ClientResponse))}

theorem proper_of_mem : ∀ p ∈ arrivals.map (Arrival.program H), Proper .idle p := by
  intro p hp
  obtain ⟨arrival, -, rfl⟩ := List.mem_map.mp hp
  exact arrival.proper H

/-- Every execution can come to an end. -/
theorem exists_execution (message : ClientMessage) (route : RouteMatch) :
    Nonempty (Execution message route) := by
  by_cases hcan : message.CanRetry route
  · obtain ⟨script, -, t, hfinish⟩ := ClientMessage.exists_retried hcan ∅ ⟨200, .empty⟩ rfl
    exact ⟨⟨_, script, t, _, hfinish⟩⟩
  · obtain ⟨e, hfinish⟩ : ∃ e, (message.firstAttempt route ∅ ClientMessage.failing).finish =
        some (0, .error e) := ClientMessage.finish_firstAttempt_failing
    refine ⟨⟨∅, ⟨ClientMessage.failing, fun _ => ⟨.ok (), none⟩⟩, 0, .error e, ?_⟩⟩
    rw [ClientMessage.executeRequestWithRetry_of_not_canRetry hcan, hfinish]

/-- And so can every relayed request. -/
theorem exists_relay (req : IncomingRequest) (backend : Backend) : Nonempty (Relay req backend) :=
  ⟨⟨false, ⟨some (0, .error []), .ok (), none, none, none⟩, 0, .bodyReadFailure, rfl⟩⟩

/-- Forwarding is for those who are admitted. -/
theorem admitted_of_receive {c : Conduct} {id : Str} {outcome : Option Outcome}
    (h : c.receive id outcome ≠ .astray) : ∃ backendId, c = .admitted backendId := by
  cases c with
  | admitted backendId => exact ⟨backendId, rfl⟩
  | idle | refused | returned _ _ | reported | abandoned _ | astray => exact absurd rfl h

/-- A request that waits for a backend was admitted. -/
theorem admitted_of_awaits {c : Conduct} {call : PlaneCall}
    {next : plane.Answer call → Prog plane (Option ClientResponse)}
    (h : Proper c (.call call next)) (hawaits : (service M R).awaits call = true) :
    ∃ backendId, c = .admitted backendId := by
  cases call with
  | executeRequest message route =>
    obtain ⟨execution⟩ := exists_execution message route
    exact admitted_of_receive (h.2 execution).now
  | relay req backend =>
    obtain ⟨relayed⟩ := exists_relay req backend
    exact admitted_of_receive (h.2 relayed).now
  | _ => cases hawaits

/-- **The accounts of a breaker**: of the requests that it has admitted, those that have not
reported are on their way or will not report any more. A request that is over and has not reported
had a body that was rejected, or its handler has panicked; one that was cancelled never reports. -/
theorem accounts (h : ((service M R).machine (Option ClientResponse)).system.Reach
      System.Anything (Task.pool s (arrivals.map (Arrival.program H))) c) (backendId : Str) :
    c.shared.log.countP (admits backendId) = c.shared.log.countP (reports backendId) +
      c.threads.countP (fun t => (conduct t).owes backendId) ∧
    ∀ t ∈ c.threads,
      (∀ response, t.rest = some (.done response) → (conduct t).owes backendId = true →
        conduct t = .abandoned backendId ∨
          ∃ outcome, conduct t = .returned backendId outcome ∧ outcome.bodyRejected = true) ∧
      (t.rest = none → ∃ id, conduct t = .admitted id) := by
  refine ⟨(Conduct.ledger backendId).log_of_reach rfl proper_of_mem h, fun t ht => ?_⟩
  constructor
  · intro response hdone howes
    have hsettled : (conduct t).Settled := Service.final_of_reach proper_of_mem h ht hdone
    cases hconduct : conduct t with
    | returned id outcome =>
      rw [hconduct] at howes hsettled
      obtain rfl : id = backendId := of_decide_eq_true howes
      exact Or.inr ⟨outcome, rfl, Outcome.report_eq_none_iff.mp hsettled⟩
    | abandoned id =>
      rw [hconduct] at howes
      obtain rfl : id = backendId := of_decide_eq_true howes
      exact Or.inl rfl
    | admitted id =>
      rw [hconduct] at hsettled
      exact hsettled.elim
    | idle | refused | reported | astray =>
      rw [hconduct] at howes
      cases howes
  · intro hcancelled
    obtain ⟨call, next, hawaits, hp⟩ := Service.waiting_of_reach proper_of_mem h ht hcancelled
    exact admitted_of_awaits hp hawaits

end Accounts

/-! ### A client that goes away -/

/-- A data plane with one route. -/
def oneRoute : DataPlane where
  now := 0
  router :=
    { Router.new with
      routes := AList.singleton (routeKey .get "/api".toList) (.basic "/api".toList [.sample] [0]) }
  workerSelector := none
  startTime := none

/-- Everything is allowed, and nothing can be sent. -/
def allowing : Outside where
  uuid := ⟨Vector.replicate 16 0⟩
  metrics := ⟨.ok [], none, []⟩
  allowed := true
  cache := ∅
  execution := ⟨ClientMessage.failing, fun _ => ⟨.ok (), none⟩⟩
  marked := false
  relay := ⟨some (0, .error []), .ok (), none, none, none⟩

/-- A request is admitted, and its client goes away. -/
theorem accounts_cancelled :
    ∃ c, ((service .scan ⟨fun _ => none⟩).machine (Option ClientResponse)).system.Reach
        System.Anything
        (Task.pool oneRoute ([Arrival.listener getApi none].map (Arrival.program .strict))) c ∧
      c.threads.map (·.rest.isNone) = [true] ∧
      c.shared.log.countP (admits Backend.sample.display) =
        c.shared.log.countP (reports Backend.sample.display) +
          c.threads.countP (fun t => (conduct t).owes Backend.sample.display) := by
  have hexec : ((service .scan ⟨fun _ => none⟩).machine (Option ClientResponse)).system.exec
      (Task.pool oneRoute ([Arrival.listener getApi none].map (Arrival.program .strict)))
      [.thread 0 (some allowing), .thread 0 (some allowing), .thread 0 (some allowing),
        .thread 0 none] = some _ := rfl
  have hreach := System.Reach.of_exec hexec
  exact ⟨_, hreach, rfl, (accounts hreach _).1⟩

end Rauta
