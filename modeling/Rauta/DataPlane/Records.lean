import Rauta.DataPlane.Messages
import Rauta.DataPlane.Protocol

/-!
# What is remembered of requests

Other than with the circuit breakers, a request leaves traces in two places: `HTTP_REQUESTS_TOTAL`
counts it, and the passive health data keep what its backend has answered, so that `select_backend`
can go around the backend.

`Tally` is the first as a monitor: what has come of a request, and with which labels it was counted.
A request is counted once it has found no route or its execution is over, and only then; a request
that is refused or redirected, and one whose client goes away, is not counted at all.

The listeners keep neither record. In a process where all traffic comes through them, backends are
chosen as if none had ever failed.
-/

namespace Rauta

open Interaction Interleaving Transition

/-! ## Labels -/

namespace RequestHandler

/-- The status that a result is counted with. -/
def resultStatus : Except ProxyError BackendResponse → Str
  | .ok response => statusToStr response.status
  | .error e => decimal e.statusCode

/-- The labels of a request that was forwarded. -/
def forwardedLabels (method : HttpMethod) (route : RouteMatch)
    (result : Except ProxyError BackendResponse) (worker : Option Nat) : RequestLabels :=
  ⟨methodToStr method, route.pattern, resultStatus result, (worker.map decimal).getD "none".toList⟩

/-- The labels of a request without a route. -/
def notFoundLabels (method : HttpMethod) : RequestLabels :=
  ⟨methodToStr method, "not_found".toList, "404".toList, "none".toList⟩

end RequestHandler

/-- The labels tell the status that the client gets, with two exceptions: `status_to_str` does not
know all statuses of a backend, and the filters of the response can fail when it has been
counted. -/
def RequestLabels.Tells (labels : RequestLabels) (r : ClientResponse) : Prop :=
  labels.status = decimal r.status ∨
  (labels.status = "other".toList ∧ r.body = .stream ∧ r.status ∉ RequestHandler.knownStatuses) ∨
  (r.status = 500 ∧ ∃ e, r.body = .text ("Response filter error: ".toList ++ e))

theorem buildResponse_eq_some {H : HttpCrate} {status : Nat} {headers : List (Str × Str)}
    {body : Str} {r : ClientResponse} (h : buildResponse H status headers body = some r) :
    r.status = status ∧ r.body = .text body := by
  obtain ⟨built, -, hr⟩ := Option.bind_eq_some_iff.mp h
  cases hr
  exact ⟨rfl, rfl⟩

section Labels

open RequestHandler

variable {H : HttpCrate} {method : HttpMethod} {route : RouteMatch} {worker : Option Nat}
  {requestId : Str} {r : ClientResponse}

theorem tells_passedOn {response : BackendResponse} (hstatus : r.status = response.status)
    (hbody : r.body = .stream) :
    (forwardedLabels method route (.ok response) worker).Tells r := by
  by_cases hknown : response.status ∈ knownStatuses
  · have hlabel : (forwardedLabels method route (.ok response) worker).status =
        decimal response.status := if_pos hknown
    exact Or.inl (hstatus ▸ hlabel)
  · have hlabel : (forwardedLabels method route (.ok response) worker).status = "other".toList :=
      if_neg hknown
    exact Or.inr (Or.inl ⟨hlabel, hbody, hstatus ▸ hknown⟩)

/-- What `finalize_response` makes of a result is what it was counted as. -/
theorem tells_finalizeResponse {result : Except ProxyError BackendResponse}
    {filters : Option ResponseHeaderModifier}
    (h : finalizeResponse H result filters requestId = some r) :
    (forwardedLabels method route result worker).Tells r := by
  unfold finalizeResponse at h
  split at h
  · next e =>
    exact Or.inl (congrArg decimal (buildResponse_eq_some h).1.symm)
  · next response =>
    split at h
    · cases h
      exact tells_passedOn rfl rfl
    · split at h
      · next e _ _ =>
        obtain ⟨hstatus, hbody⟩ := buildResponse_eq_some h
        exact Or.inr (Or.inr ⟨hstatus, e, hbody⟩)
      · cases h
        exact tells_passedOn rfl rfl

theorem tells_notFound (h : buildNotFoundResponse H requestId = some r) :
    (notFoundLabels method).Tells r := by
  refine Or.inl ?_
  rw [(buildResponse_eq_some h).1]
  rfl

end Labels

/-! ## Counting -/

/-- What has come of a request, as far as the metrics are concerned. -/
inductive Tally where
  | pending (worker : Option Nat)
  | due (labels : RequestLabels)
  | counted (labels : RequestLabels)
  /-- Something was counted that should not be. -/
  | astray

namespace Tally

/-- A worker is chosen. -/
def choose (worker : Option Nat) : Tally → Tally
  | .pending _ => .pending worker
  | _ => .astray

/-- Something has come of the request. -/
def conclude (labels : Option Nat → RequestLabels) : Tally → Tally
  | .pending worker => .due (labels worker)
  | _ => .astray

/-- The request is counted. -/
def count (labels : RequestLabels) : Tally → Tally
  | .due expected => if labels = expected then .counted labels else .astray
  | _ => .astray

/-- A listener has relayed the request, which is not counted. -/
def relay : Tally → Tally
  | .pending worker => .pending worker
  | _ => .astray

/-- One more call. -/
def watch (t : Tally) (e : Event plane) : Tally :=
  match e with
  | ⟨.selectBackend method _, routeMatch⟩ =>
    if Option.isNone routeMatch then t.conclude fun _ => RequestHandler.notFoundLabels method else t
  | ⟨.selectWorker, worker⟩ => t.choose worker
  | ⟨.executeRequest message route, execution⟩ =>
    t.conclude (RequestHandler.forwardedLabels message.request.method.toHttpMethod route
      execution.result)
  | ⟨.relay _ _, _⟩ => t.relay
  | ⟨.countRequest labels, _⟩ => t.count labels
  | _ => t

/-- The request is to be counted next. -/
def isDue : Tally → Bool
  | .due _ => true
  | _ => false

/-- The labels that the request was counted with. -/
def labels : Tally → List RequestLabels
  | .counted labels => [labels]
  | _ => []

/-- The tally of a request that is over. -/
def Fits (response : Option ClientResponse) : Tally → Prop
  | .pending _ => True
  | .counted labels => ∀ r, response = some r → labels.Tells r
  | .due _ | .astray => False

/-- A call that the metrics have nothing to do with. -/
def Quiet : PlaneCall → Prop
  | .selectBackend _ _ | .selectWorker | .executeRequest _ _ | .relay _ _ | .countRequest _ => False
  | _ => True

theorem watch_of_quiet {t : Tally} {call : PlaneCall} (answer : plane.Answer call)
    (h : Quiet call) : t.watch ⟨call, answer⟩ = t := by
  cases call with
  | selectBackend method path => exact h.elim
  | selectWorker => exact h.elim
  | executeRequest message route => exact h.elim
  | relay req backend => exact h.elim
  | countRequest labels => exact h.elim
  | _ => rfl

theorem watch_astray (e : Event plane) : watch .astray e = .astray := by
  obtain ⟨call, answer⟩ := e
  cases call with
  | selectBackend method path => exact ite_self _
  | _ => rfl

end Tally

/-- The labels that the call counts a request with. -/
def countedLabels (e : Event plane) : Option RequestLabels :=
  match e with
  | ⟨.countRequest labels, _⟩ => some labels
  | _ => none

/-- The call counts a request. -/
def counts (e : Event plane) : Bool := (countedLabels e).isSome

/-- The call is the end of a request: there is no route, or the execution is over. -/
def concludes (e : Event plane) : Bool :=
  match e with
  | ⟨.selectBackend _ _, routeMatch⟩ => Option.isNone routeMatch
  | ⟨.executeRequest _ _, _⟩ => true
  | _ => false

namespace Tally

variable {t : Tally}

theorem pending_of_conclude {labels : Option Nat → RequestLabels}
    (h : t.conclude labels ≠ .astray) : ∃ worker, t = .pending worker := by
  cases t with
  | pending worker => exact ⟨worker, rfl⟩
  | due _ | counted _ | astray => exact absurd rfl h

theorem pending_of_choose {worker : Option Nat} (h : t.choose worker ≠ .astray) :
    ∃ worker', t = .pending worker' := by
  cases t with
  | pending worker' => exact ⟨worker', rfl⟩
  | due _ | counted _ | astray => exact absurd rfl h

theorem pending_of_relay (h : t.relay ≠ .astray) : ∃ worker, t = .pending worker := by
  cases t with
  | pending worker => exact ⟨worker, rfl⟩
  | due _ | counted _ | astray => exact absurd rfl h

theorem due_of_count {labels : RequestLabels} (h : t.count labels ≠ .astray) :
    t = .due labels ∧ t.count labels = .counted labels := by
  cases t with
  | due expected =>
    by_cases heq : labels = expected
    · subst heq
      exact ⟨rfl, if_pos rfl⟩
    · exact absurd (if_neg heq) h
  | pending _ | counted _ | astray => exact absurd rfl h

/-- **What a call does to the tally**: nothing, or it is the end of the request, or the request is
counted. -/
theorem watch_cases {e : Event plane} (h : t.watch e ≠ .astray) :
    (concludes e = false ∧ countedLabels e = none ∧ (t.watch e).isDue = t.isDue ∧
        (t.watch e).labels = t.labels) ∨
    (concludes e = true ∧ countedLabels e = none ∧
        ∃ worker labels, t = .pending worker ∧ t.watch e = .due labels) ∨
    (concludes e = false ∧
        ∃ labels, countedLabels e = some labels ∧ t = .due labels ∧
          t.watch e = .counted labels) := by
  obtain ⟨call, answer⟩ := e
  cases call with
  | selectBackend method path =>
    cases hanswer : (show Option RouteMatch from answer) with
    | some route =>
      subst hanswer
      exact Or.inl ⟨rfl, rfl, rfl, rfl⟩
    | none =>
      subst hanswer
      obtain ⟨worker, rfl⟩ := pending_of_conclude h
      exact Or.inr (Or.inl ⟨rfl, rfl, worker, _, rfl, rfl⟩)
  | selectWorker =>
    obtain ⟨worker, rfl⟩ := pending_of_choose h
    exact Or.inl ⟨rfl, rfl, rfl, rfl⟩
  | executeRequest message route =>
    obtain ⟨worker, rfl⟩ := pending_of_conclude h
    exact Or.inr (Or.inl ⟨rfl, rfl, worker, _, rfl, rfl⟩)
  | relay req backend =>
    obtain ⟨worker, rfl⟩ := pending_of_relay h
    exact Or.inl ⟨rfl, rfl, rfl, rfl⟩
  | countRequest labels =>
    obtain ⟨hdue, hcounted⟩ := due_of_count h
    exact Or.inr (Or.inr ⟨rfl, labels, rfl, hdue, hcounted⟩)
  | _ => exact Or.inl ⟨rfl, rfl, rfl, rfl⟩

/-- Whoever is at the end is counted. -/
theorem ledger : Interaction.Ledger watch (· ≠ .astray) isDue concludes counts where
  before t e h := by
    rintro rfl
    exact h (watch_astray e)
  balance t e h := by
    rcases watch_cases h with ⟨hgoes, hcounted, hsame, -⟩ | ⟨hends, hcounted, _, _, rfl, hdue⟩ |
      ⟨hgoes, labels, hcounted, rfl, hdone⟩
    · rw [counts, hgoes, hcounted, hsame]
      rfl
    · rw [counts, hends, hcounted, hdue]
      rfl
    · rw [counts, hgoes, hcounted, hdone]
      rfl

/-- The tally remembers the labels. -/
theorem filterMap_countedLabels {es : List (Event plane)} {worker : Option Nat}
    (h : es.foldl watch (.pending worker) ≠ .astray) :
    es.filterMap countedLabels = (es.foldl watch (.pending worker)).labels := by
  induction es using List.reverseRecOn with
  | nil => rfl
  | append_singleton es e ih =>
    rw [List.foldl_append, List.foldl_cons, List.foldl_nil] at h ⊢
    rw [List.filterMap_append, ih (ledger.before _ e h)]
    rcases watch_cases h with ⟨-, hcounted, -, hsame⟩ | ⟨-, hcounted, _, _, hpending, hdue⟩ |
      ⟨-, labels, hcounted, hdue, hdone⟩
    · rw [hsame]
      simp [hcounted]
    · rw [hdue, hpending]
      simp [hcounted, Tally.labels]
    · rw [hdone, hdue]
      simp [hcounted, Tally.labels]

end Tally

/-- The program is counted as it should be, from a state on. -/
abbrev Counted (t : Tally) (p : Prog plane (Option ClientResponse)) : Prop :=
  p.Keeps Tally.watch (· ≠ .astray) Tally.Fits t

/-! ### The programs -/

namespace RequestHandler

open Tally

theorem uses_recordBackendResponse (backend : Backend) (statusCode : Nat) :
    (recordBackendResponse backend statusCode).Uses Quiet :=
  ⟨trivial, fun _ => ⟨trivial, fun _ => trivial⟩⟩

/-- The request is counted first, and then nothing else is. -/
theorem keeps_count {labels : RequestLabels} {next : Unit → Prog plane Unit}
    (h : ∀ answer, (next answer).Uses Quiet) :
    Prog.Keeps (S := plane) watch (· ≠ .astray) (fun _ t => t = .counted labels) (.due labels)
      (.call (.countRequest labels) next) := by
  refine ⟨by simp, fun answer => ?_⟩
  rw [show watch (.due labels) ⟨.countRequest labels, answer⟩ = .counted labels from if_pos rfl]
  exact (h answer).keeps (by simp) fun _ answer hquiet => watch_of_quiet answer hquiet

theorem tallies_recordRequestMetrics (result : Except ProxyError BackendResponse)
    (method : HttpMethod) (route : RouteMatch) (worker : Option Nat) :
    (recordRequestMetrics result method route worker).Keeps watch (· ≠ .astray)
      (fun _ t => t = .counted (forwardedLabels method route result worker))
      (.due (forwardedLabels method route result worker)) := by
  cases result with
  | ok response =>
    refine keeps_count fun _ => (uses_recordBackendResponse _ _).bind fun _ => ?_
    split <;> exact ⟨trivial, fun _ => trivial⟩
  | error e =>
    cases e with
    | bodyTooLarge size max => exact keeps_count fun _ => trivial
    | timeout message | backendError message | filterError message =>
      refine keeps_count fun _ => (uses_recordBackendResponse _ _).bind fun _ => ?_
      exact ⟨trivial, fun _ => trivial⟩

theorem tallies_recordNotFoundMetrics (method : HttpMethod) :
    (recordNotFoundMetrics method).Keeps watch (· ≠ .astray)
      (fun _ t => t = .counted (notFoundLabels method)) (.due (notFoundLabels method)) :=
  keeps_count fun _ => trivial

theorem counted_forward (H : HttpCrate) (req : IncomingRequest) (route : RouteMatch)
    (worker : Option Nat) (requestId : Str) :
    Counted (.pending worker) (forward H req route worker requestId) := by
  refine .ask (by simp) fun execution => ?_
  refine (tallies_recordRequestMetrics ..).bind ?_
  rintro _ _ - rfl
  exact ⟨by simp, fun r hr => tells_finalizeResponse hr⟩

theorem counted_serveRoute (H : HttpCrate) (req : IncomingRequest) (route : RouteMatch)
    (worker : Option Nat) (requestId : Str) :
    Counted (.pending worker) (serveRoute H req route requestId) := by
  refine .ask (by simp) fun worker => ?_
  cases route.redirect with
  | some redirect => exact ⟨by simp [watch, choose], trivial⟩
  | none =>
    refine .skip (by simp [watch, choose]) (fun _ => rfl) fun allowed => ?_
    split
    · exact ⟨by simp [watch, choose], trivial⟩
    · cases req.applyRequestFilters H route.requestFilters with
      | error e => exact ⟨by simp [watch, choose], trivial⟩
      | ok req =>
        refine .skip (by simp [watch, choose]) (fun _ => rfl) fun allowed => ?_
        split
        · exact ⟨by simp [watch, choose], trivial⟩
        · exact counted_forward H req route worker requestId

/-- **`handle_request` is counted as it should be.** -/
theorem counted_handleRequest (H : HttpCrate) (req : IncomingRequest) :
    Counted (.pending none) (handleRequest H req) := by
  have hid : (requestId req).Uses Quiet := by
    unfold requestId
    split
    · exact trivial
    · exact ⟨trivial, fun _ => trivial⟩
  refine (hid.keeps (by simp) fun _ answer hquiet => watch_of_quiet answer hquiet).bind ?_
  rintro requestId _ - rfl
  split
  · refine .skip (by simp) (fun _ => rfl) fun metrics => ?_
    split <;> exact ⟨by simp, trivial⟩
  split
  · exact ⟨by simp, trivial⟩
  split
  · exact .skip (by simp) (fun _ => rfl) fun _ => .skip (by simp) (fun _ => rfl) fun _ =>
      ⟨by simp, trivial⟩
  refine .ask (by simp) fun routeMatch => ?_
  cases hmatch : (show Option RouteMatch from routeMatch) with
  | some route =>
    subst hmatch
    exact counted_serveRoute H req route none requestId
  | none =>
    subst hmatch
    refine (tallies_recordNotFoundMetrics _).bind ?_
    rintro _ _ - rfl
    exact ⟨by simp, fun r hr => tells_notFound hr⟩

end RequestHandler

/-- A listener counts nothing. -/
theorem ListenerManager.counted_handleRequest (H : HttpCrate) (req : IncomingRequest)
    (peerAddr : Option (IpAddr × UInt16)) :
    Rauta.Counted (.pending none) (handleRequest H req peerAddr) := by
  have hskip : ∀ call answer, (Arrival.listener req peerAddr).Makes H call →
      Tally.watch (.pending none) ⟨call, answer⟩ = .pending none := by
    intro call answer hmakes
    cases call with
    | selectBackend method path => exact hmakes.elim
    | selectWorker => exact hmakes.elim
    | executeRequest message route => exact hmakes.elim
    | countRequest labels => exact hmakes.elim
    | _ => rfl
  refine Prog.Keeps.imp ((uses_handleRequest H req peerAddr).keeps Tally.noConfusion hskip) ?_
  rintro response _ rfl
  exact trivial

theorem Arrival.counted (H : HttpCrate) (arrival : Arrival) :
    Counted (.pending none) (arrival.program H) := by
  cases arrival with
  | proxyServer req => exact RequestHandler.counted_handleRequest H req
  | listener req peerAddr => exact ListenerManager.counted_handleRequest H req peerAddr

/-! ### All requests of a process -/

/-- How far a request of the pool is with the metrics. -/
def tallyOf (t : Task plane (Option ClientResponse)) : Tally :=
  t.trail.foldl Tally.watch (.pending none)

section Pool

variable {M : Matchit} {R : RegexCrate} {H : HttpCrate} {s : DataPlane} {arrivals : List Arrival}
  {c : Config (Logged plane DataPlane) (Task plane (Option ClientResponse))}

theorem counted_of_mem : ∀ p ∈ arrivals.map (Arrival.program H), Counted (.pending none) p := by
  intro p hp
  obtain ⟨arrival, -, rfl⟩ := List.mem_map.mp hp
  exact arrival.counted H

/-- A request that waits for a backend has not been counted. -/
theorem pending_of_awaits {t : Tally} {call : PlaneCall}
    {next : plane.Answer call → Prog plane (Option ClientResponse)}
    (h : Counted t (.call call next)) (hawaits : (service M R).awaits call = true) :
    ∃ worker, t = .pending worker := by
  cases call with
  | executeRequest message route =>
    obtain ⟨execution⟩ := exists_execution message route
    exact Tally.pending_of_conclude (h.2 execution).now
  | relay req backend =>
    obtain ⟨relayed⟩ := exists_relay req backend
    exact Tally.pending_of_relay (h.2 relayed).now
  | _ => cases hawaits

/-- **What `HTTP_REQUESTS_TOTAL` counts**: the requests without a route and those whose execution is
over, each once, and no others. A request that is being counted is still on its way. The labels of
one that is over tell its response, with the exceptions of `Tells`; one that was refused or
redirected has none, and neither has one whose client has gone away. -/
theorem counted_iff_concluded (h : ((service M R).machine (Option ClientResponse)).system.Reach
      System.Anything (Task.pool s (arrivals.map (Arrival.program H))) c) :
    c.shared.log.countP concludes =
      c.shared.log.countP counts + c.threads.countP (fun t => (tallyOf t).isDue) ∧
    ∀ t ∈ c.threads,
      t.trail.countP concludes = t.trail.countP counts + (tallyOf t).isDue.toNat ∧
      t.trail.filterMap countedLabels = (tallyOf t).labels ∧
      (∀ response, t.rest = some (.done response) → (tallyOf t).isDue = false ∧
        ∀ labels ∈ (tallyOf t).labels, ∀ r, response = some r → labels.Tells r) ∧
      (t.rest = none → ∃ worker, tallyOf t = .pending worker) := by
  refine ⟨Tally.ledger.log_of_reach rfl counted_of_mem h, fun t ht => ?_⟩
  have hnow : tallyOf t ≠ .astray := by
    obtain ⟨p, hp, -⟩ := Service.keeps_of_reach counted_of_mem h ht
    exact hp.now
  refine ⟨Tally.ledger.trail rfl hnow, Tally.filterMap_countedLabels hnow, ?_, ?_⟩
  · intro response hdone
    have hfits : (tallyOf t).Fits response := Service.final_of_reach counted_of_mem h ht hdone
    cases htally : tallyOf t with
    | pending worker => exact ⟨rfl, fun _ hmem => by cases hmem⟩
    | counted labels =>
      rw [htally] at hfits
      refine ⟨rfl, fun labels' hmem => ?_⟩
      obtain rfl := List.mem_singleton.mp hmem
      exact hfits
    | due labels | astray =>
      rw [htally] at hfits
      exact hfits.elim
  · intro hcancelled
    obtain ⟨call, next, hawaits, hp⟩ := Service.waiting_of_reach counted_of_mem h ht hcancelled
    exact pending_of_awaits hp hawaits

end Pool

/-- A data plane without routes. -/
def noRoutes : DataPlane := { oneRoute with router := .new }

/-- Two requests without a route: one is counted, and the one at the listener is not. -/
theorem counted_iff_concluded_notFound :
    ∃ c, ((service .scan ⟨fun _ => none⟩).machine (Option ClientResponse)).system.Reach
        System.Anything (Task.pool noRoutes
          ([Arrival.proxyServer getApi, Arrival.listener getApi none].map
            (Arrival.program .strict))) c ∧
      c.threads.map (fun t => (tallyOf t).labels.map (·.status)) = [["404".toList], []] ∧
      c.shared.log.countP concludes =
        c.shared.log.countP counts + c.threads.countP (fun t => (tallyOf t).isDue) := by
  have hexec : ((service .scan ⟨fun _ => none⟩).machine (Option ClientResponse)).system.exec
      (Task.pool noRoutes
        ([Arrival.proxyServer getApi, Arrival.listener getApi none].map (Arrival.program .strict)))
      [.thread 0 (some allowing), .thread 1 (some allowing), .thread 0 (some allowing),
        .thread 0 (some allowing)] = some _ := rfl
  have hreach := System.Reach.of_exec hexec
  exact ⟨_, hreach, rfl, (counted_iff_concluded hreach).1⟩

/-! ## Listeners -/

/-- A call that a listener makes. -/
def PlaneCall.AtListener : PlaneCall → Prop
  | .executeRequest _ _ | .selectBackend _ _ | .selectWorker => False
  | .countRequest _ | .storeHealth _ => False
  | _ => True

section Listeners

variable {M : Matchit} {R : RegexCrate} {H : HttpCrate} {s : DataPlane} {arrivals : List Arrival}
  {c : Config (Logged plane DataPlane) (Task plane (Option ClientResponse))}
  {ok : Config (Logged plane DataPlane) (Task plane (Option ClientResponse)) →
    Label (Option Outside) PlaneEnv → Prop}

theorem uses_of_listeners
    (harrivals : ∀ arrival ∈ arrivals, ∃ req peerAddr, arrival = .listener req peerAddr) :
    ∀ p ∈ arrivals.map (Arrival.program H), p.Uses PlaneCall.AtListener := by
  intro p hp
  obtain ⟨arrival, harrival, rfl⟩ := List.mem_map.mp hp
  obtain ⟨req, peerAddr, rfl⟩ := harrivals arrival harrival
  refine (ListenerManager.uses_handleRequest H req peerAddr).imp fun call hmakes => ?_
  cases call with
  | executeRequest message route => exact hmakes
  | selectBackend method path => exact hmakes
  | selectWorker => exact hmakes
  | countRequest labels => exact hmakes
  | storeHealth health => exact hmakes
  | _ => exact trivial

/-- The answer of the call is the one of this router. -/
def AnsweredBy (M : Matchit) (R : RegexCrate) (router : Router) (e : Event plane) : Prop :=
  match e with
  | ⟨.selectBackendWithHeaders method path requestHeaders srcIp srcPort, routeMatch⟩ =>
    routeMatch = router.selectBackendWithHeaders M R method path srcIp srcPort requestHeaders
  | _ => True

/-- The calls of a listener leave the router as it is. -/
theorem router_of_atListener {s' s'' : DataPlane} {call : PlaneCall} {outside : Outside}
    {answer : plane.Answer call} (hcall : call.AtListener)
    (h : (service M R).respond s' call outside = some (s'', answer)) :
    s''.router = s'.router ∧ AnsweredBy M R s'.router ⟨call, answer⟩ ∧
      counts ⟨call, answer⟩ = false := by
  cases call with
  | executeRequest message route => exact hcall.elim
  | selectBackend method path => exact hcall.elim
  | selectWorker => exact hcall.elim
  | countRequest labels => exact hcall.elim
  | storeHealth health => exact hcall.elim
  | relay req backend =>
    obtain ⟨r, -, hr⟩ := Option.map_eq_some_iff.mp h
    cases hr
    exact ⟨rfl, trivial, rfl⟩
  | selectBackendWithHeaders method path requestHeaders srcIp srcPort =>
    cases h
    exact ⟨rfl, rfl, rfl⟩
  | _ =>
    cases h
    exact ⟨rfl, trivial, rfl⟩

/-- Changing routes leaves the passive health data alone. -/
theorem Router.call_health (M : Matchit) (s : Router) (call : RouterCall) :
    (s.call M call).health = s.health := by
  rcases call_cases M s call with ⟨w, hc, -, hcommit⟩ | hself | ⟨_, _, _, _, -, hcache⟩
  · rw [hcommit]
    exact commit_health w
  · rw [hself]
  · rw [hcache]

theorem env_health (s : DataPlane) (e : PlaneEnv) :
    ((service M R).env s e).router.health = s.router.health := by
  cases e with
  | tick ns => rfl
  | router call => exact Router.call_health M s.router call

/-- **Nothing is remembered of requests at listeners**: if all traffic comes through them, the
passive health data stay what they were, whatever the backends answer and whichever routes the
controllers add, and no request is counted. As long as the routes stay the same, a client with the
same address gets the same backend, however often it has failed. -/
theorem unaffected_of_listeners
    (harrivals : ∀ arrival ∈ arrivals, ∃ req peerAddr, arrival = .listener req peerAddr)
    (h : ((service M R).machine (Option ClientResponse)).system.Reach ok
      (Task.pool s (arrivals.map (Arrival.program H))) c) :
    c.shared.state.router.health = s.router.health ∧ c.shared.log.countP counts = 0 ∧
    ((∀ c call, ¬ ok c (.env (.router call))) → c.shared.state.router = s.router ∧
      ∀ e ∈ c.shared.log, AnsweredBy M R s.router e) := by
  have huses := uses_of_listeners (H := H) harrivals
  have hhealth : c.shared.state.router.health = s.router.health ∧
      ∀ e ∈ c.shared.log, counts e = false := by
    refine Service.view_eq_of_uses (fun s : DataPlane => s.router.health) huses
      (fun c e _ => env_health c.shared.state e) ?_ h
    intro s' call outside s'' answer hcall hrespond
    obtain ⟨hrouter, -, hcounts⟩ := router_of_atListener hcall hrespond
    exact ⟨congrArg Router.health hrouter, fun _ => hcounts⟩
  refine ⟨hhealth.1, ?_, fun hstay => ?_⟩
  · rw [List.countP_eq_zero]
    intro e he
    rw [hhealth.2 e he]
    exact Bool.false_ne_true
  · refine Service.view_eq_of_uses (fun s : DataPlane => s.router) huses ?_ ?_ h
    · rintro c (ns | call) hok
      · rfl
      · exact absurd hok (hstay c call)
    · intro s' call outside s'' answer hcall hrespond
      obtain ⟨hrouter, hanswer, -⟩ := router_of_atListener hcall hrespond
      exact ⟨hrouter, fun hsame => hsame ▸ hanswer⟩

end Listeners

/-- The routes stay the same. -/
def RoutesStay (_ : Config (Logged plane DataPlane) (Task plane (Option ClientResponse))) :
    Label (Option Outside) PlaneEnv → Prop
  | .env (.router _) => False
  | _ => True

instance : ∀ c l, Decidable (RoutesStay c l)
  | _, .env (.router _) => inferInstanceAs (Decidable False)
  | _, .env (.tick _) => inferInstanceAs (Decidable True)
  | _, .thread _ _ => inferInstanceAs (Decidable True)

/-- Everything is allowed, and backends do not answer. -/
def refusing : Outside :=
  { allowing with relay := ⟨some (0, .ok ()), .ok (), none, none, some (0, .error [])⟩ }

/-- A backend fails, and the next request of the same client gets it again. -/
theorem unaffected_of_listeners_failed :
    ∃ c, ((service .scan ⟨fun _ => none⟩).machine (Option ClientResponse)).system.Reach
        RoutesStay (Task.pool oneRoute
          ([Arrival.listener getApi none, Arrival.listener getApi none].map
            (Arrival.program .strict))) c ∧
      c.shared.log.countP (reports Backend.sample.display) = 1 ∧
      c.shared.state.router = oneRoute.router ∧
      ∀ e ∈ c.shared.log, AnsweredBy .scan ⟨fun _ => none⟩ oneRoute.router e := by
  have hexec : (((service .scan ⟨fun _ => none⟩).machine
      (Option ClientResponse)).system.restrict RoutesStay).exec
      (Task.pool oneRoute
        ([Arrival.listener getApi none, Arrival.listener getApi none].map
          (Arrival.program .strict)))
      [.thread 0 (some refusing), .thread 0 (some refusing), .thread 0 (some refusing),
        .thread 0 (some refusing), .thread 0 (some refusing), .thread 1 (some refusing)] =
      some _ := rfl
  have hreach := System.Reach.of_exec_restrict hexec
  have hlisteners : ∀ arrival ∈ [Arrival.listener getApi none, Arrival.listener getApi none],
      ∃ req peerAddr, arrival = .listener req peerAddr := by
    simp
  exact ⟨_, hreach, rfl, (unaffected_of_listeners hlisteners hreach).2.2 fun _ _ hok => hok⟩

end Rauta
