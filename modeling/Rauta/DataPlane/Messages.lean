import Rauta.DataPlane

/-!
# What is sent to backends

A request can reach backends in several messages: the one that `forward_to_backend` builds, its
fallback, those of the retry loop, and the one that the listener builds. Each is built in a place of
its own, with a list of headers of its own. This module says what they have in common, for every
call that a request makes at any time, however the call ends: even if the client goes away
meanwhile, what has been sent is of this kind.

The calls that a program can make are listed in `Arrival.Makes`. Those to the router are as in
`FrontEnds`, where the front ends are functions (`Arrival.select_of_run`).
-/

namespace Rauta

open Async Interaction

/-! ## Messages of a call -/

/-- The message of an event. -/
def MessageEvent.message : MessageEvent → Option BackendRequest
  | .http2Send q | .http1Send q | .retrySend q => some q
  | .attempt | .http2Answer | .cacheHttp1 | .sleep => none

namespace PlaneCall

/-- The message can be sent during the call. -/
def Sends (q : BackendRequest) : PlaneCall → Prop
  | .executeRequest message route => ∃ cache script l,
    (message.executeRequestWithRetry route cache script).Emits l ∧ l.message = some q
  | .relay req backend => ∃ marked script l,
    (Rauta.relay req backend marked script).Emits l ∧ l.message = some q
  | _ => False

/-- The backend that is called. -/
def backend : PlaneCall → Option Backend
  | .executeRequest _ route => some route.backend
  | .relay _ backend => some backend
  | _ => none

/-- The operations of the route's filters. The listener leaves them out. -/
def requestOps : PlaneCall → List HeaderModifierOp
  | .executeRequest _ route => (route.requestFilters.map (·.operations)).getD []
  | _ => []

end PlaneCall

/-- What the choice of a backend depends on. -/
def IncomingRequest.front (req : IncomingRequest) : FrontRequest :=
  ⟨req.method, req.uri.path, req.hostHeader⟩

/-- The front ends ask the router each in its way, as `FrontEnds` has it, and they forward a request
each in its way: `ProxyServer` with the filters of the route, the listener as it is. The listener
neither counts a request nor records the health of a backend. -/
def Arrival.Makes (H : HttpCrate) (arrival : Arrival) (call : PlaneCall) : Prop :=
  match arrival, call with
  | .proxyServer req, .selectBackend method path =>
    req.front.isOwn = false ∧ method = req.method.toHttpMethod ∧ path = req.uri.path
  | .listener req peerAddr, .selectBackendWithHeaders method path requestHeaders srcIp srcPort =>
    req.hostHeader ≠ [] ∧ req.method.listenerMethod = some method ∧ path = req.uri.path ∧
      requestHeaders = [("host".toList, req.hostHeader)] ∧ srcIp = peerAddr.map Prod.fst ∧
      srcPort = peerAddr.map Prod.snd
  | .proxyServer req, .executeRequest message route =>
    req.applyRequestFilters H route.requestFilters = .ok message.request
  | .listener req _, .relay req' _ => req' = req
  | .proxyServer _, .selectBackendWithHeaders _ _ _ _ _ => False
  | .proxyServer _, .relay _ _ => False
  | .listener _ _, .executeRequest _ _ => False
  | .listener _ _, .selectBackend _ _ => False
  | .listener _ _, .selectWorker => False
  | .listener _ _, .countRequest _ => False
  | .listener _ _, .storeHealth _ => False
  | _, _ => True

/-! ## Headers -/

namespace HeaderMap

variable {headers : HeaderMap} {name : Str}

theorem getAll_withHost (headers : HeaderMap) (value name : Str) :
    (headers.withHost value).getAll name =
      headers.getAll name ++ if name = "host".toList then [value] else [] := by
  rw [getAll, entries_withHost, List.filter_append, List.map_append, getAll]
  congr 1
  by_cases h : name = "host".toList
  · rw [if_pos h, h]
    rfl
  · rw [if_neg h, List.filter_cons_of_neg (by simpa using Ne.symm h)]
    rfl

/-- Names are in lower case. -/
theorem getAll_of_not_lowercase (h : name.map Char.toLower ≠ name) : headers.getAll name = [] := by
  rw [getAll, List.map_eq_nil_iff, List.filter_eq_nil_iff]
  rintro e he hname
  rw [← of_decide_eq_true hname] at h
  exact h (headers.lowercase e he)

theorem Legal.withHost (h : headers.Legal) {value : Str}
    (hvalue : ∀ c ∈ value, isHeaderChar c = true) : (headers.withHost value).Legal := by
  intro e he c hc
  rw [entries_withHost] at he
  rcases List.mem_append.mp he with he | he
  · exact h e he c hc
  · obtain rfl := List.mem_singleton.mp he
    rcases List.mem_append.mp hc with hc | hc
    · exact List.all_eq_true.mp (show "host".toList.all isHeaderChar = true by rfl) c hc
    · exact hvalue c hc

end HeaderMap

theorem isHeaderChar_of_isSome_toDigit {c : Char} (h : (IpText.toDigit 16 c).isSome = true) :
    isHeaderChar c = true := by
  have hrange : 48 ≤ c.toNat ∧ c.toNat ≤ 102 := by
    by_cases hdigit : '0' ≤ c ∧ c ≤ '9'
    · change 48 ≤ c.toNat ∧ c.toNat ≤ 57 at hdigit
      omega
    by_cases hlower : 'a' ≤ c ∧ c ≤ 'f'
    · change 97 ≤ c.toNat ∧ c.toNat ≤ 102 at hlower
      omega
    by_cases hupper : 'A' ≤ c ∧ c ≤ 'F'
    · change 65 ≤ c.toNat ∧ c.toNat ≤ 70 at hupper
      omega
    · rw [IpText.toDigit, if_neg hdigit, if_neg hlower, if_neg hupper] at h
      cases h
  simp [isHeaderChar]
  omega

theorem Backend.legal_display (b : Backend) : ∀ c ∈ b.display, isHeaderChar c = true := by
  obtain ⟨address, opening, closing, hopening, hclosing, -, hdisplay, -⟩ := b.exists_display
  have haddress : ∀ {c}, isAddressChar c = true → isHeaderChar c = true := by
    intro c h
    simp only [isAddressChar, Bool.or_eq_true, beq_iff_eq] at h
    rcases h with (h | rfl) | rfl
    · exact isHeaderChar_of_isSome_toDigit h
    · rfl
    · rfl
  intro c hc
  rw [hdisplay] at hc
  simp only [List.mem_append, List.mem_cons] at hc
  rcases hc with ((hc | hc) | hc) | rfl | hc
  · rw [hopening c hc]
    rfl
  · exact haddress (isAddressChar_of_mem_display hc)
  · rw [hclosing c hc]
    rfl
  · rfl
  · exact isHeaderChar_of_isSome_toDigit (IpText.isSome_toDigit_of_le (by decide)
      (IpText.isSome_toDigit_of_mem_toDigits (by decide) (by decide) hc))

/-! ## The messages -/

/-- The path and query of a request. -/
def IncomingRequest.target (req : IncomingRequest) : Str :=
  (req.uri.pathAndQuery.map (·.asStr)).getD "/".toList

/-- A message stands for a request: it asks the backend for the same target, names the backend as
its host, and has no header that the request does not have. Other than the host, a header has all
its values or is missing. -/
structure BackendRequest.Conveys (q : BackendRequest) (backend : Backend) (req : IncomingRequest) :
    Prop where
  authority : q.authority = backend.display
  target : q.target = req.target
  host : q.headers.getAll "host".toList = [backend.display]
  hopByHop : ∀ name, isHopByHopHeader name = true → q.headers.getAll name = []
  others : ∀ name, IncomingRequest.isForwarded name = true →
    q.headers.getAll name = req.headers.getAll name ∨ q.headers.getAll name = []
  legal : req.headers.Legal → q.headers.Legal

namespace IncomingRequest

variable {req : IncomingRequest} {backend : Backend} {q : BackendRequest} {body : List UInt8}

theorem target_ne_nil (req : IncomingRequest) : req.target ≠ [] := by
  unfold target
  cases req.uri.pathAndQuery with
  | none => simp
  | some target =>
    show target.asStr ≠ []
    obtain ⟨rawPath, query, legal⟩ := target
    cases rawPath with
    | nil => cases query <;> simp [PathAndQuery.asStr]
    | cons c rawPath => simp [PathAndQuery.asStr]

theorem not_hopByHop_host : isHopByHopHeader "host".toList = false := by decide

/-- All that is built with a selection of the headers and the host conveys the request. -/
theorem conveys_of_filter {keep : Str → Bool}
    (hkeep : ∀ name, name.map Char.toLower = name → keep name = true → isForwarded name = true)
    (hauthority : q.authority = backend.display) (htarget : q.target = req.target)
    (hheaders : q.headers = (req.headers.filter keep).withHost backend.display) :
    q.Conveys backend req := by
  have hvalues : ∀ name, name ≠ "host".toList →
      q.headers.getAll name = if keep name then req.headers.getAll name else [] := by
    intro name hname
    rw [hheaders, HeaderMap.getAll_withHost, HeaderMap.getAll_filter, if_neg hname,
      List.append_nil]
  -- what has a value is in lower case, and then the selection lets it pass
  have hnone : ∀ name, isForwarded name = false → name ≠ "host".toList →
      q.headers.getAll name = [] := by
    intro name hforwarded hname
    rw [hvalues name hname]
    split
    · next hkept =>
      refine HeaderMap.getAll_of_not_lowercase fun hlower => ?_
      rw [hkeep name hlower hkept] at hforwarded
      cases hforwarded
    · rfl
  refine ⟨hauthority, htarget, ?_, ?_, ?_, ?_⟩
  · have hhost : keep "host".toList = false := by
      by_contra hkept
      have hforwarded := hkeep _ (by decide) (Bool.not_eq_false _ ▸ hkept)
      cases hforwarded
    rw [hheaders, HeaderMap.getAll_withHost, HeaderMap.getAll_filter, hhost]
    rfl
  · intro name hhop
    refine hnone name (by simp [isForwarded, hhop]) ?_
    rintro rfl
    rw [not_hopByHop_host] at hhop
    cases hhop
  · intro name hforwarded
    have hname : name ≠ "host".toList := by
      rintro rfl
      cases hforwarded
    rw [hvalues name hname]
    split
    · exact Or.inl rfl
    · exact Or.inr rfl
  · intro hlegal
    rw [hheaders]
    exact (hlegal.filter keep).withHost backend.legal_display

theorem conveys_backendReq : (req.backendReq backend body).Conveys backend req :=
  conveys_of_filter (fun _ _ h => h) rfl (if_neg req.target_ne_nil) rfl

theorem conveys_retryReq : (req.retryReq backend).Conveys backend req := by
  refine conveys_of_filter (fun name _ h => ?_) rfl ?_ rfl
  · rw [← isRetried_and_isForwarded, Bool.and_eq_true] at h
    exact h.2
  · have htarget : (req.retryReq backend).target = (req.backendReq backend []).target :=
      target_retryReq
    rw [htarget]
    exact if_neg req.target_ne_nil

theorem conveys_fallbackReq : (req.fallbackReq backend body).Conveys backend req := by
  have hheaders : (req.fallbackReq backend body).headers =
      (req.headers.filter fun _ => false).withHost backend.display := by
    simp [fallbackReq, HeaderMap.filter, HeaderMap.empty]
  exact conveys_of_filter (by simp) rfl (if_neg req.target_ne_nil) hheaders

theorem conveys_relayReq : (req.relayReq backend body).Conveys backend req := by
  refine conveys_of_filter (fun name hlower h => ?_) rfl (if_neg req.target_ne_nil) rfl
  have hlist : notRelayed = hopByHopHeaders ++ ["host".toList] := rfl
  have hnames : ∀ hop ∈ hopByHopHeaders, hop.map Char.toLower = hop := by decide
  simp only [isRelayed, hlist, Bool.not_eq_true', List.contains_eq_mem, decide_eq_false_iff_not,
    List.mem_append, List.mem_singleton, not_or] at h
  simp only [isForwarded, isHopByHopHeader, eqIgnoreAsciiCase, Bool.and_eq_true, bne_iff_ne,
    Bool.not_eq_true', List.any_eq_false, beq_iff_eq]
  refine ⟨h.2, fun hop hhop heq => h.1 ?_⟩
  rw [hlower, hnames hop hhop] at heq
  rwa [heq]

end IncomingRequest

/-! ## Which messages are sent -/

theorem ClientMessage.conveys_of_emits {c : ClientMessage} {route : RouteMatch}
    {cache : ProtocolCache} {script : MessageExecution} {l : MessageEvent} {q : BackendRequest}
    (h : (c.executeRequestWithRetry route cache script).Emits l) (hq : l.message = some q) :
    q.Conveys route.backend c.request := by
  let P : MessageEvent → Prop := fun l =>
    ∀ q, l.message = some q → q.Conveys route.backend c.request
  have hfirst : (c.firstAttempt route cache script.forward).Labels P := by
    intro s hs q hq
    have hcarries := labels_firstAttempt script.forward s hs
    cases hlabel : s.label with
    | http2Send q' =>
      rw [hlabel] at hq hcarries
      cases hq
      obtain rfl : q = _ := hcarries
      exact IncomingRequest.conveys_backendReq
    | http1Send q' =>
      rw [hlabel] at hq hcarries
      cases hq
      rcases hcarries with ⟨-, rfl⟩ | ⟨-, rfl⟩
      · exact IncomingRequest.conveys_backendReq
      · exact IncomingRequest.conveys_fallbackReq
    | retrySend q' =>
      rw [hlabel] at hcarries
      exact hcarries.elim
    | attempt | http2Answer | cacheHttp1 | sleep =>
      rw [hlabel] at hq
      cases hq
  have hall : (c.executeRequestWithRetry route cache script).Labels P := by
    rw [executeRequestWithRetry_eq]
    cases c.forget.retryConfig route with
    | none => exact hfirst
    | some cfg =>
      refine hfirst.bind fun _ first _ => ?_
      split
      · exact Run.labels_pure _
      · refine labels_retryLoop (by simp [P, MessageEvent.message])
          (by simp [P, MessageEvent.message]) ?_ _ _ _ _
        rintro q ⟨⟩
        exact IncomingRequest.conveys_retryReq
  exact hall.of_emits h q hq

theorem conveys_of_emits_relay {req : IncomingRequest} {backend : Backend} {marked : Bool}
    {script : RelayScript} {l : MessageEvent} {q : BackendRequest}
    (h : (relay req backend marked script).Emits l) (hq : l.message = some q) :
    q.Conveys backend req := by
  have hsend : ∀ l : MessageEvent, l.message = some (req.relayReq backend req.body) →
      ((Run.wait script.send).during l >>= fun reply => pure (RelayResult.ofReply reply)).Labels
        fun l => ∀ q, l.message = some q → q = req.relayReq backend req.body := by
    intro l hl
    refine Run.Labels.bind (Run.labels_during.mpr ⟨?_, Run.labels_wait _⟩) fun _ _ _ =>
      Run.labels_pure _
    intro q hq
    exact Option.some.inj (hq.symm.trans hl)
  have hall : (relay req backend marked script).Labels
      fun l => ∀ q, l.message = some q → q = req.relayReq backend req.body := by
    refine Run.Labels.bind (Run.labels_wait _) fun _ body _ => ?_
    cases body with
    | error e => exact Run.labels_pure _
    | ok _ =>
      cases script.build with
      | error e => exact Run.labels_pure _
      | ok _ =>
        dsimp only
        split
        · refine Run.Labels.bind (Run.labels_wait _) fun _ connected _ => ?_
          cases connected with
          | error e => exact Run.labels_pure _
          | ok _ =>
            refine Run.Labels.bind (Run.labels_wait _) fun _ shaken _ => ?_
            cases shaken with
            | error e => exact Run.labels_pure _
            | ok _ => exact hsend _ rfl
        · exact hsend _ rfl
  obtain rfl := hall.of_emits h q hq
  exact IncomingRequest.conveys_relayReq

/-! ## Which calls are made -/

namespace RequestHandler

theorem uses_recordRequestMetrics {P : PlaneCall → Prop}
    (hcount : ∀ labels, P (.countRequest labels)) (hload : P .loadHealth)
    (hstore : ∀ health, P (.storeHealth health)) (hsuccess : ∀ id, P (.recordSuccess id))
    (hfailure : ∀ id, P (.recordFailure id))
    (result : Except ProxyError BackendResponse) (method : HttpMethod) (route : RouteMatch)
    (worker : Option Nat) : (recordRequestMetrics result method route worker).Uses P := by
  have hhealth : ∀ status, (recordBackendResponse route.backend status).Uses P := by
    intro status
    exact ⟨hload, fun _ => ⟨hstore _, fun _ => trivial⟩⟩
  cases result with
  | ok response =>
    refine ⟨hcount _, fun _ => (hhealth _).bind fun _ => ?_⟩
    split
    · exact ⟨hfailure _, fun _ => trivial⟩
    · exact ⟨hsuccess _, fun _ => trivial⟩
  | error e =>
    cases e with
    | bodyTooLarge size max => exact ⟨hcount _, fun _ => trivial⟩
    | timeout message | backendError message | filterError message =>
      exact ⟨hcount _, fun _ => (hhealth _).bind fun _ => ⟨hfailure _, fun _ => trivial⟩⟩

theorem uses_handleRequest (H : HttpCrate) (req : IncomingRequest) :
    (handleRequest H req).Uses ((Arrival.proxyServer req).Makes H) := by
  have hid : (requestId req).Uses ((Arrival.proxyServer req).Makes H) := by
    unfold requestId
    split
    · exact trivial
    · exact ⟨trivial, fun _ => trivial⟩
  refine hid.bind fun requestId => ?_
  split
  · refine .ask trivial fun metrics => ?_
    split <;> exact trivial
  split
  · exact trivial
  split
  · exact ⟨trivial, fun _ => ⟨trivial, fun _ => trivial⟩⟩
  next hmetrics hhealthz hstatus =>
  have hfront : req.front.isOwn = false := by
    simp only [IncomingRequest.asksFor, decide_eq_true_eq] at hmetrics hhealthz hstatus
    simp only [FrontRequest.isOwn, IncomingRequest.front, ownEndpoints, List.mem_cons,
      List.not_mem_nil, or_false, decide_eq_false_iff_not]
    rintro ⟨hpath | hpath | hpath, hmethod⟩
    · exact hmetrics ⟨hpath, hmethod⟩
    · exact hhealthz ⟨hpath, hmethod⟩
    · exact hstatus ⟨hpath, hmethod⟩
  refine .ask ⟨hfront, rfl, rfl⟩ fun routeMatch => ?_
  split
  · next route =>
    refine .ask trivial fun worker => ?_
    split
    · exact trivial
    refine .ask trivial fun allowed => ?_
    split
    · exact trivial
    cases hfilters : req.applyRequestFilters H route.requestFilters with
    | error e => exact trivial
    | ok req' =>
      refine .ask trivial fun allowed => ?_
      split
      · exact trivial
      · refine .ask hfilters fun execution => ?_
        refine Prog.Uses.bind (uses_recordRequestMetrics (fun _ => trivial) trivial
          (fun _ => trivial) (fun _ => trivial) (fun _ => trivial) ..) fun _ => trivial
  · exact ⟨trivial, fun _ => trivial⟩

end RequestHandler

theorem ListenerManager.uses_handleRequest (H : HttpCrate) (req : IncomingRequest)
    (peerAddr : Option (IpAddr × UInt16)) :
    (handleRequest H req peerAddr).Uses ((Arrival.listener req peerAddr).Makes H) := by
  unfold handleRequest
  split
  · exact trivial
  next hhost =>
  split
  · exact trivial
  next method hmethod =>
  refine .ask ⟨hhost, hmethod, rfl, rfl, rfl, rfl⟩ fun routeMatch => ?_
  split
  · exact trivial
  refine .ask trivial fun allowed => ?_
  split
  · exact trivial
  refine .ask trivial fun allowed => ?_
  split
  · exact trivial
  refine .ask rfl fun relayed => ?_
  generalize Relay.result _ = result
  cases result with
  | bodyReadFailure | panicked => exact trivial
  | connectFailure | handshakeFailure | sendFailure => exact ⟨trivial, fun _ => trivial⟩
  | response response =>
    dsimp only
    split <;> exact ⟨trivial, fun _ => trivial⟩

theorem Arrival.uses_program (H : HttpCrate) (arrival : Arrival) :
    (arrival.program H).Uses (arrival.Makes H) := by
  cases arrival with
  | proxyServer req => exact RequestHandler.uses_handleRequest H req
  | listener req peerAddr => exact ListenerManager.uses_handleRequest H req peerAddr

/-! ## Which backend is chosen -/

/-- What `FrontEnds` says that the router is asked. -/
def Arrival.select (M : Matchit) (R : RegexCrate) (arrival : Arrival) (s : Router) :
    Option RouteMatch × Router :=
  match arrival with
  | .proxyServer req => requestHandler M s req.front
  | .listener req peerAddr => (listenerManager M R s req.front peerAddr, s)

/-- The route that a call has found, if it asks for one. -/
def selection (e : Event plane) : Option (Option RouteMatch) :=
  match e with
  | ⟨.selectBackend _ _, routeMatch⟩ => some routeMatch
  | ⟨.selectBackendWithHeaders _ _ _ _ _, routeMatch⟩ => some routeMatch
  | _ => none

/-- **The two models of the front ends agree**: whenever a program asks for a route, it gets what
`FrontEnds` says, and the router is left as it says. -/
theorem Arrival.select_of_run {H : HttpCrate} {M : Matchit} {R : RegexCrate} {arrival : Arrival}
    {es : List (Event plane)} {call : PlaneCall}
    {next : plane.Answer call → Prog plane (Option ClientResponse)} {s s' : DataPlane}
    {outside : Outside} {answer : plane.Answer call} {routeMatch : Option RouteMatch}
    (hrun : (arrival.program H).Run es (.call call next))
    (hrespond : (service M R).respond s call outside = some (s', answer))
    (hselection : selection ⟨call, answer⟩ = some routeMatch) :
    arrival.select M R s.router = (routeMatch, s'.router) := by
  have hmakes : arrival.Makes H call := ((arrival.uses_program H).run hrun).1
  cases call with
  | selectBackend method path =>
    cases arrival with
    | listener req peerAddr => exact hmakes.elim
    | proxyServer req =>
      obtain ⟨hown, rfl, rfl⟩ := hmakes
      cases hrespond
      cases hselection
      show requestHandler M s.router req.front = _
      rw [requestHandler, if_neg (Bool.eq_false_iff.mp hown)]
      rfl
  | selectBackendWithHeaders method path requestHeaders srcIp srcPort =>
    cases arrival with
    | proxyServer req => exact hmakes.elim
    | listener req peerAddr =>
      obtain ⟨hhost, hmethod, rfl, rfl, rfl, rfl⟩ := hmakes
      cases hrespond
      cases hselection
      have hfront : listenerManager M R s.router req.front peerAddr =
          s.router.selectBackendWithHeaders M R method req.uri.path (peerAddr.map Prod.fst)
            (peerAddr.map Prod.snd) [("host".toList, req.hostHeader)] := by
        simp only [listenerManager, IncomingRequest.front, if_neg hhost, hmethod]
      exact congrArg (Prod.mk · s.router) hfront
  | _ => cases hselection

/-! ## What they have in common -/

/-- What the filters of a route make of a request. -/
theorem IncomingRequest.applyRequestFilters_eq_ok {H : HttpCrate} (hH : H.Lawful)
    {req req' : IncomingRequest} {filters : Option RequestHeaderModifier}
    (h : req.applyRequestFilters H filters = .ok req') :
    req' = { req with headers := req'.headers } ∧
      (∀ name, req'.headers.getAll name = ((filters.map (·.operations)).getD []).foldl
        (HeaderModifierOp.edit name) (req.headers.getAll name)) ∧
      (req.headers.Legal → req'.headers.Legal) := by
  cases filters with
  | none =>
    cases h
    exact ⟨rfl, fun _ => rfl, id⟩
  | some filters =>
    unfold applyRequestFilters at h
    split at h
    · next hnone => cases hnone
    · next filters' hsome =>
      cases hsome
      split at h
      · cases h
      · next headers hheaders =>
        cases h
        have hok : (applyHeaderFilters H req.headers filters.operations).1 = .ok () := by
          rw [hheaders]
        have hresult : (applyHeaderFilters H req.headers filters.operations).2 = headers := by
          rw [hheaders]
        refine ⟨rfl, fun name => ?_, fun hlegal => ?_⟩
        · rw [← hresult]
          exact getAll_foldl_edit hH hok name
        · rw [← hresult]
          exact hlegal.applyHeaderFilters hH _

/-- **What backends get**: every message conveys the request of the client as the filters of the
route have changed it. And no filter smuggles anything in: if the client has sent legal headers,
they stay so. -/
theorem conveys_of_sends {H : HttpCrate} (hH : H.Lawful) {arrival : Arrival}
    {es : List (Event plane)} {call : PlaneCall}
    {next : plane.Answer call → Prog plane (Option ClientResponse)} {q : BackendRequest}
    (hrun : (arrival.program H).Run es (.call call next)) (hq : call.Sends q) :
    ∃ backend req, call.backend = some backend ∧ q.Conveys backend req ∧
      req = { arrival.request with headers := req.headers } ∧
      (∀ name, req.headers.getAll name = call.requestOps.foldl (HeaderModifierOp.edit name)
        (arrival.request.headers.getAll name)) ∧
      (arrival.request.headers.Legal → q.headers.Legal) := by
  have hmakes : arrival.Makes H call := ((arrival.uses_program H).run hrun).1
  cases call with
  | executeRequest message route =>
    cases arrival with
    | listener req peerAddr => exact hmakes.elim
    | proxyServer req =>
      obtain ⟨cache, script, l, hemits, hl⟩ := hq
      have hconveys := ClientMessage.conveys_of_emits hemits hl
      obtain ⟨hreq, hvalues, hlegal⟩ := IncomingRequest.applyRequestFilters_eq_ok hH hmakes
      exact ⟨route.backend, message.request, rfl, hconveys, hreq, hvalues,
        fun h => hconveys.legal (hlegal h)⟩
  | relay req backend =>
    cases arrival with
    | proxyServer req => exact hmakes.elim
    | listener req' peerAddr =>
      obtain ⟨marked, script, l, hemits, hl⟩ := hq
      obtain rfl : req = req' := hmakes
      have hconveys := conveys_of_emits_relay hemits hl
      exact ⟨backend, req, rfl, hconveys, rfl, fun _ => rfl, hconveys.legal⟩
  | _ => exact hq.elim

/-- `GET /api` with a header for the proxy and a hop-by-hop one. -/
def getDebug : IncomingRequest :=
  { getApi with
    headers := ⟨[("host".toList, "example.com".toList), ("x-debug".toList, "1".toList),
      ("te".toList, "trailers".toList)], by decide⟩ }

/-- A route that takes the header away and sets another one, and that retries. -/
def filteredMatch : RouteMatch :=
  { ClientRequest.plainMatch none (some ClientRequest.defaultRetry) with
    requestFilters := some ⟨[.set "X-Env".toList "a".toList, .remove "X-Debug".toList]⟩ }

/-- Also the message of a retry has neither of the headers, and the backend as its host. -/
theorem conveys_of_sends_retried : ∃ es message next,
    ((Arrival.proxyServer getDebug).program .strict).Run es
      (.call (.executeRequest message filteredMatch) next) ∧
    (PlaneCall.executeRequest message filteredMatch).Sends
      (message.request.retryReq .sample) ∧
    (message.request.retryReq .sample).headers.getAll "host".toList = [Backend.sample.display] ∧
    (message.request.retryReq .sample).headers.getAll "te".toList = [] ∧
    (message.request.retryReq .sample).headers.getAll "x-debug".toList = [] := by
  obtain ⟨req, hreq⟩ : ∃ req, getDebug.applyRequestFilters .strict filteredMatch.requestFilters =
      .ok req := ⟨_, rfl⟩
  let message : ClientMessage := ⟨req, false⟩
  have hrun : ∃ next, ((Arrival.proxyServer getDebug).program .strict).Run
      [⟨.newUuid, ⟨Vector.replicate 16 0⟩⟩, ⟨.selectBackend .get "/api".toList, some filteredMatch⟩,
        ⟨.selectWorker, none⟩, ⟨.checkRateLimit filteredMatch.pattern, true⟩,
        ⟨.allowRequest Backend.sample.display, true⟩]
      (.call (.executeRequest message filteredMatch) next) := by
    cases hreq
    exact ⟨_, .cons (.cons (.cons (.cons (.cons (.nil
      (RequestHandler.forward .strict _ filteredMatch none _))))))⟩
  obtain ⟨next, hrun⟩ := hrun
  have hcan : message.CanRetry filteredMatch := by
    cases hreq
    exact ⟨ClientRequest.defaultRetry, rfl, by decide, Or.inl rfl⟩
  obtain ⟨script, hemits, -⟩ := ClientMessage.exists_retried hcan ∅ ⟨200, .empty⟩ rfl
  have hsends : (PlaneCall.executeRequest message filteredMatch).Sends
      (message.request.retryReq .sample) := ⟨∅, script, _, hemits, rfl⟩
  obtain ⟨backend, req', hbackend, hconveys, -, hvalues, -⟩ :=
    conveys_of_sends HttpCrate.strict_lawful hrun hsends
  cases hbackend
  refine ⟨_, message, next, hrun, hsends, hconveys.host, hconveys.hopByHop _ (by decide), ?_⟩
  have hnone : req'.headers.getAll "x-debug".toList = [] := hvalues _
  rcases hconveys.others "x-debug".toList (by decide) with h | h
  · exact h.trans hnone
  · exact h

end Rauta
