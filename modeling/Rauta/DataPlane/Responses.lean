import Rauta.DataPlane.Messages
import Rauta.DataPlane.Protocol

/-!
# What clients get

`request_handler::handle_request` builds its responses with `unwrap`, which panics if a header is
refused, and echoes the client's request id in one. `ListenerManager::handle_request` builds its
responses and the request to the backend with `expect`. A handler that panics closes the connection
and answers nothing.

The responses can always be built: their headers have fixed names, and the values that are not fixed
have been read from a header before. But the request to the backend is built with a new URI, and
what `http` says of that is another matter (`RelayScript.build`): the URI of a client can be too
long for a backend in front of it, and with HTTP/2 its path need not begin with a slash. A request
that is refused there is the only thing that makes a handler panic. `handle_request` of the request
handler returns an error in the same place, and counts it as a failure of the backend.

What is not a text of the proxy itself is the response of a backend, with the changes that the
filters of the route make.
-/

namespace Rauta

open Async Interaction

/-! ## Building responses -/

section Building

variable {H : HttpCrate}

/-- A header that can be sent, whatever the crate. -/
structure Sendable (e : Str × Str) : Prop where
  name : e.1 ≠ [] ∧ e.1.length ≤ 64 ∧ e.1.all isNameChar = true
  value : e.2.all isHeaderChar = true

theorem exists_header (hH : H.Lawful) {e : Str × Str} (h : Sendable e) (headers : HeaderMap) :
    ∃ headers', headers.header H e.1 e.2 = some headers' := by
  obtain ⟨n, hn⟩ := hH.name_ok h.name.1 h.name.2.1 h.name.2.2
  obtain ⟨v, hv⟩ := hH.value_ok_iff.mpr (List.all_eq_true.mp h.value)
  refine ⟨headers.append n v, ?_⟩
  rw [HeaderMap.header, hn, hv]
  rfl

/-- A response of the proxy itself. -/
def Own (response : Option ClientResponse) : Prop := ∃ r, response = some r ∧ r.body ≠ .stream

/-- **A response with headers that can be sent is built.** -/
theorem own_buildResponse (hH : H.Lawful) {headers : List (Str × Str)}
    (h : ∀ e ∈ headers, Sendable e) (status : Nat) (body : Str) :
    Own (buildResponse H status headers body) := by
  have hfold : ∀ start : HeaderMap, ∃ built,
      headers.foldlM (fun headers e => headers.header H e.1 e.2) start = some built := by
    induction headers with
    | nil => exact fun start => ⟨start, rfl⟩
    | cons e headers ih =>
      intro start
      obtain ⟨hhead, htail⟩ := List.forall_mem_cons.mp h
      obtain ⟨next, hnext⟩ := exists_header hH hhead start
      obtain ⟨built, hbuilt⟩ := ih htail next
      refine ⟨built, ?_⟩
      rw [List.foldlM_cons, hnext]
      exact hbuilt
  obtain ⟨built, hbuilt⟩ := hfold HeaderMap.empty
  refine ⟨⟨status, built, .text body⟩, ?_, by simp⟩
  rw [buildResponse, hbuilt]
  rfl

/-- A header with a fixed name. -/
theorem sendable_mk {name value : Str}
    (hname : name ≠ [] ∧ name.length ≤ 64 ∧ name.all isNameChar = true)
    (hvalue : value.all isHeaderChar = true) : Sendable (name, value) := ⟨hname, hvalue⟩

theorem sendable_plainText : Sendable plainText := sendable_mk (by decide) (by decide)

theorem own_buildErrorResponse (hH : H.Lawful) (status : Nat) (message : Str) :
    Own (buildErrorResponse H status message) :=
  own_buildResponse hH (List.forall_mem_singleton.mpr sendable_plainText) _ _

theorem own_buildNotFoundResponse (hH : H.Lawful) {requestId : Str}
    (h : requestId.all isHeaderChar = true) : Own (buildNotFoundResponse H requestId) :=
  own_buildResponse hH (List.forall_mem_singleton.mpr (sendable_mk (by decide) h)) _ _

/-- A text with one more header. -/
theorem own_plainText_with (hH : H.Lawful) {e : Str × Str} (h : Sendable e) (status : Nat)
    (body : Str) : Own (buildResponse H status [plainText, e] body) :=
  own_buildResponse hH (List.forall_mem_cons.mpr
    ⟨sendable_plainText, List.forall_mem_singleton.mpr h⟩) _ _

theorem own_errorToResponse (hH : H.Lawful) {requestId : Str}
    (h : requestId.all isHeaderChar = true) (error : ProxyError) :
    Own (errorToResponse H error requestId) :=
  own_plainText_with hH (sendable_mk (by decide) h) _ _

/-- The responses with a `Retry-After` header. -/
theorem own_buildRetryAfterResponse (hH : H.Lawful) {seconds : Str}
    (h : seconds.all isHeaderChar = true) (status : Nat) (body : Str) :
    Own (buildResponse H status [plainText, ("Retry-After".toList, seconds)] body) :=
  own_plainText_with hH (sendable_mk (by decide) h) _ _

theorem own_redirectResponse (hH : H.Lawful) (req : IncomingRequest) (redirect : RequestRedirect) :
    Own (redirectResponse H req redirect) := by
  unfold redirectResponse
  split
  · exact ⟨_, rfl, by simp⟩
  · exact own_buildErrorResponse hH _ _

end Building

/-! ## Request ids -/

theorem all_display (uuid : Uuid) : uuid.display.all isHeaderChar = true := by
  have hdigit : ∀ n < 16, isHeaderChar (Nat.digitChar n) = true := by decide
  have hbyte : ∀ b, (hexByte b).all isHeaderChar = true := by
    intro b
    have hlt := b.toNat_lt
    simp [hexByte, hdigit (b.toNat / 16) (by omega), hdigit (b.toNat % 16) (by omega)]
  have hbytes : ∀ bytes : List UInt8, (bytes.flatMap hexByte).all isHeaderChar = true := by
    intro bytes
    simp [List.all_flatMap, hbyte]
  have hdash : isHeaderChar '-' = true := rfl
  simp only [Uuid.display, List.all_append, List.all_cons, hbytes, hdash, Bool.and_true]

/-- What `to_str` returns can be sent back. -/
theorem all_toStr {value text : Str} (h : toStr value = some text) :
    text.all isHeaderChar = true := by
  obtain ⟨hvisible, heq⟩ := Option.ite_none_right_eq_some.mp h
  cases heq
  rw [List.all_eq_true] at hvisible ⊢
  exact fun c hc => isHeaderChar_of_isVisibleAscii (hvisible c hc)

/-! ## Responses of backends -/

section Replies

variable {Q : BackendResponse → Prop}

/-- A response, if there is one, is of a kind. -/
def GivesResult {ε : Type} (Q : BackendResponse → Prop) (result : Except ε BackendResponse) :
    Prop :=
  ∀ r, result = .ok r → Q r

/-- The backend replies with this response. -/
def MessageReply.Gives (reply : MessageReply) (r : BackendResponse) : Prop :=
  ∃ t, reply = some (t, .ok r)

/-- A backend replies with this response during an execution. -/
def MessageExecution.Gives (script : MessageExecution) (r : BackendResponse) : Prop :=
  script.forward.http2.Gives r ∨ script.forward.http1.Gives r ∨
    ∃ n, (script.retry n).reply.Gives r

theorem givesResult_error {ε : Type} (e : ε) : GivesResult Q (.error e) := by
  intro r h
  cases h

theorem GivesResult.mapError {ε ε' : Type} {result : Except ε BackendResponse}
    (h : GivesResult Q result) (f : ε → ε') : GivesResult Q (result.mapError f) := by
  cases result with
  | error e => exact givesResult_error _
  | ok r =>
    intro r' hr'
    cases hr'
    exact h r rfl

theorem MessageReply.returns {reply : MessageReply} (h : ∀ r, reply.Gives r → Q r)
    (l : MessageEvent) : ((Run.wait reply).during l).Returns (GivesResult Q) := by
  intro t result hfinish r hr
  exact h r ⟨t, hr ▸ hfinish⟩

namespace Forwarding

variable {f : Forwarding} {cached : Option Bool} {q fallback : BackendRequest}

theorem returns_sendHttp1 (h : ∀ r, f.script.http1.Gives r → Q r) :
    (f.sendHttp1 q).Returns (GivesResult Q) :=
  (MessageReply.returns h _).bind fun _ hreply => Run.returns_pure.mpr (hreply.mapError _)

theorem returns_backendRequest (h2 : ∀ r, f.script.http2.Gives r → Q r)
    (h1 : ∀ r, f.script.http1.Gives r → Q r) :
    (f.backendRequest cached q fallback).Returns (GivesResult Q) := by
  unfold backendRequest
  split
  · exact returns_sendHttp1 h1
  refine Run.returns_bind fun connection => ?_
  cases connection with
  | error e => exact Run.returns_pure.mpr (givesResult_error _)
  | ok _ =>
    refine (MessageReply.returns h2 _).bind fun reply hreply => ?_
    cases reply with
    | ok response =>
      exact Run.returns_bind fun _ => Run.returns_pure.mpr hreply
    | error e =>
      cases cached with
      | none =>
        exact Run.returns_bind fun _ => returns_sendHttp1 h1
      | some _ => exact Run.returns_pure.mpr (givesResult_error _)

theorem returns_attempt (h2 : ∀ r, f.script.http2.Gives r → Q r)
    (h1 : ∀ r, f.script.http1.Gives r → Q r) :
    (f.attempt cached q fallback).Returns (GivesResult Q) := by
  have hfuture : ((f.backendRequest cached q fallback).during .attempt).Returns (GivesResult Q) :=
    returns_backendRequest h2 h1
  unfold attempt
  cases f.timeout.bind (·.backendRequest) with
  | none => exact hfuture.bind fun _ hreply => Run.returns_pure.mpr (hreply.mapError _)
  | some d =>
    refine hfuture.timeout.bind fun reply hreply => ?_
    cases reply with
    | none => exact Run.returns_pure.mpr (givesResult_error _)
    | some reply => exact Run.returns_pure.mpr ((hreply reply rfl).mapError _)

/-- What is returned is a reply without its hop-by-hop headers. -/
theorem givesResult_forwardToBackend (h2 : ∀ r, f.script.http2.Gives r → Q r.filterHopByHop)
    (h1 : ∀ r, f.script.http1.Gives r → Q r.filterHopByHop) (cache : ProtocolCache)
    (backend : Backend) : (f.forwardToBackend cache backend).Returns (GivesResult Q) := by
  refine Run.returns_bind fun body => ?_
  cases body with
  | error e => exact Run.returns_pure.mpr (givesResult_error _)
  | ok body =>
    cases f.script.build with
    | error e => exact Run.returns_pure.mpr (givesResult_error _)
    | ok _ =>
      refine (returns_attempt h2 h1).bind fun result hresult => Run.returns_pure.mpr ?_
      cases result with
      | error e => exact givesResult_error _
      | ok response =>
        intro r hr
        cases hr
        exact hresult response rfl

end Forwarding

namespace ClientMessage

variable {c : ClientMessage} {route : RouteMatch} {cache : ProtocolCache} {cfg : RetryConfig}

theorem returns_retryLoop {script : Nat → MessageRetry}
    (h : ∀ n r, (script n).reply.Gives r → Q r) (q : BackendRequest) (left attempt : Nat)
    {last : Except ProxyError BackendResponse} (hlast : GivesResult Q last) :
    (retryLoop cfg q script left attempt last).Returns (GivesResult Q) := by
  induction left generalizing attempt last with
  | zero => exact Run.returns_pure.mpr hlast
  | succ left ih =>
    refine Run.returns_bind fun _ => ?_
    cases (script attempt).build with
    | error e => exact Run.returns_pure.mpr (givesResult_error _)
    | ok _ =>
      have hsend : (retrySend q (script attempt).reply).Returns (GivesResult Q) :=
        Run.Returns.bind (MessageReply.returns (h attempt) (.retrySend q)) fun _ hreply =>
          Run.returns_pure.mpr (hreply.mapError _)
      refine hsend.bind fun result hresult => ?_
      split
      · exact ih _ hresult
      · exact Run.returns_pure.mpr hresult

/-- **A result is a reply of a backend**, with its hop-by-hop headers or without, however often the
request is sent. -/
theorem returns_executeRequestWithRetry {script : MessageExecution}
    (h : ∀ r, script.Gives r → Q r ∧ Q r.filterHopByHop) :
    (c.executeRequestWithRetry route cache script).Returns (GivesResult Q) := by
  have hfirst : (c.firstAttempt route cache script.forward).Returns (GivesResult Q) :=
    returns_withOverallTimeout (Forwarding.givesResult_forwardToBackend
      (fun r hr => (h r (Or.inl hr)).2) (fun r hr => (h r (Or.inr (Or.inl hr))).2) _ _)
      (fun _ => givesResult_error _) _
  rw [executeRequestWithRetry_eq]
  cases c.forget.retryConfig route with
  | none => exact hfirst
  | some cfg =>
    refine hfirst.bind fun first hgives => ?_
    split
    · exact Run.returns_pure.mpr hgives
    · exact returns_retryLoop (fun n r hr => (h r (Or.inr (Or.inr ⟨n, hr⟩))).1) _ _ _ hgives

end ClientMessage

end Replies

/-- **What comes of relaying a request.** -/
theorem relay_cases (req : IncomingRequest) (backend : Backend) (marked : Bool)
    (script : RelayScript) :
    (relay req backend marked script).Returns fun result =>
      (result = .bodyReadFailure ∧ ∃ t e, script.body = some (t, .error e)) ∨
      ((∃ t, script.body = some (t, .ok ())) ∧ (∃ e, script.build = .error e) ∧
        result = .panicked) ∨
      (script.build = .ok () ∧ (result = .connectFailure ∨ result = .handshakeFailure ∨
        ∃ t reply, script.send = some (t, reply) ∧ result = .ofReply reply)) := by
  have hbody : (Run.wait script.body : Run MessageEvent _).Returns
      fun body => ∃ t, script.body = some (t, body) := fun t _ hfinish => ⟨t, hfinish⟩
  have hsend : ∀ l : MessageEvent, ((Run.wait script.send).during l).Returns fun reply =>
      ∃ t reply', script.send = some (t, reply') ∧ RelayResult.ofReply reply = .ofReply reply' :=
    fun _ t reply hfinish => ⟨t, reply, hfinish, rfl⟩
  refine hbody.bind ?_
  rintro body ⟨t, hread⟩
  cases body with
  | error e => exact Run.returns_pure.mpr (Or.inl ⟨rfl, t, e, hread⟩)
  | ok _ =>
    dsimp only
    cases hbuild : script.build with
    | error e => exact Run.returns_pure.mpr (Or.inr (Or.inl ⟨⟨t, hread⟩, ⟨e, rfl⟩, rfl⟩))
    | ok _ =>
      dsimp only
      split
      · refine Run.returns_bind fun connected => ?_
        cases connected with
        | error e => exact Run.returns_pure.mpr (Or.inr (Or.inr ⟨rfl, Or.inl rfl⟩))
        | ok _ =>
          refine Run.returns_bind fun shaken => ?_
          cases shaken with
          | error e => exact Run.returns_pure.mpr (Or.inr (Or.inr ⟨rfl, Or.inr (Or.inl rfl)⟩))
          | ok _ =>
            exact (hsend _).bind fun _ hreply =>
              Run.returns_pure.mpr (Or.inr (Or.inr ⟨rfl, Or.inr (Or.inr hreply)⟩))
      · exact (hsend _).bind fun _ hreply =>
          Run.returns_pure.mpr (Or.inr (Or.inr ⟨rfl, Or.inr (Or.inr hreply)⟩))

/-- When relaying panics: the body has been read, and the request to the backend is refused. -/
theorem Relay.result_eq_panicked_iff {req : IncomingRequest} {backend : Backend}
    (relayed : Relay req backend) :
    relayed.result = .panicked ↔ (∃ t, relayed.script.body = some (t, .ok ())) ∧
      ∃ e, relayed.script.build = .error e := by
  rcases relay_cases req backend relayed.marked relayed.script _ _ relayed.finish with
    ⟨hresult, t, e, hbody⟩ | ⟨hbody, hbuild, hresult⟩ | ⟨hbuild, hresult⟩
  · rw [hresult, hbody]
    simp
  · exact ⟨fun _ => ⟨hbody, hbuild⟩, fun _ => hresult⟩
  · refine ⟨fun hpanicked => ?_, fun h => ?_⟩
    · rw [hpanicked] at hresult
      rcases hresult with h | h | ⟨t, reply, -, h⟩
      · cases h
      · cases h
      · cases reply <;> cases h
    · obtain ⟨-, e, he⟩ := h
      rw [he] at hbuild
      cases hbuild

theorem Relay.gives_of_response {req : IncomingRequest} {backend : Backend}
    {relayed : Relay req backend} {response : BackendResponse}
    (hresult : relayed.result = .response response) : relayed.script.send.Gives response := by
  rcases relay_cases req backend relayed.marked relayed.script _ _ relayed.finish with
    ⟨heq, -⟩ | ⟨-, -, heq⟩ | ⟨-, heq | heq | ⟨t, reply, hsend, heq⟩⟩
  all_goals rw [hresult] at heq
  · cases heq
  · cases heq
  · cases heq
  · cases heq
  · cases reply with
    | error e => cases heq
    | ok r =>
      cases heq
      exact ⟨t, hsend⟩

/-! ## The programs -/

/-- The operations of the route's response filters. The listener leaves them out. -/
def PlaneCall.responseOps : PlaneCall → List HeaderModifierOp
  | .executeRequest _ route => (route.responseFilters.map (·.operations)).getD []
  | _ => []

/-- The client gets the response of a backend: its status, and for every name that is not a
hop-by-hop one the values that the filters make of its values. -/
structure ClientResponse.PassesOn (r : ClientResponse) (response : BackendResponse)
    (ops : List HeaderModifierOp) : Prop where
  status : r.status = response.status
  headers : ∀ name, isHopByHopHeader name = false →
    r.headers.getAll name = ops.foldl (HeaderModifierOp.edit name) (response.headers.getAll name)

/-- A backend has replied with the response during the call. -/
def GivenIn (response : BackendResponse) (e : Event plane) : Prop :=
  match e with
  | ⟨.executeRequest _ _, execution⟩ => execution.script.Gives response
  | ⟨.relay _ _, relayed⟩ => relayed.script.send.Gives response
  | _ => False

/-- The call forwards the request. -/
def forwards (call : PlaneCall) : Bool :=
  match call with
  | .executeRequest _ _ | .relay _ _ => true
  | _ => false

/-- The handler panics in the call. -/
def panics (e : Event plane) : Bool :=
  match e with
  | ⟨.relay _ _, relayed⟩ => relayed.result.exit.isNone
  | _ => false

/-- The calls in which the request was forwarded. -/
def noteForwarded (noted : List (Event plane)) (e : Event plane) : List (Event plane) :=
  if forwards e.call then noted ++ [e] else noted

/-- What the calls in which the request was forwarded say of the response: it is missing if the
handler has panicked in one, and only then; and what is not the proxy's own is a reply. -/
structure Explains (noted : List (Event plane)) (response : Option ClientResponse) : Prop where
  missing : response = none ↔ ∃ e ∈ noted, panics e = true
  passedOn : ∀ r, response = some r → r.body = .stream →
    ∃ e ∈ noted, ∃ reply, GivenIn reply e ∧ r.PassesOn reply e.call.responseOps

theorem foldl_noteForwarded (noted es : List (Event plane)) :
    es.foldl noteForwarded noted = noted ++ es.filter fun e => forwards e.call := by
  induction es generalizing noted with
  | nil => simp
  | cons e es ih =>
    rw [List.foldl_cons, ih, noteForwarded]
    split
    · next h => simp [h]
    · next h => simp [h]

theorem noteForwarded_of_not {noted : List (Event plane)} {call : PlaneCall}
    {answer : plane.Answer call} (h : forwards call = false) :
    noteForwarded noted ⟨call, answer⟩ = noted :=
  if_neg (Bool.eq_false_iff.mp h)

/-- A client is answered if the handler has not panicked. -/
theorem missing_iff_of_calm {noted : List (Event plane)} (hnoted : ∀ e ∈ noted, panics e = false)
    (r : ClientResponse) : some r = none ↔ ∃ e ∈ noted, panics e = true := by
  refine iff_of_false (by simp) ?_
  rintro ⟨e, he, hpanics⟩
  rw [hnoted e he] at hpanics
  cases hpanics

/-- A response of the proxy itself. -/
theorem Own.explains {noted : List (Event plane)} {response : Option ClientResponse}
    (h : Own response) (hnoted : ∀ e ∈ noted, panics e = false) : Explains noted response := by
  obtain ⟨r, rfl, hbody⟩ := h
  refine ⟨missing_iff_of_calm hnoted r, ?_⟩
  rintro r' ⟨⟩ hstream
  exact absurd hstream hbody

/-- A response of a backend. -/
theorem explains_some {noted : List (Event plane)} {r : ClientResponse}
    (hnoted : ∀ e ∈ noted, panics e = false) {e : Event plane} (he : e ∈ noted)
    {reply : BackendResponse} (hgiven : GivenIn reply e)
    (hpasses : r.PassesOn reply e.call.responseOps) : Explains noted (some r) := by
  refine ⟨missing_iff_of_calm hnoted r, ?_⟩
  rintro r' ⟨⟩ -
  exact ⟨e, he, reply, hgiven, hpasses⟩

/-- The calls explain what the program answers. -/
abbrev Answers (noted : List (Event plane)) (p : Prog plane (Option ClientResponse)) : Prop :=
  p.Keeps noteForwarded (fun _ => True) (fun response noted => Explains noted response) noted

/-- A program that only makes other calls, and then answers. -/
theorem Answers.of_uses {noted : List (Event plane)} {p : Prog plane Unit}
    {response : Option ClientResponse} (hp : p.Uses fun call => forwards call = false)
    (h : Explains noted response) : Answers noted (p >>= fun _ => pure response) := by
  refine (hp.keeps trivial fun c answer hc => noteForwarded_of_not hc).bind ?_
  rintro _ _ - rfl
  exact ⟨trivial, h⟩

namespace RequestHandler

variable {H : HttpCrate}

/-- Nothing has been forwarded, and the response is the proxy's own. -/
theorem answers_own {response : Option ClientResponse} (h : Own response) :
    Answers [] (pure response) :=
  ⟨trivial, h.explains (by simp)⟩

theorem keeps_requestId (req : IncomingRequest) :
    (requestId req).Keeps noteForwarded (fun _ => True)
      (fun id noted => id.all isHeaderChar = true ∧ noted = []) [] := by
  unfold requestId
  split
  · next id hid =>
    obtain ⟨value, -, htext⟩ := Option.bind_eq_some_iff.mp hid
    exact ⟨trivial, all_toStr htext, rfl⟩
  · exact .skip trivial (fun _ => noteForwarded_of_not rfl) fun uuid =>
      ⟨trivial, all_display uuid, rfl⟩

theorem answers_forward (hH : H.Lawful) (req : IncomingRequest) (route : RouteMatch)
    (worker : Option Nat) {requestId : Str} (hid : requestId.all isHeaderChar = true) :
    Answers [] (forward H req route worker requestId) := by
  refine .ask trivial fun (execution : Execution ⟨req, worker.isSome⟩ route) => ?_
  have hother : (recordRequestMetrics execution.result req.method.toHttpMethod route
      worker).Uses fun call => forwards call = false :=
    uses_recordRequestMetrics (P := fun call => forwards call = false) (fun _ => rfl) rfl
      (fun _ => rfl) (fun _ => rfl) (fun _ => rfl) ..
  refine Answers.of_uses hother ?_
  show Explains [⟨.executeRequest ⟨req, worker.isSome⟩ route, execution⟩] _
  have hcalm : ∀ e ∈ [(⟨.executeRequest ⟨req, worker.isSome⟩ route, execution⟩ : Event plane)],
      panics e = false := by
    simp [panics]
  -- the result is a reply, but for hop-by-hop headers
  have hgives : GivesResult (fun r => ∃ reply, execution.script.Gives reply ∧
      r.status = reply.status ∧ ∀ name, isHopByHopHeader name = false →
        r.headers.getAll name = reply.headers.getAll name) execution.result := by
    refine ClientMessage.returns_executeRequestWithRetry ?_ _ _ execution.finish
    intro r hr
    refine ⟨⟨r, hr, rfl, fun _ _ => rfl⟩, r, hr, rfl, fun name hname => ?_⟩
    rw [BackendResponse.filterHopByHop, HeaderMap.getAll_filter]
    simp [hname]
  unfold finalizeResponse
  cases hresult : execution.result with
  | error e => exact (own_errorToResponse hH hid e).explains hcalm
  | ok response =>
    obtain ⟨reply, hreply, hstatus, hheaders⟩ := hgives response hresult
    cases hfilters : route.responseFilters with
    | none =>
      refine explains_some hcalm List.mem_cons_self hreply ⟨hstatus, fun name hname => ?_⟩
      rw [PlaneCall.responseOps, hfilters]
      exact hheaders name hname
    | some filters =>
      dsimp only
      split
      · exact (own_buildErrorResponse hH _ _).explains hcalm
      · next headers hok =>
        refine explains_some hcalm List.mem_cons_self hreply ⟨hstatus, fun name hname => ?_⟩
        have happlied := getAll_foldl_edit hH (congrArg Prod.fst hok) name
        rw [hok, hheaders name hname] at happlied
        rw [PlaneCall.responseOps, hfilters]
        exact happlied

theorem answers_serveRoute (hH : H.Lawful) (req : IncomingRequest) (route : RouteMatch)
    {requestId : Str} (hid : requestId.all isHeaderChar = true) :
    Answers [] (serveRoute H req route requestId) := by
  refine .skip trivial (fun _ => noteForwarded_of_not rfl) fun worker => ?_
  cases route.redirect with
  | some redirect => exact answers_own (own_redirectResponse hH req redirect)
  | none =>
    refine .skip trivial (fun _ => noteForwarded_of_not rfl) fun allowed => ?_
    split
    · exact answers_own (own_buildRetryAfterResponse hH rfl _ _)
    cases req.applyRequestFilters H route.requestFilters with
    | error e => exact answers_own (own_buildErrorResponse hH _ _)
    | ok req' =>
      refine .skip trivial (fun _ => noteForwarded_of_not rfl) fun allowed => ?_
      split
      · exact answers_own (own_buildRetryAfterResponse hH rfl _ _)
      · exact answers_forward hH req' route worker hid

/-- **`handle_request` always answers.** -/
theorem answers_handleRequest (hH : H.Lawful) (req : IncomingRequest) :
    Answers [] (handleRequest H req) := by
  refine (keeps_requestId req).bind ?_
  rintro requestId _ - ⟨hid, rfl⟩
  split
  · refine .skip trivial (fun _ => noteForwarded_of_not rfl) fun metrics => ?_
    split
    · exact answers_own (own_buildErrorResponse hH _ _)
    · exact answers_own (own_buildResponse hH
        (List.forall_mem_singleton.mpr (sendable_mk (by decide) (by decide))) _ _)
  split
  · exact answers_own (own_buildErrorResponse hH _ _)
  split
  · refine .skip trivial (fun _ => noteForwarded_of_not rfl) fun uptime => ?_
    refine .skip trivial (fun _ => noteForwarded_of_not rfl) fun routes => ?_
    exact answers_own (own_buildResponse hH
      (List.forall_mem_singleton.mpr (sendable_mk (by decide) (by decide))) _ _)
  refine .skip trivial (fun _ => noteForwarded_of_not rfl) fun routeMatch => ?_
  split
  · exact answers_serveRoute hH req _ hid
  · exact .skip trivial (fun _ => noteForwarded_of_not rfl) fun _ =>
      answers_own (own_buildNotFoundResponse hH hid)

end RequestHandler

namespace ListenerManager

variable {H : HttpCrate}

/-- Without headers, there is nothing to refuse. -/
theorem own_plainResponse (status : Nat) (body : Str) : Own (plainResponse H status body) :=
  ⟨⟨status, .empty, .text body⟩, rfl, by simp⟩

theorem answers_forward (H : HttpCrate) (req : IncomingRequest) (backend : Backend) :
    Answers [] (forward H req backend) := by
  refine .ask trivial fun (relayed : Relay req backend) => ?_
  show Answers [⟨.relay req backend, relayed⟩] _
  have hcalm : relayed.result.exit.isNone = false →
      ∀ e ∈ [(⟨.relay req backend, relayed⟩ : Event plane)], panics e = false := by
    intro hexit e he
    rw [List.mem_singleton.mp he]
    exact hexit
  have hpassed : ∀ response, relayed.result = .response response →
      Explains [⟨.relay req backend, relayed⟩] (some response.passedOn) := by
    intro response hresult
    have hgiven : GivenIn response ⟨.relay req backend, relayed⟩ := Relay.gives_of_response hresult
    have hexit : relayed.result.exit.isNone = false := by
      rw [hresult]
      rfl
    exact explains_some (hcalm hexit) List.mem_cons_self hgiven ⟨rfl, fun _ _ => rfl⟩
  have hpanicked : relayed.result = .panicked → Explains [⟨.relay req backend, relayed⟩] none := by
    intro hresult
    refine ⟨iff_of_true rfl ⟨_, List.mem_cons_self, ?_⟩, by simp⟩
    show relayed.result.exit.isNone = true
    rw [hresult]
    rfl
  dsimp only
  generalize relayed.result = result at *
  cases result with
  | bodyReadFailure => exact ⟨trivial, (own_plainResponse _ _).explains (hcalm rfl)⟩
  | panicked => exact ⟨trivial, hpanicked rfl⟩
  | connectFailure | handshakeFailure | sendFailure =>
    exact Answers.of_uses ⟨rfl, fun _ => trivial⟩ ((own_plainResponse _ _).explains (hcalm rfl))
  | response response =>
    dsimp only
    split
    · exact Answers.of_uses ⟨rfl, fun _ => trivial⟩ (hpassed response rfl)
    · exact Answers.of_uses ⟨rfl, fun _ => trivial⟩ (hpassed response rfl)

theorem answers_handleRequest (H : HttpCrate) (req : IncomingRequest)
    (peerAddr : Option (IpAddr × UInt16)) : Answers [] (handleRequest H req peerAddr) := by
  have hown : ∀ status body, Answers [] (pure (plainResponse H status body)) :=
    fun status body => ⟨trivial, (own_plainResponse status body).explains (by simp)⟩
  unfold handleRequest
  split
  · exact hown _ _
  split
  · exact hown _ _
  refine .skip trivial (fun _ => noteForwarded_of_not rfl) fun routeMatch => ?_
  split
  · exact hown _ _
  refine .skip trivial (fun _ => noteForwarded_of_not rfl) fun allowed => ?_
  split
  · exact hown _ _
  refine .skip trivial (fun _ => noteForwarded_of_not rfl) fun allowed => ?_
  split
  · exact hown _ _
  · exact answers_forward H req _

end ListenerManager

/-! ## Who is answered, and what -/

section Answered

variable {H : HttpCrate} {arrival : Arrival} {es : List (Event plane)}

theorem Arrival.answers (hH : H.Lawful) (arrival : Arrival) : Answers [] (arrival.program H) := by
  cases arrival with
  | proxyServer req => exact RequestHandler.answers_handleRequest hH req
  | listener req peerAddr => exact ListenerManager.answers_handleRequest H req peerAddr

theorem Arrival.explains_of_run (hH : H.Lawful) {response : Option ClientResponse}
    (hrun : (arrival.program H).Run es (.done response)) :
    Explains (es.filter fun e => forwards e.call) response := by
  have hexplains := ((arrival.answers hH).run hrun).2
  rwa [foldl_noteForwarded, List.nil_append] at hexplains

theorem panics_iff {e : Event plane} : panics e = true ↔
    ∃ req backend, ∃ relayed : Relay req backend, e = ⟨.relay req backend, relayed⟩ ∧
      (∃ t, relayed.script.body = some (t, .ok ())) ∧ ∃ e, relayed.script.build = .error e := by
  constructor
  · intro h
    obtain ⟨call, answer⟩ := e
    cases call with
    | relay req backend =>
      have hpanicked : Relay.result answer = .panicked := by
        change (Relay.result answer).exit.isNone = true at h
        generalize Relay.result answer = result at h
        cases result with
        | panicked => rfl
        | _ => cases h
      exact ⟨req, backend, answer, rfl, (Relay.result_eq_panicked_iff answer).mp hpanicked⟩
    | _ => cases h
  · rintro ⟨req, backend, relayed, rfl, h⟩
    have hpanicked := relayed.result_eq_panicked_iff.mpr h
    show relayed.result.exit.isNone = true
    rw [hpanicked]
    rfl

/-- **Who gets no answer**: clients of the listener whose body has been read and whose request,
with the backend in front of its target, is refused by `http`. `ProxyServer` answers every request
that it does not give up. -/
theorem unanswered_iff (hH : H.Lawful) {response : Option ClientResponse}
    (hrun : (arrival.program H).Run es (.done response)) :
    response = none ↔ ∃ peerAddr backend, ∃ relayed : Relay arrival.request backend,
      arrival = .listener arrival.request peerAddr ∧
      ⟨.relay arrival.request backend, relayed⟩ ∈ es ∧
      (∃ t, relayed.script.body = some (t, .ok ())) ∧ ∃ e, relayed.script.build = .error e := by
  rw [(arrival.explains_of_run hH hrun).missing]
  constructor
  · rintro ⟨e, he, hpanics⟩
    obtain ⟨req, backend, relayed, rfl, hpanicked⟩ := panics_iff.mp hpanics
    have he := (List.mem_filter.mp he).1
    obtain ⟨before, next, hcall⟩ := hrun.exists_call he
    have hmakes : arrival.Makes H (.relay req backend) := ((arrival.uses_program H).run hcall).1
    cases arrival with
    | proxyServer req' => exact hmakes.elim
    | listener req' peerAddr =>
      obtain rfl : req = req' := hmakes
      exact ⟨peerAddr, backend, relayed, rfl, he, hpanicked⟩
  · rintro ⟨peerAddr, backend, relayed, -, he, hpanicked⟩
    exact ⟨_, List.mem_filter.mpr ⟨he, rfl⟩, panics_iff.mpr ⟨_, _, relayed, rfl, hpanicked⟩⟩

end Answered

/-- `POST` for a path that begins with a method, as HTTP/2 allows. -/
def postOddly : IncomingRequest where
  method := .post
  uri := .absolute ⟨"http".toList, List.all_eq_true.mp rfl⟩ ⟨exampleHost.host, none⟩
    ⟨"GET:/x".toList, none, PathAndQuery.legal_of_all rfl⟩
  headers := .empty
  body := []

/-- With `http://10.0.0.1:8080` in front of it that is not a URI, and the client gets no answer. -/
theorem unanswered_iff_oddPath : ∃ es response, ∃ relayed : Relay postOddly .sample,
    ((Arrival.listener postOddly none).program .strict).Run es (.done response) ∧
    ⟨.relay postOddly .sample, relayed⟩ ∈ es ∧
    relayed.script.build = .error "invalid authority".toList ∧ response = none := by
  let route : RouteMatch := ClientRequest.plainMatch none none
  let relayed : Relay postOddly .sample :=
    ⟨false, ⟨some (0, .ok ()), .error "invalid authority".toList, none, none, none⟩, 0, .panicked,
      rfl⟩
  let es : List (Event plane) :=
    [⟨.selectBackendWithHeaders .post "GET:/x".toList [("host".toList, "example.com".toList)] none
        none, some route⟩, ⟨.checkRateLimit route.pattern, true⟩,
      ⟨.allowRequest route.backend.listenerId, true⟩, ⟨.relay postOddly .sample, relayed⟩]
  have hrun : ∃ response, ((Arrival.listener postOddly none).program .strict).Run es
      (.done response) := ⟨_, .cons (.cons (.cons (.cons (.nil _))))⟩
  obtain ⟨response, hrun⟩ := hrun
  have hmem : ⟨.relay postOddly .sample, relayed⟩ ∈ es := by simp [es]
  exact ⟨es, response, relayed, hrun, hmem, rfl, (unanswered_iff HttpCrate.strict_lawful hrun).mpr
    ⟨none, .sample, relayed, rfl, hmem, ⟨0, rfl⟩, _, rfl⟩⟩

/-- A reply with a hop-by-hop header and another one. -/
def namedReply : BackendResponse :=
  ⟨200, ⟨[("connection".toList, "close".toList), ("server".toList, "b".toList)], by decide⟩⟩

/-- A route that sets a header of the response. -/
def responseMatch : RouteMatch :=
  { ClientRequest.plainMatch none none with
    responseFilters := some ⟨[.set "X-Env".toList "a".toList]⟩ }

/-- The path `/aa…a`. -/
def longPath (n : Nat) : PathAndQuery where
  rawPath := '/' :: List.replicate n 'a'
  query := none
  legal := by
    rintro c (_ | ⟨_, hc⟩)
    · decide
    · rw [List.eq_of_mem_replicate hc]
      decide

theorem length_asStr_longPath (n : Nat) : (longPath n).asStr.length = n + 1 := by
  simp [longPath, PathAndQuery.asStr]

/-- `GET` with a path of 65530 characters: that is not too many, but with a backend in front it
is. -/
def getLong : IncomingRequest := { getApi with uri := .origin (longPath 65529) }

/-- The URI of the client, with the backend in front, is longer than the limit. -/
def IncomingRequest.Overlong (req : IncomingRequest) (backend : Backend) (limit : Nat) : Prop :=
  ∃ target, req.uri.pathAndQuery = some target ∧
    limit < ("http://".toList ++ backend.display ++ target.asStr).length

/-- A request is not built if its URI is longer than the limit. -/
structure MessageExecution.Builds (script : MessageExecution) (req : IncomingRequest)
    (backend : Backend) (limit : Nat) : Prop where
  forward : script.forward.build = .ok () →
    (req.backendReq backend req.bodyBytes).uri.length ≤ limit
  retry : ∀ n, (script.retry n).build = .ok () → (req.retryReq backend).uri.length ≤ limit

theorem IncomingRequest.Overlong.lt_length {req : IncomingRequest} {backend : Backend}
    {limit : Nat} (h : req.Overlong backend limit) :
    limit < (req.backendReq backend req.bodyBytes).uri.length ∧
      limit < (req.retryReq backend).uri.length := by
  obtain ⟨target, htarget, hlong⟩ := h
  have huri : ∀ last, limit < ("http://".toList ++ backend.display ++
      (req.uri.pathAndQuery.map (·.asStr)).getD last).length := by
    intro last
    rw [htarget, Option.map_some, Option.getD_some]
    exact hlong
  exact ⟨huri _, huri _⟩

/-- An error that `record_request_metrics` reports. -/
def Reported (result : Except ProxyError BackendResponse) : Prop :=
  (Outcome.requestHandler (forgetResult result)).report = some .recordFailure

namespace ClientMessage

variable {c : ClientMessage} {route : RouteMatch} {cache : ProtocolCache}

/-- A body that is not too large is read, or the error is one of reading it. -/
theorem returns_readBody (hsize : ¬ c.request.Oversized) (script : MessageScript) :
    (c.forwarding route script).readBody.Returns
      fun body => ∀ e, body = .error e → ∃ message, e = .read message := by
  intro t body hfinish e he
  subst he
  unfold Forwarding.readBody at hfinish
  split at hfinish
  · cases hfinish
  · next hbodiless =>
    obtain ⟨r, -, heq⟩ := Option.map_eq_some_iff.mp hfinish
    have houtcome : (c.forwarding route script).bodyOutcome r.2 = .error e :=
      congrArg Prod.snd heq
    unfold Forwarding.bodyOutcome at houtcome
    split at houtcome
    · cases houtcome
      exact ⟨_, rfl⟩
    · split at houtcome
      · next hlong => exact absurd ⟨Bool.not_eq_true _ ▸ hbodiless, hlong⟩ hsize
      · cases houtcome

theorem returns_firstAttempt_unbuilt {script : MessageScript} (hsize : ¬ c.request.Oversized)
    (hbuild : script.build ≠ .ok ()) : (c.firstAttempt route cache script).Returns Reported := by
  refine returns_withOverallTimeout ?_ (fun _ => rfl) _
  refine (returns_readBody hsize script).bind fun body hread => ?_
  cases body with
  | error e =>
    obtain ⟨message, rfl⟩ := hread e rfl
    exact Run.returns_pure.mpr rfl
  | ok body =>
    have hscript : (c.forwarding route script).script.build = script.build := rfl
    dsimp only
    rw [hscript]
    cases hresult : script.build with
    | error e => exact Run.returns_pure.mpr rfl
    | ok _ => exact absurd hresult hbuild

/-- The loop ends with the first retry that cannot be built. -/
theorem returns_retryLoop_unbuilt {script : Nat → MessageRetry}
    (hbuild : ∀ n, (script n).build ≠ .ok ()) (cfg : RetryConfig) (q : BackendRequest)
    (left attempt : Nat) {last : Except ProxyError BackendResponse} (hlast : Reported last) :
    (retryLoop cfg q script left attempt last).Returns Reported := by
  cases left with
  | zero => exact Run.returns_pure.mpr hlast
  | succ left =>
    refine Run.returns_bind fun _ => ?_
    cases hresult : (script attempt).build with
    | error e => exact Run.returns_pure.mpr rfl
    | ok _ => exact absurd hresult (hbuild attempt)

/-- **A request that cannot be built is an error.** -/
theorem returns_unbuilt {script : MessageExecution} (hsize : ¬ c.request.Oversized)
    (hforward : script.forward.build ≠ .ok ()) (hretry : ∀ n, (script.retry n).build ≠ .ok ()) :
    (c.executeRequestWithRetry route cache script).Returns Reported := by
  have hfirst : (c.firstAttempt route cache script.forward).Returns Reported :=
    returns_firstAttempt_unbuilt hsize hforward
  rw [executeRequestWithRetry_eq]
  cases c.forget.retryConfig route with
  | none => exact hfirst
  | some cfg =>
    refine hfirst.bind fun first hreported => ?_
    split
    · exact Run.returns_pure.mpr hreported
    · exact returns_retryLoop_unbuilt hretry _ _ _ _ hreported

end ClientMessage

namespace Conduct

/-- The event is a report to the breaker. -/
def IsReport (id : Str) (op : BreakerOp) (e : Event plane) : Prop :=
  match e with
  | ⟨.recordSuccess id', _⟩ => id' = id ∧ op = .recordSuccess
  | ⟨.recordFailure id', _⟩ => id' = id ∧ op = .recordFailure
  | _ => False

theorem receive_eq_returned {c : Conduct} {id : Str} {outcome : Outcome}
    (h : c.receive id (some outcome) ≠ .astray) :
    c.receive id (some outcome) = .returned id outcome := by
  obtain ⟨admittedBy, rfl⟩ := admitted_of_receive h
  by_cases hid : id = admittedBy
  · exact if_pos hid
  · exact absurd (if_neg hid) h

theorem foldl_watch_astray (es : List (Event plane)) : es.foldl watch .astray = .astray := by
  induction es with
  | nil => rfl
  | cons e es ih => rw [List.foldl_cons, watch_astray, ih]

/-- What is due has been reported in the end. -/
theorem exists_isReport {id : Str} {outcome : Outcome} {op : BreakerOp} {es : List (Event plane)}
    (hop : outcome.report = some op) (h : (es.foldl watch (.returned id outcome)).Settled) :
    ∃ e ∈ es, IsReport id op e := by
  have hastray : ∀ {es : List (Event plane)}, ¬ (es.foldl watch .astray).Settled := by
    intro es h
    rw [foldl_watch_astray] at h
    exact h
  have hreport : ∀ {id' : Str} {op' : BreakerOp} {es : List (Event plane)},
      (es.foldl watch ((returned id outcome).report id' op')).Settled → id' = id ∧ op = op' := by
    intro id' op' es h
    by_cases hdue : id' = id ∧ outcome.report = some op'
    · exact ⟨hdue.1, Option.some.inj (hop.symm.trans hdue.2)⟩
    · have hgone : (returned id outcome).report id' op' = .astray := if_neg hdue
      rw [hgone] at h
      exact absurd h hastray
  induction es with
  | nil =>
    have hnone : outcome.report = none := h
    rw [hop] at hnone
    cases hnone
  | cons e es ih =>
    obtain ⟨call, answer⟩ := e
    cases call with
    | recordSuccess id' => exact ⟨_, .head _, hreport h⟩
    | recordFailure id' => exact ⟨_, .head _, hreport h⟩
    | allowRequest _ | executeRequest _ _ | relay _ _ => exact absurd h hastray
    | _ =>
      obtain ⟨e, he, hreport⟩ := ih h
      exact ⟨e, .tail _ he, hreport⟩

end Conduct

/-- **The backend is blamed for a URI that is too long**: whatever it does, a request that it has
been picked for counts as its failure. -/
theorem recordFailure_of_overlong {H : HttpCrate} (hH : H.Lawful) {req : IncomingRequest}
    {es : List (Event plane)} {response : Option ClientResponse} {message : ClientMessage}
    {route : RouteMatch} {execution : Execution message route} {limit : Nat}
    (hrun : ((Arrival.proxyServer req).program H).Run es (.done response))
    (he : ⟨.executeRequest message route, execution⟩ ∈ es)
    (hbuilds : execution.script.Builds message.request route.backend limit)
    (hlong : req.Overlong route.backend limit) (hsize : ¬ req.Oversized) :
    ⟨.recordFailure route.backend.display, ()⟩ ∈ es := by
  obtain ⟨before, next, hcall⟩ := hrun.exists_call he
  have hmakes : req.applyRequestFilters H route.requestFilters = .ok message.request :=
    (((Arrival.proxyServer req).uses_program H).run hcall).1
  have hrequest := (IncomingRequest.applyRequestFilters_eq_ok hH hmakes).1
  have hreported : Reported execution.result := by
    have hunfit : message.request.Overlong route.backend limit := by
      rw [hrequest]
      exact hlong
    obtain ⟨hforward, hretry⟩ := hunfit.lt_length
    refine ClientMessage.returns_unbuilt ?_
      (fun h => Nat.not_lt_of_le (hbuilds.forward h) hforward)
      (fun n h => Nat.not_lt_of_le (hbuilds.retry n h) hretry) _ _ execution.finish
    rw [hrequest]
    exact hsize
  -- the request is admitted when it is forwarded, and settled in the end
  have hsettled := (((Arrival.proxyServer req).proper H).run hrun).2
  obtain ⟨pre, post, rfl⟩ := List.append_of_mem he
  rw [List.foldl_append, List.foldl_cons] at hsettled
  have hreturned : (pre.foldl Conduct.watch .idle).watch
      ⟨.executeRequest message route, execution⟩ =
        .returned route.backend.display (.requestHandler (forgetResult execution.result)) := by
    refine Conduct.receive_eq_returned fun hastray => ?_
    have hgone : (pre.foldl Conduct.watch .idle).watch
        ⟨.executeRequest message route, execution⟩ = .astray := hastray
    rw [hgone, Conduct.foldl_watch_astray] at hsettled
    exact hsettled
  rw [hreturned] at hsettled
  obtain ⟨⟨call, answer⟩, hmem, hreport⟩ := Conduct.exists_isReport hreported hsettled
  cases call with
  | recordFailure id =>
    obtain rfl : id = route.backend.display := hreport.1
    exact List.mem_append_right _ (.tail _ hmem)
  | recordSuccess id => cases hreport.2
  | _ => exact hreport.elim

/-- The first backend gets a failure for a request that was never sent. -/
theorem recordFailure_of_overlong_getLong :
    getLong.Overlong .sample 65534 ∧ ∃ es response,
      ((Arrival.proxyServer getLong).program .strict).Run es (.done response) ∧
      ⟨.recordFailure Backend.sample.display, ()⟩ ∈ es := by
  have hlong : getLong.Overlong .sample 65534 := by
    have hfront : 4 < ("http://".toList ++ Backend.sample.display).length := by decide
    refine ⟨longPath 65529, rfl, ?_⟩
    rw [List.length_append, length_asStr_longPath]
    omega
  let route : RouteMatch := ClientRequest.plainMatch none none
  let message : ClientMessage := ⟨getLong, false⟩
  let error : ProxyError := .backendError ("Failed to build backend request: ".toList ++ [])
  let execution : Execution message route :=
    ⟨∅, ⟨ClientMessage.failing, fun _ => ⟨.error [], none⟩⟩, 0, .error error, rfl⟩
  have hbuilds : execution.script.Builds getLong .sample 65534 :=
    ⟨nofun, fun _ => nofun⟩
  let es : List (Event plane) :=
    [⟨.newUuid, ⟨Vector.replicate 16 0⟩⟩, ⟨.selectBackend .get getLong.uri.path, some route⟩,
      ⟨.selectWorker, none⟩, ⟨.checkRateLimit route.pattern, true⟩,
      ⟨.allowRequest route.backend.display, true⟩, ⟨.executeRequest message route, execution⟩,
      ⟨.countRequest ⟨"GET".toList, route.pattern, decimal error.statusCode, "none".toList⟩, ()⟩,
      ⟨.loadHealth, HealthData.new⟩,
      ⟨.storeHealth (HealthData.new.recordBackendResponse route.backend error.statusCode), ()⟩,
      ⟨.recordFailure route.backend.display, ()⟩]
  have hrun : ((Arrival.proxyServer getLong).program .strict).Run es (.done (errorToResponse .strict
      error (Uuid.display ⟨Vector.replicate 16 0⟩))) :=
    .cons (.cons (.cons (.cons (.cons (.cons (.cons (.cons (.cons (.cons (.nil _))))))))))
  have hmem : ⟨.executeRequest message route, execution⟩ ∈ es := by simp [es]
  refine ⟨hlong, es, _, hrun, recordFailure_of_overlong HttpCrate.strict_lawful hrun hmem
    hbuilds hlong ?_⟩
  rintro ⟨hbodiless, -⟩
  cases hbodiless

end Rauta
