import Rauta.Forwarder
import Rauta.Http
import Rauta.IpText
import Rauta.Lib.Erasure

/-!
# The messages of a forwarded request

`Forwarder` says when something is sent; here is what. `forward_to_backend` builds a request from
the incoming one: the body, unless the method is one of those whose body is not read, and the
headers, except `Host` and the hop-by-hop ones. For the HTTP/1.1 fallback it builds another one,
with the `Host` header only. From the response it removes the hop-by-hop headers.

The function is the one of `Forwarder`, with messages: forgetting them gives that run again
(`erases_forwardToBackend`). Which message a send carries is `labels_forwardToBackend`, and the two
theorems about the messages follow from it: when the length that a request announces is that of its
body, and when the fallback is the same request.
-/

namespace Rauta

open Async

/-! ## Messages -/

/-- `Display` for `Backend`. -/
def Backend.display (backend : Backend) : Str :=
  match backend.toSocketAddr with
  | .v4 a b c d port => displayIpv4Addr a b c d ++ ':' :: decimal port.toNat
  | .v6 octets port => '[' :: displayIpv6Addr octets ++ ']' :: ':' :: decimal port.toNat

/-- An incoming request. -/
structure IncomingRequest where
  method : HyperMethod
  uri : Uri
  headers : HeaderMap
  body : List UInt8

/-- A request to a backend. Its URI is given in the two parts it is formatted from. -/
structure BackendRequest where
  method : HyperMethod
  authority : Str
  pathAndQuery : Str
  headers : HeaderMap
  body : List UInt8

/-- The URI. -/
def BackendRequest.uri (q : BackendRequest) : Str :=
  "http://".toList ++ q.authority ++ q.pathAndQuery

/-- A response, without its body, which is streamed. -/
structure BackendResponse where
  status : Nat
  headers : HeaderMap

/-- What comes of a send, and when. -/
abbrev MessageReply := Option (Nat × Except Str BackendResponse)

namespace IncomingRequest

variable (r : IncomingRequest)

/-- The methods whose body is not read. -/
def bodiless : Bool := r.method = .get ∨ r.method = .head ∨ r.method = .delete

/-- The body that is sent on. -/
def bodyBytes : List UInt8 := if r.bodiless then [] else r.body

/-- The headers that `forward_to_backend` copies. -/
def isForwarded (name : Str) : Bool := name != "host".toList && !isHopByHopHeader name

/-- The request that `forward_to_backend` builds. -/
def backendReq (backend : Backend) (body : List UInt8) : BackendRequest where
  method := r.method
  authority := backend.display
  pathAndQuery := (r.uri.pathAndQuery.map (·.asStr)).getD "/".toList
  headers := (r.headers.filter isForwarded).withHost backend.display
  body := body

/-- The request for the HTTP/1.1 fallback: built from scratch, and without the headers. -/
def fallbackReq (backend : Backend) (body : List UInt8) : BackendRequest where
  method := r.method
  authority := backend.display
  pathAndQuery := (r.uri.pathAndQuery.map (·.asStr)).getD "/".toList
  headers := HeaderMap.empty.withHost backend.display
  body := body

/-- The body is too large to be read. -/
def Oversized : Prop := r.bodiless = false ∧ ForwardRequest.maxBodySize < r.body.length

end IncomingRequest

/-- The response without its hop-by-hop headers. -/
def BackendResponse.filterHopByHop (response : BackendResponse) : BackendResponse :=
  { response with headers := response.headers.filter fun name => !isHopByHopHeader name }

/-! ## The function -/

/-- What the runs are about: the events of `Forwarder` with their messages, and of the retry loop
its requests and its sleeps. -/
inductive MessageEvent where
  | attempt
  | http2Send (q : BackendRequest)
  | http2Answer
  | http1Send (q : BackendRequest)
  | cacheHttp1
  | retrySend (q : BackendRequest)
  | sleep

/-- The event without the message. -/
def MessageEvent.forget : MessageEvent → Option ForwardEvent
  | .attempt => some .attempt
  | .http2Send _ => some .http2Send
  | .http2Answer => some .http2Answer
  | .http1Send _ => some .http1Send
  | .cacheHttp1 => some .cacheHttp1
  | .retrySend _ => some .http1Send
  | .sleep => none

/-- What happens outside while a request is forwarded: of the body, when it has been read and
whether reading fails. -/
structure MessageScript where
  body : Option (Nat × Option Str)
  build : Except Str Unit
  connection : Option (Nat × Except PoolError Unit)
  http2 : MessageReply
  http1 : MessageReply

/-- A request to be forwarded, and the circumstances. -/
structure Forwarding where
  request : IncomingRequest
  viaWorker : Bool
  timeout : Option Timeout
  script : MessageScript

/-- A result without the message. -/
def forgetResult {ε : Type} (result : Except ε BackendResponse) : Except ε Nat :=
  result.map (·.status)

/-- A reply without the message. -/
def MessageReply.forget (reply : MessageReply) : Reply :=
  reply.map fun r => (r.1, forgetResult r.2)

namespace Forwarding

variable (f : Forwarding)

/-- What comes of reading the body. -/
def bodyOutcome (error : Option Str) : Except BodyError (List UInt8) :=
  match error with
  | some message => .error (.read message)
  | none =>
    if ForwardRequest.maxBodySize < f.request.body.length then .error .lengthLimit
    else .ok f.request.body

/-- The request of `Forwarder`. -/
def forget : ForwardRequest where
  method := f.request.method
  viaWorker := f.viaWorker
  timeout := f.timeout
  script :=
    { body := f.script.body.map fun r => (r.1, (f.bodyOutcome r.2).map fun _ => ())
      build := f.script.build
      connection := f.script.connection
      http2 := MessageReply.forget f.script.http2
      http1 := MessageReply.forget f.script.http1 }

/-- Reading the body. -/
def readBody : Run MessageEvent (Except BodyError (List UInt8)) :=
  if f.request.bodiless then pure (.ok [])
  else .wait (f.script.body.map fun r => (r.1, f.bodyOutcome r.2))

/-- The HTTP/1.1 send, by itself or as a fallback. -/
def sendHttp1 (q : BackendRequest) : Run MessageEvent (Except Str BackendResponse) := do
  let reply ← (Run.wait f.script.http1).during (.http1Send q)
  pure (reply.mapError fun e => "Backend connection failed: ".toList ++ e)

/-- What follows the HTTP/2 send. -/
def afterHttp2 (cached : Option Bool) (fallback : BackendRequest)
    (reply : Except Str BackendResponse) : Run MessageEvent (Except Str BackendResponse) :=
  match reply with
  | .ok response => do
    Run.note .http2Answer
    pure (.ok response)
  | .error e =>
    match cached with
    | none => do
      Run.note .cacheHttp1
      f.sendHttp1 fallback
    | some _ => pure (.error ("HTTP/2 backend connection failed: ".toList ++ e))

/-- The HTTP/2 send, over a connection of the pool. -/
def sendHttp2 (cached : Option Bool) (q fallback : BackendRequest) :
    Run MessageEvent (Except Str BackendResponse) := do
  match ← Run.wait f.script.connection with
  | .error e => pure (.error (f.forget.poolError e))
  | .ok () =>
    let reply ← (Run.wait f.script.http2).during (.http2Send q)
    f.afterHttp2 cached fallback reply

/-- `backend_request_future`. -/
def backendRequest (cached : Option Bool) (q fallback : BackendRequest) :
    Run MessageEvent (Except Str BackendResponse) :=
  if cached = some false then f.sendHttp1 q else f.sendHttp2 cached q fallback

/-- `backend_request_future` under the backend timeout, if there is one. -/
def attempt (cached : Option Bool) (q fallback : BackendRequest) :
    Run MessageEvent (Except ProxyError BackendResponse) :=
  let future := (f.backendRequest cached q fallback).during .attempt
  match f.timeout.bind (·.backendRequest) with
  | some d => do
    match ← future.timeout d with
    | some reply => pure (reply.mapError .backendError)
    | none => pure (.error (ForwardRequest.backendTimeout d))
  | none => do
    let reply ← future
    pure (reply.mapError .backendError)

/-- `forward_to_backend`. -/
def forwardToBackend (cache : ProtocolCache) (backend : Backend) :
    Run MessageEvent (Except ProxyError BackendResponse) := do
  match ← f.readBody with
  | .error e => pure (.error (ForwardRequest.bodyError e))
  | .ok body =>
    match f.script.build with
    | .error e => pure (.error (.backendError ("Failed to build backend request: ".toList ++ e)))
    | .ok () =>
      let result ← f.attempt (cache.lookup backend.toSocketAddr)
        (f.request.backendReq backend body) (f.request.fallbackReq backend body)
      pure (result.map (·.filterHopByHop))

/-! ## Without the messages -/

variable {f} {cached : Option Bool} {cache : ProtocolCache} {backend : Backend}
  {q fallback : BackendRequest}

theorem forgetResult_mapError {ε ε' : Type} (result : Except ε BackendResponse) (h : ε → ε') :
    forgetResult (result.mapError h) = (forgetResult result).mapError h := by
  cases result <;> rfl

theorem readBody_of_bodiless (h : f.request.bodiless = true) : f.readBody = pure (.ok []) :=
  if_pos h

theorem readBody_of_not_bodiless (h : ¬ f.request.bodiless = true) :
    f.readBody = .wait (f.script.body.map fun r => (r.1, f.bodyOutcome r.2)) :=
  if_neg h

theorem erases_readBody :
    f.readBody.Erases MessageEvent.forget (Except.map fun _ => ()) f.forget.readBody := by
  unfold ForwardRequest.readBody
  by_cases hbodiless : f.request.bodiless = true
  · rw [readBody_of_bodiless hbodiless, if_pos (show f.forget.bodiless = true from hbodiless)]
    exact Run.erases_pure ..
  · rw [readBody_of_not_bodiless hbodiless,
      if_neg (show ¬ f.forget.bodiless = true from hbodiless)]
    have hwait := Run.erases_wait MessageEvent.forget
      (Except.map fun _ => () : Except BodyError (List UInt8) → Except BodyError Unit)
      (f.script.body.map fun r => (r.1, f.bodyOutcome r.2))
    rwa [Option.map_map] at hwait

/-- A send, with its message and without. -/
theorem erases_send (reply : MessageReply) {l : MessageEvent} {l' : ForwardEvent}
    (hl : l.forget = some l') :
    ((Run.wait reply).during l).Erases MessageEvent.forget forgetResult
      ((Run.wait (MessageReply.forget reply)).during l') :=
  (Run.erases_wait MessageEvent.forget forgetResult reply).during hl

theorem erases_sendHttp1 :
    (f.sendHttp1 q).Erases MessageEvent.forget forgetResult f.forget.sendHttp1 := by
  refine (erases_send f.script.http1 (l := .http1Send q) rfl).bind fun reply => ?_
  rw [← forgetResult_mapError]
  exact Run.erases_pure ..

theorem erases_afterHttp2 (reply : Except Str BackendResponse) :
    (f.afterHttp2 cached fallback reply).Erases MessageEvent.forget forgetResult
      (f.forget.afterHttp2 cached (forgetResult reply)) := by
  have hnote : ∀ {l : MessageEvent} {l' : ForwardEvent}, l.forget = some l' →
      (Run.note l : Run MessageEvent Unit).Erases MessageEvent.forget id (Run.note l') :=
    fun hl => Run.erases_note hl
  cases reply with
  | ok response =>
      exact (hnote (l := .http2Answer) rfl).bind fun _ => Run.erases_pure _ forgetResult _
  | error e =>
      cases cached with
      | none => exact (hnote (l := .cacheHttp1) rfl).bind fun _ => erases_sendHttp1
      | some _ => exact Run.erases_pure _ forgetResult _

theorem erases_sendHttp2 :
    (f.sendHttp2 cached q fallback).Erases MessageEvent.forget forgetResult
      (f.forget.sendHttp2 cached) := by
  have hconnection : (Run.wait f.script.connection : Run MessageEvent _).Erases MessageEvent.forget
      id (Run.wait f.script.connection) := by
    simpa using Run.erases_wait MessageEvent.forget id f.script.connection
  refine hconnection.bind fun connection => ?_
  cases connection with
  | error e => exact Run.erases_pure _ forgetResult _
  | ok _ =>
      exact (erases_send f.script.http2 (l := .http2Send q) rfl).bind fun reply =>
        erases_afterHttp2 reply

theorem erases_backendRequest :
    (f.backendRequest cached q fallback).Erases MessageEvent.forget forgetResult
      (f.forget.backendRequest cached) := by
  unfold backendRequest ForwardRequest.backendRequest
  split
  · exact erases_sendHttp1
  · exact erases_sendHttp2

theorem erases_attempt :
    (f.attempt cached q fallback).Erases MessageEvent.forget forgetResult
      (f.forget.attempt cached) := by
  have hfuture : ((f.backendRequest cached q fallback).during .attempt).Erases MessageEvent.forget
      forgetResult ((f.forget.backendRequest cached).during .attempt) :=
    erases_backendRequest.during rfl
  have htimeout : f.forget.timeout = f.timeout := rfl
  unfold attempt ForwardRequest.attempt
  rw [htimeout]
  cases f.timeout.bind (·.backendRequest) with
  | none =>
      refine hfuture.bind fun reply => ?_
      rw [← forgetResult_mapError]
      exact Run.erases_pure ..
  | some d =>
      refine (hfuture.timeout d).bind fun reply => ?_
      cases reply with
      | none => exact Run.erases_pure _ forgetResult _
      | some reply =>
          simp only [Option.map_some, ← forgetResult_mapError]
          exact Run.erases_pure ..

/-- **Without the messages, it is the run of `Forwarder`.** -/
theorem erases_forwardToBackend :
    (f.forwardToBackend cache backend).Erases MessageEvent.forget forgetResult
      (f.forget.forwardToBackend cache backend) := by
  refine erases_readBody.bind fun body => ?_
  cases body with
  | error e => exact Run.erases_pure _ forgetResult _
  | ok body =>
      have hbuild : f.forget.script.build = f.script.build := rfl
      simp only [Except.map, hbuild]
      cases f.script.build with
      | error e => exact Run.erases_pure _ forgetResult _
      | ok _ =>
          simp only
          rw [← Run.bind_pure' (f.forget.attempt _)]
          refine erases_attempt.bind fun result => ?_
          cases result <;> exact Run.erases_pure _ forgetResult _

/-! ## Which message is sent -/

/-- An event is about the request, or about its fallback if nothing is known about the backend. -/
def Carries (cached : Option Bool) (q fallback : BackendRequest) : MessageEvent → Prop
  | .http2Send q' => q' = q
  | .http1Send q' => (cached = some false ∧ q' = q) ∨ (cached = none ∧ q' = fallback)
  | .retrySend _ => False
  | .sleep => False
  | .attempt => True
  | .http2Answer => True
  | .cacheHttp1 => True

theorem labels_sendHttp1 {P : MessageEvent → Prop} (h : P (.http1Send q)) :
    (f.sendHttp1 q).Labels P :=
  Run.Labels.bind (by simpa using h) fun _ _ _ => Run.labels_pure _

theorem labels_sendHttp2 :
    (f.sendHttp2 cached q fallback).Labels (Carries cached q fallback) := by
  refine Run.Labels.bind (Run.labels_wait _) fun _ connection _ => ?_
  cases connection with
  | error e => exact Run.labels_pure _
  | ok _ =>
      refine Run.Labels.bind (by simp [Carries]) fun _ reply _ => ?_
      cases reply with
      | ok response =>
          exact Run.Labels.bind (by simp [Run.note, Carries]) fun _ _ _ => Run.labels_pure _
      | error e =>
          cases cached with
          | some _ => exact Run.labels_pure _
          | none =>
              exact Run.Labels.bind (by simp [Run.note, Carries]) fun _ _ _ =>
                labels_sendHttp1 (.inr ⟨rfl, rfl⟩)

theorem labels_attempt : (f.attempt cached q fallback).Labels (Carries cached q fallback) := by
  have hfuture : ((f.backendRequest cached q fallback).during .attempt).Labels
      (Carries cached q fallback) := by
    refine Run.labels_during.mpr ⟨trivial, ?_⟩
    unfold backendRequest
    split
    · next hcached => exact labels_sendHttp1 (.inl ⟨hcached, rfl⟩)
    · exact labels_sendHttp2
  unfold attempt
  cases f.timeout.bind (·.backendRequest) with
  | none => exact hfuture.bind fun _ _ _ => Run.labels_pure _
  | some d =>
      refine hfuture.timeout.bind fun _ reply _ => ?_
      cases reply <;> exact Run.labels_pure _

/-- The body that is read is the one that is sent on. -/
theorem body_of_finish_readBody {t : Nat} {body : List UInt8}
    (h : f.readBody.finish = some (t, .ok body)) : body = f.request.bodyBytes := by
  unfold readBody at h
  unfold IncomingRequest.bodyBytes
  split at h
  · next hbodiless =>
      rw [if_pos hbodiless]
      cases h
      rfl
  · next hbodiless =>
      rw [if_neg hbodiless]
      obtain ⟨⟨t, error⟩, -, heq⟩ := Option.map_eq_some_iff.mp h
      have hbody : f.bodyOutcome error = .ok body := congrArg Prod.snd heq
      unfold bodyOutcome at hbody
      split at hbody
      · cases hbody
      · split at hbody
        · cases hbody
        · cases hbody
          rfl

/-- **What is sent**: the request that is built from the incoming one, and the fallback. -/
theorem labels_forwardToBackend :
    (f.forwardToBackend cache backend).Labels
      (Carries (cache.lookup backend.toSocketAddr)
        (f.request.backendReq backend f.request.bodyBytes)
        (f.request.fallbackReq backend f.request.bodyBytes)) := by
  refine Run.Labels.bind ?_ fun t body hbody => ?_
  · unfold readBody
    split
    · exact Run.labels_pure _
    · exact Run.labels_wait _
  · cases body with
    | error e => exact Run.labels_pure _
    | ok body =>
        obtain rfl := body_of_finish_readBody hbody
        cases f.script.build with
        | error e => exact Run.labels_pure _
        | ok _ => exact labels_attempt.bind fun _ _ _ => Run.labels_pure _

theorem bodyOutcome_oversized (hsize : f.request.Oversized) (error : Option Str) :
    ∃ e, f.bodyOutcome error = .error e := by
  cases error with
  | some message => exact ⟨_, rfl⟩
  | none => exact ⟨_, if_pos hsize.2⟩

/-- Nothing is sent if the body is too large. -/
theorem not_oversized_of_emits {l : MessageEvent} (h : (f.forwardToBackend cache backend).Emits l)
    {l' : ForwardEvent} (hl : l.forget = some l') : ¬ f.request.Oversized := by
  intro hsize
  have hforward := erases_forwardToBackend.emits hl h
  obtain ⟨hbody, -, -⟩ := ForwardRequest.emits_forwardToBackend.mp hforward
  rcases hbody with hbody | ⟨t, hbody⟩
  · exact absurd (hsize.1.symm.trans hbody) Bool.false_ne_true
  · obtain ⟨r, -, heq⟩ := Option.map_eq_some_iff.mp hbody
    obtain ⟨e, he⟩ := bodyOutcome_oversized hsize r.2
    rw [he] at heq
    cases congrArg Prod.snd heq

/-- The send that comes first, by what the cache says. -/
def firstSend (cached : Option Bool) (q : BackendRequest) : MessageEvent :=
  if cached = some false then .http1Send q else .http2Send q

theorem begins_backendRequest (hconnection : f.script.connection = some (0, .ok ())) :
    (f.backendRequest cached q fallback).Begins (firstSend cached q) 0 := by
  unfold backendRequest firstSend
  split
  · exact Run.begins_bind.mpr (.inl (by simp))
  · refine Run.begins_bind.mpr (.inr ⟨0, .ok (), 0, hconnection, ?_, rfl⟩)
    exact Run.begins_bind.mpr (.inl (by simp))

theorem begins_attempt (hconnection : f.script.connection = some (0, .ok ())) :
    (f.attempt cached q fallback).Begins (firstSend cached q) 0 := by
  have hfuture : ((f.backendRequest cached q fallback).during .attempt).Begins
      (firstSend cached q) 0 :=
    Run.begins_during.mpr (.inr (begins_backendRequest hconnection))
  unfold attempt
  cases f.timeout.bind (·.backendRequest) with
  | none => exact Run.begins_bind.mpr (.inl hfuture)
  | some d => exact Run.begins_bind.mpr (.inl (Run.begins_timeout.mpr ⟨hfuture, Nat.zero_le d⟩))

/-- A body that is not too large can be read. -/
theorem bodyOutcome_none (hsize : ¬ f.request.Oversized) (hbodiless : ¬ f.request.bodiless = true) :
    f.bodyOutcome none = .ok f.request.body :=
  if_neg fun hlarge => hsize ⟨Bool.not_eq_true _ ▸ hbodiless, hlarge⟩

theorem finish_readBody (hsize : ¬ f.request.Oversized) (hbody : f.script.body = some (0, none)) :
    f.readBody.finish = some (0, .ok f.request.bodyBytes) := by
  unfold readBody IncomingRequest.bodyBytes
  split
  · rfl
  · next hbodiless => simp [hbody, bodyOutcome_none hsize hbodiless]

/-- If everything is there at once, the request is sent. -/
theorem emits_firstSend (hsize : ¬ f.request.Oversized) (hbody : f.script.body = some (0, none))
    (hbuild : f.script.build = .ok ()) (hconnection : f.script.connection = some (0, .ok ())) :
    (f.forwardToBackend cache backend).Emits (firstSend (cache.lookup backend.toSocketAddr)
      (f.request.backendReq backend f.request.bodyBytes)) := by
  have hread := finish_readBody hsize hbody
  refine ⟨0, Run.begins_bind.mpr (.inr ⟨0, .ok f.request.bodyBytes, 0, hread, ?_, rfl⟩)⟩
  simp only [hbuild]
  exact Run.begins_bind.mpr (.inl (begins_attempt hconnection))

end Forwarding

/-- Everything is there at once, but HTTP/2 fails. -/
def MessageScript.http2Down : MessageScript where
  body := some (0, none)
  build := .ok ()
  connection := some (0, .ok ())
  http2 := some (0, .error [])
  http1 := some (0, .ok ⟨200, .empty⟩)

/-! ## The announced length -/

/-- Every `content-length` is the length of the body, for a reading of header values as numbers. -/
def LengthMatches (reads : Str → Option Nat) (headers : HeaderMap) (body : List UInt8) : Prop :=
  ∀ e ∈ headers.entries, e.1 = "content-length".toList → reads e.2 = some body.length

/-- A request is handed to a sender. -/
def Sends {α : Type} (m : Run MessageEvent α) (q : BackendRequest) : Prop :=
  m.Emits (.http2Send q) ∨ m.Emits (.http1Send q) ∨ m.Emits (.retrySend q)

namespace IncomingRequest

variable {r : IncomingRequest} {viaWorker : Bool} {timeout : Option Timeout}
  {cache : ProtocolCache} {backend : Backend}

/-- What `forward_to_backend` hands to a sender. -/
theorem eq_of_sends {script : MessageScript} {q : BackendRequest}
    (h : Sends (Forwarding.forwardToBackend ⟨r, viaWorker, timeout, script⟩ cache backend) q) :
    q = r.backendReq backend r.bodyBytes ∨ q = r.fallbackReq backend r.bodyBytes := by
  rcases h with h | h | h
  · exact .inl (Forwarding.labels_forwardToBackend.of_emits h)
  · exact (Forwarding.labels_forwardToBackend.of_emits h).imp And.right And.right
  · exact (Forwarding.labels_forwardToBackend.of_emits h).elim

theorem emits_http2Down (hsize : ¬ r.Oversized) :
    (Forwarding.forwardToBackend ⟨r, viaWorker, timeout, .http2Down⟩ cache backend).Emits
      (Forwarding.firstSend (cache.lookup backend.toSocketAddr)
        (r.backendReq backend r.bodyBytes)) :=
  Forwarding.emits_firstSend hsize rfl rfl rfl

theorem sends_http2Down (hsize : ¬ r.Oversized) :
    Sends (Forwarding.forwardToBackend ⟨r, viaWorker, timeout, .http2Down⟩ cache backend)
      (r.backendReq backend r.bodyBytes) := by
  have hfirst : (Forwarding.forwardToBackend ⟨r, viaWorker, timeout, .http2Down⟩ cache
      backend).Emits _ := emits_http2Down hsize
  unfold Forwarding.firstSend at hfirst
  split at hfirst
  · exact .inr (.inl hfirst)
  · exact .inl hfirst

theorem mem_backendReq {e : Str × Str} {body : List UInt8} :
    e ∈ (r.backendReq backend body).headers.entries ↔
      (e ∈ r.headers.entries ∧ isForwarded e.1 = true) ∨ e = ("host".toList, backend.display) := by
  simp [backendReq, HeaderMap.entries_withHost, HeaderMap.entries_filter]

theorem mem_fallbackReq {e : Str × Str} {body : List UInt8} :
    e ∈ (r.fallbackReq backend body).headers.entries ↔ e = ("host".toList, backend.display) := by
  simp [fallbackReq, HeaderMap.entries_withHost, HeaderMap.empty]

/-- The body is sent as it is, unless the method is one of those whose body is dropped. -/
theorem length_bodyBytes_eq_iff : r.bodyBytes.length = r.body.length ↔
    r.bodiless = false ∨ r.body = [] := by
  unfold bodyBytes
  cases r.bodiless with
  | false => simp
  | true => simp [eq_comm]

theorem lengthMatches_backendReq_iff {reads : Str → Option Nat}
    (hlength : LengthMatches reads r.headers r.body) :
    LengthMatches reads (r.backendReq backend r.bodyBytes).headers r.bodyBytes ↔
      r.bodiless = false ∨ r.body = [] ∨
        ∀ e ∈ r.headers.entries, e.1 ≠ "content-length".toList := by
  rw [← or_assoc, ← length_bodyBytes_eq_iff, or_iff_not_imp_right]
  constructor
  · intro h hannounced
    simp only [not_forall, not_not] at hannounced
    obtain ⟨e, he, hname⟩ := hannounced
    have hforwarded : isForwarded e.1 = true := by
      rw [hname]
      decide
    have hsent := h e (mem_backendReq.mpr (.inl ⟨he, hforwarded⟩)) hname
    rw [hlength e he hname] at hsent
    exact (Option.some.inj hsent).symm
  · intro h e he hname
    have hnames : "host".toList ≠ "content-length".toList := by decide
    rcases mem_backendReq.mp he with ⟨hown, -⟩ | rfl
    · rw [h fun hnone => hnone e hown hname]
      exact hlength e hown hname
    · exact absurd hname hnames

/-- The fallback announces no length. -/
theorem lengthMatches_fallbackReq (reads : Str → Option Nat) (body : List UInt8) :
    LengthMatches reads (r.fallbackReq backend body).headers body := by
  intro e he hname
  have hnames : "host".toList ≠ "content-length".toList := by decide
  obtain rfl := mem_fallbackReq.mp he
  exact absurd hname hnames

/-- **When the announced length is right**: for a request with the right length, unless its method
is one of those whose body is dropped, and it has a body and announces it. -/
theorem lengthMatches_iff {reads : Str → Option Nat}
    (hlength : LengthMatches reads r.headers r.body) :
    (∀ script q,
        Sends (Forwarding.forwardToBackend ⟨r, viaWorker, timeout, script⟩ cache backend) q →
          LengthMatches reads q.headers q.body) ↔
      r.bodiless = false ∨ r.body = [] ∨
        ∀ e ∈ r.headers.entries, e.1 ≠ "content-length".toList := by
  constructor
  · intro h
    by_cases hsize : r.Oversized
    · exact .inl hsize.1
    · exact (lengthMatches_backendReq_iff hlength).mp (h .http2Down _ (sends_http2Down hsize))
  · intro h script q hq
    rcases eq_of_sends hq with rfl | rfl
    · exact (lengthMatches_backendReq_iff hlength).mpr h
    · exact lengthMatches_fallbackReq reads _

/-- A reading of header values: decimal digits, and nothing else. -/
def readLength (value : Str) : Option Nat :=
  match IpText.readNumber 10 20 (2 ^ 64) true value with
  | some (n, []) => some n
  | _ => none

/-- A `DELETE` with a body of five bytes. -/
def deleteWithBody : IncomingRequest where
  method := .delete
  uri := .origin ⟨"/items/7".toList, none, PathAndQuery.legal_of_all rfl⟩
  headers := ⟨[("content-length".toList, "5".toList)], by decide⟩
  body := [104, 101, 108, 108, 111]

/-- The same as a `POST`. -/
def postWithBody : IncomingRequest := { deleteWithBody with method := .post }

/-- Whatever is sent for the `POST` has its five bytes. -/
theorem lengthMatches_iff_post :
    LengthMatches readLength postWithBody.headers postWithBody.body ∧
    ∀ script q, Sends (Forwarding.forwardToBackend ⟨postWithBody, true, none, script⟩ ∅ .sample) q →
      LengthMatches readLength q.headers q.body := by
  have hlength : LengthMatches readLength postWithBody.headers postWithBody.body := by
    intro e he _
    obtain rfl := List.mem_singleton.mp he
    rfl
  exact ⟨hlength, (lengthMatches_iff hlength).mpr (.inl rfl)⟩

/-- **A `DELETE` announces a body that it does not have.** -/
theorem exists_length_mismatch :
    LengthMatches readLength deleteWithBody.headers deleteWithBody.body ∧
    ∃ script q, Sends (Forwarding.forwardToBackend ⟨deleteWithBody, true, none, script⟩ ∅
      .sample) q ∧ q.headers.get "content-length".toList = some "5".toList ∧ q.body = [] ∧
        ¬ LengthMatches readLength q.headers q.body := by
  constructor
  · intro e he _
    obtain rfl := List.mem_singleton.mp he
    rfl
  · have hsize : ¬ deleteWithBody.Oversized := fun hsize => absurd hsize.1 (by decide)
    refine ⟨.http2Down, _, sends_http2Down hsize, rfl, rfl, ?_⟩
    intro hlength
    have hfive := hlength ("content-length".toList, "5".toList) (.head _) rfl
    exact absurd hfive (by decide)

end IncomingRequest

/-! ## The fallback -/

/-- Two requests have the same method, URI, body and headers, these in any order. -/
structure BackendRequest.SameAs (q q' : BackendRequest) : Prop where
  method : q.method = q'.method
  uri : q.uri = q'.uri
  body : q.body = q'.body
  headers : q.headers.entries.Perm q'.headers.entries

namespace IncomingRequest

variable {r : IncomingRequest} {viaWorker : Bool} {timeout : Option Timeout}
  {cache : ProtocolCache} {backend : Backend}

/-- Only the headers can differ. -/
theorem sameAs_fallbackReq_iff {body : List UInt8} :
    (r.fallbackReq backend body).SameAs (r.backendReq backend body) ↔
      ∀ e ∈ r.headers.entries, isForwarded e.1 = false := by
  have hentries : (r.backendReq backend body).headers.entries =
      (r.headers.entries.filter fun e => isForwarded e.1) ++
        (r.fallbackReq backend body).headers.entries := rfl
  have hnone : (r.headers.entries.filter fun e => isForwarded e.1) = [] ↔
      ∀ e ∈ r.headers.entries, isForwarded e.1 = false := by
    simp [List.filter_eq_nil_iff]
  rw [← hnone]
  constructor
  · intro h
    have hlen := h.headers.length_eq
    rw [hentries, List.length_append] at hlen
    exact List.length_eq_zero_iff.mp (by omega)
  · intro h
    refine ⟨rfl, rfl, rfl, ?_⟩
    rw [hentries, h]
    exact List.Perm.refl _

/-- With an unknown backend whose HTTP/2 send fails, the fallback is sent. -/
theorem emits_fallbackReq (hsize : ¬ r.Oversized)
    (hunknown : cache.lookup backend.toSocketAddr = none) :
    (Forwarding.forwardToBackend ⟨r, viaWorker, timeout, .http2Down⟩ cache backend).Emits
      (.http1Send (r.fallbackReq backend r.bodyBytes)) := by
  have hread : (Forwarding.forget ⟨r, viaWorker, timeout, .http2Down⟩).BodyRead := by
    by_cases hbodiless : r.bodiless = true
    · exact .inl hbodiless
    · refine .inr ⟨0, ?_⟩
      show some (0, (Forwarding.bodyOutcome _ none).map fun _ => ()) = _
      rw [Forwarding.bodyOutcome_none hsize hbodiless]
      rfl
  have hfails : (Forwarding.forget ⟨r, viaWorker, timeout, .http2Down⟩).Http2Fails :=
    ⟨hread, rfl, 0, 0, [], rfl, rfl, fun d _ => Nat.zero_le d⟩
  obtain ⟨l, hl, hemits⟩ := Forwarding.erases_forwardToBackend.exists_emits
    ((ForwardRequest.emits_fallback hunknown (.inl rfl)).mpr hfails)
  have hcarries := Forwarding.labels_forwardToBackend.of_emits hemits
  cases l with
  | http1Send q =>
      rcases hcarries with ⟨hcached, -⟩ | ⟨-, rfl⟩
      · rw [hunknown] at hcached
        cases hcached
      · exact hemits
  | retrySend q => exact hcarries.elim
  | attempt => cases hl
  | http2Send q => cases hl
  | http2Answer => cases hl
  | cacheHttp1 => cases hl
  | sleep => cases hl

/-- **When the fallback is the same request**: if the body is too large for anything to be sent, or
there is no header to be lost. -/
theorem fallback_sameAs_iff (hunknown : cache.lookup backend.toSocketAddr = none) :
    (∀ script q q',
        (Forwarding.forwardToBackend ⟨r, viaWorker, timeout, script⟩ cache backend).Emits
          (.http2Send q) →
        (Forwarding.forwardToBackend ⟨r, viaWorker, timeout, script⟩ cache backend).Emits
          (.http1Send q') → q'.SameAs q) ↔
      r.Oversized ∨
        ∀ e ∈ r.headers.entries, e.1 = "host".toList ∨ isHopByHopHeader e.1 = true := by
  have hlost : (∀ e ∈ r.headers.entries, e.1 = "host".toList ∨ isHopByHopHeader e.1 = true) ↔
      (r.fallbackReq backend r.bodyBytes).SameAs (r.backendReq backend r.bodyBytes) := by
    rw [sameAs_fallbackReq_iff]
    refine forall_congr' fun e => imp_congr_right fun _ => ?_
    rw [isForwarded, Bool.and_eq_false_iff, bne_eq_false_iff_eq, Bool.not_eq_false']
  rw [hlost]
  constructor
  · intro h
    by_cases hsize : r.Oversized
    · exact .inl hsize
    · have hfirst : (Forwarding.forwardToBackend ⟨r, viaWorker, timeout, .http2Down⟩ cache
          backend).Emits _ := emits_http2Down hsize
      rw [hunknown] at hfirst
      exact .inr (h .http2Down _ _ hfirst (emits_fallbackReq hsize hunknown))
  · intro h script q q' hq hq'
    have hsize := Forwarding.not_oversized_of_emits hq rfl
    obtain rfl : q = r.backendReq backend r.bodyBytes :=
      Forwarding.labels_forwardToBackend.of_emits hq
    rcases Forwarding.labels_forwardToBackend.of_emits hq' with ⟨hcached, -⟩ | ⟨-, rfl⟩
    · rw [hunknown] at hcached
      cases hcached
    · exact h.resolve_left hsize

/-- A `GET` with an `Authorization` header. -/
def authorizedGet : IncomingRequest where
  method := .get
  uri := .origin .root
  headers := ⟨[("authorization".toList, "Bearer token".toList)], by decide⟩
  body := []

/-- A `GET` without headers of its own. -/
def plainGet : IncomingRequest where
  method := .get
  uri := .origin .root
  headers := ⟨[("host".toList, "example.com".toList), ("connection".toList, "close".toList)],
    by decide⟩
  body := []

/-- The backend gets this request again, as it was. -/
theorem fallback_sameAs_iff_plain :
    (∃ script q q',
      (Forwarding.forwardToBackend ⟨plainGet, true, none, script⟩ ∅ .sample).Emits (.http2Send q) ∧
      (Forwarding.forwardToBackend ⟨plainGet, true, none, script⟩ ∅ .sample).Emits
        (.http1Send q')) ∧
    ∀ script q q',
      (Forwarding.forwardToBackend ⟨plainGet, true, none, script⟩ ∅ .sample).Emits
        (.http2Send q) →
      (Forwarding.forwardToBackend ⟨plainGet, true, none, script⟩ ∅ .sample).Emits
        (.http1Send q') → q'.SameAs q := by
  have hsize : ¬ plainGet.Oversized := fun hsize => absurd hsize.1 (by decide)
  have hlost : ∀ e ∈ plainGet.headers.entries,
      e.1 = "host".toList ∨ isHopByHopHeader e.1 = true := by decide
  exact ⟨⟨.http2Down, _, _, emits_http2Down hsize, emits_fallbackReq hsize rfl⟩,
    (fallback_sameAs_iff rfl).mpr (.inr hlost)⟩

/-- **The fallback loses the headers.** -/
theorem exists_fallback_differs :
    ∃ script q q',
      (Forwarding.forwardToBackend ⟨authorizedGet, true, none, script⟩ ∅ .sample).Emits
        (.http2Send q) ∧
      (Forwarding.forwardToBackend ⟨authorizedGet, true, none, script⟩ ∅ .sample).Emits
        (.http1Send q') ∧
      q.headers.get "authorization".toList = some "Bearer token".toList ∧
      q'.headers.get "authorization".toList = none ∧ ¬ q'.SameAs q := by
  have hsize : ¬ authorizedGet.Oversized := fun hsize => absurd hsize.1 (by decide)
  refine ⟨.http2Down, _, _, emits_http2Down hsize, emits_fallbackReq hsize rfl, rfl, rfl, ?_⟩
  intro hsame
  have hnone := sameAs_fallbackReq_iff.mp hsame _ (.head _)
  exact absurd hnone (by decide)

end IncomingRequest

end Rauta
