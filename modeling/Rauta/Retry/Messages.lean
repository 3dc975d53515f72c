import Rauta.Forwarder.Messages
import Rauta.Retry

/-!
# The messages of a retried request

`Retry` with messages. The requests of the retry loop are built anew, from the routing method, the
path and query that `handle_request` has kept, and a copy of the headers; their responses are passed
on as they are.

As with `Forwarder/Messages`, forgetting the messages gives the run of `Retry`
(`erases_executeRequestWithRetry`), and `CanRetry` says when there is a retry at all. Two theorems
rest on that: when a retry repeats the first attempt, which it does not for a method that
`handle_request` takes for a `GET`; and when no hop-by-hop header reaches the client, which only the
responses of `forward_to_backend` are freed of.
-/

namespace Rauta

open Async

/-! ## The requests -/

namespace IncomingRequest

/-- The headers that a retry copies. -/
def isRetried (name : Str) : Bool :=
  name != "host".toList && name != "content-length".toList && name != "content-type".toList &&
    name != "content-encoding".toList && !isHopByHopHeader name

/-- The method of a retry. -/
def retryMethod : HttpMethod → HyperMethod
  | .get => .get
  | .head => .head
  | _ => .get

/-- The request of a retry. -/
def retryReq (r : IncomingRequest) (backend : Backend) : BackendRequest where
  method := retryMethod r.method.toHttpMethod
  authority := backend.display
  pathAndQuery := (r.uri.pathAndQuery.map (·.asStr)).getD r.uri.path
  headers := (r.headers.filter isRetried).withHost backend.display
  body := []

end IncomingRequest

/-! ## The functions -/

/-- What happens outside during one retry. -/
structure MessageRetry where
  build : Except Str Unit
  reply : MessageReply

/-- What happens outside while a request is executed. -/
structure MessageExecution where
  forward : MessageScript
  retry : Nat → MessageRetry

/-- Without the messages. -/
def MessageRetry.forget (script : MessageRetry) : RetryScript :=
  ⟨script.build, MessageReply.forget script.reply⟩

/-- A request that arrives. -/
structure ClientMessage where
  request : IncomingRequest
  viaWorker : Bool

namespace ClientMessage

/-- A request under the overall timeout, if there is one. -/
def withOverallTimeout (timeout : Option Nat)
    (m : Run MessageEvent (Except ProxyError BackendResponse)) :
    Run MessageEvent (Except ProxyError BackendResponse) :=
  match timeout with
  | some d => do
    match ← m.timeout d with
    | some result => pure result
    | none => pure (.error (overallTimeout d))
  | none => m

/-- The send of a retry. -/
def retrySend (q : BackendRequest) (reply : MessageReply) :
    Run MessageEvent (Except ProxyError BackendResponse) := do
  let reply ← ((Run.wait reply).during (.retrySend q)).during .attempt
  pure (reply.mapError fun e => .backendError ("Retry request failed: ".toList ++ e))

/-- The retry loop: `left` rounds are left, this is number `attempt`, and `last` is the result so
far. -/
def retryLoop (cfg : RetryConfig) (q : BackendRequest) (script : Nat → MessageRetry) :
    (left attempt : Nat) → (last : Except ProxyError BackendResponse) →
      Run MessageEvent (Except ProxyError BackendResponse)
  | 0, _, last => pure last
  | left + 1, attempt, _ => do
    (Run.sleep (cfg.calculateDelay (attempt - 1))).during .sleep
    match (script attempt).build with
    | .error e => pure (.error (.backendError ("Failed to build retry request: ".toList ++ e)))
    | .ok () =>
      -- the response is passed on with all its headers
      let result ← retrySend q (script attempt).reply
      if cfg.shouldRetry (forgetResult result) then
        retryLoop cfg q script left (attempt + 1) result
      else pure result

variable (c : ClientMessage) (route : RouteMatch) (cache : ProtocolCache)

/-- The request of `Retry`. -/
def forget : ClientRequest := ⟨c.request.method, c.viaWorker⟩

/-- What is forwarded. -/
def forwarding (script : MessageScript) : Forwarding :=
  ⟨c.request, c.viaWorker, route.timeout, script⟩

/-- The script of `Retry`. -/
def forgetScript (script : MessageExecution) : ExecuteScript :=
  ⟨(c.forwarding route script.forward).forget.script, fun n => (script.retry n).forget⟩

/-- The first attempt, under the overall timeout. -/
def firstAttempt (script : MessageScript) : Run MessageEvent (Except ProxyError BackendResponse) :=
  withOverallTimeout (route.timeout.bind (·.request))
    ((c.forwarding route script).forwardToBackend cache route.backend)

/-- `execute_with_retry`. -/
def executeWithRetry (script : MessageExecution) (cfg : RetryConfig) :
    Run MessageEvent (Except ProxyError BackendResponse) := do
  let first ← c.firstAttempt route cache script.forward
  if !cfg.shouldRetry (forgetResult first) || cfg.maxAttempts ≤ 1 then pure first
  else retryLoop cfg (c.request.retryReq route.backend) script.retry (cfg.maxAttempts - 1) 1 first

/-- `execute_request_with_retry`, with the method that `handle_request` passes. -/
def executeRequestWithRetry (script : MessageExecution) :
    Run MessageEvent (Except ProxyError BackendResponse) :=
  let method := c.request.method.toHttpMethod
  let isRetryableMethod : Bool := method = .get ∨ method = .head
  match isRetryableMethod, route.retry with
  | true, some cfg => c.executeWithRetry route cache script cfg
  | _, _ => c.firstAttempt route cache script.forward

variable {c route cache} {cfg : RetryConfig} {q : BackendRequest}

theorem executeRequestWithRetry_eq (script : MessageExecution) :
    c.executeRequestWithRetry route cache script =
      (c.forget.retryConfig route).elim (c.firstAttempt route cache script.forward)
        (c.executeWithRetry route cache script) := by
  unfold executeRequestWithRetry ClientRequest.retryConfig forget
  by_cases hmethod : c.request.method.toHttpMethod = .get ∨ c.request.method.toHttpMethod = .head
  · simp only [hmethod, decide_true, if_true]
    cases route.retry <;> rfl
  · simp only [hmethod, decide_false, if_false, Option.elim_none]

/-! ## Without the messages -/

theorem erases_withOverallTimeout {m : Run MessageEvent (Except ProxyError BackendResponse)}
    {m' : Run ForwardEvent (Except ProxyError Nat)}
    (hm : m.Erases MessageEvent.forget forgetResult m') (timeout : Option Nat) :
    (withOverallTimeout timeout m).Erases MessageEvent.forget forgetResult
      (Rauta.withOverallTimeout timeout m') := by
  cases timeout with
  | none => exact hm
  | some d =>
      refine (hm.timeout d).bind fun result => ?_
      cases result <;> exact Run.erases_pure _ forgetResult _

theorem erases_retrySend (reply : MessageReply) :
    (retrySend q reply).Erases MessageEvent.forget forgetResult
      (Rauta.retrySend (MessageReply.forget reply)) := by
  have hsend : (((Run.wait reply).during (.retrySend q)).during .attempt).Erases
      MessageEvent.forget forgetResult
      (((Run.wait (MessageReply.forget reply)).during .http1Send).during .attempt) :=
    (Forwarding.erases_send reply rfl).during rfl
  refine hsend.bind fun reply => ?_
  rw [← Forwarding.forgetResult_mapError]
  exact Run.erases_pure ..

theorem erases_retryLoop (script : Nat → MessageRetry) (left attempt : Nat)
    (last : Except ProxyError BackendResponse) :
    (retryLoop cfg q script left attempt last).Erases MessageEvent.forget forgetResult
      (Rauta.retryLoop cfg (fun n => (script n).forget) left attempt (forgetResult last)) := by
  induction left generalizing attempt last with
  | zero => exact Run.erases_pure ..
  | succ left ih =>
      have hsleep : ((Run.sleep (cfg.calculateDelay (attempt - 1))).during .sleep :
          Run MessageEvent Unit).Erases MessageEvent.forget id
            (Run.sleep (cfg.calculateDelay (attempt - 1))) :=
        Run.Erases.during_left (Run.erases_wait MessageEvent.forget id _) rfl
      refine hsleep.bind fun _ => ?_
      have hbuild : (script attempt).forget.build = (script attempt).build := rfl
      simp only [hbuild]
      cases (script attempt).build with
      | error e => exact Run.erases_pure _ forgetResult _
      | ok _ =>
          refine (erases_retrySend _).bind fun result => ?_
          split
          · exact ih _ _
          · exact Run.erases_pure ..

theorem erases_firstAttempt (script : MessageExecution) :
    (c.firstAttempt route cache script.forward).Erases MessageEvent.forget forgetResult
      (c.forget.firstAttempt route cache (c.forgetScript route script).forward) :=
  erases_withOverallTimeout Forwarding.erases_forwardToBackend _

/-- **Without the messages, it is the run of `Retry`.** -/
theorem erases_executeRequestWithRetry (script : MessageExecution) :
    (c.executeRequestWithRetry route cache script).Erases MessageEvent.forget forgetResult
      (c.forget.executeRequestWithRetry route cache (c.forgetScript route script)) := by
  rw [executeRequestWithRetry_eq, ClientRequest.executeRequestWithRetry_eq]
  cases c.forget.retryConfig route with
  | none => exact erases_firstAttempt script
  | some cfg =>
      refine (erases_firstAttempt script).bind fun first => ?_
      split
      · exact Run.erases_pure ..
      · exact erases_retryLoop _ _ _ _

/-! ## When there is a retry -/

/-- The request can be retried: the route allows it, and the first attempt can end with a result
that is. A body that is too large is an error, so with it errors must be retried. -/
def CanRetry (c : ClientMessage) (route : RouteMatch) : Prop :=
  ∃ cfg, c.forget.retryConfig route = some cfg ∧ cfg.retries ≠ 0 ∧
    (cfg.retryOnConnectionError = true ∨ ¬ c.request.Oversized)

/-- What holds of the result and of the timeout's error holds under the overall timeout. -/
theorem returns_withOverallTimeout {m : Run MessageEvent (Except ProxyError BackendResponse)}
    {Q : Except ProxyError BackendResponse → Prop} (hm : m.Returns Q)
    (herror : ∀ d, Q (.error (overallTimeout d))) (timeout : Option Nat) :
    (withOverallTimeout timeout m).Returns Q := by
  cases timeout with
  | none => exact hm
  | some d =>
      refine Run.Returns.bind hm.timeout fun result hresult => ?_
      cases result with
      | none => exact Run.returns_pure.mpr (herror _)
      | some result => exact Run.returns_pure.mpr (hresult result rfl)

/-- A first attempt with a body that is too large is an error. -/
theorem returns_firstAttempt_oversized (hsize : c.request.Oversized) (script : MessageScript) :
    (c.firstAttempt route cache script).Returns fun result => ∃ e, result = .error e := by
  have hbody : (c.forwarding route script).readBody.Returns fun body => ∃ e, body = .error e := by
    intro t body hbody
    rw [Forwarding.readBody_of_not_bodiless (Bool.eq_false_iff.mp hsize.1)] at hbody
    obtain ⟨r, -, heq⟩ := Option.map_eq_some_iff.mp hbody
    obtain ⟨e, he⟩ := Forwarding.bodyOutcome_oversized (f := c.forwarding route script) hsize r.2
    exact ⟨e, (congrArg Prod.snd heq).symm.trans he⟩
  refine returns_withOverallTimeout (hbody.bind fun body herror => ?_) (fun _ => ⟨_, rfl⟩) _
  obtain ⟨e, rfl⟩ := herror
  exact Run.returns_pure.mpr ⟨_, rfl⟩

/-- **Otherwise there is only the first attempt.** -/
theorem executeRequestWithRetry_of_not_canRetry (h : ¬ c.CanRetry route)
    (script : MessageExecution) :
    c.executeRequestWithRetry route cache script = c.firstAttempt route cache script.forward := by
  rw [executeRequestWithRetry_eq]
  cases hcfg : c.forget.retryConfig route with
  | none => rfl
  | some cfg =>
      refine Run.bind_eq_self fun t first hfirst => if_pos ?_
      by_cases hretries : cfg.retries = 0
      · exact RetryConfig.last_iff.mpr fun _ => hretries
      · -- the first attempt is an error, and errors are not retried
        have hno : ¬ (cfg.retryOnConnectionError = true ∨ ¬ c.request.Oversized) :=
          fun hcan => h ⟨cfg, hcfg, hretries, hcan⟩
        rw [not_or, not_not] at hno
        obtain ⟨e, rfl⟩ := returns_firstAttempt_oversized hno.2 script.forward t first hfirst
        have hlast : cfg.shouldRetry (forgetResult (.error e)) = false :=
          Bool.not_eq_true _ ▸ hno.1
        rw [hlast]
        rfl

/-! ### A script with a retry -/

/-- The first attempt is an error. -/
def failing : MessageScript := ⟨some (0, some []), .error [], none, none, none⟩

/-- The first attempt is answered at once. -/
def answered (response : BackendResponse) : MessageScript :=
  ⟨some (0, none), .ok (), some (0, .ok ()), some (0, .ok response), some (0, .ok response)⟩

/-- The first retry is answered at once. -/
def retryAnswered (response : BackendResponse) (_ : Nat) : MessageRetry :=
  ⟨.ok (), some (0, .ok response)⟩

theorem finish_withOverallTimeout {m : Run MessageEvent (Except ProxyError BackendResponse)}
    {result : Except ProxyError BackendResponse} (h : m.finish = some (0, result))
    (timeout : Option Nat) : (withOverallTimeout timeout m).finish = some (0, result) := by
  cases timeout with
  | none => exact h
  | some d => exact Run.finish_bind_of_finish (Run.timeout_of_le h (Nat.zero_le d)).2

theorem finish_firstAttempt_failing :
    ∃ e, (c.firstAttempt route cache failing).finish = some (0, .error e) := by
  have hforward : ∃ e, ((c.forwarding route failing).forwardToBackend cache route.backend).finish =
      some (0, .error e) := by
    by_cases hbodiless : c.request.bodiless = true
    · have hread : (c.forwarding route failing).readBody.finish = some (0, .ok []) := by
        rw [Forwarding.readBody_of_bodiless hbodiless]
        rfl
      exact ⟨_, Run.finish_bind_of_finish hread⟩
    · have hread : (c.forwarding route failing).readBody.finish =
          some (0, .error (.read [])) := by
        rw [Forwarding.readBody_of_not_bodiless hbodiless]
        rfl
      exact ⟨_, Run.finish_bind_of_finish hread⟩
  obtain ⟨e, hforward⟩ := hforward
  exact ⟨e, finish_withOverallTimeout hforward _⟩

theorem finish_firstAttempt_answered (hsize : ¬ c.request.Oversized) (response : BackendResponse) :
    (c.firstAttempt route cache (answered response)).finish =
      some (0, .ok response.filterHopByHop) := by
  have hrequest : ∀ cached q fallback,
      ((c.forwarding route (answered response)).backendRequest cached q fallback).finish =
        some (0, .ok response) := by
    intro cached q fallback
    -- whatever the cache says, the send that it asks for is answered
    rcases cached with _ | _ | _ <;> rfl
  have hattempt : ∀ cached q fallback,
      ((c.forwarding route (answered response)).attempt cached q fallback).finish =
        some (0, .ok response) := by
    intro cached q fallback
    have hfuture : (((c.forwarding route (answered response)).backendRequest cached q
        fallback).during .attempt).finish = some (0, .ok response) := hrequest cached q fallback
    unfold Forwarding.attempt
    cases (c.forwarding route (answered response)).timeout.bind (·.backendRequest) with
    | none => exact Run.finish_bind_of_finish hfuture
    | some d => exact Run.finish_bind_of_finish (Run.timeout_of_le hfuture (Nat.zero_le d)).2
  have hread : (c.forwarding route (answered response)).readBody.finish = _ :=
    Forwarding.finish_readBody hsize rfl
  refine finish_withOverallTimeout ?_ _
  refine (Run.finish_bind_of_finish hread).trans ?_
  show ((Forwarding.attempt _ _ _ _ >>= fun result => _).finish.map _) = _
  rw [Run.finish_bind_of_finish (hattempt _ _ _)]
  rfl

/-- A request that can be retried has a first attempt that is. -/
theorem exists_firstAttempt (hretries : cfg.retries ≠ 0)
    (hcan : cfg.retryOnConnectionError = true ∨ ¬ c.request.Oversized) :
    ∃ script first, (c.firstAttempt route cache script).finish = some (0, first) ∧
      cfg.shouldRetry (forgetResult first) = true := by
  by_cases hconnection : cfg.retryOnConnectionError = true
  · obtain ⟨e, hfinish⟩ : ∃ e, (c.firstAttempt route cache failing).finish = some (0, .error e) :=
      finish_firstAttempt_failing
    exact ⟨failing, .error e, hfinish, hconnection⟩
  · have h5xx : cfg.retryOn5xx = true :=
      (Bool.or_eq_true_iff.mp (RetryConfig.switch_of_retries hretries)).resolve_right hconnection
    refine ⟨answered ⟨500, .empty⟩, _,
      finish_firstAttempt_answered (hcan.resolve_left hconnection) _, ?_⟩
    show (cfg.retryOn5xx && _) = true
    rw [h5xx]
    rfl

/-- The first round of the loop, if it is answered. -/
theorem retryLoop_answered {response : BackendResponse}
    (hlast : cfg.shouldRetryStatus response.status = false) (left attempt : Nat)
    (last : Except ProxyError BackendResponse) :
    (retryLoop cfg q (retryAnswered response) (left + 1) attempt last).Emits (.retrySend q) ∧
      ∃ t, (retryLoop cfg q (retryAnswered response) (left + 1) attempt last).finish =
        some (t, .ok response) := by
  have hsend : (retrySend q (some (0, .ok response))).finish = some (0, .ok response) := rfl
  have hdone : ¬ cfg.shouldRetry (forgetResult (.ok response)) = true := Bool.eq_false_iff.mp hlast
  have hround : (retrySend q (some (0, .ok response)) >>= fun result =>
      if cfg.shouldRetry (forgetResult result) then
        retryLoop cfg q (retryAnswered response) left (attempt + 1) result
      else pure result).finish = some (0, .ok response) := by
    rw [Run.finish_bind_of_finish hsend, if_neg hdone]
    rfl
  have hsleep : ((Run.sleep (cfg.calculateDelay (attempt - 1))).during .sleep :
      Run MessageEvent Unit).finish = some (cfg.calculateDelay (attempt - 1), ()) := rfl
  rw [retryLoop]
  constructor
  · refine ⟨_, Run.begins_bind.mpr (.inr ⟨_, (), 0, hsleep, ?_, rfl⟩)⟩
    exact Run.begins_bind.mpr (.inl (Run.begins_bind.mpr (.inl (by simp))))
  · refine ⟨cfg.calculateDelay (attempt - 1) + 0, (Run.finish_bind_of_finish hsleep).trans ?_⟩
    exact congrArg (Option.map _) hround

/-- **A request that can be retried is**, if the first attempt goes wrong. -/
theorem exists_retried (h : c.CanRetry route) (cache : ProtocolCache) (response : BackendResponse)
    (hstatus : response.status = 200) :
    ∃ script, (c.executeRequestWithRetry route cache script).Emits
        (.retrySend (c.request.retryReq route.backend)) ∧
      ∃ t, (c.executeRequestWithRetry route cache script).finish = some (t, .ok response) := by
  obtain ⟨cfg, hcfg, hretries, hcan⟩ := h
  obtain ⟨forward, first, hfirst, hretry⟩ : ∃ forward first,
      (c.firstAttempt route cache forward).finish = some (0, first) ∧
        cfg.shouldRetry (forgetResult first) = true := exists_firstAttempt hretries hcan
  have hagain : ¬ (!cfg.shouldRetry (forgetResult first) || cfg.maxAttempts ≤ 1) = true :=
    fun hend => hretries (RetryConfig.last_iff.mp hend hretry)
  obtain ⟨left, hleft⟩ : ∃ left, cfg.maxAttempts - 1 = left + 1 :=
    Nat.exists_eq_add_one_of_ne_zero (RetryConfig.retries_of_shouldRetry hretry ▸ hretries)
  have hlast : cfg.shouldRetryStatus response.status = false := by
    rw [hstatus]
    cases cfg.retryOn5xx <;> simp [RetryConfig.shouldRetryStatus]
  have hloop := retryLoop_answered (q := c.request.retryReq route.backend) hlast left 1 first
  refine ⟨⟨forward, retryAnswered response⟩, ?_⟩
  rw [executeRequestWithRetry_eq, hcfg, Option.elim_some]
  constructor
  · obtain ⟨t, hbegins⟩ := hloop.1
    refine ⟨0 + t, Run.begins_bind.mpr (.inr ⟨0, first, t, hfirst, ?_, rfl⟩)⟩
    rw [if_neg hagain, hleft]
    exact hbegins
  · obtain ⟨t, hfinish⟩ := hloop.2
    refine ⟨0 + t, (Run.finish_bind_of_finish hfirst).trans ?_⟩
    rw [if_neg hagain, hleft]
    exact congrArg (Option.map _) hfinish

end ClientMessage

/-! ## What a retry repeats -/

/-- The path and query that is asked for; an empty one is `/`. -/
def BackendRequest.target (q : BackendRequest) : Str :=
  if q.pathAndQuery = [] then "/".toList else q.pathAndQuery

/-- The headers that a retry need not repeat. -/
def isExempt (name : Str) : Bool :=
  ["host".toList, "content-length".toList, "content-type".toList,
    "content-encoding".toList].contains name || isHopByHopHeader name

/-- A request has the method, the path and query, and the headers of another one. -/
structure BackendRequest.Repeats (q first : BackendRequest) : Prop where
  method : q.method = first.method
  target : q.target = first.target
  headers : (q.headers.filter fun name => !isExempt name).entries.Perm
    (first.headers.filter fun name => !isExempt name).entries

namespace IncomingRequest

variable {r : IncomingRequest} {backend : Backend} {body : List UInt8}

theorem target_retryReq : (r.retryReq backend).target = (r.backendReq backend body).target := by
  unfold BackendRequest.target retryReq backendReq Uri.path
  cases r.uri.pathAndQuery <;> rfl

theorem isRetried_eq (name : Str) : isRetried name = !isExempt name := by
  simp only [isRetried, isExempt, List.contains_cons, List.contains_nil, Bool.or_false, Bool.not_or,
    bne, Bool.and_assoc]

/-- What is retried is forwarded. -/
theorem isRetried_and_isForwarded (name : Str) :
    (isRetried name && isForwarded name) = isRetried name := by
  have habsorb : ∀ a b c d e : Bool,
      ((a && b && c && d && e) && (a && e)) = (a && b && c && d && e) := by
    decide
  exact habsorb _ _ _ _ _

/-- Both filters let pass what has to be repeated. -/
theorem filter_retryReq :
    ((r.retryReq backend).headers.filter fun name => !isExempt name).entries =
      ((r.backendReq backend body).headers.filter fun name => !isExempt name).entries := by
  simp only [retryReq, backendReq, HeaderMap.entries_filter, HeaderMap.entries_withHost,
    List.filter_append, List.filter_filter, ← isRetried_eq, isRetried_and_isForwarded,
    Bool.and_self]

/-- Only the method can differ. -/
theorem repeats_retryReq_iff :
    (r.retryReq backend).Repeats (r.backendReq backend body) ↔
      retryMethod r.method.toHttpMethod = r.method :=
  ⟨fun h => h.method, fun h => ⟨h, target_retryReq, filter_retryReq ▸ List.Perm.refl _⟩⟩

end IncomingRequest

namespace ClientMessage

variable {c : ClientMessage} {route : RouteMatch} {cache : ProtocolCache} {cfg : RetryConfig}

theorem labels_firstAttempt (script : MessageScript) :
    (c.firstAttempt route cache script).Labels
      (Forwarding.Carries (cache.lookup route.backend.toSocketAddr)
        (c.request.backendReq route.backend c.request.bodyBytes)
        (c.request.fallbackReq route.backend c.request.bodyBytes)) := by
  unfold firstAttempt withOverallTimeout
  split
  · refine Forwarding.labels_forwardToBackend.timeout.bind fun _ result _ => ?_
    cases result <;> exact Run.labels_pure _
  · exact Forwarding.labels_forwardToBackend

/-- The requests of the retry loop are all the same. -/
theorem labels_retryLoop {q : BackendRequest} {P : MessageEvent → Prop} (hattempt : P .attempt)
    (hsleep : P .sleep) (hsend : P (.retrySend q)) (script : Nat → MessageRetry)
    (left attempt : Nat) (last : Except ProxyError BackendResponse) :
    (retryLoop cfg q script left attempt last).Labels P := by
  induction left generalizing attempt last with
  | zero => exact Run.labels_pure _
  | succ left ih =>
      refine Run.Labels.bind (Run.labels_during.mpr ⟨hsleep, Run.labels_wait _⟩) fun _ _ _ => ?_
      cases (script attempt).build with
      | error e => exact Run.labels_pure _
      | ok _ =>
          refine Run.Labels.bind (Run.Labels.bind ?_ fun _ _ _ => Run.labels_pure _) fun _ _ _ => ?_
          · simp [hattempt, hsend]
          · split
            · exact ih _ _
            · exact Run.labels_pure _

theorem eq_retryReq_of_emits {script : MessageExecution} {q : BackendRequest}
    (h : (c.executeRequestWithRetry route cache script).Emits (.retrySend q)) :
    q = c.request.retryReq route.backend ∧ c.CanRetry route := by
  have hfirst : ∀ forward, (c.firstAttempt route cache forward).Labels fun l =>
      ∀ q, l = .retrySend q → q = c.request.retryReq route.backend := by
    intro forward s hs q hq
    have hcarries := labels_firstAttempt forward s hs
    rw [hq] at hcarries
    exact hcarries.elim
  by_cases hcan : c.CanRetry route
  · refine ⟨?_, hcan⟩
    obtain ⟨cfg, hcfg, -, -⟩ := hcan
    rw [executeRequestWithRetry_eq, hcfg, Option.elim_some] at h
    refine Run.Labels.of_emits (Run.Labels.bind (hfirst script.forward) ?_) h q rfl
    intro _ first _
    split
    · exact Run.labels_pure _
    · exact labels_retryLoop (by simp) (by simp) (by simp) _ _ _ _
  · rw [executeRequestWithRetry_of_not_canRetry hcan] at h
    exact ((labels_firstAttempt script.forward).of_emits h).elim

/-- A method that is retried is repeated as it is, if it is known. -/
theorem retryMethod_eq_iff (hcan : c.CanRetry route) :
    IncomingRequest.retryMethod c.request.method.toHttpMethod = c.request.method ↔
      ∀ name, c.request.method ≠ .other name := by
  obtain ⟨cfg, hcfg, -, -⟩ := hcan
  have hmethod : c.request.method.toHttpMethod = .get ∨ c.request.method.toHttpMethod = .head := by
    simp only [ClientRequest.retryConfig, Option.ite_none_right_eq_some] at hcfg
    exact hcfg.1
  cases hname : c.request.method <;>
    simp [hname, HyperMethod.toHttpMethod, IncomingRequest.retryMethod] at hmethod ⊢

/-- **When a retry repeats the request**: unless its method is one that is not known, and it can be
retried. -/
theorem repeats_iff :
    (∀ script q, (c.executeRequestWithRetry route cache script).Emits (.retrySend q) →
        q.Repeats (c.request.backendReq route.backend c.request.bodyBytes)) ↔
      (∀ name, c.request.method ≠ .other name) ∨ ¬ c.CanRetry route := by
  constructor
  · intro h
    by_cases hcan : c.CanRetry route
    · obtain ⟨script, hemits, -⟩ := exists_retried hcan cache ⟨200, .empty⟩ rfl
      have hrepeats := IncomingRequest.repeats_retryReq_iff.mp (h script _ hemits)
      exact .inl ((retryMethod_eq_iff hcan).mp hrepeats)
    · exact .inr hcan
  · intro h script q hemits
    obtain ⟨rfl, hcan⟩ := eq_retryReq_of_emits hemits
    have hknown := h.resolve_right (not_not.mpr hcan)
    exact IncomingRequest.repeats_retryReq_iff.mpr ((retryMethod_eq_iff hcan).mpr hknown)

/-- A request without headers or a body. -/
def plain (method : HyperMethod) : ClientMessage := ⟨⟨method, .origin .root, .empty, []⟩, true⟩

/-- A route with the default retry configuration. -/
def retriedRoute : RouteMatch := ClientRequest.plainMatch none (some ClientRequest.defaultRetry)

/-- **A `PROPFIND` is retried as a `GET`.** -/
theorem exists_retried_as_get :
    ∃ script q,
      ((plain (.other "PROPFIND".toList)).executeRequestWithRetry retriedRoute ∅ script).Emits
        (.retrySend q) ∧ q.method = .get ∧
      ¬ q.Repeats ((plain (.other "PROPFIND".toList)).request.backendReq retriedRoute.backend
        (plain (.other "PROPFIND".toList)).request.bodyBytes) := by
  have hcan : (plain (.other "PROPFIND".toList)).CanRetry retriedRoute :=
    ⟨ClientRequest.defaultRetry, rfl, by decide, .inl rfl⟩
  obtain ⟨script, hemits, -⟩ := exists_retried hcan ∅ ⟨200, .empty⟩ rfl
  refine ⟨script, _, hemits, rfl, ?_⟩
  intro hrepeats
  exact absurd hrepeats.method (by decide)

/-! ## What reaches the client -/

theorem not_hopByHop_filterHopByHop (response : BackendResponse) :
    ¬ response.filterHopByHop.headers.Has isHopByHopHeader := by
  rintro ⟨e, he, hname⟩
  have hkept : (!isHopByHopHeader e.1) = true := (List.mem_filter.mp he).2
  rw [hname] at hkept
  cases hkept

/-- What `forward_to_backend` returns is free of hop-by-hop headers. -/
theorem returns_forwardToBackend {f : Forwarding} {backend : Backend} :
    (f.forwardToBackend cache backend).Returns fun result =>
      ∀ response, result = .ok response → ¬ response.headers.Has isHopByHopHeader := by
  refine Run.Returns.bind (Q := fun _ => True) (fun _ _ _ => trivial) fun body _ => ?_
  cases body with
  | error e => simp
  | ok body =>
      cases f.script.build with
      | error e => simp
      | ok _ =>
          refine Run.Returns.bind (Q := fun _ => True) (fun _ _ _ => trivial) fun result _ => ?_
          cases result with
          | error e => simp [Except.map]
          | ok response =>
              rw [Run.returns_pure]
              rintro _ ⟨⟩
              exact not_hopByHop_filterHopByHop response

theorem returns_firstAttempt (script : MessageScript) :
    (c.firstAttempt route cache script).Returns fun result =>
      ∀ response, result = .ok response → ¬ response.headers.Has isHopByHopHeader :=
  returns_withOverallTimeout returns_forwardToBackend (fun _ _ h => by cases h) _

/-- **When no hop-by-hop header reaches the client**: if the request cannot be retried. -/
theorem not_hopByHop_iff :
    (∀ script t response,
        (c.executeRequestWithRetry route cache script).finish = some (t, .ok response) →
          ¬ response.headers.Has isHopByHopHeader) ↔ ¬ c.CanRetry route := by
  constructor
  · intro h hcan
    let response : BackendResponse := ⟨200, ⟨[("connection".toList, "close".toList)], by decide⟩⟩
    obtain ⟨script, -, t, hfinish⟩ := exists_retried hcan cache response rfl
    exact h script t response hfinish ⟨_, .head _, by decide⟩
  · intro hcan script t response hfinish
    rw [executeRequestWithRetry_of_not_canRetry hcan] at hfinish
    exact returns_firstAttempt script.forward t _ hfinish response rfl

/-- **The response to a retry is passed on with its hop-by-hop headers.** -/
theorem exists_hopByHop_returned :
    ∃ script t response,
      ((plain .get).executeRequestWithRetry retriedRoute ∅ script).finish =
        some (t, .ok response) ∧
      response.headers.get "connection".toList = some "close".toList ∧
      response.headers.Has isHopByHopHeader := by
  have hcan : (plain .get).CanRetry retriedRoute :=
    ⟨ClientRequest.defaultRetry, rfl, by decide, .inl rfl⟩
  let response : BackendResponse := ⟨200, ⟨[("connection".toList, "close".toList)], by decide⟩⟩
  obtain ⟨script, -, t, hfinish⟩ := exists_retried hcan ∅ response rfl
  exact ⟨script, t, response, hfinish, rfl, _, .head _, by decide⟩

end ClientMessage

end Rauta
