import Rauta.Forwarder
import Rauta.Router.Basic

/-!
# Retrying a request

`execute_request_with_retry` forwards a request once, and again if the route is configured for it,
the method may be repeated, and the result asks for it. The first attempt is `forward_to_backend`,
under both timeouts of the route; a retry is a plain HTTP/1.1 request under none of them.

Whether the method may be repeated is asked of the routing method, and `handle_request` makes a
`GET` of every method it does not know.

The two theorems weigh this against what one would expect: how often a request is handed to a
sender, and how long the caller waits. For each the worst case is determined exactly, so that the
expectation can be compared with it.
-/

namespace Rauta

open Async

/-! ## The retry configuration -/

namespace RetryConfig

/-- `calculate_delay`, in nanoseconds; the product of milliseconds is a 64-bit one. -/
def calculateDelay (cfg : RetryConfig) (attempt : Nat) : Nat :=
  min (cfg.baseDelay / 1000000 % 2 ^ 64 * 2 ^ min attempt 10 % 2 ^ 64 * 1000000) cfg.maxDelay

/-- `should_retry_status`. -/
def shouldRetryStatus (cfg : RetryConfig) (status : Nat) : Bool :=
  cfg.retryOn5xx && (500 ≤ status && status < 600)

/-- Whether a result is to be retried. -/
def shouldRetry (cfg : RetryConfig) : Except ProxyError Nat → Bool
  | .ok status => cfg.shouldRetryStatus status
  | .error _ => cfg.retryOnConnectionError

/-- `max_attempts`, a 32-bit number. -/
def maxAttempts (cfg : RetryConfig) : Nat := (cfg.maxRetries + 1) % 2 ^ 32

end RetryConfig

/-! ## The functions -/

/-- The routing method that `handle_request` gives a request. -/
def HyperMethod.toHttpMethod : HyperMethod → HttpMethod
  | .get => .get
  | .post => .post
  | .put => .put
  | .delete => .delete
  | .head => .head
  | .options => .options
  | .patch => .patch
  -- the fallback of `handle_request`, which makes an unknown method a retryable one
  | .other _ => .get

/-- What happens outside during one retry. -/
structure RetryScript where
  build : Except Str Unit
  reply : Reply

/-- What happens outside while a request is executed: the first attempt, and the retries by their
number. -/
structure ExecuteScript where
  forward : ForwardScript
  retry : Nat → RetryScript

/-- The error of the overall timeout. -/
def overallTimeout (d : Nat) : ProxyError :=
  .timeout ("Request exceeded ".toList ++ decimal (d / 1000000) ++ "ms overall timeout".toList)

/-- A request under the overall timeout, if there is one. -/
def withOverallTimeout (timeout : Option Nat) (m : Run ForwardEvent (Except ProxyError Nat)) :
    Run ForwardEvent (Except ProxyError Nat) :=
  match timeout with
  | some d => do
    match ← m.timeout d with
    | some result => pure result
    | none => pure (.error (overallTimeout d))
  | none => m

/-- The send of a retry. -/
def retrySend (reply : Reply) : Run ForwardEvent (Except ProxyError Nat) := do
  let reply ← ((Run.wait reply).during .http1Send).during .attempt
  pure (reply.mapError fun e => .backendError ("Retry request failed: ".toList ++ e))

/-- The retry loop: `left` rounds are left, this is number `attempt`, and `last` is the result so
far. -/
def retryLoop (cfg : RetryConfig) (script : Nat → RetryScript) : (left attempt : Nat) →
    (last : Except ProxyError Nat) → Run ForwardEvent (Except ProxyError Nat)
  | 0, _, last => pure last
  | left + 1, attempt, _ => do
    Run.sleep (cfg.calculateDelay (attempt - 1))
    match (script attempt).build with
    | .error e => pure (.error (.backendError ("Failed to build retry request: ".toList ++ e)))
    | .ok () =>
      -- sent by the HTTP/1.1 client itself: neither the cache nor a timeout is looked at
      let result ← retrySend (script attempt).reply
      if cfg.shouldRetry result then retryLoop cfg script left (attempt + 1) result
      else pure result

/-- A request that arrives. -/
structure ClientRequest where
  method : HyperMethod
  viaWorker : Bool

namespace ClientRequest

/-- The first attempt, under the overall timeout. -/
def firstAttempt (req : ClientRequest) (route : RouteMatch) (cache : ProtocolCache)
    (script : ForwardScript) : Run ForwardEvent (Except ProxyError Nat) :=
  withOverallTimeout (route.timeout.bind (·.request))
    (ForwardRequest.forwardToBackend ⟨req.method, req.viaWorker, route.timeout, script⟩ cache
      route.backend)

/-- `execute_with_retry`. -/
def executeWithRetry (req : ClientRequest) (route : RouteMatch) (cache : ProtocolCache)
    (script : ExecuteScript) (cfg : RetryConfig) : Run ForwardEvent (Except ProxyError Nat) := do
  let first ← req.firstAttempt route cache script.forward
  if !cfg.shouldRetry first || cfg.maxAttempts ≤ 1 then pure first
  else retryLoop cfg script.retry (cfg.maxAttempts - 1) 1 first

/-- `execute_request_with_retry`, with the method that `handle_request` passes. -/
def executeRequestWithRetry (req : ClientRequest) (route : RouteMatch) (cache : ProtocolCache)
    (script : ExecuteScript) : Run ForwardEvent (Except ProxyError Nat) :=
  let method := req.method.toHttpMethod
  let isRetryableMethod : Bool := method = .get ∨ method = .head
  match isRetryableMethod, route.retry with
  | true, some cfg => req.executeWithRetry route cache script cfg
  | _, _ => req.firstAttempt route cache script.forward

end ClientRequest

/-! ## How often a request is sent -/

/-- How often a request is handed to a sender. -/
def sends (m : Run ForwardEvent (Except ProxyError Nat)) : Nat := m.count ForwardEvent.isSend

/-- The most that a first attempt can need, by what the cache says. -/
def firstSends (cached : Option Bool) : Nat := if cached = none then 2 else 1

/-- How often the retry loop can go round. -/
def RetryConfig.retries (cfg : RetryConfig) : Nat :=
  if cfg.retryOn5xx || cfg.retryOnConnectionError then cfg.maxAttempts - 1 else 0

/-- Something is retried only if one of the two switches is on. -/
theorem RetryConfig.switch_of_shouldRetry {cfg : RetryConfig} {result : Except ProxyError Nat}
    (h : cfg.shouldRetry result = true) :
    (cfg.retryOn5xx || cfg.retryOnConnectionError) = true := by
  cases result with
  | ok status =>
      have h5xx : cfg.retryOn5xx = true := (Bool.and_eq_true_iff.mp h).1
      simp [h5xx]
  | error e =>
      have hconnection : cfg.retryOnConnectionError = true := h
      simp [hconnection]

theorem RetryConfig.retries_of_shouldRetry {cfg : RetryConfig} {result : Except ProxyError Nat}
    (h : cfg.shouldRetry result = true) : cfg.retries = cfg.maxAttempts - 1 :=
  if_pos (RetryConfig.switch_of_shouldRetry h)

theorem RetryConfig.switch_of_retries {cfg : RetryConfig} (h : cfg.retries ≠ 0) :
    (cfg.retryOn5xx || cfg.retryOnConnectionError) = true := by
  unfold RetryConfig.retries at h
  split at h
  · assumption
  · exact absurd rfl h

/-- A result is the last one unless it is to be retried, and can be. -/
theorem RetryConfig.last_iff {cfg : RetryConfig} {result : Except ProxyError Nat} :
    (!cfg.shouldRetry result || cfg.maxAttempts ≤ 1) = true ↔
      (cfg.shouldRetry result = true → cfg.retries = 0) := by
  cases hresult : cfg.shouldRetry result with
  | false => simp
  | true =>
      rw [RetryConfig.retries_of_shouldRetry hresult]
      simp only [Bool.not_true, Bool.false_or, decide_eq_true_eq, forall_const]
      omega

theorem RetryConfig.retries_le (cfg : RetryConfig) : cfg.retries ≤ cfg.maxRetries := by
  have hmod : cfg.maxAttempts ≤ cfg.maxRetries + 1 := Nat.mod_le _ _
  unfold retries
  split <;> omega

namespace ForwardRequest

variable {r : ForwardRequest} {cached : Option Bool} {cache : ProtocolCache} {backend : Backend}

theorem count_sendHttp1_le : r.sendHttp1.count ForwardEvent.isSend ≤ 1 :=
  Run.count_bind_le (k := 1) (l := 0) (by simp [ForwardEvent.isSend]) (by simp)

theorem count_afterHttp2_le (reply : Except Str Nat) :
    (r.afterHttp2 cached reply).count ForwardEvent.isSend ≤ firstSends cached - 1 := by
  cases reply with
  | ok status =>
      refine Nat.le_trans (Run.count_bind_le (k := 0) (l := 0) ?_ ?_) (Nat.zero_le _)
      · simp [Run.note, ForwardEvent.isSend]
      · simp
  | error e =>
      cases cached with
      | none =>
          -- the fallback is the second send of an attempt
          refine Run.count_bind_le (k := 0) (l := 1) ?_ fun _ _ _ => count_sendHttp1_le
          simp [Run.note, ForwardEvent.isSend]
      | some _ => exact Nat.zero_le _

theorem count_backendRequest_le :
    (r.backendRequest cached).count ForwardEvent.isSend ≤ firstSends cached := by
  unfold backendRequest
  split
  · next hcached =>
      subst hcached
      exact count_sendHttp1_le
  · have hfirst : firstSends cached = 0 + (1 + (firstSends cached - 1)) := by
      unfold firstSends
      split <;> rfl
    rw [hfirst]
    refine Run.count_bind_le (by simp) fun t connection _ => ?_
    cases connection with
    | error e => simp
    | ok _ =>
        refine Run.count_bind_le ?_ fun _ reply _ => count_afterHttp2_le reply
        simp [ForwardEvent.isSend]

theorem count_attempt_le :
    (r.attempt cached).count ForwardEvent.isSend ≤ firstSends cached := by
  have hfuture : ((r.backendRequest cached).during .attempt).count ForwardEvent.isSend ≤
      firstSends cached := by
    simpa [ForwardEvent.isSend] using count_backendRequest_le
  unfold attempt
  cases r.timeout.bind (·.backendRequest) with
  | none => exact Run.count_bind_le (l := 0) hfuture (by simp)
  | some d =>
      refine Run.count_bind_le (l := 0) (Nat.le_trans Run.count_timeout_le hfuture) ?_
      intro _ reply _
      cases reply <;> simp

theorem count_forwardToBackend_le :
    (r.forwardToBackend cache backend).count ForwardEvent.isSend ≤
      firstSends (cache.lookup backend.toSocketAddr) := by
  have hbody : r.readBody.count ForwardEvent.isSend ≤ 0 := by
    unfold readBody
    split <;> simp
  rw [← Nat.zero_add (firstSends _)]
  refine Run.count_bind_le hbody fun _ body _ => ?_
  cases body with
  | error e => simp
  | ok _ =>
      cases r.script.build with
      | error e => simp
      | ok _ => exact count_attempt_le

end ForwardRequest

theorem count_withOverallTimeout_le (timeout : Option Nat)
    (m : Run ForwardEvent (Except ProxyError Nat)) :
    (withOverallTimeout timeout m).count ForwardEvent.isSend ≤ m.count ForwardEvent.isSend := by
  cases timeout with
  | none => exact Nat.le_refl _
  | some d =>
      refine Run.count_bind_le (l := 0) Run.count_timeout_le ?_
      intro _ result _
      cases result <;> simp

theorem count_retryLoop_le (cfg : RetryConfig) (script : Nat → RetryScript) (left attempt : Nat)
    (last : Except ProxyError Nat) :
    (retryLoop cfg script left attempt last).count ForwardEvent.isSend ≤ left := by
  induction left generalizing attempt last with
  | zero => simp [retryLoop]
  | succ left ih =>
      rw [retryLoop, ← Nat.zero_add (left + 1), Nat.add_comm left 1]
      refine Run.count_bind_le (by simp [Run.sleep]) fun _ _ _ => ?_
      cases (script attempt).build with
      | error e => simp
      | ok _ =>
          refine Run.count_bind_le ?_ fun _ result _ => ?_
          · exact Run.count_bind_le (k := 1) (l := 0) (by simp [ForwardEvent.isSend]) (by simp)
          · split
            · exact ih _ _
            · simp

/-! ## The worst case

Everything answers at once, and as badly as it can: an HTTP/2 send to an unknown backend fails, and
every other answer is one that is retried if anything is. -/

/-- An answer that is retried if anything is. -/
def RetryConfig.badReply (cfg : RetryConfig) : Except Str Nat :=
  if cfg.retryOn5xx then .ok 500 else .error []

/-- The first attempt of the worst case. -/
def ForwardScript.worst (cached : Option Bool) (reply : Except Str Nat) : ForwardScript where
  body := some (0, .ok ())
  build := .ok ()
  connection := some (0, .ok ())
  http2 := some (0, if cached = none then .error [] else reply)
  http1 := some (0, reply)

/-- Two results are of one kind: the same status, or both errors. -/
def SameKind {ε ε' : Type} (reply : Except ε Nat) (result : Except ε' Nat) : Prop :=
  reply.toOption = result.toOption

theorem sameKind_mapError {ε ε' ε'' : Type} {reply : Except ε Nat} {result : Except ε' Nat}
    {f : ε' → ε''} (h : SameKind reply result) : SameKind reply (result.mapError f) := by
  cases result <;> exact h

/-- What is retried depends on the kind of the result only. -/
theorem RetryConfig.shouldRetry_badReply (cfg : RetryConfig) {result : Except ProxyError Nat}
    (h : SameKind cfg.badReply result) :
    cfg.shouldRetry result = (cfg.retryOn5xx || cfg.retryOnConnectionError) := by
  unfold badReply at h
  cases h5xx : cfg.retryOn5xx with
  | true =>
      cases result with
      | error e => simp [SameKind, h5xx, Except.toOption] at h
      | ok status =>
          obtain rfl : 500 = status := by simpa [SameKind, h5xx, Except.toOption] using h
          simp [shouldRetry, shouldRetryStatus, h5xx]
  | false =>
      cases result with
      | error e => simp [shouldRetry]
      | ok status => simp [SameKind, h5xx, Except.toOption] at h

namespace ForwardRequest

variable {r : ForwardRequest} {cached : Option Bool} {reply : Except Str Nat}

theorem ends_backendRequest_worst (h : r.script = .worst cached reply) :
    ∃ result, (r.backendRequest cached).Ends ForwardEvent.isSend 0 result (firstSends cached) ∧
      SameKind reply result := by
  obtain ⟨method, viaWorker, timeout, script⟩ := r
  cases h
  -- with the answers fixed, each of the three protocol decisions can be run
  rcases cached with _ | _ | _ <;> cases reply <;> exact ⟨_, ⟨rfl, rfl⟩, rfl⟩

theorem ends_attempt_worst (h : r.script = .worst cached reply) :
    ∃ result, (r.attempt cached).Ends ForwardEvent.isSend 0 result (firstSends cached) ∧
      SameKind reply result := by
  obtain ⟨result, hends, hkind⟩ := ends_backendRequest_worst h
  have hfuture : ((r.backendRequest cached).during .attempt).Ends ForwardEvent.isSend 0 result
      (firstSends cached) :=
    ⟨hends.finish, by simp [ForwardEvent.isSend, hends.count]⟩
  refine ⟨result.mapError .backendError, ?_, sameKind_mapError hkind⟩
  unfold attempt
  cases r.timeout.bind (·.backendRequest) with
  | none => exact hfuture.bind (Run.ends_pure _) rfl rfl
  | some d => exact (hfuture.timeout (Nat.zero_le d)).bind (Run.ends_pure _) rfl rfl

theorem ends_forwardToBackend_worst {cache : ProtocolCache} {backend : Backend}
    (h : r.script = .worst (cache.lookup backend.toSocketAddr) reply) :
    ∃ result, (r.forwardToBackend cache backend).Ends ForwardEvent.isSend 0 result
      (firstSends (cache.lookup backend.toSocketAddr)) ∧ SameKind reply result := by
  obtain ⟨result, hends, hkind⟩ := ends_attempt_worst h
  have hbody : r.readBody.Ends ForwardEvent.isSend 0 (.ok ()) 0 := by
    unfold readBody
    split
    · exact ⟨rfl, rfl⟩
    · rw [h]
      exact ⟨rfl, rfl⟩
  refine ⟨result, hbody.bind ?_ (Nat.zero_add 0) (Nat.zero_add _), hkind⟩
  simp only [h, ForwardScript.worst]
  exact hends

end ForwardRequest

theorem ends_withOverallTimeout {m : Run ForwardEvent (Except ProxyError Nat)}
    {result : Except ProxyError Nat} {k : Nat} (h : m.Ends ForwardEvent.isSend 0 result k)
    (timeout : Option Nat) :
    (withOverallTimeout timeout m).Ends ForwardEvent.isSend 0 result k := by
  cases timeout with
  | none => exact h
  | some d => exact (h.timeout (Nat.zero_le d)).bind (Run.ends_pure _) rfl rfl

/-- The loop goes round as often as it may if every answer is retried. -/
theorem ends_retryLoop {cfg : RetryConfig}
    (hbad : (cfg.retryOn5xx || cfg.retryOnConnectionError) = true) (left attempt : Nat)
    (last : Except ProxyError Nat) :
    ∃ t result, (retryLoop cfg (fun _ => ⟨.ok (), some (0, cfg.badReply)⟩) left attempt last).Ends
      ForwardEvent.isSend t result left := by
  induction left generalizing attempt last with
  | zero => exact ⟨0, last, Run.ends_pure last⟩
  | succ left ih =>
      have hsend : ∃ result,
          (retrySend (some (0, cfg.badReply))).Ends ForwardEvent.isSend 0 result 1 ∧
            SameKind cfg.badReply result :=
        ⟨_, ⟨rfl, rfl⟩, sameKind_mapError rfl⟩
      obtain ⟨result, hsend, hkind⟩ := hsend
      obtain ⟨t, result', hloop⟩ := ih (attempt + 1) result
      have hsleep : (Run.sleep (cfg.calculateDelay (attempt - 1)) : Run ForwardEvent Unit).Ends
          ForwardEvent.isSend (cfg.calculateDelay (attempt - 1)) () 0 := ⟨rfl, rfl⟩
      refine ⟨cfg.calculateDelay (attempt - 1) + (0 + t), result',
        hsleep.bind (hsend.bind ?_ rfl (Nat.add_comm 1 left)) rfl (Nat.zero_add _)⟩
      rw [if_pos ((cfg.shouldRetry_badReply hkind).trans hbad)]
      exact hloop

namespace ClientRequest

variable (req : ClientRequest) (route : RouteMatch) (cache : ProtocolCache)

/-- The configuration under which a request is retried, if it can be. -/
def retryConfig : Option RetryConfig :=
  if req.method.toHttpMethod = .get ∨ req.method.toHttpMethod = .head then route.retry else none

/-- How often a request can be retried. -/
def retries : Nat := ((req.retryConfig route).map (·.retries)).getD 0

theorem executeRequestWithRetry_eq (script : ExecuteScript) :
    req.executeRequestWithRetry route cache script =
      match req.retryConfig route with
      | some cfg => req.executeWithRetry route cache script cfg
      | none => req.firstAttempt route cache script.forward := by
  unfold executeRequestWithRetry retryConfig
  by_cases hmethod : req.method.toHttpMethod = .get ∨ req.method.toHttpMethod = .head
  · simp only [hmethod, decide_true, if_true]
    cases route.retry <;> rfl
  · simp only [hmethod, decide_false, if_false]

theorem sends_le (script : ExecuteScript) :
    sends (req.executeRequestWithRetry route cache script) ≤
      firstSends (cache.lookup route.backend.toSocketAddr) + req.retries route := by
  have hfirst : (req.firstAttempt route cache script.forward).count ForwardEvent.isSend ≤
      firstSends (cache.lookup route.backend.toSocketAddr) :=
    Nat.le_trans (count_withOverallTimeout_le _ _) ForwardRequest.count_forwardToBackend_le
  rw [sends, executeRequestWithRetry_eq, retries]
  cases req.retryConfig route with
  | none => exact hfirst
  | some cfg =>
      refine Run.count_bind_le hfirst fun _ first _ => ?_
      split
      · simp
      · next hagain =>
          rw [RetryConfig.last_iff, Classical.not_imp] at hagain
          show _ ≤ cfg.retries
          rw [RetryConfig.retries_of_shouldRetry hagain.1]
          exact count_retryLoop_le _ _ _ _ _

theorem ends_firstAttempt_worst (reply : Except Str Nat) :
    ∃ result,
      (req.firstAttempt route cache (.worst (cache.lookup route.backend.toSocketAddr) reply)).Ends
        ForwardEvent.isSend 0 result (firstSends (cache.lookup route.backend.toSocketAddr)) ∧
      SameKind reply result := by
  obtain ⟨result, hends, hkind⟩ := ForwardRequest.ends_forwardToBackend_worst
    (r := ⟨req.method, req.viaWorker, route.timeout,
      .worst (cache.lookup route.backend.toSocketAddr) reply⟩) rfl
  exact ⟨result, ends_withOverallTimeout hends _, hkind⟩

/-- The worst case is as bad as that. -/
theorem exists_sends_eq :
    ∃ script, sends (req.executeRequestWithRetry route cache script) =
      firstSends (cache.lookup route.backend.toSocketAddr) + req.retries route := by
  cases hcfg : req.retryConfig route with
  | none =>
      -- no retries, so the answer of the first attempt does not matter
      obtain ⟨result, hends, -⟩ := req.ends_firstAttempt_worst route cache (.ok 200)
      refine ⟨⟨.worst (cache.lookup route.backend.toSocketAddr) (.ok 200),
        fun _ => ⟨.ok (), none⟩⟩, ?_⟩
      simp only [sends, executeRequestWithRetry_eq, hcfg, retries]
      exact hends.count
  | some cfg =>
      obtain ⟨first, hends, hkind⟩ := req.ends_firstAttempt_worst route cache cfg.badReply
      refine ⟨⟨.worst (cache.lookup route.backend.toSocketAddr) cfg.badReply,
        fun _ => ⟨.ok (), some (0, cfg.badReply)⟩⟩, ?_⟩
      simp only [sends, executeRequestWithRetry_eq, hcfg, retries]
      rw [executeWithRetry, Run.count_bind_of_finish hends.finish, hends.count]
      congr 1
      rw [cfg.shouldRetry_badReply hkind]
      show _ = cfg.retries
      unfold RetryConfig.retries
      by_cases hbad : (cfg.retryOn5xx || cfg.retryOnConnectionError) = true
      · by_cases hmax : cfg.maxAttempts ≤ 1
        · simp [hbad, hmax]
        · obtain ⟨t, result, hloop⟩ := ends_retryLoop hbad (cfg.maxAttempts - 1) 1 first
          simpa [hbad, hmax] using hloop.count
      · simp [hbad]

/-- The number of sends that is expected at most: one for a request that may not be repeated. -/
def allowedSends : Nat :=
  if req.method = .get ∨ req.method = .head then (route.retry.map (·.maxRetries + 1)).getD 1 else 1

/-- The protocol of the backend is known, and a method that is not known is not retried; or the
protocol is not known, and a `GET` or `HEAD` is retried less often than it is configured for. -/
def SendsFit : Prop :=
  (cache.lookup route.backend.toSocketAddr ≠ none ∧
    ∀ name, req.method = .other name → ∀ cfg, route.retry = some cfg → cfg.retries = 0) ∨
  (cache.lookup route.backend.toSocketAddr = none ∧ (req.method = .get ∨ req.method = .head) ∧
    ∃ cfg, route.retry = some cfg ∧ cfg.retries < cfg.maxRetries)

/-- **How often a request is sent**: never more often than expected, whatever happens, if and only
if the request fits. -/
theorem sends_le_allowedSends_iff :
    (∀ script, sends (req.executeRequestWithRetry route cache script) ≤ req.allowedSends route) ↔
      req.SendsFit route cache := by
  have hworst : (∀ script, sends (req.executeRequestWithRetry route cache script) ≤
      req.allowedSends route) ↔
        firstSends (cache.lookup route.backend.toSocketAddr) + req.retries route ≤
          req.allowedSends route := by
    constructor
    · intro h
      obtain ⟨script, hscript⟩ := req.exists_sends_eq route cache
      exact hscript ▸ h script
    · intro h script
      exact Nat.le_trans (req.sends_le route cache script) h
  rw [hworst]
  -- what is left compares two numbers, by what is known of the backend and by the method
  simp only [firstSends, retries, retryConfig, allowedSends, SendsFit]
  cases hretry : route.retry with
  | none =>
      by_cases hunknown : cache.lookup route.backend.toSocketAddr = none <;> simp [hunknown]
  | some cfg =>
      have hle := cfg.retries_le
      by_cases hunknown : cache.lookup route.backend.toSocketAddr = none <;>
        cases hmethod : req.method <;> simp [hunknown, HyperMethod.toHttpMethod] <;> omega

/-- A route to the sample backend. -/
def plainMatch (timeout : Option Timeout) (retry : Option RetryConfig) : RouteMatch :=
  ⟨.sample, "/".toList, none, none, none, timeout, retry⟩

/-- `RetryConfig::default`. -/
def defaultRetry : RetryConfig := ⟨3, 25000000, 1000000000, true, true⟩

/-- **A request that is not to be repeated is sent more than once**: a `POST` to a backend that is
not known yet, and a method that is taken for a `GET`. -/
theorem exists_sent_repeatedly :
    (∃ script, allowedSends ⟨.post, true⟩ (plainMatch none none) <
      sends (executeRequestWithRetry ⟨.post, true⟩ (plainMatch none none) ∅ script)) ∧
    (∃ name cache script, cache.lookup Backend.sample.toSocketAddr = some false ∧
      allowedSends ⟨.other name, true⟩ (plainMatch none (some defaultRetry)) <
        sends (executeRequestWithRetry ⟨.other name, true⟩ (plainMatch none (some defaultRetry))
          cache script)) := by
  constructor
  · exact ⟨⟨.worst none (.ok 200), fun _ => ⟨.ok (), none⟩⟩, by decide +kernel⟩
  · refine ⟨"PROPFIND".toList, AList.singleton Backend.sample.toSocketAddr false,
      ⟨.worst (some false) (.ok 500), fun _ => ⟨.ok (), some (0, .ok 500)⟩⟩, ?_, ?_⟩
    · decide +kernel
    · decide +kernel

end ClientRequest

/-! ## How long the caller waits -/

/-- The label of an attempt. -/
def ForwardEvent.isAttempt (e : ForwardEvent) : Bool := e = .attempt

namespace ForwardRequest

variable {r : ForwardRequest} {cached : Option Bool} {d : Nat}

/-- The backend timeout bounds the first attempt. -/
theorem within_attempt (htimeout : r.timeout.bind (·.backendRequest) = some d) :
    (r.attempt cached).Within ForwardEvent.isAttempt d := by
  unfold attempt
  rw [htimeout]
  refine Run.within_bind (Run.within_timeout _ _ d) fun reply => ?_
  cases reply <;> simp [Run.Within]

theorem within_forwardToBackend {cache : ProtocolCache} {backend : Backend}
    (htimeout : r.timeout.bind (·.backendRequest) = some d) :
    (r.forwardToBackend cache backend).Within ForwardEvent.isAttempt d := by
  refine Run.within_bind ?_ fun body => ?_
  · unfold readBody
    split <;> simp [Run.Within]
  · cases body with
    | error e => simp [Run.Within]
    | ok _ =>
        cases r.script.build with
        | error e => simp [Run.Within]
        | ok _ => exact within_attempt htimeout

end ForwardRequest

/-- A retry that is never answered. -/
theorem retryLoop_stuck (cfg : RetryConfig) (left attempt : Nat) (last : Except ProxyError Nat) :
    (retryLoop cfg (fun _ => ⟨.ok (), none⟩) (left + 1) attempt last).finish = none ∧
      ∃ s ∈ (retryLoop cfg (fun _ => ⟨.ok (), none⟩) (left + 1) attempt last).spans,
        s.label = .attempt ∧ s.length = none :=
  ⟨rfl, _, .head _, rfl, rfl⟩

namespace ClientRequest

variable (req : ClientRequest) (route : RouteMatch) (cache : ProtocolCache)

/-- The overall timeout bounds the whole request, and the backend timeout every attempt. -/
def DeadlinesKept : Prop :=
  (∀ d, route.timeout.bind (·.request) = some d → ∀ script,
    ∃ t result, (req.executeRequestWithRetry route cache script).finish = some (t, result) ∧
      t ≤ d) ∧
  (∀ d, route.timeout.bind (·.backendRequest) = some d → ∀ script,
    ∀ s ∈ (req.executeRequestWithRetry route cache script).spans, s.label = .attempt →
      ∃ l, s.length = some l ∧ l ≤ d)

variable {req route cache}

/-- Without retries there is only the first attempt. -/
theorem executeRequestWithRetry_of_retries (h : req.retries route = 0) (script : ExecuteScript) :
    req.executeRequestWithRetry route cache script =
      req.firstAttempt route cache script.forward := by
  rw [executeRequestWithRetry_eq]
  cases hcfg : req.retryConfig route with
  | none => rfl
  | some cfg =>
      have hzero : cfg.retries = 0 := by simpa [retries, hcfg] using h
      show (req.firstAttempt route cache script.forward >>= fun first => _) = _
      simp only [RetryConfig.last_iff.mpr fun _ => hzero, if_true]
      exact Run.bind_pure' _

theorem finish_firstAttempt {d : Nat} (htimeout : route.timeout.bind (·.request) = some d)
    (script : ForwardScript) :
    ∃ t result, (req.firstAttempt route cache script).finish = some (t, result) ∧ t ≤ d := by
  unfold firstAttempt
  rw [htimeout]
  obtain ⟨t, result, hfinish, hle⟩ := Run.finish_timeout
    (ForwardRequest.forwardToBackend ⟨req.method, req.viaWorker, route.timeout, script⟩ cache
      route.backend) d
  cases result <;> exact ⟨t, _, Run.finish_bind_of_finish hfinish, hle⟩

theorem within_firstAttempt {d : Nat} (htimeout : route.timeout.bind (·.backendRequest) = some d)
    (script : ForwardScript) :
    (req.firstAttempt route cache script).Within ForwardEvent.isAttempt d := by
  have hforward : (ForwardRequest.forwardToBackend ⟨req.method, req.viaWorker, route.timeout,
      script⟩ cache route.backend).Within ForwardEvent.isAttempt d :=
    ForwardRequest.within_forwardToBackend htimeout
  unfold firstAttempt withOverallTimeout
  split
  · refine Run.within_bind hforward.timeout fun result => ?_
    cases result <;> simp [Run.Within]
  · exact hforward

/-- A request that can be retried can wait for ever. -/
theorem exists_stuck (cache : ProtocolCache) (h : req.retries route ≠ 0) :
    ∃ script, (req.executeRequestWithRetry route cache script).finish = none ∧
      ∃ s ∈ (req.executeRequestWithRetry route cache script).spans,
        s.label = .attempt ∧ s.length = none := by
  cases hcfg : req.retryConfig route with
  | none => simp [retries, hcfg] at h
  | some cfg =>
      have hretries : cfg.retries ≠ 0 := by simpa [retries, hcfg] using h
      obtain ⟨first, hends, hkind⟩ := req.ends_firstAttempt_worst route cache cfg.badReply
      have hretry : cfg.shouldRetry first = true :=
        (cfg.shouldRetry_badReply hkind).trans (RetryConfig.switch_of_retries hretries)
      have hagain : ¬ (!cfg.shouldRetry first || cfg.maxAttempts ≤ 1) = true :=
        fun hlast => hretries (RetryConfig.last_iff.mp hlast hretry)
      obtain ⟨left, hleft⟩ : ∃ left, cfg.maxAttempts - 1 = left + 1 :=
        Nat.exists_eq_add_one_of_ne_zero (RetryConfig.retries_of_shouldRetry hretry ▸ hretries)
      obtain ⟨hstuck, s, hs, hlabel, hlength⟩ := retryLoop_stuck cfg left 1 first
      refine ⟨⟨.worst (cache.lookup route.backend.toSocketAddr) cfg.badReply,
        fun _ => ⟨.ok (), none⟩⟩, ?_⟩
      rw [executeRequestWithRetry_eq, hcfg]
      simp only [executeWithRetry, Run.finish_bind_of_finish hends.finish,
        Run.spans_bind_of_finish hends.finish, if_neg hagain, hleft, hstuck]
      exact ⟨rfl, s.delay 0, List.mem_append_right _ (List.mem_map_of_mem hs), hlabel, hlength⟩

variable (req route cache)

/-- **The timeouts bound what they are said to bound** if and only if the request cannot be retried,
or neither timeout is set. -/
theorem deadlinesKept_iff :
    req.DeadlinesKept route cache ↔ req.retries route = 0 ∨
      (route.timeout.bind (·.request) = none ∧ route.timeout.bind (·.backendRequest) = none) := by
  constructor
  · rintro ⟨hrequest, hbackend⟩
    by_cases hretries : req.retries route = 0
    · exact .inl hretries
    · obtain ⟨script, hstuck, s, hs, hlabel, hlength⟩ := exists_stuck cache hretries
      refine .inr ⟨?_, ?_⟩
      · by_contra hset
        obtain ⟨d, hd⟩ := Option.ne_none_iff_exists'.mp hset
        obtain ⟨t, result, hfinish, -⟩ := hrequest d hd script
        rw [hstuck] at hfinish
        cases hfinish
      · by_contra hset
        obtain ⟨d, hd⟩ := Option.ne_none_iff_exists'.mp hset
        obtain ⟨l, hl, -⟩ := hbackend d hd script s hs hlabel
        rw [hlength] at hl
        cases hl
  · rintro (hretries | ⟨hrequest, hbackend⟩)
    · refine ⟨fun d hd script => ?_, fun d hd script s hs hlabel => ?_⟩
      · rw [executeRequestWithRetry_of_retries hretries]
        exact finish_firstAttempt hd _
      · rw [executeRequestWithRetry_of_retries hretries] at hs
        exact within_firstAttempt hd _ s hs (by simp [ForwardEvent.isAttempt, hlabel])
    · refine ⟨fun d hd => ?_, fun d hd => ?_⟩
      · rw [hrequest] at hd
        cases hd
      · rw [hbackend] at hd
        cases hd

/-- **A retry without a deadline**: with both timeouts set to a second and the default retries, a
request can wait for ever. -/
theorem exists_not_deadlinesKept :
    ¬ ∀ req route cache, DeadlinesKept req route cache := by
  intro h
  obtain ⟨t, result, hfinish, -⟩ := (h ⟨.get, true⟩
    (plainMatch (some ⟨some 1000000000, some 1000000000⟩) (some defaultRetry)) ∅).1 1000000000 rfl
    ⟨.worst none (.ok 500), fun _ => ⟨.ok (), none⟩⟩
  cases hfinish

end ClientRequest

end Rauta
