import Rauta.BackendPools
import Rauta.Filters
import Rauta.Lib.Async

/-!
# Forwarding a request

`forward_to_backend` reads the request's body, asks the protocol cache how the backend is spoken to,
and sends the request: over HTTP/1.1 if the backend is known for it, over HTTP/2 otherwise. If
nothing is known and the HTTP/2 send fails, the backend is entered as one that speaks HTTP/1.1, and
the request is sent again that way.

What happens outside is a script: how long each wait takes and what comes of it, `none` for a wait
without end. The function is then a `Run`, whose spans say what was sent when. The cache is written
once, at the moment of the `cacheHttp1` note, so a request that is dropped before does not write it.

The cache key is the text of the backend's socket address, which differs for different addresses, so
here it is the address itself. Building the fallback request cannot fail: its method, URI and `Host`
header have been accepted for the first one.
-/

namespace Rauta

open Async Transition

/-! ## Data -/

/-- `hyper::Method`. -/
inductive HyperMethod where
  | get
  | post
  | put
  | delete
  | head
  | options
  | patch
  | other (name : Str)
  deriving DecidableEq

/-- The `Display` text of a pool error. -/
def PoolError.display : PoolError → Str
  | .circuitBreakerOpen => "Circuit breaker is open".toList
  | .connectionFailed message => "Connection failed: ".toList ++ message
  | .handshakeFailed message => "HTTP/2 handshake failed: ".toList ++ message
  | .noCapacity => "No connections have capacity".toList
  | .queueTimeout => "Queue timeout".toList

/-- `ProtocolCache`: whether a backend speaks HTTP/2. -/
abbrev ProtocolCache := AList fun _ : SocketAddr => Bool

/-- How reading the request's body can fail. -/
inductive BodyError where
  | lengthLimit
  | read (message : Str)

/-- What comes of a send, and when: the status of the response, or the text of an error. -/
abbrev Reply := Option (Nat × Except Str Nat)

/-- What happens outside while a request is forwarded. There is at most one HTTP/1.1 send. -/
structure ForwardScript where
  body : Option (Nat × Except BodyError Unit)
  build : Except Str Unit
  connection : Option (Nat × Except PoolError Unit)
  http2 : Reply
  http1 : Reply

/-- What the runs are about. -/
inductive ForwardEvent where
  | attempt
  | http2Send
  | http2Answer
  | http1Send
  | cacheHttp1
  deriving DecidableEq

/-- A request is handed to a sender. -/
def ForwardEvent.isSend : ForwardEvent → Bool
  | .http2Send | .http1Send => true
  | .attempt | .http2Answer | .cacheHttp1 => false

/-- A request to be forwarded, and the circumstances. -/
structure ForwardRequest where
  method : HyperMethod
  viaWorker : Bool
  timeout : Option Timeout
  script : ForwardScript

namespace ForwardRequest

/-! ## The function -/

/-- `MAX_BODY_SIZE`. -/
def maxBodySize : Nat := 10 * 1024 * 1024

/-- The methods whose body is not read. -/
def bodiless (r : ForwardRequest) : Bool :=
  r.method = .get ∨ r.method = .head ∨ r.method = .delete

/-- Reading the body. -/
def readBody (r : ForwardRequest) : Run ForwardEvent (Except BodyError Unit) :=
  if r.bodiless then pure (.ok ()) else .wait r.script.body

/-- The error for a body that cannot be read. -/
def bodyError : BodyError → ProxyError
  | .lengthLimit => .bodyTooLarge 0 maxBodySize
  | .read message => .backendError ("Failed to read request body: ".toList ++ message)

/-- The error for a connection that the pool does not give. -/
def poolError (r : ForwardRequest) : PoolError → Str
  | .circuitBreakerOpen => "Circuit breaker open".toList
  | e =>
    (if r.viaWorker then "Failed to get HTTP/2 connection from worker: ".toList
      else "Failed to get HTTP/2 connection: ".toList) ++ e.display

/-- The HTTP/1.1 send, by itself or as a fallback. -/
def sendHttp1 (r : ForwardRequest) : Run ForwardEvent (Except Str Nat) := do
  let reply ← (Run.wait r.script.http1).during .http1Send
  pure (reply.mapError fun e => "Backend connection failed: ".toList ++ e)

/-- What follows the HTTP/2 send. -/
def afterHttp2 (r : ForwardRequest) (cached : Option Bool) (reply : Except Str Nat) :
    Run ForwardEvent (Except Str Nat) :=
  match reply with
  | .ok status => do
    -- nothing is written to the cache
    Run.note .http2Answer
    pure (.ok status)
  | .error e =>
    match cached with
    | none => do
      -- any failure counts as a protocol mismatch
      Run.note .cacheHttp1
      r.sendHttp1
    | some _ => pure (.error ("HTTP/2 backend connection failed: ".toList ++ e))

/-- The HTTP/2 send, over a connection of the pool. -/
def sendHttp2 (r : ForwardRequest) (cached : Option Bool) :
    Run ForwardEvent (Except Str Nat) := do
  match ← Run.wait r.script.connection with
  | .error e => pure (.error (r.poolError e))
  | .ok () =>
    let reply ← (Run.wait r.script.http2).during .http2Send
    r.afterHttp2 cached reply

/-- `backend_request_future`. -/
def backendRequest (r : ForwardRequest) (cached : Option Bool) :
    Run ForwardEvent (Except Str Nat) :=
  if cached = some false then r.sendHttp1 else r.sendHttp2 cached

/-- The error of a timeout; durations are in nanoseconds. -/
def backendTimeout (d : Nat) : ProxyError :=
  .timeout ("Backend request exceeded ".toList ++ decimal (d / 1000000) ++ "ms timeout".toList)

/-- `backend_request_future` under the backend timeout, if there is one. -/
def attempt (r : ForwardRequest) (cached : Option Bool) :
    Run ForwardEvent (Except ProxyError Nat) :=
  let future := (r.backendRequest cached).during .attempt
  match r.timeout.bind (·.backendRequest) with
  | some d => do
    match ← future.timeout d with
    | some reply => pure (reply.mapError .backendError)
    | none => pure (.error (backendTimeout d))
  | none => do
    let reply ← future
    pure (reply.mapError .backendError)

/-- `forward_to_backend`. -/
def forwardToBackend (r : ForwardRequest) (cache : ProtocolCache) (backend : Backend) :
    Run ForwardEvent (Except ProxyError Nat) := do
  match ← r.readBody with
  | .error e => pure (.error (bodyError e))
  | .ok () =>
    match r.script.build with
    | .error e => pure (.error (.backendError ("Failed to build backend request: ".toList ++ e)))
    | .ok () => r.attempt (cache.lookup backend.toSocketAddr)

/-! ## What is sent when -/

/-- The body is there. -/
def BodyRead (r : ForwardRequest) : Prop :=
  r.bodiless = true ∨ ∃ t, r.script.body = some (t, .ok ())

/-- If nothing is known about the backend, the request gets as far as the HTTP/2 send, and the send
fails before the backend timeout. -/
def Http2Fails (r : ForwardRequest) : Prop :=
  r.BodyRead ∧ r.script.build = .ok () ∧
    ∃ t₁ t₂ e, r.script.connection = some (t₁, .ok ()) ∧ r.script.http2 = some (t₂, .error e) ∧
      ∀ d, r.timeout.bind (·.backendRequest) = some d → t₁ + t₂ ≤ d

variable {r : ForwardRequest} {cached : Option Bool} {t : Nat} {l l' : ForwardEvent}
  {cache : ProtocolCache} {backend : Backend}

@[simp] theorem begins_sendHttp1 : r.sendHttp1.Begins l t ↔ l = .http1Send ∧ t = 0 := by
  simp [sendHttp1, Run.begins_bind, eq_comm]

@[simp] theorem begins_note :
    (Run.note l' : Run ForwardEvent Unit).Begins l t ↔ l = l' ∧ t = 0 := by
  simp [Run.note, eq_comm]

@[simp] theorem finish_note : (Run.note l' : Run ForwardEvent Unit).finish = some (0, ()) := rfl

/-- HTTP/1.1 follows a failed HTTP/2 send if nothing was known, at once and with the entry. -/
theorem begins_afterHttp2 (hl : l = .http1Send ∨ l = .cacheHttp1) {reply : Except Str Nat} :
    (r.afterHttp2 none reply).Begins l t ↔ (∃ e, reply = .error e) ∧ t = 0 := by
  cases reply with
  | ok status => rcases hl with rfl | rfl <;> simp [afterHttp2, Run.begins_bind]
  | error e => rcases hl with rfl | rfl <;> simp [afterHttp2, Run.begins_bind]

theorem begins_sendHttp2 (hl : l = .http1Send ∨ l = .cacheHttp1) :
    (r.sendHttp2 none).Begins l t ↔ ∃ t₁ t₂ e, r.script.connection = some (t₁, .ok ()) ∧
      r.script.http2 = some (t₂, .error e) ∧ t = t₁ + t₂ := by
  have hsend : l ≠ .http2Send := by rcases hl with rfl | rfl <;> simp
  simp only [sendHttp2, Run.begins_bind, Run.not_begins_wait, Run.finish_wait, false_or]
  constructor
  · rintro ⟨t₁, connection, t₂, hconnection, hbegins, rfl⟩
    cases connection with
    | error e => simp at hbegins
    | ok _ =>
        simp only [Run.begins_bind, Run.begins_during, Run.not_begins_wait, Run.finish_during,
          Run.finish_wait, begins_afterHttp2 hl, hsend.symm, false_and, or_false, false_or]
          at hbegins
        obtain ⟨t₂, reply, t₃, hreply, ⟨⟨e, rfl⟩, rfl⟩, rfl⟩ := hbegins
        exact ⟨t₁, t₂, e, hconnection, hreply, rfl⟩
  · rintro ⟨t₁, t₂, e, hconnection, hreply, rfl⟩
    refine ⟨t₁, .ok (), t₂, hconnection, ?_, rfl⟩
    simp only [Run.begins_bind, begins_afterHttp2 hl]
    exact .inr ⟨t₂, .error e, 0, hreply, ⟨⟨e, rfl⟩, rfl⟩, rfl⟩

/-- The backend timeout cuts off what is late, and adds nothing. -/
theorem begins_attempt (hl : l ≠ .attempt) :
    (r.attempt cached).Begins l t ↔ (r.backendRequest cached).Begins l t ∧
      ∀ d, r.timeout.bind (·.backendRequest) = some d → t ≤ d := by
  unfold attempt
  cases r.timeout.bind (·.backendRequest) with
  | none => simp [Run.begins_bind, hl.symm]
  | some d =>
      simp only [Run.begins_bind, Run.begins_timeout, Run.begins_during, hl.symm, false_and,
        false_or, Option.some.injEq, forall_eq']
      refine or_iff_left ?_
      rintro ⟨t₁, reply, t₂, -, hbegins, -⟩
      cases reply <;> simp at hbegins

theorem not_begins_readBody : ¬ r.readBody.Begins l t := by
  unfold readBody
  split <;> simp

theorem finish_readBody : (∃ t, r.readBody.finish = some (t, .ok ())) ↔ r.BodyRead := by
  unfold readBody BodyRead
  split
  · next hbodiless => simp [hbodiless]
  · next hbodiless => simp [hbodiless]

/-- A request reaches the backend if its body can be read and the request can be built. -/
theorem emits_forwardToBackend :
    (r.forwardToBackend cache backend).Emits l ↔ r.BodyRead ∧ r.script.build = .ok () ∧
      (r.attempt (cache.lookup backend.toSocketAddr)).Emits l := by
  constructor
  · rintro ⟨t, hbegins⟩
    rcases Run.begins_bind.mp hbegins with hbody | ⟨t₁, body, t₂, hbody, hbegins, -⟩
    · exact absurd hbody not_begins_readBody
    · cases body with
      | error e => simp at hbegins
      | ok _ =>
          cases hbuild : r.script.build with
          | error e => simp [hbuild] at hbegins
          | ok _ =>
              rw [hbuild] at hbegins
              exact ⟨finish_readBody.mp ⟨t₁, hbody⟩, rfl, t₂, hbegins⟩
  · rintro ⟨hbody, hbuild, t₂, hbegins⟩
    obtain ⟨t₁, hbody⟩ := finish_readBody.mpr hbody
    refine ⟨t₁ + t₂, Run.begins_bind.mpr (.inr ⟨t₁, .ok (), t₂, hbody, ?_, rfl⟩)⟩
    simpa only [hbuild] using hbegins

/-- Without an entry, the fallback and the entry for it come with a failed HTTP/2 send. -/
theorem emits_fallback (hunknown : cache.lookup backend.toSocketAddr = none)
    (hl : l = .http1Send ∨ l = .cacheHttp1) :
    (r.forwardToBackend cache backend).Emits l ↔ r.Http2Fails := by
  have hattempt : l ≠ .attempt := by rcases hl with rfl | rfl <;> simp
  rw [emits_forwardToBackend, hunknown, Http2Fails]
  refine and_congr_right fun _ => and_congr_right fun _ => ?_
  simp only [Run.Emits, begins_attempt hattempt]
  show (∃ t, (r.sendHttp2 none).Begins l t ∧ _) ↔ _
  simp only [begins_sendHttp2 hl]
  constructor
  · rintro ⟨t, ⟨t₁, t₂, e, hconnection, hreply, rfl⟩, htime⟩
    exact ⟨t₁, t₂, e, hconnection, hreply, htime⟩
  · rintro ⟨t₁, t₂, e, hconnection, hreply, htime⟩
    exact ⟨t₁ + t₂, ⟨t₁, t₂, e, hconnection, hreply, rfl⟩, htime⟩

/-- An HTTP/2 answer is the answer to an HTTP/2 send. -/
theorem begins_http2Answer (h : (r.sendHttp2 cached).Begins .http2Answer t) :
    ∃ t status, r.script.http2 = some (t, .ok status) := by
  rcases Run.begins_bind.mp h with hwait | ⟨t₁, connection, t₂, -, h, -⟩
  · simp at hwait
  · cases connection with
    | error e => simp at h
    | ok _ =>
        rcases Run.begins_bind.mp h with hsend | ⟨t₂, reply, t₃, hreply, h, -⟩
        · simp at hsend
        · cases reply with
          | ok status => exact ⟨t₂, status, hreply⟩
          | error e => cases cached <;> simp [afterHttp2, Run.begins_bind] at h

theorem http2_of_emits_http2Answer (h : (r.forwardToBackend cache backend).Emits .http2Answer) :
    cache.lookup backend.toSocketAddr ≠ some false ∧
      ∃ t status, r.script.http2 = some (t, .ok status) := by
  obtain ⟨-, -, t, hbegins⟩ := emits_forwardToBackend.mp h
  have hrequest := ((begins_attempt (by simp)).mp hbegins).1
  unfold backendRequest at hrequest
  split at hrequest
  · simp at hrequest
  · next hcached => exact ⟨hcached, begins_http2Answer hrequest⟩

end ForwardRequest

/-! ## Runs -/

/-- The cache after a request. -/
def ProtocolCache.after (cache : ProtocolCache) (backend : Backend) (r : ForwardRequest) :
    ProtocolCache :=
  if (r.forwardToBackend cache backend).Emits .cacheHttp1 then
    cache.insert backend.toSocketAddr false
  else cache

/-- Requests for one backend, one after the other, and whether one of them has been answered over
HTTP/2. -/
def forwardSystem (backend : Backend) : System (ProtocolCache × Bool) ForwardRequest :=
  (⟨fun cache r => some (cache.after backend r)⟩ : System ProtocolCache ForwardRequest).observed
    fun cache r _ answered =>
      answered || (r.forwardToBackend cache backend).Emits .http2Answer

/-- No HTTP/2 send fails once one has been answered. -/
def Http2Kept (s : ProtocolCache × Bool) (r : ForwardRequest) : Prop := s.2 = true → ¬ r.Http2Fails

namespace ForwardRequest

variable {backend : Backend}

/-- No entry says HTTP/2, and there is no entry at all once a request has been answered over
HTTP/2. -/
structure Undecided (backend : Backend) (s : ProtocolCache × Bool) : Prop where
  notHttp2 : s.1.lookup backend.toSocketAddr ≠ some true
  unknown : s.2 = true → s.1.lookup backend.toSocketAddr = none

theorem Undecided.after {s : ProtocolCache × Bool} {r : ForwardRequest} (h : Undecided backend s)
    (hkept : Http2Kept s r) :
    Undecided backend (s.1.after backend r,
      s.2 || (r.forwardToBackend s.1 backend).Emits .http2Answer) := by
  constructor
  · show (ProtocolCache.after _ _ _).lookup _ ≠ _
    unfold ProtocolCache.after
    split
    · simp
    · exact h.notHttp2
  · intro hanswered
    simp only [Bool.or_eq_true, decide_eq_true_eq] at hanswered
    -- answered before, or just now: either way nothing was known and the send did not fail
    have hunknown : s.1.lookup backend.toSocketAddr = none ∧ ¬ r.Http2Fails := by
      rcases hanswered with hbefore | hnow
      · exact ⟨h.unknown hbefore, hkept hbefore⟩
      · obtain ⟨hcached, t, status, hok⟩ := http2_of_emits_http2Answer hnow
        refine ⟨?_, ?_⟩
        · cases hlookup : s.1.lookup backend.toSocketAddr with
          | none => rfl
          | some b => cases b <;> simp_all [h.notHttp2]
        · rintro ⟨-, -, t₁, t₂, e, -, herror, -⟩
          rw [hok] at herror
          cases herror
    obtain ⟨hunknown, hkept⟩ := hunknown
    show (ProtocolCache.after _ _ _).lookup _ = none
    rw [ProtocolCache.after, if_neg (mt (emits_fallback hunknown (.inr rfl)).mp hkept)]
    exact hunknown

theorem undecided {cache : ProtocolCache} {s : ProtocolCache × Bool}
    (hcache : cache.lookup backend.toSocketAddr = none)
    (h : (forwardSystem backend).Reach Http2Kept (cache, false) s) : Undecided backend s := by
  refine h.invariant ⟨by simp [hcache], by simp⟩ ?_
  intro s r s' hs hkept hstep
  cases hstep
  exact hs.after hkept

/-- **Protocol detection is stable** in every run in which no HTTP/2 send fails once one has been
answered, and a failure after an answer is what makes the next request go over HTTP/1.1. -/
theorem http2_stable_iff {cache : ProtocolCache} {s : ProtocolCache × Bool}
    (hcache : cache.lookup backend.toSocketAddr = none)
    (h : (forwardSystem backend).Reach Http2Kept (cache, false) s) (r : ForwardRequest) :
    (s.2 = true → ¬ (r.forwardToBackend s.1 backend).Emits .http1Send) ↔ Http2Kept s r := by
  unfold Http2Kept
  refine forall_congr' fun hanswered => ?_
  rw [emits_fallback ((undecided hcache h).unknown hanswered) (.inl rfl)]

/-- A GET whose HTTP/2 send has the given outcome; HTTP/1.1 would answer. -/
def sample (http2 : Except Str Nat) : ForwardRequest :=
  ⟨.get, true, none, ⟨none, .ok (), some (0, .ok ()), some (1, http2), some (1, .ok 200)⟩⟩

theorem not_http2Fails_sample (status : Nat) : ¬ (sample (.ok status)).Http2Fails := by
  rintro ⟨-, -, t₁, t₂, e, -, hreply, -⟩
  cases hreply

/-- After an answer over HTTP/2, a request that HTTP/2 answers is not sent over HTTP/1.1. -/
theorem http2_stable_iff_sample :
    ∃ s, (forwardSystem .sample).exec (∅, false) [sample (.ok 200)] = some s ∧ s.2 = true ∧
      ¬ ((sample (.ok 200)).forwardToBackend s.1 .sample).Emits .http1Send := by
  obtain ⟨s, hrun, hanswered⟩ : ∃ s,
      (forwardSystem .sample).exec (∅, false) [sample (.ok 200)] = some s ∧ s.2 = true :=
    ⟨_, rfl, by decide +kernel⟩
  have hstep : (forwardSystem .sample).step (∅, false) (sample (.ok 200)) = some s := by
    simpa [System.exec] using hrun
  have hkept : Http2Kept (∅, false) (sample (.ok 200)) := fun h => absurd h (by simp)
  refine ⟨s, hrun, hanswered, (http2_stable_iff (by simp) (.tail .refl hkept hstep)
    (sample (.ok 200))).mpr ?_ hanswered⟩
  exact fun _ => not_http2Fails_sample 200

/-- **One failed send, and the backend is taken for one that speaks HTTP/1.1**, although it has
answered over HTTP/2. -/
theorem exists_http1_after_http2 :
    ¬ ∀ backend cache s, cache.lookup backend.toSocketAddr = none →
      (forwardSystem backend).Reach System.Anything (cache, false) s → s.2 = true →
        ∀ r : ForwardRequest, ¬ (r.forwardToBackend s.1 backend).Emits .http1Send := by
  intro h
  have hrun : (forwardSystem .sample).exec (∅, false) [sample (.ok 200)] = some _ := rfl
  have := h .sample ∅ _ (by simp) (.of_exec hrun) (by decide +kernel)
    (sample (.error "connection reset".toList))
  exact absurd this (by decide +kernel)

end ForwardRequest

end Rauta
