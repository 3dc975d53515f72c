import Rauta.BackendText
import Rauta.CircuitBreaker.Handlers
import Rauta.FrontEnds
import Rauta.HeaderFilters
import Rauta.Lib.Interaction
import Rauta.Redirect
import Rauta.Retry.Messages

/-!
# The data plane

The two functions that serve a request from its arrival to the response:
`request_handler::handle_request`, behind `ProxyServer`, and `ListenerManager::handle_request`. They
are programs of `Lib/Interaction`: what they do themselves is written out here, and what they ask of
others (the router, the rate limiter, the circuit breakers, the backends) is a call. Every call that
reaches shared state is one, so that the two halves of `record_backend_response`, which loads the
health data and stores them later, are two.

`service` gives the calls their meaning over the state of a process. What the rate limiter, the
circuit breakers and the backends answer is left open there: whatever is proved of the data plane
holds for all of it.
-/

namespace Rauta

open Async Interaction

/-! ## Responses -/

/-- The body of a response: a text of the proxy itself, or what the backend sends. -/
inductive ResponseBody where
  | text (content : Str)
  | stream
  deriving DecidableEq

/-- A response to a client. -/
structure ClientResponse where
  status : Nat
  headers : HeaderMap
  body : ResponseBody

section Building

variable (H : HttpCrate)

/-- `header` of a builder. -/
def HeaderMap.header (headers : HeaderMap) (name value : Str) : Option HeaderMap := do
  let name ← (H.nameFromBytes name).toOption
  let value ← (H.valueFromStr value).toOption
  return headers.append name value

/-- `Response::builder()` up to `unwrap()`, which panics if a header is refused. -/
def buildResponse (status : Nat) (headers : List (Str × Str)) (body : Str) :
    Option ClientResponse := do
  let headers ← headers.foldlM (fun headers e => headers.header H e.1 e.2) HeaderMap.empty
  return ⟨status, headers, .text body⟩

/-- `ProxyError::status_code`. -/
def ProxyError.statusCode : ProxyError → Nat
  | .timeout _ => 504
  | .backendError _ => 502
  | .bodyTooLarge _ _ => 413
  | .filterError _ => 500

/-- `Display` for `ProxyError`. -/
def ProxyError.display : ProxyError → Str
  | .timeout message => message
  | .backendError message => message
  | .bodyTooLarge size max =>
    "Request body too large: ".toList ++ decimal size ++ " bytes (max ".toList ++ decimal max ++
      ")".toList
  | .filterError message => message

/-- `Content-Type: text/plain`. -/
def plainText : Str × Str := ("Content-Type".toList, "text/plain".toList)

/-- `build_error_response`. -/
def buildErrorResponse (status : Nat) (message : Str) : Option ClientResponse :=
  buildResponse H status [plainText] message

/-- `build_not_found_response`. -/
def buildNotFoundResponse (requestId : Str) : Option ClientResponse :=
  buildResponse H 404 [("X-Request-ID".toList, requestId)] "Not Found".toList

/-- `build_rate_limit_response`. -/
def buildRateLimitResponse : Option ClientResponse :=
  buildResponse H 429 [plainText, ("Retry-After".toList, "1".toList)] "Rate limit exceeded".toList

/-- `build_circuit_breaker_response`. -/
def buildCircuitBreakerResponse : Option ClientResponse :=
  buildResponse H 503 [plainText, ("Retry-After".toList, "30".toList)]
    "Backend temporarily unavailable (circuit breaker open)".toList

/-- `error_to_response`. -/
def errorToResponse (error : ProxyError) (requestId : Str) : Option ClientResponse :=
  buildResponse H error.statusCode [plainText, ("X-Request-ID".toList, requestId)] error.display

/-- The response of a backend, as it is passed on. -/
def BackendResponse.passedOn (response : BackendResponse) : ClientResponse :=
  ⟨response.status, response.headers, .stream⟩

/-- `finalize_response`. -/
def finalizeResponse (result : Except ProxyError BackendResponse)
    (responseFilters : Option ResponseHeaderModifier) (requestId : Str) : Option ClientResponse :=
  match result with
  | .error e => errorToResponse H e requestId
  | .ok response =>
    match responseFilters with
    | none => some response.passedOn
    | some filters =>
      match applyHeaderFilters H response.headers filters.operations with
      | (.error e, _) => buildErrorResponse H 500 ("Response filter error: ".toList ++ e)
      | (.ok (), headers) => some { response.passedOn with headers := headers }

/-- The answer to a request that a route redirects. -/
def redirectResponse (req : IncomingRequest) (redirect : RequestRedirect) :
    Option ClientResponse :=
  match buildRedirectResponse H req.uri req.headers redirect with
  | .ok response =>
    some
      { status := response.status
        headers := HeaderMap.empty.append ⟨"location".toList, by decide⟩ ⟨response.location⟩
        body := .text [] }
  | .error e => buildErrorResponse H 500 ("Redirect error: ".toList ++ e.display)

end Building

/-! ## What is read of a request -/

/-- `Uuid`. -/
structure Uuid where
  octets : Vector UInt8 16

/-- Two hexadecimal digits. -/
def hexByte (b : UInt8) : Str := [Nat.digitChar (b.toNat / 16), Nat.digitChar (b.toNat % 16)]

/-- `Display` for `Uuid`. -/
def Uuid.display (uuid : Uuid) : Str :=
  let part (start length : Nat) := ((uuid.octets.toList.drop start).take length).flatMap hexByte
  part 0 4 ++ '-' :: part 4 2 ++ '-' :: part 6 2 ++ '-' :: part 8 2 ++ '-' :: part 10 6

/-- `Display` for `Authority`. -/
def Authority.display (a : Authority) : Str :=
  a.host.text ++ portSuffix (a.port.map fun p => decimal p.toNat)

namespace IncomingRequest

variable (req : IncomingRequest)

/-- The request is a `GET` of one of the handler's own paths. -/
def asksFor (path : Str) : Bool := req.uri.path = path ∧ req.method = .get

/-- The host that `ListenerManager::handle_request` routes by. -/
def hostHeader : Str :=
  (((req.headers.get "host".toList).bind toStr).or
    (req.uri.authorityPart.map Authority.display)).getD []

/-- `apply_request_filters`, if there are filters. -/
def applyRequestFilters (H : HttpCrate) (filters : Option RequestHeaderModifier) :
    Except Str IncomingRequest :=
  match filters with
  | none => .ok req
  | some filters =>
    match applyHeaderFilters H req.headers filters.operations with
    | (.error e, _) => .error e
    | (.ok (), headers) => .ok { req with headers := headers }

/-- The headers that `ListenerManager::handle_request` leaves out. -/
def notRelayed : List Str :=
  ["connection".toList, "keep-alive".toList, "proxy-authenticate".toList,
    "proxy-authorization".toList, "te".toList, "trailer".toList, "transfer-encoding".toList,
    "upgrade".toList, "host".toList]

/-- The headers that it copies. -/
def isRelayed (name : Str) : Bool := !notRelayed.contains name

/-- The request that `ListenerManager::handle_request` builds. -/
def relayReq (backend : Backend) (body : List UInt8) : BackendRequest where
  method := req.method
  authority := backend.display
  pathAndQuery := (req.uri.pathAndQuery.map (·.asStr)).getD "/".toList
  headers := (req.headers.filter isRelayed).withHost backend.display
  body := body

end IncomingRequest

/-! ## Relaying -/

/-- What happens outside while the listener relays a request: reading the body, what `http` says of
the request that is built, connecting and the handshake (with HTTP/2), and the send. Of the errors
only that they happen is looked at. -/
structure RelayScript where
  body : Option (Nat × Except Str Unit)
  build : Except Str Unit
  connect : Option (Nat × Except Str Unit)
  handshake : Option (Nat × Except Str Unit)
  send : MessageReply

/-- What comes of a relayed request. -/
inductive RelayResult where
  | bodyReadFailure
  /-- The request to the backend cannot be built, and `expect` panics. -/
  | panicked
  | connectFailure
  | handshakeFailure
  | sendFailure
  | response (response : BackendResponse)

/-- The exit of the handler, unless it panics. -/
def RelayResult.exit : RelayResult → Option ListenerExit
  | .bodyReadFailure => some .bodyReadFailure
  | .panicked => none
  | .connectFailure => some .connectFailure
  | .handshakeFailure => some .handshakeFailure
  | .sendFailure => some .sendFailure
  | .response r => some (.response r.status)

/-- What comes of a send. -/
def RelayResult.ofReply : Except Str BackendResponse → RelayResult
  | .ok r => .response r
  | .error _ => .sendFailure

/-- The part of `ListenerManager::handle_request` between the circuit breaker and the report. The
backend is `marked` if it is known to speak HTTP/2. -/
def relay (req : IncomingRequest) (backend : Backend) (marked : Bool) (script : RelayScript) :
    Run MessageEvent RelayResult := do
  match ← Run.wait script.body with
  | .error _ => pure .bodyReadFailure
  | .ok () =>
    match script.build with
    | .error _ => pure .panicked
    | .ok () =>
      let backendReq := req.relayReq backend req.body
      if marked then
        match ← Run.wait script.connect with
        | .error _ => pure .connectFailure
        | .ok () =>
          match ← Run.wait script.handshake with
          | .error _ => pure .handshakeFailure
          | .ok () => do
            let reply ← (Run.wait script.send).during (.http2Send backendReq)
            pure (.ofReply reply)
      else do
        let reply ← (Run.wait script.send).during (.http1Send backendReq)
        pure (.ofReply reply)

/-! ## Calls -/

/-- What the metrics endpoint gathers. -/
structure Metrics where
  encoded : Except Str Str
  pools : Option Str
  gatewayIndex : Str

/-- The labels of `HTTP_REQUESTS_TOTAL`. -/
structure RequestLabels where
  method : Str
  route : Str
  status : Str
  worker : Str
  deriving DecidableEq

/-- What the two functions call. -/
inductive PlaneCall where
  | newUuid
  | gatherMetrics
  | uptime
  | routeCount
  | selectBackend (method : HttpMethod) (path : Str)
  | selectBackendWithHeaders (method : HttpMethod) (path : Str) (requestHeaders : List (Str × Str))
      (srcIp : Option IpAddr) (srcPort : Option UInt16)
  | selectWorker
  | checkRateLimit (pattern : Str)
  | allowRequest (backendId : Str)
  | executeRequest (message : ClientMessage) (route : RouteMatch)
  | relay (req : IncomingRequest) (backend : Backend)
  | countRequest (labels : RequestLabels)
  | loadHealth
  | storeHealth (health : HealthData)
  | recordSuccess (backendId : Str)
  | recordFailure (backendId : Str)

/-- An execution of a request that has come to an end. -/
structure Execution (message : ClientMessage) (route : RouteMatch) where
  cache : ProtocolCache
  script : MessageExecution
  time : Nat
  result : Except ProxyError BackendResponse
  finish : (message.executeRequestWithRetry route cache script).finish = some (time, result)

/-- A relayed request that has come to an end. -/
structure Relay (req : IncomingRequest) (backend : Backend) where
  marked : Bool
  script : RelayScript
  time : Nat
  result : RelayResult
  finish : (relay req backend marked script).finish = some (time, result)

/-- What the calls answer. -/
abbrev plane : Signature where
  Call := PlaneCall
  Answer
    | .newUuid => Uuid
    | .gatherMetrics => Metrics
    | .uptime => Nat
    | .routeCount => Nat
    | .selectBackend _ _ => Option RouteMatch
    | .selectBackendWithHeaders _ _ _ _ _ => Option RouteMatch
    | .selectWorker => Option Nat
    | .checkRateLimit _ => Bool
    | .allowRequest _ => Bool
    | .executeRequest message route => Execution message route
    | .relay req backend => Relay req backend
    | .countRequest _ => Unit
    | .loadHealth => HealthData
    | .storeHealth _ => Unit
    | .recordSuccess _ => Unit
    | .recordFailure _ => Unit

/-- A call of the data plane. -/
abbrev ask (c : PlaneCall) : Prog plane (plane.Answer c) := Prog.ask (S := plane) c

/-! ## The request handler -/

namespace RequestHandler

variable (H : HttpCrate)

/-- The request id: that of the client, if it is readable, or a new one. -/
def requestId (req : IncomingRequest) : Prog plane Str :=
  match (req.headers.get "x-request-id".toList).bind toStr with
  | some id => pure id
  | none => do
    let uuid : Uuid ← ask .newUuid
    pure uuid.display

/-- `serve_metrics_endpoint`. -/
def serveMetricsEndpoint : Prog plane (Option ClientResponse) := do
  let metrics : Metrics ← ask .gatherMetrics
  match metrics.encoded with
  | .error e => pure (buildErrorResponse H 500 ("Failed to encode metrics: ".toList ++ e))
  | .ok buffer =>
    let buffer := buffer ++ metrics.pools.getD []
    let buffer :=
      if metrics.gatewayIndex = [] then buffer else buffer ++ '\n' :: metrics.gatewayIndex
    pure (buildResponse H 200 [("Content-Type".toList, "text/plain; version=0.0.4".toList)] buffer)

/-- `serve_healthz_endpoint`. -/
def serveHealthzEndpoint : Option ClientResponse := buildResponse H 200 [plainText] "ok".toList

/-- `serve_status_endpoint`. -/
def serveStatusEndpoint : Prog plane (Option ClientResponse) := do
  let uptime : Nat ← ask .uptime
  let routes : Nat ← ask .routeCount
  let json := "\x7b\"status\":\"ok\",\"uptime_seconds\":".toList ++ decimal uptime ++
    ",\"routes\":".toList ++ decimal routes ++ "\x7d".toList
  pure (buildResponse H 200 [("Content-Type".toList, "application/json".toList)] json)

/-- `method_to_str`. -/
def methodToStr : HttpMethod → Str
  | .get => "GET".toList
  | .post => "POST".toList
  | .put => "PUT".toList
  | .delete => "DELETE".toList
  | .head => "HEAD".toList
  | .options => "OPTIONS".toList
  | .patch => "PATCH".toList
  | .all => "ALL".toList

/-- The statuses that `status_to_str` knows. -/
def knownStatuses : List Nat :=
  [200, 201, 204, 301, 302, 304, 400, 401, 403, 404, 500, 502, 503, 504]

/-- `status_to_str`. -/
def statusToStr (status : Nat) : Str :=
  if status ∈ knownStatuses then decimal status else "other".toList

/-- `record_backend_response`. -/
def recordBackendResponse (backend : Backend) (statusCode : Nat) : Prog plane Unit := do
  let current : HealthData ← ask .loadHealth
  ask (.storeHealth (current.recordBackendResponse backend statusCode))

/-- `record_request_metrics`. -/
def recordRequestMetrics (result : Except ProxyError BackendResponse) (method : HttpMethod)
    (route : RouteMatch) (worker : Option Nat) : Prog plane Unit := do
  let labels (status : Str) : RequestLabels :=
    ⟨methodToStr method, route.pattern, status, (worker.map decimal).getD "none".toList⟩
  match result with
  | .ok response =>
    ask (.countRequest (labels (statusToStr response.status)))
    recordBackendResponse route.backend response.status
    if response.status ≥ 500 then ask (.recordFailure route.backend.display)
    else ask (.recordSuccess route.backend.display)
  | .error (.bodyTooLarge size max) =>
    ask (.countRequest (labels (decimal (ProxyError.bodyTooLarge size max).statusCode)))
  | .error e =>
    ask (.countRequest (labels (decimal e.statusCode)))
    recordBackendResponse route.backend e.statusCode
    ask (.recordFailure route.backend.display)

/-- `record_not_found_metrics`. -/
def recordNotFoundMetrics (method : HttpMethod) : Prog plane Unit :=
  ask (.countRequest
    ⟨methodToStr method, "not_found".toList, "404".toList, "none".toList⟩)

/-- What follows once the circuit breaker has let the request pass. -/
def forward (req : IncomingRequest) (route : RouteMatch) (worker : Option Nat) (requestId : Str) :
    Prog plane (Option ClientResponse) := do
  let execution : Execution ⟨req, worker.isSome⟩ route ←
    ask (.executeRequest ⟨req, worker.isSome⟩ route)
  recordRequestMetrics execution.result req.method.toHttpMethod route worker
  pure (finalizeResponse H execution.result route.responseFilters requestId)

/-- The request has a route. -/
def serveRoute (req : IncomingRequest) (route : RouteMatch) (requestId : Str) :
    Prog plane (Option ClientResponse) := do
  let worker : Option Nat ← ask .selectWorker
  match route.redirect with
  | some redirect => pure (redirectResponse H req redirect)
  | none =>
    let allowed : Bool ← ask (.checkRateLimit route.pattern)
    if !allowed then pure (buildRateLimitResponse H)
    else
      match req.applyRequestFilters H route.requestFilters with
      | .error e => pure (buildErrorResponse H 500 ("Filter error: ".toList ++ e))
      | .ok req =>
        let allowed : Bool ← ask (.allowRequest route.backend.display)
        if !allowed then pure (buildCircuitBreakerResponse H)
        else forward H req route worker requestId

/-- The request is for the router. -/
def routeRequest (req : IncomingRequest) (requestId : Str) :
    Prog plane (Option ClientResponse) := do
  let method := req.method.toHttpMethod
  let routeMatch : Option RouteMatch ← ask (.selectBackend method req.uri.path)
  match routeMatch with
  | some route => serveRoute H req route requestId
  | none =>
    recordNotFoundMetrics method
    pure (buildNotFoundResponse H requestId)

/-- `handle_request`. -/
def handleRequest (req : IncomingRequest) : Prog plane (Option ClientResponse) := do
  let requestId ← requestId req
  if req.asksFor "/metrics".toList then serveMetricsEndpoint H
  else if req.asksFor "/healthz".toList then pure (serveHealthzEndpoint H)
  else if req.asksFor "/status".toList then serveStatusEndpoint H
  else routeRequest H req requestId

end RequestHandler

/-! ## The listener -/

namespace ListenerManager

variable (H : HttpCrate)

/-- A response without headers. -/
def plainResponse (status : Nat) (body : Str) : Option ClientResponse :=
  buildResponse H status [] body

/-- What follows once the circuit breaker has let the request pass. -/
def forward (req : IncomingRequest) (backend : Backend) : Prog plane (Option ClientResponse) := do
  let relayed : Relay req backend ← ask (.relay req backend)
  match relayed.result with
  | .bodyReadFailure => pure (plainResponse H 400 "Bad Request: Failed to read body".toList)
  | .panicked => pure none
  | .connectFailure | .handshakeFailure | .sendFailure =>
    ask (.recordFailure backend.listenerId)
    pure (plainResponse H 502 "Bad Gateway".toList)
  | .response response =>
    if 500 ≤ response.status ∧ response.status < 600 then ask (.recordFailure backend.listenerId)
    else ask (.recordSuccess backend.listenerId)
    pure (some response.passedOn)

/-- The request has a route. -/
def serveRoute (req : IncomingRequest) (route : RouteMatch) :
    Prog plane (Option ClientResponse) := do
  let allowed : Bool ← ask (.checkRateLimit route.pattern)
  if !allowed then pure (plainResponse H 429 "Too Many Requests".toList)
  else
    let allowed : Bool ← ask (.allowRequest route.backend.listenerId)
    if !allowed then pure (plainResponse H 503 "Service Unavailable".toList)
    else forward H req route.backend

/-- `handle_request`. -/
def handleRequest (req : IncomingRequest) (peerAddr : Option (IpAddr × UInt16)) :
    Prog plane (Option ClientResponse) :=
  if req.hostHeader = [] then
    pure (plainResponse H 400 "Bad Request: Missing Host header or :authority".toList)
  else
    match req.method.listenerMethod with
    | none => pure (plainResponse H 405 "Method Not Allowed".toList)
    | some method => do
      let routeMatch : Option RouteMatch ← ask (.selectBackendWithHeaders method req.uri.path
        [("host".toList, req.hostHeader)] (peerAddr.map Prod.fst) (peerAddr.map Prod.snd))
      match routeMatch with
      | none => pure (plainResponse H 404 "Not Found".toList)
      | some route => serveRoute H req route

end ListenerManager

/-- A request at one of the front ends. -/
inductive Arrival where
  | proxyServer (req : IncomingRequest)
  | listener (req : IncomingRequest) (peerAddr : Option (IpAddr × UInt16))

/-- The request. -/
def Arrival.request : Arrival → IncomingRequest
  | .proxyServer req => req
  | .listener req _ => req

/-- How it is served. -/
def Arrival.program (H : HttpCrate) : Arrival → Prog plane (Option ClientResponse)
  | .proxyServer req => RequestHandler.handleRequest H req
  | .listener req peerAddr => ListenerManager.handleRequest H req peerAddr

/-- `GET /api` for `example.com`. -/
def getApi : IncomingRequest where
  method := .get
  uri := .origin ⟨"/api".toList, none, PathAndQuery.legal_of_all rfl⟩
  headers := ⟨[("host".toList, "example.com".toList)], by decide⟩
  body := []

/-! ## The shared state -/

/-- `WorkerSelector`. There is a worker for every processor. -/
structure WorkerSelector where
  counter : Nat
  numWorkers : Nat
  pos : 0 < numWorkers

/-- `select`. The counter has 64 bits. -/
def WorkerSelector.select (w : WorkerSelector) : Nat × WorkerSelector :=
  (w.counter % w.numWorkers, { w with counter := (w.counter + 1) % 2 ^ 64 })

/-- What the requests of a process share; the clock is in nanoseconds. `START_TIME` is set when it
is first looked at. -/
structure DataPlane where
  now : Nat
  router : Router
  workerSelector : Option WorkerSelector
  startTime : Option Nat

/-- What comes from outside with a step: an answer for each of the calls that need one. -/
structure Outside where
  uuid : Uuid
  metrics : Metrics
  allowed : Bool
  cache : ProtocolCache
  execution : MessageExecution
  marked : Bool
  relay : RelayScript

/-- What else happens: time passes, and the controllers change routes. -/
inductive PlaneEnv where
  | tick (ns : Nat)
  | router (call : RouterCall)

/-- An execution ends, or is still under way. -/
def Execution.run (message : ClientMessage) (route : RouteMatch) (cache : ProtocolCache)
    (script : MessageExecution) : Option (Execution message route) :=
  match h : (message.executeRequestWithRetry route cache script).finish with
  | some (time, result) => some ⟨cache, script, time, result, h⟩
  | none => none

/-- The same for a relayed request. -/
def Relay.run (req : IncomingRequest) (backend : Backend) (marked : Bool) (script : RelayScript) :
    Option (Relay req backend) :=
  match h : (Rauta.relay req backend marked script).finish with
  | some (time, result) => some ⟨marked, script, time, result, h⟩
  | none => none

namespace DataPlane

/-- The `uptime` of the status endpoint, in seconds. -/
def uptime (s : DataPlane) : Nat × DataPlane :=
  let start := s.startTime.getD s.now
  ((s.now - start) / 1000000000, { s with startTime := some start })

/-- `selector.select()`, if there is a selector. -/
def selectWorker (s : DataPlane) : Option Nat × DataPlane :=
  match s.workerSelector with
  | none => (none, s)
  | some selector => (some selector.select.1, { s with workerSelector := some selector.select.2 })

end DataPlane

/-- What the calls do. -/
def service (M : Matchit) (R : RegexCrate) : Service plane DataPlane Outside PlaneEnv where
  respond s call outside :=
    match call with
    | .newUuid => some (s, outside.uuid)
    | .gatherMetrics => some (s, outside.metrics)
    | .uptime => some (s.uptime.2, s.uptime.1)
    | .routeCount => some (s, s.router.routes.entries.length)
    | .selectBackend method path =>
      let selected := s.router.selectBackend M method path none none
      some ({ s with router := selected.2 }, selected.1)
    | .selectBackendWithHeaders method path requestHeaders srcIp srcPort =>
      some (s, s.router.selectBackendWithHeaders M R method path srcIp srcPort requestHeaders)
    | .selectWorker => some (s.selectWorker.2, s.selectWorker.1)
    -- the limiter and the breakers may say what they like
    | .checkRateLimit _ => some (s, outside.allowed)
    | .allowRequest _ => some (s, outside.allowed)
    | .executeRequest message route =>
      (Execution.run message route outside.cache outside.execution).map fun e => (s, e)
    | .relay req backend => (Relay.run req backend outside.marked outside.relay).map fun r => (s, r)
    | .countRequest _ => some (s, ())
    | .loadHealth => some (s, s.router.health)
    | .storeHealth health => some ({ s with router := { s.router with health := health } }, ())
    | .recordSuccess _ => some (s, ())
    | .recordFailure _ => some (s, ())
  awaits
    | .executeRequest _ _ => true
    | .relay _ _ => true
    | _ => false
  env s
    | .tick ns => { s with now := s.now + ns }
    | .router call => { s with router := s.router.call M call }

end Rauta
