import Mathlib.Data.Char
import Mathlib.Data.List.Lex
import Rauta.Diagnostics
import Rauta.Lib.StableSort
import Rauta.RateLimiter.Format

/-!
# The admin API

The state of the gateway can be asked for in two ways, behind one trait. `LocalGatewayQuery` reads
the shared state in the process; `RemoteGatewayQuery` is the command-line client: it asks the admin
server, which has a local query of its own, and does some of the work on its side. The two do not do
the same:

* the server sorts all routes and the client filters them, where the local query filters before it
  sorts; and the client looks for a route in the sorted list, where the local query looks in the
  order of the map;
* the client encodes a symptom for the query string, and the server does not decode it.

For all that the answers are the same (`Agrees`), if the symptom is ASCII: the sort is stable, and a
character that is encoded occurs in no rule. The one number that may come back changed is the hit
rate of the cache, since `serde_json` does not read long fractions exactly.

`reqwest`, `serde_json` and the network are left open (`HttpClient`, `SerdeJson`), and what is
assumed of them is named (`HttpClient.Reaches`, `FormEncoding.Lawful`, `SerdeJson.Lawful`). The
answers are about one moment: between two reads of the shared state it does not change.
-/

namespace Rauta

open StableSort

/-! ## The trait -/

/-- `GatewaySnapshot`, with the fields that no rule reads. -/
structure GatewayStatus extends GatewaySnapshot where
  status : Str
  uptimeSeconds : Nat
  routeCount : Nat
  openCircuits : Nat
  exhaustedRateLimiters : Nat

/-- `MetricSnapshot`. -/
structure MetricSnapshot where
  name : Str
  help : Str
  metricType : Str
  values : List ((AList fun _ : Str => Str) × F64)

/-- The trait `GatewayQuery`. -/
structure GatewayQuery where
  snapshot : Except Str GatewayStatus
  listRoutes : (methodFilter pathPrefix : Option Str) → Except Str (List RouteSnapshot)
  getRoute : (pattern : Str) → Except Str (Option RouteSnapshot)
  listCircuitBreakers : (stateFilter : Option Str) → Except Str (List CircuitBreakerSnapshot)
  listRateLimiters : (routeFilter : Option Str) → Except Str (List RateLimiterSnapshot)
  listListeners : Except Str (List ListenerSnapshot)
  cacheStats : Except Str (Option CacheStats)
  metricsSnapshot : (metricFilter : Option Str) → Except Str (List MetricSnapshot)
  diagnose : (symptom : Str) → (routeFilter backendFilter : Option Str) →
    Except Str (List Diagnosis)
  drainBackend : (backend : Str) → (timeoutSecs : Option Nat) → Except Str Unit
  undrainBackend : (backend : Str) → Except Str Unit

/-- `to_lowercase` and `to_uppercase` follow Unicode; of the first we say what it does to ASCII. -/
structure CaseMapping where
  toLowercase : Str → Str
  toUppercase : Str → Str
  toLowercase_ascii : ∀ text, (∀ c ∈ text, c.toNat < 128) → toLowercase text = text.map Char.toLower

/-- `serde_json`: the number that is read where one was written. Texts, integers and truth values
are read as they were written. -/
structure SerdeJson where
  reread : ℚ → ℚ

/-- A decimal of at most 15 digits. -/
def IsShortDecimal (q : ℚ) : Prop := ∃ n k : Nat, n < 10 ^ 15 ∧ k ≤ 15 ∧ q = n / 10 ^ k

/-- Short decimals are read as they were written. Of others nothing is said: exact reading is the
feature `float_roundtrip`, which is not on. -/
structure SerdeJson.Lawful (J : SerdeJson) : Prop where
  reread_short : ∀ q, IsShortDecimal q → J.reread q = q

/-- What is left open: the case mapping, how numbers are printed, rounded and read, and the order of
the map of ports. -/
structure AdminWorld where
  caseMapping : CaseMapping
  floatText : FloatText
  round : ℚ → ℚ
  json : SerdeJson
  portOrder : PortOrder

/-- `retain` for the method of a route. -/
def retainMethod (C : CaseMapping) (methodFilter : Option Str) (routes : List RouteSnapshot) :
    List RouteSnapshot :=
  match methodFilter with
  | none => routes
  | some method => routes.filter fun r => r.method = C.toUppercase method

/-- `retain` for the pattern of a route. -/
def retainPrefix (pathPrefix : Option Str) (routes : List RouteSnapshot) : List RouteSnapshot :=
  match pathPrefix with
  | none => routes
  | some path => routes.filter fun r => path <+: r.pattern

/-- The order of `sort_by(|a, b| a.pattern.cmp(&b.pattern))`. -/
def RouteSnapshot.Before (a b : RouteSnapshot) : Prop := a.pattern ≤ b.pattern

instance : DecidableRel RouteSnapshot.Before := fun a b =>
  inferInstanceAs (Decidable (a.pattern ≤ b.pattern))

instance : IsTrans RouteSnapshot RouteSnapshot.Before := ⟨fun _ _ _ hab hbc => le_trans hab hbc⟩

instance : Std.Total RouteSnapshot.Before := ⟨fun a b => le_total a.pattern b.pattern⟩

/-- `sort_by`, which is stable. -/
def sortRoutes (routes : List RouteSnapshot) : List RouteSnapshot :=
  routes.insertionSort RouteSnapshot.Before

/-! ## The local query -/

/-- `diagnose_symptom`: the rules whose symptom or id contains the keyword. -/
def diagnoseSymptom (C : CaseMapping) (rules : List DiagnosticRule) (ctx : DiagnosticContext)
    (symptom : Str) : List Diagnosis :=
  let symptomLower := C.toLowercase symptom
  rules.flatMap fun rule =>
    if symptomLower <:+: C.toLowercase rule.symptom ∨ symptomLower <:+: C.toLowercase rule.id then
      rule.evaluate ctx
    else []

/-- `LocalGatewayQuery`: the router, with the order of its map, what `snapshot_all` answers for the
circuit breakers and for the rate limiters, and the time since the start, in nanoseconds. -/
structure LocalGatewayQuery where
  router : Router
  iterOrder : IterOrder
  circuitBreakers : List CircuitBreakerSnapshot
  rateLimiters : List RateLimiterSnapshot
  uptime : Nat

namespace LocalGatewayQuery

variable (W : AdminWorld) (q : LocalGatewayQuery)

/-- `cache_stats_internal`. -/
def cacheStatsInternal : CacheStats :=
  let cache := q.router.routeCache
  let total : Nat := (cache.hits + cache.misses) % 2 ^ 64
  { hits := cache.hits
    misses := cache.misses
    size := cache.entries.entries.length
    hitRate := .finite (if 0 < total then W.round (W.round cache.hits / W.round total) else 0) }

/-- `snapshot`. -/
def status : GatewayStatus where
  status := "ok".toList
  uptimeSeconds := q.uptime / 10 ^ 9
  routeCount := q.router.routes.entries.length
  openCircuits := (q.circuitBreakers.filter (·.state = "Open".toList)).length
  exhaustedRateLimiters := (q.rateLimiters.filter (·.tokensAvailable.nonpos)).length
  listeners := []
  cacheStats := some (q.cacheStatsInternal W)

/-- What the rules are evaluated on. -/
def context : DiagnosticContext where
  snapshot := (q.status W).toGatewaySnapshot
  routes := q.router.listRoutes q.iterOrder
  circuitBreakers := q.circuitBreakers
  rateLimiters := q.rateLimiters

/-- The implementation of the trait. -/
def query : GatewayQuery where
  snapshot := .ok (q.status W)
  listRoutes methodFilter pathPrefix :=
    .ok (sortRoutes (retainPrefix pathPrefix (retainMethod W.caseMapping methodFilter
      (q.router.listRoutes q.iterOrder))))
  getRoute pattern := .ok ((q.router.listRoutes q.iterOrder).find? fun r => r.pattern = pattern)
  listCircuitBreakers stateFilter :=
    let breakers :=
      match stateFilter with
      | none => q.circuitBreakers
      | some state => q.circuitBreakers.filter fun b =>
          W.caseMapping.toUppercase b.state = W.caseMapping.toUppercase state
    .ok (breakers.insertionSort fun a b => a.backendId ≤ b.backendId)
  listRateLimiters routeFilter :=
    let limiters :=
      match routeFilter with
      | none => q.rateLimiters
      | some route => q.rateLimiters.filter fun l => route <:+: l.route
    .ok (limiters.insertionSort fun a b => a.route ≤ b.route)
  listListeners := .ok []
  cacheStats := .ok (some (q.cacheStatsInternal W))
  metricsSnapshot _ := .ok []
  diagnose symptom _ _ :=
    .ok (diagnoseSymptom W.caseMapping (withBuiltinRules W.floatText W.portOrder) (q.context W)
      symptom)
  drainBackend _ _ := .error "drain_backend not yet implemented via admin API".toList
  undrainBackend _ := .error "undrain_backend not yet implemented via admin API".toList

end LocalGatewayQuery

/-! ## The admin server -/

/-- A request to the admin server, as far as it reads it. -/
structure AdminRequest where
  method : Str
  path : Str
  query : Option Str

/-- The body of a response, before it is JSON. -/
inductive AdminPayload where
  | status (snapshot : GatewayStatus)
  | routes (routes : List RouteSnapshot)
  | cache (stats : Option CacheStats)
  | diagnoses (diagnoses : List Diagnosis)
  | ok
  | error (message : Str)

/-- A response of the admin server. -/
structure AdminResponse where
  status : Nat
  payload : AdminPayload

/-- What the server makes of a result of its query. -/
def adminResponse {α : Type} (payload : α → AdminPayload) : Except Str α → AdminResponse
  | .ok a => ⟨200, payload a⟩
  | .error e => ⟨500, .error e⟩

/-- The symptom of a query string, as it stands there. -/
def symptomOfQuery (query : Option Str) : Str :=
  (query.bind fun q =>
    ((q.splitOn '&').find? fun p => "symptom=".toList <+: p).map
      (trimStartMatches "symptom=".toList)).getD "degraded".toList

/-- `handle_admin_request`. -/
def handleAdminRequest (query : GatewayQuery) (req : AdminRequest) : AdminResponse :=
  if req.method = "GET".toList ∧ req.path = "/api/v1/status".toList then
    adminResponse .status query.snapshot
  else if req.method = "GET".toList ∧ req.path = "/api/v1/routes".toList then
    adminResponse .routes (query.listRoutes none none)
  else if req.method = "GET".toList ∧ req.path = "/api/v1/cache".toList then
    adminResponse .cache query.cacheStats
  else if req.method = "POST".toList ∧ req.path = "/api/v1/diagnose".toList then
    adminResponse .diagnoses (query.diagnose (symptomOfQuery req.query) none none)
  else if req.method = "GET".toList ∧ req.path = "/healthz".toList then ⟨200, .ok⟩
  else ⟨404, .error "not found".toList⟩

/-! ## What the client reads -/

namespace SerdeJson

variable (J : SerdeJson)

/-- A number; what is not finite was written as `null`. -/
def readF64 : F64 → Option F64
  | .finite q => some (.finite (J.reread q))
  | _ => none

/-- The score may be `null`. -/
def readBackend (b : BackendSnapshot) : BackendSnapshot :=
  { b with healthScore := b.healthScore.bind J.readF64 }

/-- A route. -/
def readRoute (r : RouteSnapshot) : RouteSnapshot :=
  { r with backends := r.backends.map J.readBackend }

/-- The hit rate may not be `null`. -/
def readCacheStats (stats : CacheStats) : Option CacheStats :=
  (J.readF64 stats.hitRate).map fun hitRate => { stats with hitRate := hitRate }

/-- A field or a body of type `Option<CacheStats>`. -/
def readCache : Option CacheStats → Option (Option CacheStats)
  | none => some none
  | some stats => (J.readCacheStats stats).map some

/-- A snapshot. -/
def readStatus (s : GatewayStatus) : Option GatewayStatus :=
  (J.readCache s.cacheStats).map fun cacheStats => { s with cacheStats := cacheStats }

/-- A diagnosis. -/
def readDiagnosis (d : Diagnosis) : Diagnosis := { d with confidence := J.reread d.confidence }

end SerdeJson

/-! ## The remote query -/

/-- `reqwest::Client`, with the network behind it. -/
structure HttpClient where
  /-- The URL that `query(&[(name, value)])` makes. -/
  query : (url name value : Str) → Str
  send : (method url : Str) → Except Str AdminResponse
  errorForStatus : AdminResponse → Except Str AdminResponse
  /-- The error of `json` for a body that it cannot read. -/
  decodingError : Str

/-- A letter or a digit of ASCII. -/
def isAsciiAlphanumeric (c : Char) : Bool :=
  (48 ≤ c.toNat && c.toNat ≤ 57) || (65 ≤ c.toNat && c.toNat ≤ 90) ||
    (97 ≤ c.toNat && c.toNat ≤ 122)

/-- The characters of a form value that stand for themselves. -/
def isUnreserved (c : Char) : Bool :=
  isAsciiAlphanumeric c || c = '*' || c = '-' || c = '.' || c = '_'

/-- `application/x-www-form-urlencoded`, for one character. -/
structure FormEncoding where
  encodeChar : Char → Str

/-- The encoding of a value. -/
def FormEncoding.encode (E : FormEncoding) (text : Str) : Str := text.flatMap E.encodeChar

/-- All but the unreserved characters are escaped. -/
structure FormEncoding.Lawful (E : FormEncoding) : Prop where
  unreserved : ∀ c, isUnreserved c → E.encodeChar c = [c]
  blank : E.encodeChar ' ' = ['+']
  escaped : ∀ c, ¬ isUnreserved c → c ≠ ' ' →
    '%' ∈ E.encodeChar c ∧ ∀ d ∈ E.encodeChar c, d = '%' ∨ isAsciiAlphanumeric d

/-- What follows the address of the server in the URL of a request. -/
def AdminRequest.target (req : AdminRequest) : Str :=
  req.path ++ (req.query.elim [] fun query => '?' :: query)

/-- A request whose URL is sent as it stands. -/
structure AdminRequest.Plain (req : AdminRequest) : Prop where
  method : req.method = "GET".toList ∨ req.method = "POST".toList
  root : "/".toList <+: req.path
  path : ∀ c ∈ req.path, c = '/' ∨ isAsciiAlphanumeric c
  query : ∀ query ∈ req.query, ∀ c ∈ query, c = '=' ∨ c = '%' ∨ c = '+' ∨ isUnreserved c

/-- The client reaches a server: plain requests are answered by it, unless the URL is too long. -/
structure HttpClient.Reaches (client : HttpClient) (E : FormEncoding) (origin : Str) (limit : Nat)
    (serve : AdminRequest → AdminResponse) : Prop where
  query : ∀ path name value, '?' ∉ path → client.query (origin ++ path) name value =
    origin ++ (path ++ '?' :: (E.encode name ++ '=' :: E.encode value))
  send : ∀ req : AdminRequest, req.Plain → (origin ++ req.target).length ≤ limit →
    client.send req.method (origin ++ req.target) = .ok (serve req)
  errorForStatus : ∀ resp, resp.status = 200 → client.errorForStatus resp = .ok resp

/-- `RemoteGatewayQuery`. -/
structure RemoteGatewayQuery where
  baseUrl : Str
  client : HttpClient

namespace RemoteGatewayQuery

/-- `RemoteGatewayQuery::new`. -/
def new (endpoint : Str) (client : HttpClient) : RemoteGatewayQuery :=
  ⟨trimEndMatches "/".toList endpoint, client⟩

variable (W : AdminWorld) (q : RemoteGatewayQuery)

/-- `send`, `error_for_status` and `json` in a row. -/
def fetch {α : Type} (read : AdminPayload → Option α) (method url : Str) : Except Str α := do
  let resp ← q.client.errorForStatus (← q.client.send method url)
  match read resp.payload with
  | some a => .ok a
  | none => .error q.client.decodingError

/-- `snapshot`. -/
def snapshot : Except Str GatewayStatus :=
  q.fetch (fun
    | .status snapshot => W.json.readStatus snapshot
    | _ => none) "GET".toList (q.baseUrl ++ "/api/v1/status".toList)

/-- The routes that the server lists. -/
def fetchRoutes : Except Str (List RouteSnapshot) :=
  q.fetch (fun
    | .routes routes => some (routes.map W.json.readRoute)
    | _ => none) "GET".toList (q.baseUrl ++ "/api/v1/routes".toList)

/-- `list_routes`. -/
def listRoutes (methodFilter pathPrefix : Option Str) : Except Str (List RouteSnapshot) := do
  let routes ← q.fetchRoutes W
  return retainPrefix pathPrefix (retainMethod W.caseMapping methodFilter routes)

/-- `get_route`. -/
def getRoute (pattern : Str) : Except Str (Option RouteSnapshot) := do
  let routes ← q.listRoutes W none none
  return routes.find? fun r => r.pattern = pattern

/-- `list_listeners`. -/
def listListeners : Except Str (List ListenerSnapshot) := do
  let snapshot ← q.snapshot W
  return snapshot.listeners

/-- `cache_stats`. -/
def cacheStats : Except Str (Option CacheStats) :=
  q.fetch (fun
    | .cache stats => W.json.readCache stats
    | _ => none) "GET".toList (q.baseUrl ++ "/api/v1/cache".toList)

/-- `diagnose`. -/
def diagnose (symptom : Str) : Except Str (List Diagnosis) :=
  q.fetch (fun
    | .diagnoses diagnoses => some (diagnoses.map W.json.readDiagnosis)
    | _ => none) "POST".toList
    (q.client.query (q.baseUrl ++ "/api/v1/diagnose".toList) "symptom".toList symptom)

/-- The implementation of the trait. -/
def query : GatewayQuery where
  snapshot := q.snapshot W
  listRoutes := q.listRoutes W
  getRoute := q.getRoute W
  listCircuitBreakers _ := .error ("Circuit breaker listing not available via remote query — " ++
    "admin API endpoint not yet implemented").toList
  listRateLimiters _ := .error ("Rate limiter listing not available via remote query — " ++
    "admin API endpoint not yet implemented").toList
  listListeners := q.listListeners W
  cacheStats := q.cacheStats W
  metricsSnapshot _ := .error ("Metrics snapshot not available via remote query — " ++
    "admin API endpoint not yet implemented").toList
  diagnose symptom _ _ := q.diagnose W symptom
  drainBackend _ _ := .error "drain_backend not yet implemented via remote query".toList
  undrainBackend _ := .error "undrain_backend not yet implemented via remote query".toList

end RemoteGatewayQuery

end Rauta
