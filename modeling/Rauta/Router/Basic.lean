import Mathlib.Data.List.DropRight
import Rauta.Filters
import Rauta.Health
import Rauta.Maglev
import Rauta.Router.Matchit

/-!
# The router

`Router` and its operations: the nine ways of adding a route, the route lookup with its cache, and
the three ways of selecting a backend. All of them are state-passing functions; the concurrent
reading of `add_route` is `Router/Concurrent`.

A route is stored under the *hash* of its path. Adding one rewrites the prefix router from scratch
out of the whole route table: an exact pattern and a catch-all pattern for every route. `add_route`
puts the method in front of both (`Rebuild.addRoute`), its eight siblings do not.

`HashMap` iteration order is not specified, so every adding call takes it as an argument
(`IterOrder`).
-/

namespace Rauta

/-! ## Routes -/

/-- `Route`. -/
structure Route where
  pattern : Str
  backends : List Backend
  maglevTable : List Nat
  headerMatches : List HeaderMatch
  methodMatches : Option (List HttpMethod)
  queryParamMatches : List QueryParamMatch
  requestFilters : Option RequestHeaderModifier
  responseFilters : Option ResponseHeaderModifier
  redirect : Option RequestRedirect
  timeout : Option Timeout
  retry : Option RetryConfig

/-- A route without constraints or filters. -/
def Route.basic (path : Str) (backends : List Backend) (maglevTable : List Nat) : Route where
  pattern := path
  backends := backends
  maglevTable := maglevTable
  headerMatches := []
  methodMatches := none
  queryParamMatches := []
  requestFilters := none
  responseFilters := none
  redirect := none
  timeout := none
  retry := none

/-- The routes map. -/
abbrev RouteMap := AList (fun _ : RouteKey => Route)

/-- An entry of the routes map. -/
abbrev RouteEntry := Sigma fun _ : RouteKey => Route

/-- An iteration order of the routes map: some arrangement of its entries. -/
structure IterOrder where
  iter : RouteMap → List RouteEntry
  perm : ∀ routes, (iter routes).Perm routes.entries

/-- Newest entry first. -/
def IterOrder.newestFirst : IterOrder := ⟨AList.entries, fun _ => List.Perm.refl _⟩

/-- `RouteMatch`. -/
structure RouteMatch where
  backend : Backend
  pattern : Str
  requestFilters : Option RequestHeaderModifier
  responseFilters : Option ResponseHeaderModifier
  redirect : Option RequestRedirect
  timeout : Option Timeout
  retry : Option RetryConfig

/-- The match that reports a backend of a route. -/
def Route.toMatch (route : Route) (backend : Backend) : RouteMatch where
  backend := backend
  pattern := route.pattern
  requestFilters := route.requestFilters
  responseFilters := route.responseFilters
  redirect := route.redirect
  timeout := route.timeout
  retry := route.retry

/-! ## The state -/

/-- `Router`. -/
structure Router where
  routes : RouteMap
  prefixRouter : PrefixRouter
  health : HealthData
  healthChecker : HealthChecker
  routeCache : RouteLruCache

/-- `ROUTE_CACHE_MAX_SIZE`. -/
def routeCacheMaxSize : Nat := 128

/-- `Router::with_health_config`. -/
def Router.withHealthConfig (config : HealthCheckConfig) (inRuntime : Bool) : Router where
  routes := ∅
  prefixRouter := []
  health := .new
  healthChecker := .new config inRuntime
  routeCache := .new routeCacheMaxSize

/-- `Router::new`: active health checking is off. -/
def Router.new : Router := .withHealthConfig .default true

/-! ## The patterns of a route -/

/-- `get_method_prefix`. -/
def getMethodPrefix : HttpMethod → Str
  | .get => "GET:".toList
  | .post => "POST:".toList
  | .put => "PUT:".toList
  | .delete => "DELETE:".toList
  | .patch => "PATCH:".toList
  | .head => "HEAD:".toList
  | .options => "OPTIONS:".toList
  | .all => []

theorem getMethodPrefix_all : getMethodPrefix .all = [] := rfl

/-- The root path. -/
def rootPath : Str := ['/']

/-- `trim_end_matches('/')`. -/
def trimEndSlashes (path : Str) : Str := path.rdropWhile (· == '/')

/-- How an adding call rebuilds the prefix router: whether patterns carry the method, and how the
error message calls the exact pattern. -/
structure Rebuild where
  methodAware : Bool
  exactLabel : Str

namespace Rebuild

/-- The rebuild of `add_route`. -/
def addRoute : Rebuild := ⟨true, "exact route".toList⟩

/-- The rebuild of `add_route_with_headers`, `…_methods` and `…_query_params`. -/
def withMatches : Rebuild := ⟨false, "exact route".toList⟩

/-- The rebuild of the other five. -/
def withFilters : Rebuild := ⟨false, "route".toList⟩

/-- The method prefix of a pattern. -/
def methodPrefix (r : Rebuild) (key : RouteKey) : Str :=
  if r.methodAware then getMethodPrefix key.method else []

/-- The exact pattern of a path. -/
def exactPattern (r : Rebuild) (key : RouteKey) (path : Str) : Str := r.methodPrefix key ++ path

/-- The catch-all pattern of a path. For the root path `add_route` leaves out the slash that its
siblings write. -/
def prefixPattern (r : Rebuild) (key : RouteKey) (path : Str) : Str :=
  if path = rootPath then
    if r.methodAware then r.methodPrefix key ++ catchAll else '/' :: catchAll
  else r.methodPrefix key ++ trimEndSlashes path ++ '/' :: catchAll

/-- Both patterns of an entry of the routes map, as they are inserted. -/
def patterns (r : Rebuild) (e : RouteEntry) : PrefixRouter :=
  [(r.exactPattern e.1 e.2.pattern, e.1), (r.prefixPattern e.1 e.2.pattern, e.1)]

/-- The body of the rebuild loop. -/
def insertRoute (r : Rebuild) (M : Matchit) (pr : PrefixRouter) (e : RouteEntry) :
    Except Str PrefixRouter :=
  match M.insert pr (r.exactPattern e.1 e.2.pattern) e.1 with
  | .error msg =>
    .error ("Failed to add ".toList ++ r.exactLabel ++ ' ' :: e.2.pattern ++ ": ".toList ++ msg)
  | .ok pr =>
    match M.insert pr (r.prefixPattern e.1 e.2.pattern) e.1 with
    | .error msg =>
      .error ("Failed to add prefix route ".toList ++ e.2.pattern ++ ": ".toList ++ msg)
    | .ok pr => .ok pr

/-- The rebuild loop, from a given router on. -/
def insertRoutes (r : Rebuild) (M : Matchit) : PrefixRouter → List RouteEntry →
    Except Str PrefixRouter
  | pr, [] => .ok pr
  | pr, e :: es =>
    match r.insertRoute M pr e with
    | .error msg => .error msg
    | .ok pr => insertRoutes r M pr es

/-- The prefix router of a route table. -/
def build (r : Rebuild) (M : Matchit) (ord : IterOrder) (routes : RouteMap) :
    Except Str PrefixRouter :=
  r.insertRoutes M [] (ord.iter routes)

end Rebuild

/-! ## Adding routes -/

/-- How an adding call ends: `panic` is the failed assertion of `maglev_build_compact_table`. -/
inductive AddResult where
  | ok
  | err (message : Str)
  | panic
  deriving DecidableEq

namespace Router

/-- What all adding calls share: write the route to the map, then rebuild the prefix router. The map
is written first, and a failing rebuild leaves it written. -/
def install (M : Matchit) (ord : IterOrder) (r : Rebuild) (s : Router) (method : HttpMethod)
    (path : Str) (route : Route) : AddResult × Router :=
  let routes := s.routes.insert (routeKey method path) route
  match r.build M ord routes with
  | .error msg => (.err msg, { s with routes := routes })
  | .ok pr => (.ok, { s with routes := routes, prefixRouter := pr })

/-- The idempotence check of `add_route`: the route is there, with the same backends. -/
def hasRoute (s : Router) (method : HttpMethod) (path : Str) (backends : List Backend) : Bool :=
  (s.routes.lookup (routeKey method path)).any fun existing => existing.backends = backends

/-- `add_route`. Re-adding a route with the same backends changes nothing. -/
def addRoute (M : Matchit) (ord : IterOrder) (s : Router) (method : HttpMethod) (path : Str)
    (backends : List Backend) : AddResult × Router :=
  if s.hasRoute method path backends then (.ok, s)
  else
    match maglevBuildCompactTable backends with
    | none => (.panic, s)
    | some table =>
      let s := { s with healthChecker := s.healthChecker.startChecking backends path }
      match s.install M ord .addRoute method path (.basic path backends table) with
      -- only the entry of this very key is dropped
      | (.ok, s) => (.ok, { s with routeCache := s.routeCache.invalidate (routeKey method path) })
      | (result, s) => (result, s)

/-- `update_route_backends`. -/
def updateRouteBackends (M : Matchit) (ord : IterOrder) (s : Router) (method : HttpMethod)
    (path : Str) (backends : List Backend) : AddResult × Router :=
  s.addRoute M ord method path backends

/-- What one of the eight siblings of `add_route` adds to the basic route. -/
inductive Extra where
  | headers (headerMatches : List HeaderMatch)
  | methods (methodMatches : List HttpMethod)
  | queryParams (queryParamMatches : List QueryParamMatch)
  | filters (filters : RequestHeaderModifier)
  | responseFilters (filters : ResponseHeaderModifier)
  | redirect (redirectFilter : RequestRedirect)
  | timeout (timeoutConfig : Timeout)
  | retry (retryConfig : RetryConfig)

/-- How the sibling rebuilds. -/
def Extra.rebuild : Extra → Rebuild
  | .headers _ | .methods _ | .queryParams _ => .withMatches
  | _ => .withFilters

/-- The route the sibling stores. -/
def Extra.decorate (route : Route) : Extra → Route
  | .headers hm => { route with headerMatches := hm }
  | .methods mm => { route with methodMatches := some mm }
  | .queryParams qm => { route with queryParamMatches := qm }
  | .filters f => { route with requestFilters := some f }
  | .responseFilters f => { route with responseFilters := some f }
  | .redirect r => { route with redirect := some r }
  | .timeout t => { route with timeout := some t }
  | .retry r => { route with retry := some r }

/-- The common body of the siblings. Unlike `add_route` they neither look for an unchanged route,
nor start health checking, nor touch the cache. -/
def addRouteWith (M : Matchit) (ord : IterOrder) (s : Router) (method : HttpMethod) (path : Str)
    (backends : List Backend) (extra : Extra) : AddResult × Router :=
  match maglevBuildCompactTable backends with
  | none => (.panic, s)
  | some table =>
    s.install M ord extra.rebuild method path (extra.decorate (.basic path backends table))

section Siblings

variable (M : Matchit) (ord : IterOrder) (s : Router) (method : HttpMethod) (path : Str)
  (backends : List Backend)

def addRouteWithHeaders (headerMatches : List HeaderMatch) : AddResult × Router :=
  s.addRouteWith M ord method path backends (.headers headerMatches)

def addRouteWithMethods (methodMatches : List HttpMethod) : AddResult × Router :=
  s.addRouteWith M ord method path backends (.methods methodMatches)

def addRouteWithQueryParams (queryParamMatches : List QueryParamMatch) : AddResult × Router :=
  s.addRouteWith M ord method path backends (.queryParams queryParamMatches)

def addRouteWithFilters (filters : RequestHeaderModifier) : AddResult × Router :=
  s.addRouteWith M ord method path backends (.filters filters)

def addRouteWithResponseFilters (filters : ResponseHeaderModifier) : AddResult × Router :=
  s.addRouteWith M ord method path backends (.responseFilters filters)

def addRouteWithRedirect (redirectFilter : RequestRedirect) : AddResult × Router :=
  s.addRouteWith M ord method path backends (.redirect redirectFilter)

def addRouteWithTimeout (timeoutConfig : Timeout) : AddResult × Router :=
  s.addRouteWith M ord method path backends (.timeout timeoutConfig)

def addRouteWithRetry (retryConfig : RetryConfig) : AddResult × Router :=
  s.addRouteWith M ord method path backends (.retry retryConfig)

end Siblings

/-! ## Looking routes up -/

/-- The prefix part of a lookup: with the method in front, then without it. -/
def prefixLookup (M : Matchit) (s : Router) (method : HttpMethod) (path : Str) : Option RouteKey :=
  match M.matchAt s.prefixRouter (getMethodPrefix method ++ path) with
  | some key => some key
  -- patterns without a method are those of `ALL` routes, and all that the siblings rebuild
  | none => if method ≠ .all then M.matchAt s.prefixRouter path else none

/-- The lookup of `select_backend` on a cache miss: the exact key, the `ALL` key, the prefix
router. -/
def lookup (M : Matchit) (s : Router) (method : HttpMethod) (path : Str) : Option RouteKey :=
  if routeKey method path ∈ s.routes then some (routeKey method path)
  else if method ≠ .all ∧ routeKey .all path ∈ s.routes then some (routeKey .all path)
  else s.prefixLookup M method path

/-- The lookup of `select_backend_with_headers` and `select_backend_with_query_params`, which has no
`ALL` key. -/
def lookupExactOrPrefix (M : Matchit) (s : Router) (method : HttpMethod) (path : Str) :
    Option RouteKey :=
  if routeKey method path ∈ s.routes then some (routeKey method path)
  else s.prefixLookup M method path

/-- The route key that `select_backend` uses, and the cache afterwards. Only a lookup that found
something is remembered. -/
def resolve (M : Matchit) (s : Router) (method : HttpMethod) (path : Str) :
    Option RouteKey × RouteLruCache :=
  let key := routeKey method path
  match s.routeCache.get key with
  | (some cached, cache) => (some cached, cache)
  | (none, cache) =>
    match s.lookup M method path with
    | some resolved => (some resolved, cache.insert key resolved)
    | none => (none, cache)

section Lookup

variable {M : Matchit} {s : Router} {method : HttpMethod} {path : Str}

theorem lookup_of_mem (h : routeKey method path ∈ s.routes) :
    s.lookup M method path = some (routeKey method path) := by
  simp [lookup, h]

theorem lookup_of_all_mem (hmethod : method ≠ .all)
    (h : routeKey .all path ∈ s.routes) :
    s.lookup M method path =
      some (if routeKey method path ∈ s.routes then routeKey method path
        else routeKey .all path) := by
  by_cases hown : routeKey method path ∈ s.routes <;> simp [lookup, hown, hmethod, h]

/-- A lookup reads two keys of the table, and the prefix router. -/
theorem lookup_congr {s' : Router}
    (hown : routeKey method path ∈ s'.routes ↔ routeKey method path ∈ s.routes)
    (hall : method ≠ .all → (routeKey .all path ∈ s'.routes ↔ routeKey .all path ∈ s.routes))
    (hpre : s'.prefixLookup M method path = s.prefixLookup M method path) :
    s'.lookup M method path = s.lookup M method path := by
  simp only [lookup, hown, hpre, and_congr_right hall]

/-- A request uses the cached key, if there is one. -/
theorem resolve_fst (M : Matchit) (s : Router) (method : HttpMethod) (path : Str) :
    (s.resolve M method path).1 =
      (s.routeCache.cached (routeKey method path)).or (s.lookup M method path) := by
  rw [← RouteLruCache.get_fst]
  simp only [resolve]
  cases s.routeCache.get (routeKey method path) with
  | mk cached cache =>
      cases cached with
      | some cached => rfl
      | none => cases s.lookup M method path <;> rfl

/-- A cache entry after a request was there before, or is what the request's lookup found. -/
theorem cached_resolve {key r : RouteKey} (h : (s.resolve M method path).2.cached key = some r) :
    s.routeCache.cached key = some r ∨
      (key = routeKey method path ∧ s.lookup M method path = some r) := by
  have hget := s.routeCache.cached_get (routeKey method path) key
  simp only [resolve] at h
  cases hc : s.routeCache.get (routeKey method path) with
  | mk cached cache =>
      rw [hc] at h hget
      cases cached with
      | some cached => exact Or.inl (hget.symm.trans h)
      | none =>
          cases hres : s.lookup M method path with
          | none =>
              rw [hres] at h
              exact Or.inl (hget.symm.trans h)
          | some resolved =>
              rw [hres] at h
              rcases RouteLruCache.cached_insert h with ⟨hkey, rfl⟩ | h
              · exact Or.inr ⟨hkey, rfl⟩
              · exact Or.inl (hget.symm.trans h)

end Lookup

end Router

/-! ## Flow hash -/

/-- `std::net::IpAddr`. -/
inductive IpAddr where
  | v4 (addr : UInt32)
  | v6 (octets : Vector UInt8 16)

/-- `u64::from_be_bytes`. -/
def fromBeBytes (bytes : List UInt8) : Nat := bytes.foldl (fun n b => n * 256 + b.toNat) 0

/-- The 64 bits of an address that enter the flow hash. -/
def IpAddr.hash : IpAddr → Nat
  | .v4 addr => addr.toNat
  | .v6 octets => fromBeBytes (octets.toList.take 8) ^^^ fromBeBytes (octets.toList.drop 8)

/-- `compute_flow_hash`. -/
def computeFlowHash (pathHash : Nat) (srcIp : Option IpAddr) (srcPort : Option UInt16) : Nat :=
  match srcIp, srcPort with
  | some ip, some port => pathHash ^^^ ((ip.hash <<< 16) % 2 ^ 64 ||| port.toNat)
  | _, _ => pathHash

/-! ## The selection loops -/

namespace Route

variable (route : Route) (eligible : Backend → Bool) (flowHash : Nat)

/-- The backend index that an attempt looks at. -/
def probe (attempt : Nat) : Nat :=
  maglevLookupCompact ((flowHash + attempt) % 2 ^ 64) route.maglevTable

/-- The loop of `select_backend`: tried indices in a 32-bit mask, with a counter. -/
def maskLoop : List Nat → (triedMask triedCount : Nat) → Option Backend
  | [], _, _ => none
  | attempt :: rest, triedMask, triedCount =>
    let backendIdx := route.probe flowHash attempt
    let bit := 1 <<< (backendIdx &&& 31)
    if triedMask &&& bit ≠ 0 then maskLoop rest triedMask triedCount
    else
      match route.backends[backendIdx]? with
      | none => none
      | some backend =>
        if eligible backend then some backend
        else if triedCount + 1 = route.backends.length then none
        else maskLoop rest (triedMask ||| bit) (triedCount + 1)

/-- The loop of the other two: tried indices in a set. -/
def setLoop : List Nat → (triedIndices : List Nat) → Option Backend
  | [], _ => none
  | attempt :: rest, triedIndices =>
    let backendIdx := route.probe flowHash attempt
    if backendIdx ∈ triedIndices then setLoop rest triedIndices
    else
      match route.backends[backendIdx]? with
      | none => none
      | some backend =>
        if eligible backend then some backend
        else if (backendIdx :: triedIndices).length = route.backends.length then none
        else setLoop rest (backendIdx :: triedIndices)

/-- The attempts of either loop. -/
def attempts : List Nat := List.range (route.backends.length * 10)

/-- Selection with a bit mask. -/
def selectByMask : Option Backend := route.maskLoop eligible flowHash route.attempts 0 0

/-- Selection with a set. -/
def selectBySet : Option Backend := route.setLoop eligible flowHash route.attempts []

end Route

/-! ## Selecting a backend -/

/-- The header constraints of a route, if it has any, are met. -/
def Route.acceptsHeaders (R : RegexCrate) (requestHeaders : List (Str × Str)) (route : Route) :
    Bool :=
  route.headerMatches.isEmpty || headersMatch R route.headerMatches requestHeaders

/-- The query parameter constraints of a route, if it has any, are met. -/
def Route.acceptsQueryParams (R : RegexCrate) (queryParams : List (Str × Str)) (route : Route) :
    Bool :=
  route.queryParamMatches.isEmpty || queryParamsMatch R route.queryParamMatches queryParams

namespace Router

/-- The test of `select_backend`: passively healthy, actively healthy, not draining. -/
def eligible (s : Router) (b : Backend) : Bool :=
  s.health.isHealthyPassive b && s.healthChecker.isHealthy b && !s.health.isDraining b

/-- The test of the other two: passively healthy, not draining. -/
def eligiblePassive (s : Router) (b : Backend) : Bool :=
  s.health.isHealthyPassive b && !s.health.isDraining b

section Select

variable (M : Matchit) (R : RegexCrate) (s : Router) (method : HttpMethod) (path : Str)
  (srcIp : Option IpAddr) (srcPort : Option UInt16)

/-- The route part of `select_backend`, once the route key is known. -/
def selectFrom (key : RouteKey) : Option RouteMatch :=
  match s.routes.lookup key with
  | none => none
  | some route =>
    if route.methodMatches.any fun ms => !ms.contains method then none
    else (route.selectByMask s.eligible
      (computeFlowHash (pathHash path) srcIp srcPort)).map route.toMatch

/-- `select_backend`. -/
def selectBackend : Option RouteMatch × Router :=
  let (key, cache) := s.resolve M method path
  (key.bind fun key => s.selectFrom method path srcIp srcPort key, { s with routeCache := cache })

/-- The body that `select_backend_with_headers` and `select_backend_with_query_params` share: look
the route up without the cache, test its constraints, select without the active checks. -/
def selectMatching (accepts : Route → Bool) : Option RouteMatch :=
  match s.lookupExactOrPrefix M method path with
  | none => none
  | some key =>
    match s.routes.lookup key with
    | none => none
    | some route =>
      if accepts route then
        (route.selectBySet s.eligiblePassive
          (computeFlowHash (pathHash path) srcIp srcPort)).map route.toMatch
      else none

/-- `select_backend_with_headers`. -/
def selectBackendWithHeaders (requestHeaders : List (Str × Str)) : Option RouteMatch :=
  s.selectMatching M method path srcIp srcPort (Route.acceptsHeaders R requestHeaders)

/-- `select_backend_with_query_params`. -/
def selectBackendWithQueryParams (queryParams : List (Str × Str)) : Option RouteMatch :=
  s.selectMatching M method path srcIp srcPort (Route.acceptsQueryParams R queryParams)

end Select

/-- `record_backend_response`. -/
def recordBackendResponse (s : Router) (b : Backend) (statusCode : Nat) : Router :=
  { s with health := s.health.recordBackendResponse b statusCode }

/-- `drain_backend`. -/
def drainBackend (s : Router) (b : Backend) (now drainTimeout : Nat) : Router :=
  { s with health := s.health.drainBackend b now drainTimeout }

end Router

end Rauta
