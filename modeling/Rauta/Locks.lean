import Rauta.Lib.LockOrder

/-!
# The locks of the process

Requests, reconcilers, watchers and probes share the router, the health checker, the gateway index,
the certificates and the pools behind locks. Some functions take one lock while they hold another:
a lookup reads the prefix router under the route table, a selection asks the health checker or the
regex cache under it, the functions that add a route with filters write the prefix router under it,
and a certificate is added to the set of host names under the resolver.

Here each function is the sequence of its lock operations, with the scope of every guard as in the
source; what it decides on data is left open (`choose`). A wait for the network under a lock is over
at some point. A lock that is poisoned is taken all the same (`safe_read`, `safe_write`,
`safe_lock`), and a request that is given up only lets go of what it has.
-/

namespace Rauta.Locking

open Interaction Interleaving Transition LockOrder

/-- The locks. A worker has its own pools. -/
inductive Lock where
  | routeCache
  | routes
  | prefixRouter
  | regexCache
  | healthStates
  | breakerWrites
  | bucketWrites
  | listeners
  | listenerProtocols
  | protocols
  | backendPools
  | workerPools (worker : Nat)
  | gatewayIndex
  | sniResolver
  | certificates
  | hostnames
  deriving DecidableEq

/-- Which locks are taken under which. -/
def Lock.rank : Lock → Nat
  | .prefixRouter | .regexCache | .healthStates | .certificates => 1
  | .hostnames => 2
  | _ => 0

/-- The lock operations of a function. -/
abbrev Script := Prog (locks Lock)

/-! ## The health checker -/

def isHealthy : Script Bool := reading .healthStates choose

def getAllStatuses : Script Unit := reading .healthStates (pure ())

def startChecking : Script Unit := do
  if ← choose then writing .healthStates (pure ())

/-- A round of the loop: the probe's result is written, then the failures are read back. -/
def probe : Script Unit := do
  writing .healthStates (pure ())
  reading .healthStates (pure ())

def checkBackendLoop (rounds : Nat) : Script Unit := times rounds probe

/-! ## The router -/

def getCachedRegex : Script Bool := writing .regexCache choose

/-- A value against a pattern. One that does not compile matches nothing. -/
def matchesPattern : Script Bool := do
  if ← getCachedRegex then choose else return false

/-- A field of the request against a match of the route, which is by pattern or exact. -/
def meets : Script Bool := do
  if ← choose then matchesPattern else choose

/-- The fields of the request, up to the first that meets the match. -/
def anyMatches : Nat → Script Bool
  | 0 => pure false
  | fields + 1 => do
    if ← meets then return true else anyMatches fields

/-- `headers_match` and `query_params_match`. -/
def allMatch (fields : Nat) : Nat → Script Bool
  | 0 => pure true
  | left + 1 => do
    if ← anyMatches fields then allMatch fields left else return false

/-- The route of a request: an exact match, or else a match of the prefix router, which is read with
the route table still held. -/
def lookup : Script Bool :=
  reading .routes do
    if ← choose then return true else reading .prefixRouter choose

/-- The loop over the backends of the route. -/
def selectLoop : Nat → Script Bool
  | 0 => pure false
  | attempts + 1 => do
    -- a backend that was tried is skipped
    if ← choose then selectLoop attempts
    -- an index without a backend ends the loop
    else if ← choose then return false
    else if ← isHealthy then return true
    -- all were tried
    else if ← choose then return false
    else selectLoop attempts

/-- The key of the route, from the cache or else looked up and cached. -/
def resolveKey : Script Bool := do
  if ← writing .routeCache choose then return true
  else if ← lookup then
    writing .routeCache (pure ())
    return true
  else return false

def selectBackend (attempts : Nat) : Script Bool := do
  if ← resolveKey then
    reading .routes do
      -- the route is there, and it takes the method
      if ← choose then selectLoop attempts else return false
  else return false

/-- `select_backend_with_headers` and `select_backend_with_query_params`. -/
def selectBackendMatching (fields left : Nat) : Script Bool := do
  if ← lookup then
    reading .routes do
      if ← choose then allMatch fields left else return false
  else return false

def selectBackendWithHeaders (headers headerMatches : Nat) : Script Bool :=
  selectBackendMatching headers headerMatches

def selectBackendWithQueryParams (params queryParamMatches : Nat) : Script Bool :=
  selectBackendMatching params queryParamMatches

def addRoute : Script Unit := do
  let same ← reading .routes choose
  unless same do
    startChecking
    writing .routes (pure ())
    -- the new prefix router is built under the route table and swapped in after it
    if ← reading .routes choose then
      writing .prefixRouter (pure ())
      writing .routeCache (pure ())

def updateRouteBackends : Script Unit := addRoute

/-- The functions that add a route with matches. -/
def addRouteMatching : Script Unit := do
  writing .routes (pure ())
  if ← reading .routes choose then writing .prefixRouter (pure ())

def addRouteWithHeaders : Script Unit := addRouteMatching

def addRouteWithMethods : Script Unit := addRouteMatching

def addRouteWithQueryParams : Script Unit := addRouteMatching

/-- The functions that add a route with filters. They swap the prefix router in with the route table
still held. -/
def addRouteFiltering : Script Unit := do
  writing .routes (pure ())
  reading .routes do
    if ← choose then writing .prefixRouter (pure ())

def addRouteWithFilters : Script Unit := addRouteFiltering

def addRouteWithResponseFilters : Script Unit := addRouteFiltering

def addRouteWithRedirect : Script Unit := addRouteFiltering

def addRouteWithTimeout : Script Unit := addRouteFiltering

def addRouteWithRetry : Script Unit := addRouteFiltering

def listRoutes : Script Unit := reading .routes (pure ())

def routeCount : Script Unit := reading .routes (pure ())

def getCacheStats : Script Unit := reading .routeCache (pure ())

def getCacheSize : Script Unit := reading .routeCache (pure ())

/-! ## Limiters and breakers -/

def configureRoute : Script Unit := writing .bucketWrites (pure ())

def removeRoute : Script Unit := writing .bucketWrites (pure ())

/-- A breaker that is there is found without the lock. -/
def getBreaker : Script Unit := do
  unless ← choose do writing .breakerWrites (pure ())

def removeBackend : Script Unit := writing .breakerWrites (pure ())

/-! ## Listeners and connections -/

/-- The port is bound with the listeners held. -/
def registerGateway : Script Bool := writing .listeners choose

def unregisterGateway : Script Bool := writing .listeners choose

def listListeners : Script Unit := reading .listeners (pure ())

def shutdownListeners : Script Unit := writing .listeners (pure ())

def setListenerProtocolHttp2 : Script Unit := writing .listenerProtocols (pure ())

/-- How a listener asks for the protocol of a backend. -/
def listenerProtocol : Script Bool := reading .listenerProtocols choose

def setBackendProtocolHttp2 : Script Unit := writing .protocols (pure ())

/-- The connection is opened with the pools held. -/
def getBackendConnection (worker : Nat) : Script Bool := writing (.workerPools worker) choose

/-- A connection from the pools of a worker, or from those that all share. -/
def connect : Option Nat → Script Bool
  | some worker => getBackendConnection worker
  | none => writing .backendPools choose

/-- Whether a request goes out over HTTP/2. It does if the protocol is not known. -/
def useHttp2 (cached : Bool) : Script Bool := if cached then choose else pure true

def forwardToBackend (worker : Option Nat) : Script Unit := do
  let cached ← writing .protocols choose
  if ← useHttp2 cached then
    if ← connect worker then
      let sent ← choose
      -- a backend that was not known speaks HTTP/1.1, it turns out
      unless sent || cached do writing .protocols (pure ())

/-! ## The gateway index and the certificates -/

def gatewayIndexAdd : Script Unit := writing .gatewayIndex (pure ())

def gatewayIndexRemove : Script Unit := writing .gatewayIndex (pure ())

def gatewayIndexContains : Script Unit := reading .gatewayIndex (pure ())

def gatewayIndexKeys : Script Unit := reading .gatewayIndex (pure ())

/-- The host name is recorded under the resolver. -/
def addCert : Script Unit :=
  writing .certificates do
    if ← choose then writing .hostnames (pure ())

def updateCert : Script Unit := writing .certificates (pure ())

/-- What a TLS handshake asks. -/
def resolveCert : Script Bool := writing .certificates choose

def hasCert : Script Bool := writing .hostnames choose

def handleSecretApply : Script Unit := do
  -- other secrets are ignored
  if ← choose then writing .sniResolver updateCert

/-! ## Threads -/

/-- What a thread can call. -/
inductive Operation where
  | getAllStatuses
  | checkBackendLoop (rounds : Nat)
  | selectBackend (attempts : Nat)
  | selectBackendWithHeaders (headers headerMatches : Nat)
  | selectBackendWithQueryParams (params queryParamMatches : Nat)
  | addRoute
  | updateRouteBackends
  | addRouteWithHeaders
  | addRouteWithMethods
  | addRouteWithQueryParams
  | addRouteWithFilters
  | addRouteWithResponseFilters
  | addRouteWithRedirect
  | addRouteWithTimeout
  | addRouteWithRetry
  | listRoutes
  | routeCount
  | getCacheStats
  | getCacheSize
  | configureRoute
  | removeRoute
  | getBreaker
  | removeBackend
  | registerGateway
  | unregisterGateway
  | listListeners
  | shutdownListeners
  | setListenerProtocolHttp2
  | listenerProtocol
  | setBackendProtocolHttp2
  | forwardToBackend (worker : Option Nat)
  | gatewayIndexAdd
  | gatewayIndexRemove
  | gatewayIndexContains
  | gatewayIndexKeys
  | addCert
  | updateCert
  | resolveCert
  | hasCert
  | handleSecretApply

/-- The lock operations of a call. -/
def Operation.script : Operation → Script Unit
  | .getAllStatuses => Locking.getAllStatuses
  | .checkBackendLoop rounds => Locking.checkBackendLoop rounds
  | .selectBackend attempts => discard (Locking.selectBackend attempts)
  | .selectBackendWithHeaders headers headerMatches =>
    discard (Locking.selectBackendWithHeaders headers headerMatches)
  | .selectBackendWithQueryParams params queryParamMatches =>
    discard (Locking.selectBackendWithQueryParams params queryParamMatches)
  | .addRoute => Locking.addRoute
  | .updateRouteBackends => Locking.updateRouteBackends
  | .addRouteWithHeaders => Locking.addRouteWithHeaders
  | .addRouteWithMethods => Locking.addRouteWithMethods
  | .addRouteWithQueryParams => Locking.addRouteWithQueryParams
  | .addRouteWithFilters => Locking.addRouteWithFilters
  | .addRouteWithResponseFilters => Locking.addRouteWithResponseFilters
  | .addRouteWithRedirect => Locking.addRouteWithRedirect
  | .addRouteWithTimeout => Locking.addRouteWithTimeout
  | .addRouteWithRetry => Locking.addRouteWithRetry
  | .listRoutes => Locking.listRoutes
  | .routeCount => Locking.routeCount
  | .getCacheStats => Locking.getCacheStats
  | .getCacheSize => Locking.getCacheSize
  | .configureRoute => Locking.configureRoute
  | .removeRoute => Locking.removeRoute
  | .getBreaker => Locking.getBreaker
  | .removeBackend => Locking.removeBackend
  | .registerGateway => discard Locking.registerGateway
  | .unregisterGateway => discard Locking.unregisterGateway
  | .listListeners => Locking.listListeners
  | .shutdownListeners => Locking.shutdownListeners
  | .setListenerProtocolHttp2 => Locking.setListenerProtocolHttp2
  | .listenerProtocol => discard Locking.listenerProtocol
  | .setBackendProtocolHttp2 => Locking.setBackendProtocolHttp2
  | .forwardToBackend worker => Locking.forwardToBackend worker
  | .gatewayIndexAdd => Locking.gatewayIndexAdd
  | .gatewayIndexRemove => Locking.gatewayIndexRemove
  | .gatewayIndexContains => Locking.gatewayIndexContains
  | .gatewayIndexKeys => Locking.gatewayIndexKeys
  | .addCert => Locking.addCert
  | .updateCert => Locking.updateCert
  | .resolveCert => discard Locking.resolveCert
  | .hasCert => discard Locking.hasCert
  | .handleSecretApply => Locking.handleSecretApply

/-- A thread makes its calls one after the other. -/
def run : List Operation → Script Unit
  | [] => pure ()
  | operation :: operations => do
    operation.script
    run operations

/-! ## The order -/

variable {stack : List (Lock × Hold)}

theorem scoped_isHealthy (h : Above Lock.rank .healthStates stack = true) :
    Scoped Lock.rank stack isHealthy :=
  scoped_reading h (scoped_choose rfl)

theorem orderly_startChecking : Orderly Lock.rank startChecking := by
  refine (scoped_choose rfl).bind fun enabled => Scoped.ite ?_ (scoped_pure ())
  exact scoped_writing rfl (scoped_pure ())

theorem orderly_probe : Orderly Lock.rank probe := by
  refine (scoped_writing rfl (scoped_pure ())).bind fun _ => ?_
  exact scoped_reading rfl (scoped_pure ())

theorem scoped_anyMatches (h : Above Lock.rank .regexCache stack = true) (fields : Nat) :
    Scoped Lock.rank stack (anyMatches fields) := by
  have hchoose : Scoped Lock.rank stack choose := scoped_choose (above_iff.mp h).1
  have hpattern : Scoped Lock.rank stack matchesPattern := by
    refine Scoped.bind (scoped_writing h (scoped_choose rfl)) fun compiled => ?_
    exact Scoped.ite hchoose (scoped_pure false)
  have hmeets : Scoped Lock.rank stack meets :=
    hchoose.bind fun pattern => Scoped.ite hpattern hchoose
  induction fields with
  | zero => exact scoped_pure false
  | succ fields ih => exact hmeets.bind fun met => Scoped.ite (scoped_pure true) ih

theorem scoped_allMatch (h : Above Lock.rank .regexCache stack = true) (fields left : Nat) :
    Scoped Lock.rank stack (allMatch fields left) := by
  induction left with
  | zero => exact scoped_pure true
  | succ left ih =>
    refine (scoped_anyMatches h fields).bind fun met => ?_
    exact Scoped.ite ih (scoped_pure false)

theorem orderly_lookup : Orderly Lock.rank lookup := by
  refine scoped_reading rfl (Scoped.bind (scoped_choose rfl) fun found => ?_)
  exact Scoped.ite (scoped_pure true) (scoped_reading rfl (scoped_choose rfl))

theorem scoped_selectLoop (h : Above Lock.rank .healthStates stack = true) (attempts : Nat) :
    Scoped Lock.rank stack (selectLoop attempts) := by
  have hchoose : Scoped Lock.rank stack choose := scoped_choose (above_iff.mp h).1
  induction attempts with
  | zero => exact scoped_pure false
  | succ attempts ih =>
    refine hchoose.bind fun tried => Scoped.ite ih ?_
    refine hchoose.bind fun missing => Scoped.ite (scoped_pure false) ?_
    refine (scoped_isHealthy h).bind fun healthy => Scoped.ite (scoped_pure true) ?_
    exact hchoose.bind fun last => Scoped.ite (scoped_pure false) ih

theorem orderly_resolveKey : Orderly Lock.rank resolveKey := by
  refine Scoped.bind (scoped_writing rfl (scoped_choose rfl)) fun hit => ?_
  refine Scoped.ite (scoped_pure true) (orderly_lookup.bind fun found => ?_)
  refine Scoped.ite ?_ (scoped_pure false)
  exact (scoped_writing rfl (scoped_pure ())).bind fun _ => scoped_pure true

theorem orderly_selectBackend (attempts : Nat) : Orderly Lock.rank (selectBackend attempts) := by
  refine orderly_resolveKey.bind fun resolved => Scoped.ite ?_ (scoped_pure false)
  refine scoped_reading rfl (Scoped.bind (scoped_choose rfl) fun present => ?_)
  exact Scoped.ite (scoped_selectLoop rfl attempts) (scoped_pure false)

theorem orderly_selectBackendMatching (fields left : Nat) :
    Orderly Lock.rank (selectBackendMatching fields left) := by
  refine orderly_lookup.bind fun found => Scoped.ite ?_ (scoped_pure false)
  refine scoped_reading rfl (Scoped.bind (scoped_choose rfl) fun present => ?_)
  exact Scoped.ite (scoped_allMatch rfl fields left) (scoped_pure false)

theorem orderly_addRoute : Orderly Lock.rank addRoute := by
  refine Scoped.bind (scoped_reading rfl (scoped_choose rfl)) fun same => ?_
  refine Scoped.ite (scoped_pure ()) (orderly_startChecking.bind fun _ => ?_)
  refine (scoped_writing rfl (scoped_pure ())).bind fun _ => ?_
  refine Scoped.bind (scoped_reading rfl (scoped_choose rfl)) fun built => ?_
  refine Scoped.ite ?_ (scoped_pure ())
  exact (scoped_writing rfl (scoped_pure ())).bind fun _ => scoped_writing rfl (scoped_pure ())

theorem orderly_addRouteMatching : Orderly Lock.rank addRouteMatching := by
  refine (scoped_writing rfl (scoped_pure ())).bind fun _ => ?_
  refine Scoped.bind (scoped_reading rfl (scoped_choose rfl)) fun built => ?_
  exact Scoped.ite (scoped_writing rfl (scoped_pure ())) (scoped_pure ())

theorem orderly_addRouteFiltering : Orderly Lock.rank addRouteFiltering := by
  refine (scoped_writing rfl (scoped_pure ())).bind fun _ => ?_
  refine scoped_reading rfl (Scoped.bind (scoped_choose rfl) fun built => ?_)
  exact Scoped.ite (scoped_writing rfl (scoped_pure ())) (scoped_pure ())

theorem orderly_getBreaker : Orderly Lock.rank getBreaker := by
  refine (scoped_choose rfl).bind fun found => Scoped.ite (scoped_pure ()) ?_
  exact scoped_writing rfl (scoped_pure ())

theorem orderly_connect (worker : Option Nat) : Orderly Lock.rank (connect worker) := by
  cases worker with
  | some worker => exact scoped_writing rfl (scoped_choose rfl)
  | none => exact scoped_writing rfl (scoped_choose rfl)

theorem orderly_forwardToBackend (worker : Option Nat) :
    Orderly Lock.rank (forwardToBackend worker) := by
  refine Scoped.bind (scoped_writing rfl (scoped_choose rfl)) fun cached => ?_
  have huse : Orderly Lock.rank (useHttp2 cached) :=
    Scoped.ite (scoped_choose rfl) (scoped_pure true)
  refine huse.bind fun http2 => ?_
  refine Scoped.ite ((orderly_connect worker).bind fun connected => ?_) (scoped_pure ())
  refine Scoped.ite (Scoped.bind (scoped_choose rfl) fun sent => ?_) (scoped_pure ())
  exact Scoped.ite (scoped_pure ()) (scoped_writing rfl (scoped_pure ()))

theorem orderly_addCert : Orderly Lock.rank addCert := by
  refine scoped_writing rfl (Scoped.bind (scoped_choose rfl) fun added => ?_)
  exact Scoped.ite (scoped_writing rfl (scoped_pure ())) (scoped_pure ())

theorem orderly_handleSecretApply : Orderly Lock.rank handleSecretApply := by
  refine (scoped_choose rfl).bind fun isTls => Scoped.ite ?_ (scoped_pure ())
  exact scoped_writing rfl (scoped_writing rfl (scoped_pure ()))

theorem Operation.orderly_script (operation : Operation) :
    Orderly Lock.rank operation.script := by
  have hreads : ∀ lock, Orderly Lock.rank (reading lock (pure ())) :=
    fun lock => scoped_reading rfl (scoped_pure ())
  have hwrites : ∀ lock, Orderly Lock.rank (writing lock (pure ())) :=
    fun lock => scoped_writing rfl (scoped_pure ())
  have hasks : ∀ lock, Orderly Lock.rank (discard (writing lock choose)) :=
    fun lock => Scoped.bind (scoped_writing rfl (scoped_choose rfl)) fun _ => scoped_pure ()
  cases operation with
  | getAllStatuses => exact hreads .healthStates
  | checkBackendLoop rounds => exact scoped_times orderly_probe rounds
  | selectBackend attempts => exact (orderly_selectBackend attempts).bind fun _ => scoped_pure ()
  | selectBackendWithHeaders headers headerMatches =>
    exact (orderly_selectBackendMatching headers headerMatches).bind fun _ => scoped_pure ()
  | selectBackendWithQueryParams params queryParamMatches =>
    exact (orderly_selectBackendMatching params queryParamMatches).bind fun _ => scoped_pure ()
  | addRoute => exact orderly_addRoute
  | updateRouteBackends => exact orderly_addRoute
  | addRouteWithHeaders => exact orderly_addRouteMatching
  | addRouteWithMethods => exact orderly_addRouteMatching
  | addRouteWithQueryParams => exact orderly_addRouteMatching
  | addRouteWithFilters => exact orderly_addRouteFiltering
  | addRouteWithResponseFilters => exact orderly_addRouteFiltering
  | addRouteWithRedirect => exact orderly_addRouteFiltering
  | addRouteWithTimeout => exact orderly_addRouteFiltering
  | addRouteWithRetry => exact orderly_addRouteFiltering
  | listRoutes => exact hreads .routes
  | routeCount => exact hreads .routes
  | getCacheStats => exact hreads .routeCache
  | getCacheSize => exact hreads .routeCache
  | configureRoute => exact hwrites .bucketWrites
  | removeRoute => exact hwrites .bucketWrites
  | getBreaker => exact orderly_getBreaker
  | removeBackend => exact hwrites .breakerWrites
  | registerGateway => exact hasks .listeners
  | unregisterGateway => exact hasks .listeners
  | listListeners => exact hreads .listeners
  | shutdownListeners => exact hwrites .listeners
  | setListenerProtocolHttp2 => exact hwrites .listenerProtocols
  | listenerProtocol =>
    exact Scoped.bind (scoped_reading rfl (scoped_choose rfl)) fun _ => scoped_pure ()
  | setBackendProtocolHttp2 => exact hwrites .protocols
  | forwardToBackend worker => exact orderly_forwardToBackend worker
  | gatewayIndexAdd => exact hwrites .gatewayIndex
  | gatewayIndexRemove => exact hwrites .gatewayIndex
  | gatewayIndexContains => exact hreads .gatewayIndex
  | gatewayIndexKeys => exact hreads .gatewayIndex
  | addCert => exact orderly_addCert
  | updateCert => exact hwrites .certificates
  | resolveCert => exact hasks .certificates
  | hasCert => exact hasks .hostnames
  | handleSecretApply => exact orderly_handleSecretApply

theorem orderly_run (operations : List Operation) : Orderly Lock.rank (run operations) := by
  induction operations with
  | nil => exact scoped_pure ()
  | cons operation operations ih => exact operation.orderly_script.bind fun _ => ih

/-- The threads of the process. -/
abbrev process (threads : List (List Operation)) : Config (Logged (locks Lock) (LockTable Lock))
    (Task (locks Lock) Unit) :=
  Task.pool (fun _ => 0) (threads.map run)

/-- **The process cannot lock itself up.** Whatever its threads call, and however they have come in
between each other's calls: from there all of them can come to their end. -/
theorem completes_of_reach {threads : List (List Operation)}
    {c : Config (Logged (locks Lock) (LockTable Lock)) (Task (locks Lock) Unit)}
    (h : ((lockService Lock).machine Unit).system.Reach System.Anything (process threads) c) :
    ∃ c', ((lockService Lock).machine Unit).system.Reach System.Anything c c' ∧
      ∀ t ∈ c'.threads, t.rest = some (.done ()) := by
  have horderly : ∀ p ∈ threads.map run, Orderly Lock.rank p :=
    List.forall_mem_map.mpr fun operations _ => orderly_run operations
  obtain ⟨c', hrun, hdone⟩ := completes horderly h
  refine ⟨c', hrun, fun t ht => ?_⟩
  obtain ⟨_, hrest⟩ := hdone t ht
  exact hrest

/-- A lookup has the route table, and a route with filters waits to be added. -/
theorem completes_of_reach_waiting :
    ∃ c, ((lockService Lock).machine Unit).system.Reach System.Anything
        (process [[.selectBackend 1], [.addRouteWithFilters]]) c ∧
      c.shared.state (.routes, .reading) = 1 ∧ c.shared.state (.routes, .queued) = 1 ∧
      ((lockService Lock).machine Unit).system.step c (.thread 1 (some true)) = none ∧
      ∃ c', ((lockService Lock).machine Unit).system.Reach System.Anything c c' ∧
        ∀ t ∈ c'.threads, t.rest = some (.done ()) := by
  have hexec : ((lockService Lock).machine Unit).system.exec
      (process [[.selectBackend 1], [.addRouteWithFilters]])
      [.thread 0 (some false), .thread 0 (some false), .thread 0 (some false),
        .thread 0 (some false), .thread 0 (some false), .thread 1 (some false)] = some _ := rfl
  have hreach := System.Reach.of_exec hexec
  exact ⟨_, hreach, rfl, rfl, rfl, completes_of_reach hreach⟩

end Rauta.Locking
