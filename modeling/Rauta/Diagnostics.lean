import Rauta.IpText
import Rauta.RateLimiter
import Rauta.Router.Recovery

/-!
# Diagnostics

`Router::list_routes` takes a snapshot of the routes for the admin API, and the rules of
`DiagnosticsEngine` look for trouble in such snapshots. Two of them are about routes that cannot
serve: `RAUTA-BE-001` wants all backends of a route unhealthy, `RAUTA-BE-002` wants all of them
draining.

Selection asks each backend for both at once, so a route with one unhealthy and one draining backend
cannot serve either, and neither rule fires. There is no other such gap, and the rules never fire
for a route that can serve.

How a floating-point number is printed is left open (`FloatText`), as is the order in which a map
lists its entries.
-/

namespace Rauta

open Transition

/-! ## Snapshots -/

/-- `BackendSnapshot`. -/
structure BackendSnapshot where
  address : Str
  port : UInt16
  weight : UInt16
  isIpv6 : Bool
  isDraining : Bool
  healthScore : Option F64

/-- `RouteSnapshot`. -/
structure RouteSnapshot where
  pattern : Str
  method : Str
  backends : List BackendSnapshot
  hasRequestFilters : Bool
  hasResponseFilters : Bool
  hasRedirect : Bool
  hasTimeout : Bool
  hasRetry : Bool

/-- `CircuitBreakerSnapshot`. -/
structure CircuitBreakerSnapshot where
  backendId : Str
  state : Str
  failureCount : Nat

/-- `RateLimiterSnapshot`. -/
structure RateLimiterSnapshot where
  route : Str
  tokensAvailable : F64
  capacity : F64
  refillRate : F64

/-- `ListenerSnapshot`, as far as the rules read it. -/
structure ListenerSnapshot where
  port : UInt16
  protocol : Str

/-- `CacheStats`. -/
structure CacheStats where
  hits : Nat
  misses : Nat
  size : Nat
  hitRate : F64

/-- `GatewaySnapshot`, as far as the rules read it. -/
structure GatewaySnapshot where
  listeners : List ListenerSnapshot
  cacheStats : Option CacheStats

/-- `DiagnosticContext`. -/
structure DiagnosticContext where
  snapshot : GatewaySnapshot
  routes : List RouteSnapshot
  circuitBreakers : List CircuitBreakerSnapshot
  rateLimiters : List RateLimiterSnapshot

/-- The name of a method, as `list_routes` gives it. -/
def HttpMethod.name : HttpMethod → Str
  | .get => "GET".toList
  | .post => "POST".toList
  | .put => "PUT".toList
  | .delete => "DELETE".toList
  | .head => "HEAD".toList
  | .options => "OPTIONS".toList
  | .patch => "PATCH".toList
  | .all => "ALL".toList

namespace Router

/-- What `list_routes` shows of a backend. -/
def backendSnapshot (s : Router) (b : Backend) : BackendSnapshot where
  address :=
    if b.isIpv6 then '[' :: displayIpv6Addr b.ip ++ [']']
    else displayIpv4Addr (b.ip.get 0) (b.ip.get 1) (b.ip.get 2) (b.ip.get 3)
  port := b.port
  weight := b.weight
  isIpv6 := b.isIpv6
  isDraining := s.health.isDraining b
  healthScore := (s.health.backendHealth.lookup b).map fun h =>
    .finite (if h.isHealthy then 1 else 0)

/-- What it shows of a route. -/
def routeSnapshot (s : Router) (key : RouteKey) (route : Route) : RouteSnapshot where
  pattern := route.pattern
  method := key.method.name
  backends := route.backends.map s.backendSnapshot
  hasRequestFilters := route.requestFilters.isSome
  hasResponseFilters := route.responseFilters.isSome
  hasRedirect := route.redirect.isSome
  hasTimeout := route.timeout.isSome
  hasRetry := route.retry.isSome

/-- `list_routes`. -/
def listRoutes (ord : IterOrder) (s : Router) : List RouteSnapshot :=
  (ord.iter s.routes).map fun e => s.routeSnapshot e.1 e.2

end Router

/-! ## Rules -/

/-- `Severity`. -/
inductive Severity where
  | info
  | warning
  | critical
  deriving DecidableEq

/-- `SuggestedAction`. -/
structure SuggestedAction where
  description : Str
  cliCommand : Option Str

/-- `Diagnosis`; the confidence is the number that the source writes. -/
structure Diagnosis where
  ruleId : Str
  symptom : Str
  severity : Severity
  confidence : ℚ
  causalChain : List Str
  evidence : List Str
  suggestedActions : List SuggestedAction

/-- `DiagnosticRule`. -/
structure DiagnosticRule where
  id : Str
  symptom : Str
  evaluate : DiagnosticContext → List Diagnosis

/-- The part of a diagnosis that the findings of a rule do not share. -/
structure Finding where
  causalChain : List Str
  evidence : List Str
  suggestedActions : List SuggestedAction

/-- A finding, signed. -/
def Finding.sign (id symptom : Str) (severity : Severity) (confidence : ℚ) (f : Finding) :
    Diagnosis where
  ruleId := id
  symptom := symptom
  severity := severity
  confidence := confidence
  causalChain := f.causalChain
  evidence := f.evidence
  suggestedActions := f.suggestedActions

/-- A rule that signs its findings. -/
def DiagnosticRule.signing (id symptom : Str) (severity : Severity) (confidence : ℚ)
    (findings : DiagnosticContext → List Finding) : DiagnosticRule where
  id := id
  symptom := symptom
  evaluate ctx := (findings ctx).map (Finding.sign id symptom severity confidence)

/-- How numbers are printed: `{:?}` and `{:.n}`, and the product of a ratio with `100.0`. -/
structure FloatText where
  debug : F64 → Str
  fixed : (decimals : Nat) → F64 → Str
  percent : F64 → F64

/-- `x < bound`; a NaN compares with nothing. -/
def F64.below (bound : ℚ) : F64 → Bool
  | .nan => false
  | .negInf => true
  | .posInf => false
  | .finite q => q < bound

/-- An order of `port_counts.iter()`. -/
structure PortOrder where
  iter : AList (fun _ : UInt16 => List Str) → List (Sigma fun _ : UInt16 => List Str)
  perm : ∀ counts, (iter counts).Perm counts.entries

/-- The text `Some(x)` or `None`. -/
def FloatText.debugOption (T : FloatText) : Option F64 → Str
  | some x => "Some(".toList ++ T.debug x ++ [')']
  | none => "None".toList

/-- The text of a truth value. -/
def boolText (b : Bool) : Str := if b then "true".toList else "false".toList

/-- The first line about a route. -/
def routeLine (method pattern trouble : Str) : Str :=
  "Route ".toList ++ (method ++ ' ' :: (pattern ++ trouble))

/-- How the line ends if no backend is healthy. -/
def noHealthyEnding : Str := " has no healthy backends".toList

/-- How it ends if all are draining. -/
def drainingEnding : Str := " has all backends draining".toList

/-- `RAUTA-CB-001`: several breakers open. -/
def circuitBreakerCascade : DiagnosticRule :=
  .signing "RAUTA-CB-001".toList "circuit-breaker-cascade".toList .critical 0.95 fun ctx =>
    let openBreakers := ctx.circuitBreakers.filter (·.state = "Open".toList)
    if 2 ≤ openBreakers.length then
      [{ causalChain :=
           [decimal openBreakers.length ++ " backends have open circuit breakers".toList,
            "Multiple simultaneous failures suggest upstream dependency issue".toList]
         evidence := openBreakers.map fun cb =>
           "Backend ".toList ++ cb.backendId ++ " is Open (failures: ".toList ++
             decimal cb.failureCount ++ [')']
         suggestedActions :=
           [⟨"Check if backends share a common upstream dependency".toList,
              some "rauta backends health".toList⟩,
            ⟨"Check network connectivity to backend cluster".toList, none⟩,
            ⟨"Review circuit breaker thresholds if false positives".toList,
              some "rauta diagnose circuit-breaker-open".toList⟩] }]
    else []

/-- `RAUTA-CB-002`: a breaker open. -/
def circuitBreakerOpen : DiagnosticRule :=
  .signing "RAUTA-CB-002".toList "circuit-breaker-open".toList .warning 0.9 fun ctx =>
    (ctx.circuitBreakers.filter (·.state = "Open".toList)).map fun cb =>
      { causalChain :=
          ["Backend ".toList ++ cb.backendId ++ " circuit breaker is Open after ".toList ++
             decimal cb.failureCount ++ " failures".toList,
           "Traffic is being rerouted to healthy backends".toList]
        evidence := ["Circuit state: ".toList ++ cb.state ++ ", failures: ".toList ++
          decimal cb.failureCount]
        suggestedActions :=
          [⟨"Check backend ".toList ++ cb.backendId ++ " health and logs".toList,
             some ("rauta backends health --backend=".toList ++ cb.backendId)⟩,
           ⟨"Wait for circuit breaker timeout to attempt recovery".toList, none⟩] }

/-- `RAUTA-RL-001`: a bucket without tokens. -/
def rateLimitExhausted (T : FloatText) : DiagnosticRule :=
  .signing "RAUTA-RL-001".toList "rate-limit-exhausted".toList .warning 0.85 fun ctx =>
    (ctx.rateLimiters.filter (·.tokensAvailable.nonpos)).map fun rl =>
      { causalChain :=
          ["Route ".toList ++ rl.route ++ " has exhausted its rate limit".toList,
           "Configured at ".toList ++ T.fixed 0 rl.refillRate ++
             " req/s with burst capacity ".toList ++ T.fixed 0 rl.capacity]
        evidence := ["Tokens available: ".toList ++ T.fixed 1 rl.tokensAvailable ++ '/' ::
          T.fixed 0 rl.capacity]
        suggestedActions :=
          [⟨"Review if rate limit is appropriate for current traffic".toList,
             some ("rauta metrics query rauta_rate_limit_requests_total\x7broute=\"".toList ++
               rl.route ++ "\"\x7d".toList)⟩,
           ⟨"Consider increasing rate limit or burst capacity".toList, none⟩] }

/-- `RAUTA-BE-001`: a route without a healthy backend. -/
def noHealthyBackends (T : FloatText) : DiagnosticRule :=
  .signing "RAUTA-BE-001".toList "no-healthy-backends".toList .critical 0.95 fun ctx =>
    (ctx.routes.filter fun route => route.backends.isEmpty ||
      route.backends.all fun b => b.healthScore.any (F64.below (1 / 2))).map fun route =>
      { causalChain :=
          [routeLine route.method route.pattern noHealthyEnding,
           if route.backends.length = 0 then "No backends configured for this route".toList
           else "All ".toList ++ decimal route.backends.length ++
             " backends are unhealthy".toList]
        evidence := route.backends.map fun b =>
          "Backend ".toList ++ b.address ++ ':' :: decimal b.port.toNat ++
            " health_score=".toList ++ T.debugOption b.healthScore ++ " draining=".toList ++
            boolText b.isDraining
        suggestedActions :=
          [⟨"Check backend pod status in Kubernetes".toList,
             some ("rauta routes get ".toList ++ route.pattern)⟩,
           ⟨"Verify EndpointSlice has ready addresses".toList, none⟩] }

/-- `RAUTA-BE-002`: a route whose backends are all draining. -/
def allBackendsDraining : DiagnosticRule :=
  .signing "RAUTA-BE-002".toList "all-backends-draining".toList .warning 0.9 fun ctx =>
    (ctx.routes.filter fun route => !route.backends.isEmpty &&
      route.backends.all (·.isDraining)).map fun route =>
      { causalChain :=
          [routeLine route.method route.pattern drainingEnding,
           "No backends available to serve new requests".toList]
        evidence := route.backends.map fun b =>
          "Backend ".toList ++ b.address ++ ':' :: decimal b.port.toNat ++ " is draining".toList
        suggestedActions :=
          [⟨"Ensure replacement backends are being provisioned".toList,
             some "rauta backends health".toList⟩] }

/-- `RAUTA-CACHE-001`: a cache that rarely hits. -/
def lowCacheHitRate (T : FloatText) : DiagnosticRule :=
  .signing "RAUTA-CACHE-001".toList "low-cache-hit-rate".toList .info 0.7 fun ctx =>
    match ctx.snapshot.cacheStats with
    | none => []
    | some cache =>
      if 1000 ≤ (cache.hits + cache.misses) % 2 ^ 64 ∧ cache.hitRate.below (1 / 2) then
        [{ causalChain :=
             ["Route cache hit rate is ".toList ++ T.fixed 1 (T.percent cache.hitRate) ++
                "% (".toList ++ decimal cache.hits ++ " hits, ".toList ++ decimal cache.misses ++
                " misses)".toList,
              "Many unique paths are being requested, reducing cache effectiveness".toList]
           evidence := ["Cache size: ".toList ++ decimal cache.size ++ ", hit_rate: ".toList ++
             T.fixed 1 (T.percent cache.hitRate) ++ ['%']]
           suggestedActions :=
             [⟨"Consider if path cardinality is expected (API versioning, UUIDs in paths)".toList,
                some "rauta traffic top".toList⟩] }]
      else []

/-- `port_counts`: the protocols on each port. -/
def portCounts (listeners : List ListenerSnapshot) : AList fun _ : UInt16 => List Str :=
  listeners.foldl (fun counts l =>
    counts.insert l.port (((counts.lookup l.port).getD []) ++ [l.protocol])) ∅

/-- `RAUTA-LISTEN-001`: a port with several listeners. -/
def listenerConflict (order : PortOrder) : DiagnosticRule :=
  .signing "RAUTA-LISTEN-001".toList "listener-conflict".toList .warning 0.8 fun ctx =>
    ((order.iter (portCounts ctx.snapshot.listeners)).filter fun e => 1 < e.2.length).map fun e =>
      { causalChain :=
          ["Port ".toList ++ decimal e.1.toNat ++ " has ".toList ++ decimal e.2.length ++
             " listener configurations".toList,
           "Multiple Gateway resources may be competing for the same port".toList]
        evidence := e.2.map fun p => "Protocol: ".toList ++ p ++ " on port ".toList ++
          decimal e.1.toNat
        suggestedActions :=
          [⟨"Review Gateway resources for port conflicts".toList, some "rauta status".toList⟩] }

/-- The rules of `DiagnosticsEngine::with_builtin_rules`. -/
def withBuiltinRules (T : FloatText) (order : PortOrder) : List DiagnosticRule :=
  [circuitBreakerCascade, circuitBreakerOpen, rateLimitExhausted T, noHealthyBackends T,
    allBackendsDraining, lowCacheHitRate T, listenerConflict order]

/-- `diagnose`. -/
def diagnose (rules : List DiagnosticRule) (ctx : DiagnosticContext) : List Diagnosis :=
  rules.flatMap fun rule => rule.evaluate ctx

/-! ## Whose diagnosis it is -/

/-- Every finding carries the rule's id. -/
theorem ruleId_of_mem_signing {id symptom : Str} {severity : Severity} {confidence : ℚ}
    {findings : DiagnosticContext → List Finding} {ctx : DiagnosticContext} {d : Diagnosis}
    (h : d ∈ (DiagnosticRule.signing id symptom severity confidence findings).evaluate ctx) :
    d.ruleId = id := by
  obtain ⟨f, -, rfl⟩ := List.mem_map.mp h
  rfl

/-- A builtin rule signs with its id. -/
theorem ruleId_of_mem_evaluate {T : FloatText} {order : PortOrder} {rule : DiagnosticRule}
    (hrule : rule ∈ withBuiltinRules T order) {ctx : DiagnosticContext} {d : Diagnosis}
    (h : d ∈ rule.evaluate ctx) : d.ruleId = rule.id := by
  simp only [withBuiltinRules, List.mem_cons, List.not_mem_nil, or_false] at hrule
  rcases hrule with rfl | rfl | rfl | rfl | rfl | rfl | rfl <;> exact ruleId_of_mem_signing h

theorem builtin_ids (T : FloatText) (order : PortOrder) :
    ((withBuiltinRules T order).map DiagnosticRule.id).Nodup := by
  show ["RAUTA-CB-001".toList, "RAUTA-CB-002".toList, "RAUTA-RL-001".toList,
    "RAUTA-BE-001".toList, "RAUTA-BE-002".toList, "RAUTA-CACHE-001".toList,
    "RAUTA-LISTEN-001".toList].Nodup
  decide +kernel

/-- The diagnoses with the id of a builtin rule are those of the rule. -/
theorem mem_diagnose_iff {T : FloatText} {order : PortOrder} {rule : DiagnosticRule}
    (hrule : rule ∈ withBuiltinRules T order) {ctx : DiagnosticContext} {d : Diagnosis}
    (hid : d.ruleId = rule.id) :
    d ∈ diagnose (withBuiltinRules T order) ctx ↔ d ∈ rule.evaluate ctx := by
  constructor
  · intro h
    obtain ⟨rule', hrule', hd⟩ := List.mem_flatMap.mp h
    have hsame : rule'.id = rule.id := (ruleId_of_mem_evaluate hrule' hd).symm.trans hid
    rwa [← List.inj_on_of_nodup_map (builtin_ids T order) hrule' hrule hsame]
  · exact fun h => List.mem_flatMap.mpr ⟨rule, hrule, h⟩

/-- The diagnosis is of one of the two rules, and its first line names the route. -/
def Diagnosis.IsFor (d : Diagnosis) (method : HttpMethod) (pattern : Str) : Prop :=
  d.ruleId = "RAUTA-BE-001".toList ∧
      d.causalChain.head? = some (routeLine method.name pattern noHealthyEnding) ∨
    d.ruleId = "RAUTA-BE-002".toList ∧
      d.causalChain.head? = some (routeLine method.name pattern drainingEnding)

/-- The line tells the method and the pattern. -/
theorem routeLine_inj {method method' : HttpMethod} {pattern pattern' trouble : Str}
    (h : routeLine method.name pattern trouble = routeLine method'.name pattern' trouble) :
    method = method' ∧ pattern = pattern' := by
  -- The method ends at the first blank.
  have htake : ∀ (m : HttpMethod) (rest : Str),
      (m.name ++ ' ' :: rest).takeWhile (· ≠ ' ') = m.name := by
    intro m rest
    cases m <;> rfl
  have hlines := List.append_cancel_left h
  have hname : method.name = method'.name := by
    rw [← htake method, hlines, htake method']
  rw [hname] at hlines
  have hpattern := List.cons.inj (List.append_cancel_left hlines)
  refine ⟨?_, List.append_cancel_right hpattern.2⟩
  revert hname
  cases method <;> cases method' <;> decide

namespace Router

variable {s : Router} {ord : IterOrder}

theorem mem_listRoutes {snapshot : RouteSnapshot} : snapshot ∈ s.listRoutes ord ↔
    ∃ key route, s.routes.lookup key = some route ∧ snapshot = s.routeSnapshot key route := by
  simp only [listRoutes, List.mem_map, (ord.perm s.routes).mem_iff]
  constructor
  · rintro ⟨e, he, rfl⟩
    exact ⟨e.1, e.2, AList.mem_lookup_iff.mpr he, rfl⟩
  · rintro ⟨key, route, hroute, rfl⟩
    exact ⟨⟨key, route⟩, AList.mem_lookup_iff.mp hroute, rfl⟩

/-- A low score is shown exactly for a backend that is passively unhealthy. -/
theorem healthScore_low {b : Backend} : (s.backendSnapshot b).healthScore.any (F64.below (1 / 2)) =
    !s.health.isHealthyPassive b := by
  simp only [backendSnapshot, HealthData.isHealthyPassive]
  cases s.health.backendHealth.lookup b with
  | none => rfl
  | some h => cases hh : h.isHealthy <;> norm_num [hh, F64.below]

/-- No backend of the route is healthy. -/
def AllUnhealthy (s : Router) (route : Route) : Prop :=
  ∀ b ∈ route.backends, s.health.isHealthyPassive b = false

/-- All backends of the route are draining. -/
def AllDraining (s : Router) (route : Route) : Prop :=
  ∀ b ∈ route.backends, s.health.isDraining b

/-- No backend of the route is eligible. -/
def Refuses (s : Router) (route : Route) : Prop :=
  ∀ b ∈ route.backends, s.eligible b = false

/-- Such a route serves no request. -/
theorem Refuses.selectFrom_eq_none {key : RouteKey} {route : Route}
    (hroute : s.routes.lookup key = some route) (h : s.Refuses route) (method : HttpMethod)
    (path : Str) (srcIp : Option IpAddr) (srcPort : Option UInt16) :
    s.selectFrom method path srcIp srcPort key = none := by
  have hnone : route.selectByMask s.eligible (computeFlowHash (pathHash path) srcIp srcPort) =
      none := by
    rw [Option.eq_none_iff_forall_not_mem]
    intro b hb
    obtain ⟨heligible, k, hk⟩ := Route.selectByMask_some hb
    rw [h b (List.mem_of_getElem? hk)] at heligible
    cases heligible
  simp [selectFrom, hroute, hnone]

/-- With the active checks off, a backend is out exactly if it is unhealthy or draining. -/
theorem eligible_eq_false_iff (hactive : ∀ b, s.healthChecker.isHealthy b) {b : Backend} :
    s.eligible b = false ↔ s.health.isHealthyPassive b = false ∨ s.health.isDraining b := by
  rw [eligible, hactive b]
  cases s.health.isHealthyPassive b <;> cases s.health.isDraining b <;> simp

variable {T : FloatText} {order : PortOrder} {ctx : DiagnosticContext}

/-- A rule that goes over the routes finds the listed ones that pass its test. -/
theorem mem_signing_routes (hctx : ctx.routes = s.listRoutes ord) {id symptom : Str}
    {severity : Severity} {confidence : ℚ} {test : RouteSnapshot → Bool}
    {finding : RouteSnapshot → Finding} {d : Diagnosis} :
    d ∈ (DiagnosticRule.signing id symptom severity confidence fun ctx =>
        (ctx.routes.filter test).map finding).evaluate ctx ↔
      ∃ key route, s.routes.lookup key = some route ∧ test (s.routeSnapshot key route) ∧
        d = (finding (s.routeSnapshot key route)).sign id symptom severity confidence := by
  simp only [DiagnosticRule.signing, List.mem_map, List.mem_filter, hctx, mem_listRoutes]
  constructor
  · rintro ⟨f, ⟨snapshot, ⟨⟨key, route, hroute, rfl⟩, htest⟩, rfl⟩, rfl⟩
    exact ⟨key, route, hroute, htest, rfl⟩
  · rintro ⟨key, route, hroute, htest, rfl⟩
    exact ⟨_, ⟨_, ⟨⟨key, route, hroute, rfl⟩, htest⟩, rfl⟩, rfl⟩

/-- The test of the first rule; a route without backends passes it. -/
theorem noHealthyTest_iff {key : RouteKey} {route : Route} :
    ((s.routeSnapshot key route).backends.isEmpty || (s.routeSnapshot key route).backends.all
      fun b => b.healthScore.any (F64.below (1 / 2))) ↔ s.AllUnhealthy route := by
  simp only [routeSnapshot, List.isEmpty_map, List.all_map, Function.comp_def, healthScore_low,
    Bool.or_eq_true, List.isEmpty_iff, List.all_eq_true, Bool.not_eq_true', AllUnhealthy]
  constructor
  · rintro (hempty | hall)
    · simp [hempty]
    · exact hall
  · exact Or.inr

/-- The test of the second rule. -/
theorem drainingTest_iff {key : RouteKey} {route : Route} :
    (!(s.routeSnapshot key route).backends.isEmpty && (s.routeSnapshot key route).backends.all
      (·.isDraining)) ↔ route.backends ≠ [] ∧ s.AllDraining route := by
  simp [routeSnapshot, backendSnapshot, AllDraining]

/-- One of the two rules fires for the route. -/
def Diagnosed (s : Router) (route : Route) : Prop :=
  s.AllUnhealthy route ∨ route.backends ≠ [] ∧ s.AllDraining route

theorem mem_builtin_noHealthy : noHealthyBackends T ∈ withBuiltinRules T order := by
  simp [withBuiltinRules]

theorem mem_builtin_draining : allBackendsDraining ∈ withBuiltinRules T order := by
  simp [withBuiltinRules]

/-- What fires says which route it is about. -/
theorem exists_diagnosed (hctx : ctx.routes = s.listRoutes ord) {d : Diagnosis}
    (hd : d ∈ diagnose (withBuiltinRules T order) ctx)
    (hid : d.ruleId = "RAUTA-BE-001".toList ∨ d.ruleId = "RAUTA-BE-002".toList) :
    ∃ key route, s.routes.lookup key = some route ∧ s.Diagnosed route ∧
      d.IsFor key.method route.pattern := by
  rcases hid with hid | hid
  · obtain ⟨key, route, hroute, htest, rfl⟩ :=
      (mem_signing_routes hctx).mp ((mem_diagnose_iff mem_builtin_noHealthy hid).mp hd)
    exact ⟨key, route, hroute, Or.inl (noHealthyTest_iff.mp htest), Or.inl ⟨rfl, rfl⟩⟩
  · obtain ⟨key, route, hroute, htest, rfl⟩ :=
      (mem_signing_routes hctx).mp ((mem_diagnose_iff mem_builtin_draining hid).mp hd)
    exact ⟨key, route, hroute, Or.inr (drainingTest_iff.mp htest), Or.inr ⟨rfl, rfl⟩⟩

/-- And it fires for each such route. -/
theorem Diagnosed.exists_isFor (hctx : ctx.routes = s.listRoutes ord) {key : RouteKey}
    {route : Route} (hroute : s.routes.lookup key = some route) (h : s.Diagnosed route) :
    ∃ d ∈ diagnose (withBuiltinRules T order) ctx, d.IsFor key.method route.pattern := by
  rcases h with h | h
  · refine ⟨_, (mem_diagnose_iff mem_builtin_noHealthy ?_).mpr ((mem_signing_routes hctx).mpr
      ⟨key, route, hroute, noHealthyTest_iff.mpr h, rfl⟩), Or.inl ⟨rfl, rfl⟩⟩
    rfl
  · refine ⟨_, (mem_diagnose_iff mem_builtin_draining ?_).mpr ((mem_signing_routes hctx).mpr
      ⟨key, route, hroute, drainingTest_iff.mpr h, rfl⟩), Or.inr ⟨rfl, rfl⟩⟩
    rfl

end Router

/-- A diagnosis names one method and one pattern. -/
theorem Diagnosis.IsFor.unique {d : Diagnosis} {method method' : HttpMethod}
    {pattern pattern' : Str} (h : d.IsFor method pattern) (h' : d.IsFor method' pattern') :
    method = method' ∧ pattern = pattern' := by
  rcases h with ⟨hid, hline⟩ | ⟨hid, hline⟩ <;> rcases h' with ⟨hid', hline'⟩ | ⟨hid', hline'⟩
  · exact routeLine_inj (Option.some.inj (hline.symm.trans hline'))
  · exact absurd (hid.symm.trans hid') (by decide)
  · exact absurd (hid.symm.trans hid') (by decide)
  · exact routeLine_inj (Option.some.inj (hline.symm.trans hline'))

namespace Router

variable {M : Matchit} {s : Router} {ord : IterOrder} {T : FloatText} {order : PortOrder}
  {ctx : DiagnosticContext}

/-! ## Agreement with selection -/

/-- With the active checks off, no call starts one. -/
theorem healthChecker_call (hoff : s.healthChecker.config.enabled = false) (c : RouterCall) :
    (s.call M c).healthChecker = s.healthChecker := by
  cases c with
  | addRoute ord method path backends =>
      rw [call]
      rcases addRoute_snd_cases M s ord method path backends with hself | ⟨w, -, hcommit⟩
      · rw [hself]
      · rw [hcommit]
        exact HealthChecker.startChecking_of_disabled hoff backends path
  | addRouteWith ord method path backends extra =>
      simp only [call, addRouteWith]
      split
      · rfl
      · unfold install
        dsimp only
        split <;> rfl
  | selectBackend => rfl

theorem unprobed_of_reach {config : HealthCheckConfig} {inRuntime : Bool}
    (hoff : config.enabled = false)
    (h : (routerSystem M).Reach System.Anything (.withHealthConfig config inRuntime) s) :
    s.healthChecker = .new config inRuntime := by
  induction h with
  | refl => rfl
  | tail _ _ hstep ih =>
      cases hstep
      rw [healthChecker_call (by rw [ih]; exact hoff), ih]

/-- The diagnoses agree with selection: every route with backends of which none is eligible has a
diagnosis, and the two rules fire for no route that has an eligible backend. -/
def DiagnosisAgrees (s : Router) (diagnoses : List Diagnosis) : Prop :=
  (∀ key route, s.routes.lookup key = some route → route.backends ≠ [] → s.Refuses route →
    ∃ d ∈ diagnoses, d.IsFor key.method route.pattern) ∧
  ∀ d ∈ diagnoses, d.ruleId = "RAUTA-BE-001".toList ∨ d.ruleId = "RAUTA-BE-002".toList →
    ∃ key route, s.routes.lookup key = some route ∧ d.IsFor key.method route.pattern ∧
      (route.backends = [] ∨ s.Refuses route)

/-- **Diagnosis and selection**: they agree exactly in the states in which no route has all its
backends out, some of them for one reason only and some for the other only. -/
theorem diagnosisAgrees_iff {config : HealthCheckConfig} {inRuntime : Bool}
    (hoff : config.enabled = false)
    (h : (routerSystem M).Reach System.Anything (.withHealthConfig config inRuntime) s)
    (health : HealthData) (hctx : ctx.routes = { s with health := health }.listRoutes ord) :
    { s with health := health }.DiagnosisAgrees (diagnose (withBuiltinRules T order) ctx) ↔
      ∀ key route, s.routes.lookup key = some route → route.backends ≠ [] →
        { s with health := health }.Refuses route →
        { s with health := health }.AllUnhealthy route ∨
          { s with health := health }.AllDraining route := by
  have hactive : ∀ b, { s with health := health }.healthChecker.isHealthy b := by
    intro b
    show s.healthChecker.isHealthy b
    rw [unprobed_of_reach hoff h]
    rfl
  have htable : s.TableInvariant := tableInvariant_of_reach h
  have hrefuses : ∀ route, { s with health := health }.Diagnosed route →
      { s with health := health }.Refuses route := by
    rintro route (hunhealthy | ⟨-, hdraining⟩) b hb
    · exact (eligible_eq_false_iff hactive).mpr (Or.inl (hunhealthy b hb))
    · exact (eligible_eq_false_iff hactive).mpr (Or.inr (hdraining b hb))
  constructor
  · rintro ⟨hfires, -⟩ key route hroute hne hout
    obtain ⟨d, hd, hfor⟩ := hfires key route hroute hne hout
    obtain ⟨key', route', hroute', hdiagnosed, hfor'⟩ :=
      exists_diagnosed hctx hd (hfor.imp And.left And.left)
    -- The diagnosis names the route, and a route is stored under its method and path.
    obtain ⟨hmethod, hpattern⟩ := hfor.unique hfor'
    have hkey : key' = key := by
      rw [(htable key route hroute).1, (htable key' route' hroute').1, hmethod, hpattern]
    obtain rfl : route' = route := by
      rw [hkey] at hroute'
      exact Option.some.inj (hroute'.symm.trans hroute)
    exact hdiagnosed.imp id And.right
  · intro hgap
    refine ⟨fun key route hroute hne hout => ?_, fun d hd hid => ?_⟩
    · exact Diagnosed.exists_isFor hctx hroute ((hgap key route hroute hne hout).imp id (⟨hne, ·⟩))
    · obtain ⟨key, route, hroute, hdiagnosed, hfor⟩ := exists_diagnosed hctx hd hid
      exact ⟨key, route, hroute, hfor, Or.inr (hrefuses route hdiagnosed)⟩

/-- A context with the routes of a router and nothing else. -/
def routesOnly (s : Router) : DiagnosticContext where
  snapshot := ⟨[], none⟩
  routes := s.listRoutes .newestFirst
  circuitBreakers := []
  rateLimiters := []

/-- The builtin rules, with numbers not printed and the last port first. -/
def sampleRules : List DiagnosticRule :=
  withBuiltinRules ⟨fun _ => [], fun _ _ => [], id⟩ ⟨AList.entries, fun _ => .refl _⟩

/-- With one backend the two agree, whatever its health. -/
theorem diagnosisAgrees_iff_oneBackend :
    { started .scan .newestFirst .get "/api".toList [.sample] with
        health := HealthData.new.recordBackendResponse .sample 500 }.DiagnosisAgrees
      (diagnose sampleRules (routesOnly
        { started .scan .newestFirst .get "/api".toList [.sample] with
            health := HealthData.new.recordBackendResponse .sample 500 })) := by
  obtain ⟨table, -, honly⟩ := started_onlyRoute .scan .newestFirst .get "/api".toList
    (by decide : [Backend.sample].length ≤ maxBackends)
  refine (diagnosisAgrees_iff rfl (System.Reach.refl.tail
    (a := .addRoute .newestFirst .get "/api".toList [.sample]) trivial rfl) _ rfl).mpr ?_
  intro key route hroute _ _
  obtain rfl := honly.only key route hroute
  refine Or.inl fun b hb => ?_
  rw [List.mem_singleton.mp hb]
  decide +kernel

/-- **Between the rules**: of two backends, one has answered with a `500` and the other is
draining. -/
theorem exists_not_diagnosisAgrees :
    ¬ ∀ M : Matchit, M.Lawful → ∀ (config : HealthCheckConfig) (inRuntime : Bool) (s : Router),
      config.enabled = false →
      (routerSystem M).Reach System.Anything (.withHealthConfig config inRuntime) s →
      ∀ (health : HealthData) (T : FloatText) (order : PortOrder) (ord : IterOrder)
        (ctx : DiagnosticContext), ctx.routes = { s with health := health }.listRoutes ord →
        { s with health := health }.DiagnosisAgrees (diagnose (withBuiltinRules T order) ctx) := by
  intro h
  let b₁ : Backend := .fromIpv4 10 0 1 1 8080 100
  let b₂ : Backend := .fromIpv4 10 0 1 2 8080 100
  let s := started .scan .newestFirst .get "/api".toList [b₁, b₂]
  let health := (HealthData.new.recordBackendResponse b₁ 500).drainBackend b₂ 0 30
  have hunhealthy : health.isHealthyPassive b₁ = false ∧ health.isHealthyPassive b₂ = true := by
    decide +kernel
  have hdraining : health.isDraining b₁ = false ∧ health.isDraining b₂ = true := by
    decide +kernel
  obtain ⟨table, -, honly⟩ := started_onlyRoute .scan .newestFirst .get "/api".toList
    (by decide : [b₁, b₂].length ≤ maxBackends)
  have hrefuses : { s with health := health }.Refuses (.basic "/api".toList [b₁, b₂] table) := by
    have hactive : ∀ b, { s with health := health }.healthChecker.isHealthy b := honly.unprobed
    intro b hb
    refine (eligible_eq_false_iff hactive).mpr ?_
    rcases List.mem_pair.mp hb with rfl | rfl
    · exact Or.inl hunhealthy.1
    · exact Or.inr hdraining.2
  obtain ⟨d, hd, hfor⟩ := (h .scan Matchit.scan_lawful .default true s rfl
    (System.Reach.refl.tail (a := .addRoute .newestFirst .get "/api".toList [b₁, b₂]) trivial rfl)
    health ⟨fun _ => [], fun _ _ => [], id⟩ ⟨AList.entries, fun _ => .refl _⟩ .newestFirst
    (routesOnly { s with health := health }) rfl).1 _ _ honly.own (List.cons_ne_nil _ _) hrefuses
  obtain ⟨key, route, hroute, hdiagnosed, -⟩ :=
    exists_diagnosed rfl hd (hfor.imp And.left And.left)
  obtain rfl := honly.only key route hroute
  rcases hdiagnosed with hall | ⟨-, hall⟩
  · exact Bool.noConfusion (hunhealthy.2.symm.trans (hall b₂ (by simp [Route.basic])))
  · exact Bool.noConfusion (hdraining.1.symm.trans (hall b₁ (by simp [Route.basic])))

end Router

end Rauta
