import Rauta.HttpRoute.Reconciler
import Rauta.Router.PathIdentity

/-!
# What an HTTPRoute does to the router and the rate limiter

A call of `reconcile` configures the rules it gets to. Two consequences:

* a rejected HTTPRoute leaves the router and the rate limiter alone exactly if none of the rules
  before the invalid one has backends. Validation is part of the loop that applies the rules, so the
  others are applied first (`mem_routes_reconcile_iff`);
* the annotated limit covers a rule exactly if each of its paths is the *first* path of some rule.
  Routes are added for every match, a bucket only for the path that was validated
  (`limited_reconcile_iff`).
-/

namespace Rauta

/-! ## The routes of a rule -/

namespace Router

variable {M : Matchit} {s : Router} {ord : IterOrder} {method : HttpMethod} {path : Str}
  {backends : List Backend}

/-- `add_route` adds the key of its route, and removes none. -/
theorem mem_routes_addRoute_iff (hfew : backends.length ≤ maxBackends) {key : RouteKey} :
    key ∈ (s.addRoute M ord method path backends).2.routes ↔
      key = routeKey method path ∨ key ∈ s.routes := by
  by_cases hsame : s.hasRoute method path backends
  · have hmem : routeKey method path ∈ s.routes := by
      rw [← AList.lookup_isSome]
      exact Option.isSome_of_any hsame
    have hself : (s.addRoute M ord method path backends).2 = s := by simp [addRoute, hsame]
    rw [hself]
    exact ⟨Or.inr, fun h => h.elim (fun hkey => hkey ▸ hmem) id⟩
  · obtain ⟨table, -, hroutes⟩ := addRoute_routes M ord hsame hfew
    rw [hroutes, AList.mem_insert]

/-- A route that is added under a new key serves the requests for its path. -/
theorem Unused.matchedPattern_addRoute (h : s.Unused) (hnew : routeKey method path ∉ s.routes)
    (hne : backends ≠ []) (hfew : backends.length ≤ maxBackends) :
    (s.addRoute M ord method path backends).2.matchedPattern M method path none none =
      some path := by
  have hfresh : ¬ s.hasRoute method path backends := by
    rw [hasRoute, AList.lookup_eq_none.mpr hnew]
    simp
  obtain ⟨table, htable, hroutes⟩ := addRoute_routes M ord hfresh hfew
  refine (h.addRoute M ord method path backends).matchedPattern_eq ?_ none none hne htable
  rw [hroutes, AList.lookup_insert]

end Router

/-- The path of a match is valid, so a route is added for it. -/
def RouteRule.ValidPair (rule : RouteRule) (pair : Str × Option HttpMethod) : Prop :=
  pair ∈ rule.pathMethodPairs ∧ validatePath pair.1 = .ok ()

namespace RouteWorld

variable {W : RouteWorld} {route : HttpRoute}

theorem mem_routes_addPair_iff {i : Nat} {backends : List Backend} {s : Router}
    (hfew : backends.length ≤ maxBackends) (pair : (Str × Option HttpMethod) × Nat)
    {key : RouteKey} :
    key ∈ (W.addPair i backends s pair).routes ↔
      key ∈ s.routes ∨
        (validatePath pair.1.1 = .ok () ∧ key = routeKey (pair.1.2.getD .all) pair.1.1) := by
  unfold addPair
  cases validatePath pair.1.1 with
  | error e => simp
  | ok u => simp [Router.mem_routes_addRoute_iff hfew, or_comm]

/-- The routes of a rule: one for every match with a valid path. -/
theorem mem_routes_addPairs_iff {i : Nat} {rule : RouteRule} {backends : List Backend} {s : Router}
    (hfew : backends.length ≤ maxBackends) {key : RouteKey} :
    key ∈ (W.addPairs i rule backends s).routes ↔
      key ∈ s.routes ∨ ∃ pair, rule.ValidPair pair ∧ key = routeKey (pair.2.getD .all) pair.1 := by
  rw [addPairs, Collect.foldl_iff (P := fun s : Router => key ∈ s.routes)
    fun s pair => mem_routes_addPair_iff hfew pair, Collect.exists_mem_zipIdx
    (Q := fun pair : Str × Option HttpMethod =>
      validatePath pair.1 = .ok () ∧ key = routeKey (pair.2.getD .all) pair.1)]
  simp only [RouteRule.ValidPair, and_assoc]

/-- Configuring a rule adds its routes, if it has backends. -/
theorem mem_routes_configureRule_iff (p : Progress) (rule : RouteRule × Nat) {key : RouteKey} :
    key ∈ (W.configureRule route p rule).router.routes ↔
      key ∈ p.router.routes ∨ (W.HasBackends route rule ∧
        ∃ pair, rule.1.ValidPair pair ∧ key = routeKey (pair.2.getD .all) pair.1) := by
  rcases configureRule_cases p rule with ⟨hhas, backends, -, hlen, hrouter, -⟩ | ⟨hhas, hrouter, -⟩
  · have hfew : backends.length ≤ maxBackends := Nat.le_trans hlen (by decide)
    rw [hrouter, mem_routes_addPairs_iff hfew]
    simp [hhas]
  · simp [hrouter, hhas]

/-- Configuring a rule limits its first path, if it has backends. -/
theorem limited_configureRule_iff {rate : F64} {burst : Nat}
    (hlimit : W.annotatedLimit route = some (rate, burst)) (p : Progress) (rule : RouteRule × Nat)
    {pattern : Str} :
    RateLimiter.Limited W.float.round rate burst (W.configureRule route p rule).rateLimiter
        pattern ↔
      RateLimiter.Limited W.float.round rate burst p.rateLimiter pattern ∨
        (W.HasBackends route rule ∧ pattern = rule.1.firstPath) := by
  rcases configureRule_cases p rule with ⟨hhas, -, -, -, -, hlimiter⟩ | ⟨hhas, -, hlimiter⟩
  · rw [hlimiter, configureLimit, hlimit, RateLimiter.limited_configureRoute_iff, or_comm]
    simp [hhas]
  · simp [hlimiter, hhas]

/-- A rule without backends changes nothing. -/
theorem configureRule_of_not_hasBackends {p : Progress} {rule : RouteRule × Nat}
    (h : ¬ W.HasBackends route rule) :
    (W.configureRule route p rule).router = p.router ∧
      (W.configureRule route p rule).rateLimiter = p.rateLimiter :=
  (configureRule_cases p rule).elim (fun hhas => absurd hhas.1 h) fun hsame => hsame.2

/-- Rules without backends change nothing. -/
theorem foldl_configureRule_of_not_hasBackends {rules : List (RouteRule × Nat)}
    (h : ∀ rule ∈ rules, ¬ W.HasBackends route rule) (p : Progress) :
    (rules.foldl (W.configureRule route) p).router = p.router ∧
      (rules.foldl (W.configureRule route) p).rateLimiter = p.rateLimiter := by
  induction rules generalizing p with
  | nil => exact ⟨rfl, rfl⟩
  | cons rule rules ih =>
      obtain ⟨hrule, hrules⟩ := List.forall_mem_cons.mp h
      obtain ⟨hrouter, hlimiter⟩ := ih hrules (W.configureRule route p rule)
      obtain ⟨hrouter', hlimiter'⟩ := configureRule_of_not_hasBackends (p := p) hrule
      exact ⟨hrouter.trans hrouter', hlimiter.trans hlimiter'⟩

/-- A call adds a route for the path and the method, on behalf of the rule. -/
structure AddsRoute (W : RouteWorld) (route : HttpRoute) (index : Finset (Str × Str))
    (rule : RouteRule × Nat) (pair : Str × Option HttpMethod) : Prop where
  processed : rule ∈ route.processed index
  hasBackends : W.HasBackends route rule
  validPair : rule.1.ValidPair pair

end RouteWorld

/-! ## What a call does -/

namespace HttpRouteReconciler

variable {W : RouteWorld} {route : HttpRoute} {r : HttpRouteReconciler}

/-- **The routes after a call**: those of before, and those that the rules add. -/
theorem mem_routes_reconcile_iff {key : RouteKey} :
    key ∈ (r.reconcile W route).2.2.router.routes ↔
      key ∈ r.router.routes ∨ ∃ rule pair, W.AddsRoute route r.gatewayIndex rule pair ∧
        key = routeKey (pair.2.getD .all) pair.1 := by
  rw [reconcile_state, progress, Collect.foldl_iff (P := fun p : Progress => key ∈ p.router.routes)
    fun p rule => RouteWorld.mem_routes_configureRule_iff p rule]
  refine or_congr_right ⟨?_, ?_⟩
  · rintro ⟨rule, hrule, hhas, pair, hpair, hkey⟩
    exact ⟨rule, pair, ⟨hrule, hhas, hpair⟩, hkey⟩
  · rintro ⟨rule, pair, ⟨hrule, hhas, hpair⟩, hkey⟩
    exact ⟨rule, hrule, hhas, pair, hpair, hkey⟩

/-- **The limits after a call**: those of before, and the first paths of the rules that add
routes. -/
theorem limited_reconcile_iff {rate : F64} {burst : Nat}
    (hlimit : W.annotatedLimit route = some (rate, burst)) {pattern : Str} :
    RateLimiter.Limited W.float.round rate burst (r.reconcile W route).2.2.rateLimiter pattern ↔
      RateLimiter.Limited W.float.round rate burst r.rateLimiter pattern ∨
        ∃ rule ∈ route.processed r.gatewayIndex,
          W.HasBackends route rule ∧ pattern = rule.1.firstPath := by
  rw [reconcile_state, progress]
  exact Collect.foldl_iff
    (P := fun p : Progress => RateLimiter.Limited W.float.round rate burst p.rateLimiter pattern)
    (fun p rule => RouteWorld.limited_configureRule_iff hlimit p rule) _ _

/-- The router serves the same routes, and the same limits are in force. -/
def SameConfig (r r' : HttpRouteReconciler) : Prop :=
  r'.router.routes = r.router.routes ∧ r'.router.prefixRouter = r.router.prefixRouter ∧
    r'.rateLimiter = r.rateLimiter

/-- A reconciler that has not been called yet. -/
def new (index : Finset (Str × Str)) : HttpRouteReconciler := ⟨Router.new, ∅, index⟩

/-- A rule that a call gets to, and that has backends, adds the route of its first path. -/
theorem exists_addsRoute {rule : RouteRule × Nat} {index : Finset (Str × Str)}
    (hrule : rule ∈ route.processed index) (hhas : W.HasBackends route rule) :
    ∃ method, W.AddsRoute route index rule (rule.1.firstPath, method) := by
  obtain ⟨method, rest, hpairs⟩ := rule.1.exists_pathMethodPairs
  refine ⟨method, hrule, hhas, ?_, ?_⟩
  · rw [hpairs]
    exact List.mem_cons_self
  · exact RouteRule.hasValidPath_iff.mp (HttpRoute.hasValidPath_of_mem_processed hrule)

/-- If a call gets to one rule only, the routes of that rule are added. -/
theorem exists_router_reconcile {rule : RouteRule × Nat}
    (hprocessed : route.processed r.gatewayIndex = [rule]) (hhas : W.HasBackends route rule) :
    ∃ backends, backends ≠ [] ∧ backends.length ≤ maxBackends ∧
      (r.reconcile W route).2.2.router = W.addPairs rule.2 rule.1 backends r.router := by
  rw [reconcile_state, progress, hprocessed, List.foldl_cons, List.foldl_nil]
  rcases RouteWorld.configureRule_cases ⟨r.router, r.rateLimiter, 0, .allResolved⟩ rule with
    ⟨-, backends, hne, hlen, hrouter, -⟩ | ⟨hnot, -⟩
  · exact ⟨backends, hne, Nat.le_trans hlen (by decide), hrouter⟩
  · exact absurd hhas hnot

end HttpRouteReconciler

/-! ## Samples -/

/-- Exact arithmetic, whole rates, and services that all resolve to one backend. -/
def RouteWorld.sample : RouteWorld where
  matchit := .scan
  iterOrder _ _ := .newestFirst
  float := ⟨id, fun text => (parseU64 text).map fun n => .finite n⟩
  resolve _ _ _ _ _ := .ok [.sample]
  now _ := 0
  statusUpdate := .ok ()

/-- A rule that matches `GET` requests for some paths. -/
def RouteRule.sample (paths : List Str) : RouteRule :=
  ⟨some (paths.map fun path => ⟨some (some path), some .get⟩), some [⟨"svc".toList, none, none⟩]⟩

/-- An HTTPRoute with a limit of ten requests a second, and a rule for each list of paths. -/
def HttpRoute.sample (rules : List (List Str)) : HttpRoute where
  metadata :=
    { name := some "web".toList
      generateName := none
      metaNamespace := none
      labels := none
      annotations := some (AList.singleton "rauta.io/rate-limit".toList "10rps,burst=5".toList)
      generation := none }
  parentRefs := some [⟨"gw".toList, none, none⟩]
  rules := some (rules.map .sample)

/-- The Gateway that it refers to. -/
def sampleIndex : Finset (Str × Str) := {("default".toList, "gw".toList)}

theorem annotatedLimit_sample (rules : List (List Str)) :
    RouteWorld.sample.annotatedLimit (.sample rules) = some (.finite 10, 5) := rfl

/-! ## Rejected HTTPRoutes -/

namespace HttpRouteReconciler

/-- **When a rejected HTTPRoute changes nothing**, whatever the state it meets: if no rule before
the invalid one has backends. -/
theorem rejected_unchanged_iff (W : RouteWorld) (index : Finset (Str × Str)) (route : HttpRoute) :
    (∀ r : HttpRouteReconciler, r.gatewayIndex = index → (r.reconcile W route).1.isInvalid →
      r.SameConfig (r.reconcile W route).2.2) ↔
    (route.HasInvalidRule → ∀ rule ∈ route.processed index, ¬ W.HasBackends route rule) := by
  constructor
  · intro h hinvalid rule hrule hhas
    have hrefs : route.getMatchingParentRefs index ≠ [] := by
      intro hnil
      simp [HttpRoute.processed, hnil] at hrule
    obtain ⟨hroutes, -⟩ :=
      h (new index) rfl ((isInvalid_reconcile_iff W _ route).mpr ⟨hrefs, hinvalid⟩)
    obtain ⟨method, hadds⟩ := exists_addsRoute hrule hhas
    -- a new router has no routes, so the one that the rule adds is a change
    have hmem := (mem_routes_reconcile_iff (r := new index)).mpr (Or.inr ⟨rule, _, hadds, rfl⟩)
    rw [hroutes] at hmem
    exact AList.notMem_empty _ hmem
  · rintro h r rfl hexit
    have hnone := h ((isInvalid_reconcile_iff W r route).mp hexit).2
    obtain ⟨hrouter, hlimiter⟩ := RouteWorld.foldl_configureRule_of_not_hasBackends hnone
      ⟨r.router, r.rateLimiter, 0, .allResolved⟩
    rw [reconcile_state, SameConfig]
    exact ⟨congrArg Router.routes hrouter, congrArg Router.prefixRouter hrouter, hlimiter⟩

/-- **A rejected HTTPRoute is in force**: of the rules for `/a` and for `b` the second is invalid.
The status says so, but `/a` is served, and limited. -/
theorem rejected_route_serves :
    let before := new sampleIndex
    let after := before.reconcile .sample (.sample [["/a".toList], ["b".toList]])
    after.1.isInvalid ∧ ¬ before.SameConfig after.2.2 ∧
      before.router.matchedPattern .scan .get "/a".toList none none = none ∧
      after.2.2.router.matchedPattern .scan .get "/a".toList none none = some "/a".toList ∧
      (after.2.2.rateLimiter.lookup "/a".toList).isSome := by
  intro before after
  have hprocessed : (HttpRoute.sample [["/a".toList], ["b".toList]]).processed sampleIndex =
      [(.sample ["/a".toList], 0)] := by decide +kernel
  have hlimited : (after.2.2.rateLimiter.lookup "/a".toList).isSome := by decide +kernel
  obtain ⟨backends, hne, hfew, hrouter⟩ : ∃ backends, backends ≠ [] ∧
      backends.length ≤ maxBackends ∧ after.2.2.router = _ :=
    exists_router_reconcile hprocessed (by decide +kernel)
  refine ⟨by decide +kernel, fun h => ?_, by decide +kernel, ?_, hlimited⟩
  · rw [h.2.2] at hlimited
    cases hlimited
  · rw [hrouter]
    exact (Router.Unused.withHealthConfig _ _).matchedPattern_addRoute (AList.notMem_empty _) hne
      hfew

/-! ## The annotated limit -/

/-- **When the annotation covers what is added**, whatever the state a call meets: if every path
that gets a route is the first path of a rule that adds routes. -/
theorem annotation_covers_iff (W : RouteWorld) (index : Finset (Str × Str)) (route : HttpRoute)
    {rate : F64} {burst : Nat} (hlimit : W.annotatedLimit route = some (rate, burst)) :
    (∀ r : HttpRouteReconciler, r.gatewayIndex = index →
      ∀ rule pair, W.AddsRoute route index rule pair →
        RateLimiter.Limited W.float.round rate burst (r.reconcile W route).2.2.rateLimiter pair.1) ↔
    ∀ rule pair, W.AddsRoute route index rule pair →
      ∃ rule' ∈ route.processed index, W.HasBackends route rule' ∧ pair.1 = rule'.1.firstPath := by
  constructor
  · intro h rule pair hadds
    have hlimited := h (new index) rfl rule pair hadds
    rw [limited_reconcile_iff hlimit] at hlimited
    exact hlimited.resolve_left RateLimiter.not_limited_empty
  · rintro h r rfl rule pair hadds
    exact (limited_reconcile_iff hlimit).mpr (Or.inr (h rule pair hadds))

/-- Two rules with one match each are covered. -/
theorem annotation_covers_two :
    let route : HttpRoute := .sample [["/a".toList], ["/b".toList]]
    RouteWorld.sample.annotatedLimit route = some (.finite 10, 5) ∧
      RouteWorld.sample.AddsRoute route sampleIndex (.sample ["/b".toList], 1)
        ("/b".toList, some .get) ∧
      ∀ r : HttpRouteReconciler, r.gatewayIndex = sampleIndex →
        ∀ rule pair, RouteWorld.sample.AddsRoute route sampleIndex rule pair →
          RateLimiter.Limited RouteWorld.sample.float.round (.finite 10) 5
            (r.reconcile .sample route).2.2.rateLimiter pair.1 := by
  refine ⟨rfl, ⟨by decide +kernel, by decide +kernel, by decide +kernel, rfl⟩, ?_⟩
  refine (annotation_covers_iff .sample sampleIndex _ (annotatedLimit_sample _)).mpr ?_
  rintro rule pair ⟨hrule, hhas, hpair, -⟩
  refine ⟨rule, hrule, hhas, ?_⟩
  have hprocessed : (HttpRoute.sample [["/a".toList], ["/b".toList]]).processed sampleIndex =
      [(.sample ["/a".toList], 0), (.sample ["/b".toList], 1)] := by decide +kernel
  rw [hprocessed] at hrule
  rcases List.mem_pair.mp hrule with rfl | rfl <;>
    exact congrArg Prod.fst (List.mem_singleton.mp hpair)

/-- **The second match is not limited**: a rule matches `/a` and `/b`. Requests for `/b` are served
by the route of the rule, and none of them is counted. -/
theorem second_match_unlimited :
    let route : HttpRoute := .sample [["/a".toList, "/b".toList]]
    let r := ((new sampleIndex).reconcile .sample route).2.2
    RouteWorld.sample.annotatedLimit route = some (.finite 10, 5) ∧
      RouteWorld.sample.AddsRoute route sampleIndex (.sample ["/a".toList, "/b".toList], 0)
        ("/b".toList, some .get) ∧
      r.router.matchedPattern .scan .get "/b".toList none none = some "/b".toList ∧
      ∀ now, r.rateLimiter.checkRateLimit now "/b".toList = (true, r.rateLimiter) := by
  intro route r
  have hprocessed : route.processed sampleIndex =
      [(.sample ["/a".toList, "/b".toList], 0)] := by decide +kernel
  obtain ⟨backends, hne, hfew, hrouter⟩ : ∃ backends, backends ≠ [] ∧
      backends.length ≤ maxBackends ∧ r.router = _ :=
    exists_router_reconcile hprocessed (by decide +kernel)
  refine ⟨rfl, ⟨by decide +kernel, by decide +kernel, by decide +kernel, rfl⟩, ?_, fun now => ?_⟩
  · rw [hrouter]
    refine ((Router.Unused.withHealthConfig _ _).addRoute .scan .newestFirst .get "/a".toList
      backends).matchedPattern_addRoute ?_ hne hfew
    rw [Router.mem_routes_addRoute_iff hfew]
    rintro (h | h)
    · exact absurd h (by decide +kernel)
    · exact AList.notMem_empty _ h
  · refine RateLimiter.checkRateLimit_of_lookup_eq_none ?_ now
    rw [← Option.isNone_iff_eq_none]
    decide +kernel

end HttpRouteReconciler

end Rauta
