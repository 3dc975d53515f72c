import Rauta.Gateway
import Rauta.HttpRoute
import Rauta.HttpRoute.Weights
import Rauta.Lib.Distinct
import Rauta.RateLimiter.PerRoute

/-!
# The HTTPRoute reconciler

`HTTPRouteReconciler::reconcile` goes through the rules of an HTTPRoute once. For each rule it
checks the path of the first match, resolves the services, adds a route per match, and configures
the annotated rate limit. A rule whose first path is invalid ends the call at once; what the rules
before it did is not undone.

So a call is a fold: `processed` are the rules before the first invalid one (none, if no Gateway of
ours is referenced), and `reconcile_state` says that the call configures those, one after the other.
-/

namespace Rauta

/-! ## HTTPRoutes -/

/-- `HTTPRouteRulesMatchesMethod`. -/
inductive RuleMethod where
  | get
  | head
  | post
  | put
  | delete
  | connect
  | options
  | trace
  | patch
  deriving DecidableEq

/-- `HTTPRouteRulesMatches`, as far as the reconciler reads it. -/
structure RuleMatch where
  /-- The path match, if there is one, and its value, if it has one. -/
  path : Option (Option Str)
  method : Option RuleMethod
  deriving DecidableEq

/-- `HTTPRouteRulesBackendRefs`, as far as the reconciler reads it. -/
structure BackendRef where
  name : Str
  port : Option Int32
  weight : Option Int32
  deriving DecidableEq

/-- `HTTPRouteRules`, as far as the reconciler reads it. -/
structure RouteRule where
  ruleMatches : Option (List RuleMatch)
  backendRefs : Option (List BackendRef)
  deriving DecidableEq

/-- `HTTPRouteParentRefs`, as far as the reconciler reads it. -/
structure ParentRef where
  name : Str
  refNamespace : Option Str
  sectionName : Option Str

/-- The metadata of an HTTPRoute, as far as the reconciler reads it. -/
structure RouteMeta extends ObjectMeta where
  annotations : Option (AList fun _ : Str => Str)
  generation : Option Int

/-- `HTTPRoute`. -/
structure HttpRoute where
  metadata : RouteMeta
  parentRefs : Option (List ParentRef)
  rules : Option (List RouteRule)

/-- `parse_http_method`: CONNECT and TRACE are not supported. -/
def parseHttpMethod : RuleMethod → Option HttpMethod
  | .get => some .get
  | .post => some .post
  | .put => some .put
  | .delete => some .delete
  | .patch => some .patch
  | .head => some .head
  | .options => some .options
  | .connect | .trace => none

/-- The path and the method of a match. An unsupported method is as good as none. -/
def RuleMatch.pathMethod (m : RuleMatch) : Str × Option HttpMethod :=
  (m.path.join.getD rootPath, m.method.bind parseHttpMethod)

namespace RouteRule

/-- `path_method_pairs`: never empty. -/
def pathMethodPairs (rule : RouteRule) : List (Str × Option HttpMethod) :=
  match (rule.ruleMatches.getD []).map RuleMatch.pathMethod with
  | [] => [(rootPath, none)]
  | pairs => pairs

/-- `path`: the first path, which alone decides whether the rule is valid. -/
def firstPath (rule : RouteRule) : Str := (rule.pathMethodPairs.head?.map Prod.fst).getD rootPath

theorem exists_pathMethodPairs (rule : RouteRule) :
    ∃ method rest, rule.pathMethodPairs = (rule.firstPath, method) :: rest := by
  have hne : rule.pathMethodPairs ≠ [] := by
    unfold pathMethodPairs
    split
    · simp
    · next hpairs => exact hpairs
  obtain ⟨⟨path, method⟩, rest, h⟩ := List.exists_cons_of_ne_nil hne
  exact ⟨method, rest, by rw [firstPath, h]; rfl⟩

end RouteRule

namespace HttpRoute

/-- `namespace()`, with the reconciler's default. -/
def namespaceOrDefault (route : HttpRoute) : Str :=
  route.metadata.metaNamespace.getD "default".toList

/-- The text of the rate-limit annotation. -/
def rateLimitText (route : HttpRoute) : Option Str :=
  route.metadata.annotations.bind fun annotations => annotations.lookup "rauta.io/rate-limit".toList

/-- `get_matching_parent_refs`: the references to Gateways of the index. -/
def getMatchingParentRefs (gatewayIndex : Finset (Str × Str)) (route : HttpRoute) :
    List ParentRef :=
  (route.parentRefs.getD []).filter fun ref =>
    (ref.refNamespace.getD route.namespaceOrDefault, ref.name) ∈ gatewayIndex

end HttpRoute

/-! ## The status -/

/-- A condition of the status, without its timestamp. -/
structure Condition where
  conditionType : Str
  status : Bool
  reason : Str
  message : Str
  observedGeneration : Int

/-- What the status says to one parent. -/
structure ParentStatus where
  name : Str
  parentNamespace : Str
  sectionName : Option Str
  conditions : List Condition

/-- What is known of the backend references: `all_backends_resolved`, `resolution_error_reason` and
`resolution_error_message`. -/
structure RefsStatus where
  resolved : Bool
  reason : Str
  message : Str

/-- The initial values. -/
def RefsStatus.allResolved : RefsStatus :=
  ⟨true, "ResolvedRefs".toList, "All backend refs resolved".toList⟩

/-- A service that is of no use. The last one is reported. -/
def RefsStatus.notFound (message : Str) : RefsStatus := ⟨false, "BackendNotFound".toList, message⟩

/-- The same conditions, to every parent. -/
def parentStatuses (routeNamespace : Str) (parentRefs : List ParentRef)
    (conditions : List Condition) : List ParentStatus :=
  parentRefs.map fun ref =>
    ⟨ref.name, ref.refNamespace.getD routeNamespace, ref.sectionName, conditions⟩

/-- The conditions of `set_route_status`. -/
def statusConditions (accepted : Bool) (refs : RefsStatus) (generation : Int) : List Condition :=
  if accepted then
    [⟨"Accepted".toList, true, "Accepted".toList, "HTTPRoute is accepted and configured".toList,
        generation⟩,
      ⟨"ResolvedRefs".toList, refs.resolved, refs.reason, refs.message, generation⟩]
  else
    [⟨"Accepted".toList, false, "NoRules".toList, "HTTPRoute has no valid routing rules".toList,
      generation⟩]

/-- The conditions of `set_route_status_invalid`. -/
def invalidConditions (message : Str) (generation : Int) : List Condition :=
  [⟨"Accepted".toList, false, "Invalid".toList, message, generation⟩]

/-! ## The world around a call -/

/-- What a call meets: the router's dependencies, `f64`, the answers of
`resolve_service_endpoints` (by rule and reference, and for a service, namespace and port), the
clock at each rule, and what the status update returns. -/
structure RouteWorld where
  matchit : Matchit
  iterOrder : (rule pair : Nat) → IterOrder
  float : FloatOps
  resolve : (rule ref : Nat) → (service serviceNamespace : Str) → (port : UInt32) →
    Except Str (List Backend)
  now : (rule : Nat) → Nat
  statusUpdate : Except Str Unit

namespace RouteWorld

/-- What a backend reference resolves to; the port defaults to 80. -/
def answer (W : RouteWorld) (route : HttpRoute) (i : Nat) (ref : BackendRef × Nat) :
    Except Str (List Backend) :=
  W.resolve i ref.2 ref.1.name route.namespaceOrDefault (ref.1.port.getD 80).toUInt32

/-- The rate and burst of the annotation, if there is one that parses. -/
def annotatedLimit (W : RouteWorld) (route : HttpRoute) : Option (F64 × Nat) :=
  route.rateLimitText.bind fun text => parseRateLimitAnnotation W.float.parse text |>.toOption

end RouteWorld

/-! ## Resolving the services of a rule -/

/-- The accumulators of the first pass. -/
structure Resolution where
  services : List ResolvedService
  totalWeight : Int32
  refs : RefsStatus

namespace RouteWorld

/-- The first pass, for one backend reference of rule `i`; the weight defaults to 1. -/
def resolveRef (W : RouteWorld) (route : HttpRoute) (i : Nat) (acc : Resolution)
    (ref : BackendRef × Nat) : Resolution :=
  let weight := ref.1.weight.getD 1
  let service := route.namespaceOrDefault ++ '/' :: ref.1.name
  match W.answer route i ref with
  | .ok [] =>
    { acc with
      refs := .notFound ("Service ".toList ++ service ++ " has no ready endpoints".toList) }
  | .ok backends =>
    { acc with
      services := acc.services ++ [⟨backends, weight⟩]
      totalWeight := acc.totalWeight + weight }
  | .error _ => { acc with refs := .notFound ("Failed to resolve service ".toList ++ service) }

/-- The first pass over the backend references of rule `i`. -/
def resolveAll (W : RouteWorld) (route : HttpRoute) (i : Nat) (refs : List BackendRef)
    (status : RefsStatus) : Resolution :=
  refs.zipIdx.foldl (W.resolveRef route i) ⟨[], 0, status⟩

end RouteWorld

/-! ## Configuring a rule -/

/-- The variables of the loop over the rules, with the router and the rate limiter. -/
structure Progress where
  router : Router
  rateLimiter : RateLimiter
  routesAdded : Nat
  refs : RefsStatus

namespace RouteWorld

variable (W : RouteWorld)

/-- Add the route of a pair; without a method it is a route for all methods. An invalid path is
skipped, and an error of `add_route` is only logged. -/
def addPair (i : Nat) (backends : List Backend) (s : Router)
    (pair : (Str × Option HttpMethod) × Nat) : Router :=
  match validatePath pair.1.1 with
  | .error _ => s
  | .ok () =>
    (s.addRoute W.matchit (W.iterOrder i pair.2) (pair.1.2.getD .all) pair.1.1 backends).2

/-- Add the routes of a rule. -/
def addPairs (i : Nat) (rule : RouteRule) (backends : List Backend) (s : Router) : Router :=
  rule.pathMethodPairs.zipIdx.foldl (W.addPair i backends) s

/-- Configure the annotated limit, once for the rule: for its first path. -/
def configureLimit (route : HttpRoute) (i : Nat) (rule : RouteRule) (l : RateLimiter) :
    RateLimiter :=
  match W.annotatedLimit route with
  | none => l
  | some (rate, burst) => l.configureRoute W.float.round (W.now i) rule.firstPath rate burst

/-- The loop body, once the first path is found valid. -/
def configureRule (route : HttpRoute) (p : Progress) (rule : RouteRule × Nat) : Progress :=
  match rule.1.backendRefs with
  | none => p
  | some backendRefs =>
    let resolution := W.resolveAll route rule.2 backendRefs p.refs
    let backends := weightedBackends W.float.round resolution.services resolution.totalWeight
    if backends = [] then { p with refs := resolution.refs }
    else
      { router := W.addPairs rule.2 rule.1 backends p.router
        rateLimiter := W.configureLimit route rule.2 rule.1 p.rateLimiter
        routesAdded := p.routesAdded + 1
        refs := resolution.refs }

/-- The loop over the rules: the message, if the path of a rule is invalid, and where that leaves
the variables. -/
def configureRules (route : HttpRoute) : Progress → List (RouteRule × Nat) →
    Option Str × Progress
  | p, [] => (none, p)
  | p, rule :: rules =>
    match validatePath rule.1.firstPath with
    | .error e => (some ("Invalid path: ".toList ++ e), p)
    | .ok () => configureRules route (W.configureRule route p rule) rules

end RouteWorld

/-! ## The reconciler -/

/-- `HTTPRouteReconciler`, without its Kubernetes client and the circuit breakers. -/
structure HttpRouteReconciler where
  router : Router
  rateLimiter : RateLimiter
  gatewayIndex : Finset (Str × Str)

/-- Where a call leaves: no Gateway of ours, an invalid path, or the end. The last two write the
status. -/
inductive RouteExit where
  | ignored
  | invalid (status : List ParentStatus)
  | configured (status : List ParentStatus)

/-- The call took the exit of an invalid path. -/
def RouteExit.isInvalid : RouteExit → Bool
  | .invalid _ => true
  | _ => false

/-- `reconcile`: the exit, what is returned, and the reconciler afterwards. -/
def HttpRouteReconciler.reconcile (W : RouteWorld) (r : HttpRouteReconciler) (route : HttpRoute) :
    RouteExit × ReconcileResult × HttpRouteReconciler :=
  let parentRefs := route.getMatchingParentRefs r.gatewayIndex
  if parentRefs = [] then (.ignored, .awaitChange, r)
  else
    let generation := route.metadata.generation.getD 0
    let returned :=
      match W.statusUpdate with
      | .ok () => ReconcileResult.requeue 300
      | .error e => .statusError e
    let (invalid, p) :=
      W.configureRules route ⟨r.router, r.rateLimiter, 0, .allResolved⟩ (route.rules.getD []).zipIdx
    let conditions :=
      match invalid with
      | some message => invalidConditions message generation
      | none => statusConditions (0 < p.routesAdded) p.refs generation
    let status := parentStatuses route.namespaceOrDefault parentRefs conditions
    (if invalid.isSome then .invalid status else .configured status, returned,
      { r with router := p.router, rateLimiter := p.rateLimiter })

/-! ## A call is a fold -/

/-- The check of the first path. -/
def RouteRule.hasValidPath (rule : RouteRule) : Bool := (validatePath rule.firstPath).isOk

theorem RouteRule.hasValidPath_iff {rule : RouteRule} :
    rule.hasValidPath ↔ validatePath rule.firstPath = .ok () := by
  unfold hasValidPath
  cases validatePath rule.firstPath <;> simp [Except.isOk, Except.toBool]

namespace HttpRoute

/-- The rules that a call gets to: those before the first one with an invalid path. -/
def processed (route : HttpRoute) (gatewayIndex : Finset (Str × Str)) : List (RouteRule × Nat) :=
  if route.getMatchingParentRefs gatewayIndex = [] then []
  else (route.rules.getD []).zipIdx.takeWhile fun rule => rule.1.hasValidPath

/-- Some rule has an invalid first path. -/
def HasInvalidRule (route : HttpRoute) : Prop :=
  ∃ rule ∈ route.rules.getD [], ¬ rule.hasValidPath

theorem hasValidPath_of_mem_processed {route : HttpRoute} {index : Finset (Str × Str)}
    {rule : RouteRule × Nat} (h : rule ∈ route.processed index) : rule.1.hasValidPath := by
  unfold processed at h
  split at h
  · cases h
  · exact List.mem_takeWhile_imp (p := fun rule : RouteRule × Nat => rule.1.hasValidPath) h

end HttpRoute

/-- The loop stops at the first invalid rule, and configures what is before it. -/
theorem RouteWorld.configureRules_eq (W : RouteWorld) (route : HttpRoute) (p : Progress)
    (rules : List (RouteRule × Nat)) :
    ((W.configureRules route p rules).1.isSome ↔ ∃ rule ∈ rules, ¬ rule.1.hasValidPath) ∧
    (W.configureRules route p rules).2 =
      (rules.takeWhile fun rule => rule.1.hasValidPath).foldl (W.configureRule route) p := by
  induction rules generalizing p with
  | nil => simp [configureRules]
  | cons rule rules ih =>
      cases hpath : validatePath rule.1.firstPath with
      | error e =>
          have hinvalid : rule.1.hasValidPath = false := by
            simp [RouteRule.hasValidPath, hpath, Except.isOk, Except.toBool]
          simp [configureRules, hpath, hinvalid]
      | ok u =>
          have hvalid : rule.1.hasValidPath = true := RouteRule.hasValidPath_iff.mpr hpath
          simpa [configureRules, hpath, hvalid] using ih (W.configureRule route p rule)

namespace HttpRouteReconciler

variable (W : RouteWorld) (r : HttpRouteReconciler) (route : HttpRoute)

/-- The loop variables after the rules that a call gets to. -/
def progress : Progress :=
  (route.processed r.gatewayIndex).foldl (W.configureRule route)
    ⟨r.router, r.rateLimiter, 0, .allResolved⟩

/-- **What a call leaves behind**: it configures the rules it gets to. -/
theorem reconcile_state :
    (r.reconcile W route).2.2 =
      { r with
        router := (r.progress W route).router
        rateLimiter := (r.progress W route).rateLimiter } := by
  unfold reconcile progress HttpRoute.processed
  by_cases hrefs : route.getMatchingParentRefs r.gatewayIndex = []
  · simp [hrefs]
  · simp only [hrefs, if_false]
    rw [← (W.configureRules_eq route _ _).2]

/-- The exit of an invalid path is taken if a Gateway of ours is referenced and some rule is
invalid. -/
theorem isInvalid_reconcile_iff :
    (r.reconcile W route).1.isInvalid ↔
      route.getMatchingParentRefs r.gatewayIndex ≠ [] ∧ route.HasInvalidRule := by
  unfold reconcile
  by_cases hrefs : route.getMatchingParentRefs r.gatewayIndex = []
  · simp [hrefs, RouteExit.isInvalid]
  · have hexit := (W.configureRules_eq route ⟨r.router, r.rateLimiter, 0, .allResolved⟩
      (route.rules.getD []).zipIdx).1
    have hindex : (∃ rule ∈ (route.rules.getD []).zipIdx, ¬ rule.1.hasValidPath) ↔
        route.HasInvalidRule :=
      Collect.exists_mem_zipIdx (Q := fun rule : RouteRule => ¬ rule.hasValidPath)
    simp only [hrefs, if_false, ne_eq, not_false_eq_true, true_and, ← hindex, ← hexit]
    split <;> simp_all [RouteExit.isInvalid]

end HttpRouteReconciler

/-! ## Rules with backends -/

namespace RouteWorld

variable (W : RouteWorld) (route : HttpRoute)

/-- The service of a backend reference with its weight, if it resolves to something. -/
def service (i : Nat) (ref : BackendRef × Nat) : Option ResolvedService :=
  match W.answer route i ref with
  | .ok [] => none
  | .ok backends => some ⟨backends, ref.1.weight.getD 1⟩
  | .error _ => none

/-- The services of a rule. -/
def services (rule : RouteRule × Nat) : List ResolvedService :=
  (rule.1.backendRefs.getD []).zipIdx.filterMap (W.service route rule.2)

/-- **The rule has backends**: the weights of the services that resolve have a positive sum (in
`i32`). -/
def HasBackends (rule : RouteRule × Nat) : Prop :=
  0 < (W.services route rule).foldl (fun sum s => sum + s.weight) 0

instance (rule : RouteRule × Nat) : Decidable (W.HasBackends route rule) :=
  inferInstanceAs (Decidable (_ < _))

theorem backends_ne_nil {rule : RouteRule × Nat} {s : ResolvedService}
    (h : s ∈ W.services route rule) : s.backends ≠ [] := by
  obtain ⟨ref, -, hs⟩ := List.mem_filterMap.mp h
  unfold service at hs
  split at hs
  · cases hs
  · next backends hne _ =>
    cases hs
    exact hne
  · cases hs

/-- A reference adds its service, if there is one. -/
theorem resolveRef_service (i : Nat) (acc : Resolution) (ref : BackendRef × Nat) :
    (W.resolveRef route i acc ref).services = acc.services ++ (W.service route i ref).toList ∧
    (W.resolveRef route i acc ref).totalWeight =
      (W.service route i ref).toList.foldl (fun sum s => sum + s.weight) acc.totalWeight := by
  unfold resolveRef service
  split <;> simp

/-- The first pass collects the services and adds their weights up. -/
theorem foldl_resolveRef (i : Nat) (refs : List (BackendRef × Nat)) (acc : Resolution) :
    (refs.foldl (W.resolveRef route i) acc).services =
      acc.services ++ refs.filterMap (W.service route i) ∧
    (refs.foldl (W.resolveRef route i) acc).totalWeight =
      (refs.filterMap (W.service route i)).foldl (fun sum s => sum + s.weight) acc.totalWeight := by
  induction refs generalizing acc with
  | nil => simp
  | cons ref refs ih =>
      obtain ⟨hservices, htotal⟩ := ih (W.resolveRef route i acc ref)
      obtain ⟨hservice, hweight⟩ := W.resolveRef_service route i acc ref
      rw [List.foldl_cons, hservices, htotal, hservice, hweight]
      cases h : W.service route i ref <;> simp [h]

/-- The first pass, over the references of a rule, collects the services of the rule. -/
theorem services_resolveAll {rule : RouteRule × Nat} {refs : List BackendRef}
    (hrefs : rule.1.backendRefs = some refs) (status : RefsStatus) :
    (W.resolveAll route rule.2 refs status).services = W.services route rule := by
  rw [resolveAll, (W.foldl_resolveRef route rule.2 refs.zipIdx _).1, List.nil_append, services,
    hrefs, Option.getD_some]

/-- Its total is that of the services it has collected. -/
theorem totalWeight_resolveAll (i : Nat) (refs : List BackendRef) (status : RefsStatus) :
    (W.resolveAll route i refs status).totalWeight =
      totalWeight (W.resolveAll route i refs status).services := by
  obtain ⟨hservices, htotal⟩ := W.foldl_resolveRef route i refs.zipIdx ⟨[], 0, status⟩
  rw [resolveAll, htotal, hservices, List.nil_append, totalWeight]

variable {W route} in
/-- What configuring a rule does: if the rule has backends, their routes and the limit, else
nothing. -/
theorem configureRule_cases (p : Progress) (rule : RouteRule × Nat) :
    (W.HasBackends route rule ∧ ∃ backends, backends ≠ [] ∧ backends.length ≤ maxMaglevBackends ∧
      (W.configureRule route p rule).router = W.addPairs rule.2 rule.1 backends p.router ∧
      (W.configureRule route p rule).rateLimiter =
        W.configureLimit route rule.2 rule.1 p.rateLimiter) ∨
    (¬ W.HasBackends route rule ∧ (W.configureRule route p rule).router = p.router ∧
      (W.configureRule route p rule).rateLimiter = p.rateLimiter) := by
  unfold configureRule
  split
  · next hnone => exact Or.inr ⟨by simp [HasBackends, services, hnone], rfl, rfl⟩
  · next backendRefs hsome =>
    have hnil : weightedBackends W.float.round (W.services route rule)
        (totalWeight (W.services route rule)) = [] ↔ ¬ W.HasBackends route rule := by
      refine weightedBackends_eq_nil_iff (fun s hs => W.backends_ne_nil route hs) fun h hempty => ?_
      rw [hempty] at h
      exact absurd h (by decide)
    simp only [W.totalWeight_resolveAll, W.services_resolveAll route hsome]
    split
    · next h => exact Or.inr ⟨hnil.mp h, rfl, rfl⟩
    · next h =>
      exact Or.inl ⟨not_not.mp (mt hnil.mpr h), _, h, length_weightedBackends_le, rfl, rfl⟩

end RouteWorld

end Rauta
