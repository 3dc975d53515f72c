import Mathlib.Data.List.Find
import Rauta.Lib.Search
import Rauta.Router.Recovery

/-!
# The two request paths

The standalone server selects with `select_backend`, the listeners of the gateway with
`select_backend_with_headers`. With routes that come from `add_route` alone, and active checking
off, the two are compared here.

The retry loops are written differently, one with a bit mask and one with a set, but both take the
first backend that passes the test among those that the probes come across
(`selectByMask_eq_find?`, `selectBySet_eq_find?`). The lookups do differ: only `select_backend`
tries the `ALL` route of the path before the prefix router. This shows unless the route found in its
place has the same to offer (`OffersAlike`).
-/

namespace Rauta

open Search Transition

/-! ## The loops -/

namespace Route

variable {route : Route} {eligible : Backend → Bool} {flowHash : Nat}

/-- The backends that the probes of a request come across, in order. -/
def candidates (route : Route) (flowHash : Nat) : List Backend :=
  route.attempts.filterMap fun attempt => route.backends[route.probe flowHash attempt]?

/-- Every slot holds the index of a backend. -/
def ProbesInRange (route : Route) : Prop :=
  ∀ flowHash attempt, route.probe flowHash attempt < route.backends.length

/-- A route with the table of its backends probes their indices. -/
theorem probesInRange (hne : route.backends ≠ [])
    (htable : maglevBuildCompactTable route.backends = some route.maglevTable) :
    route.ProbesInRange := by
  intro flowHash attempt
  exact maglevLookupCompact_lt (maglevBuildCompactTable_lt hne htable) _

/-- What the loops know of the tried indices. -/
structure Tried (route : Route) (eligible : Backend → Bool) (tried : List Nat) : Prop where
  nodup : tried.Nodup
  lt : ∀ i ∈ tried, i < route.backends.length
  failed : ∀ i ∈ tried, ∀ b, route.backends[i]? = some b → eligible b = false

theorem Tried.cons {tried : List Nat} {i : Nat} {b : Backend} (h : route.Tried eligible tried)
    (hi : i ∉ tried) (hb : route.backends[i]? = some b) (he : eligible b = false) :
    route.Tried eligible (i :: tried) where
  nodup := List.nodup_cons.mpr ⟨hi, h.nodup⟩
  lt := by
    intro j hj
    rcases List.mem_cons.mp hj with rfl | hj
    · exact (List.getElem?_eq_some_iff.mp hb).1
    · exact h.lt j hj
  failed := by
    intro j hj b' hb'
    rcases List.mem_cons.mp hj with rfl | hj
    · exact Option.some.inj (hb'.symm.trans hb) ▸ he
    · exact h.failed j hj b' hb'

/-- Once all indices were tried, no backend passes the test. -/
theorem Tried.exhausted {tried : List Nat} (h : route.Tried eligible tried)
    (hlen : tried.length = route.backends.length) {i : Nat} {b : Backend}
    (hb : route.backends[i]? = some b) : eligible b = false :=
  h.failed i (mem_of_length_eq h.nodup h.lt hlen (List.getElem?_eq_some_iff.mp hb).1) b hb

/-- The loop over a set finds the first candidate that passes. Neither skipping what was tried nor
stopping early loses one. -/
theorem setLoop_eq_find? (hrange : route.ProbesInRange) {attempts tried : List Nat}
    (h : route.Tried eligible tried) :
    route.setLoop eligible flowHash attempts tried =
      (attempts.filterMap fun attempt =>
        route.backends[route.probe flowHash attempt]?).find? eligible := by
  induction attempts generalizing tried with
  | nil => rfl
  | cons attempt rest ih =>
      obtain ⟨b, hb⟩ : ∃ b, route.backends[route.probe flowHash attempt]? = some b :=
        ⟨_, List.getElem?_eq_getElem (hrange flowHash attempt)⟩
      rw [setLoop, List.filterMap_cons, hb, List.find?_cons]
      by_cases hmem : route.probe flowHash attempt ∈ tried
      · simp only [hmem, ↓reduceIte, h.failed _ hmem _ hb]
        exact ih h
      · simp only [hmem, ↓reduceIte]
        cases he : eligible b with
        | true => simp
        | false =>
            have h' := h.cons hmem hb he
            simp only [Bool.false_eq_true, ↓reduceIte]
            split
            · next hlen =>
              symm
              rw [List.find?_eq_none]
              intro b hb'
              obtain ⟨a, -, ha⟩ := List.mem_filterMap.mp hb'
              simp [h'.exhausted hlen ha]
            · exact ih h'

/-- The bit mask is the set. -/
theorem maskLoop_eq_setLoop (hrange : route.ProbesInRange) (hfew : route.backends.length ≤ 32)
    {attempts tried : List Nat} {triedMask : Nat} (h : Marks 32 triedMask tried) :
    route.maskLoop eligible flowHash attempts triedMask tried.length =
      route.setLoop eligible flowHash attempts tried := by
  induction attempts generalizing triedMask tried with
  | nil => rfl
  | cons attempt rest ih =>
      have hlt : route.probe flowHash attempt < 32 := (hrange flowHash attempt).trans_le hfew
      have hbit : route.probe flowHash attempt &&& 31 = route.probe flowHash attempt := by
        rw [show 31 = 2 ^ 5 - 1 from rfl, Nat.and_two_pow_sub_one_eq_mod, Nat.mod_eq_of_lt hlt]
      rw [maskLoop, setLoop]
      simp only [hbit, h.and_bit hlt]
      by_cases hmem : route.probe flowHash attempt ∈ tried
      · simp only [hmem, ↓reduceIte]
        exact ih h
      · simp only [hmem, ↓reduceIte, List.length_cons]
        rw [← ih h.or_bit]
        rfl

theorem selectBySet_eq_find? (hrange : route.ProbesInRange) :
    route.selectBySet eligible flowHash = (route.candidates flowHash).find? eligible :=
  setLoop_eq_find? hrange ⟨List.nodup_nil, by simp, by simp⟩

theorem selectByMask_eq_find? (hrange : route.ProbesInRange) (hfew : route.backends.length ≤ 32) :
    route.selectByMask eligible flowHash = (route.candidates flowHash).find? eligible :=
  (maskLoop_eq_setLoop hrange hfew (marks_nil 32)).trans (selectBySet_eq_find? hrange)

/-- A table of backend indices, of whatever length, is probed in range if there is a backend. -/
theorem probesInRange_of_entries (hne : route.backends ≠ [])
    (hentries : ∀ i ∈ route.maglevTable, i < route.backends.length) : route.ProbesInRange := by
  intro flowHash attempt
  have hpos : 0 < route.backends.length := List.length_pos_of_ne_nil hne
  unfold probe maglevLookupCompact
  split
  · exact hpos
  · rw [List.getD_eq_getElem?_getD]
    cases hget : route.maglevTable[(flowHash + attempt) % 2 ^ 64 % compactMaglevSize]? with
    | none => exact hpos
    | some i => exact hentries i (List.mem_of_getElem? hget)

/-- **The loop with the bit mask does what the loop with the set does**, for up to 32 backends. -/
theorem selectByMask_eq_selectBySet (hfew : route.backends.length ≤ 32)
    (hentries : ∀ i ∈ route.maglevTable, i < route.backends.length) (eligible : Backend → Bool)
    (flowHash : Nat) :
    route.selectByMask eligible flowHash = route.selectBySet eligible flowHash := by
  by_cases hnil : route.backends = []
  · -- neither loop is entered
    simp only [selectByMask, selectBySet, attempts, hnil]
    rfl
  · exact maskLoop_eq_setLoop (probesInRange_of_entries hnil hentries) hfew (marks_nil 32)

/-- As many backends as the mask has bits, and every slot with the last of them. -/
def lastOf32 : Route :=
  .basic "/api".toList ((List.range 32).map fun i => .fromIpv4 10 0 1 (.ofNat i) 8080 100)
    (List.replicate compactMaglevSize 31)

theorem selectByMask_eq_selectBySet_lastOf32 : lastOf32.backends.length = 32 ∧
    lastOf32.selectByMask (fun b => b.port = 8080) 7 =
      lastOf32.selectBySet (fun b => b.port = 8080) 7 := by
  have hlength : lastOf32.backends.length = 32 := rfl
  refine ⟨hlength, selectByMask_eq_selectBySet hlength.le ?_ _ 7⟩
  intro i hi
  rw [List.eq_of_mem_replicate hi, hlength]
  decide

end Route

/-! ## Routers with plain routes -/

namespace Router

variable {M : Matchit} {R : RegexCrate} {s : Router}

/-- The calls are `add_route` calls. -/
def AddsOnly (_ : Router) : RouterCall → Prop
  | .addRoute .. => True
  | _ => False

/-- What `add_route` calls leave behind: routes without constraints and with their tables, an empty
cache, and no results of active checks. -/
structure PlainRoutes (config : HealthCheckConfig) (inRuntime : Bool) (s : Router) : Prop where
  routes : ∀ key route, s.routes.lookup key = some route → ∃ path backends table,
    maglevBuildCompactTable backends = some table ∧ route = .basic path backends table
  uncached : ∀ key, s.routeCache.cached key = none
  unchecked : s.healthChecker = .new config inRuntime

theorem PlainRoutes.call {config : HealthCheckConfig} {inRuntime : Bool}
    (hoff : config.enabled = false) (h : s.PlainRoutes config inRuntime) {c : RouterCall}
    (hc : AddsOnly s c) : (s.call M c).PlainRoutes config inRuntime := by
  cases c with
  | addRouteWith => exact hc.elim
  | selectBackend => exact hc.elim
  | addRoute ord method path backends =>
      rw [Router.call]
      rcases addRoute_snd_cases M s ord method path backends with hself | ⟨w, hw, hcommit⟩
      · rw [hself]
        exact h
      · rw [hcommit]
        refine ⟨?_, uncached_commit h.uncached w, ?_⟩
        · intro key route hroute
          change (s.commit M w).routes.lookup key = some route at hroute
          rw [commit_routes] at hroute
          rcases Write.lookup_routes hroute with ⟨-, rfl⟩ | hroute
          · obtain ⟨-, table, htable, rfl⟩ := RouterCall.of_write_addRoute hw
            exact ⟨_, _, table, htable, rfl⟩
          · exact h.routes key route hroute
        · show s.healthChecker.startChecking backends path = _
          rw [h.unchecked]
          exact HealthChecker.startChecking_of_disabled hoff backends path

theorem plainRoutes_of_reach {config : HealthCheckConfig} {inRuntime : Bool}
    (hoff : config.enabled = false)
    (h : (routerSystem M).Reach AddsOnly (.withHealthConfig config inRuntime) s) :
    s.PlainRoutes config inRuntime := by
  refine h.invariant ⟨?_, fun _ => rfl, rfl⟩ ?_
  · intro key route hroute
    cases hroute
  · intro s c s' hs hc hstep
    cases hstep
    exact hs.call hoff hc

/-! ## What a route offers -/

/-- What a request of a flow can get from a route, if there is one: the backends its probes come
across, with the pattern. -/
def offers (route : Option Route) (flowHash : Nat) : List (Backend × Str) :=
  route.elim [] fun route => (route.candidates flowHash).map (·, route.pattern)

/-- To every source the two offer the same, in the same order of preference. -/
def OffersAlike (path : Str) (r r' : Option Route) : Prop :=
  ∀ srcIp srcPort, (offers r (computeFlowHash (pathHash path) srcIp srcPort)).eraseDups =
    (offers r' (computeFlowHash (pathHash path) srcIp srcPort)).eraseDups

/-- The first offer whose backend passes a test. -/
def firstOffer (test : Backend → Bool) (offered : List (Backend × Str)) : Option (Backend × Str) :=
  offered.find? fun o => test o.1

/-- All offers of a route carry one pattern. -/
theorem offers_pattern {r : Option Route} {flowHash : Nat} {o o' : Backend × Str}
    (h : o ∈ offers r flowHash) (h' : o' ∈ offers r flowHash) : o.2 = o'.2 := by
  cases r with
  | none => cases h
  | some route =>
      obtain ⟨b, -, rfl⟩ := List.mem_map.mp h
      obtain ⟨b', -, rfl⟩ := List.mem_map.mp h'
      rfl

/-- Tests of the backend alone tell two lists of offers apart as well as any. -/
theorem eraseDups_offers_eq_iff {r r' : Option Route} {flowHash : Nat} :
    (∀ test, firstOffer test (offers r flowHash) = firstOffer test (offers r' flowHash)) ↔
      (offers r flowHash).eraseDups = (offers r' flowHash).eraseDups := by
  rw [← find?_congr_iff]
  refine ⟨fun h p => ?_, fun h test => h _⟩
  -- the two lists are empty, or begin with the same offer
  have hhead := h fun _ => true
  cases hl : offers r flowHash with
  | nil =>
      cases hl' : offers r' flowHash with
      | nil => rfl
      | cons o' l' =>
          rw [hl, hl'] at hhead
          cases hhead
  | cons o l =>
      cases hl' : offers r' flowHash with
      | nil =>
          rw [hl, hl'] at hhead
          cases hhead
      | cons o' l' =>
          obtain rfl : o = o' := by
            rw [hl, hl'] at hhead
            exact Option.some.inj hhead
          have hfix : ∀ r'' : Option Route, o ∈ offers r'' flowHash →
              firstOffer (fun b => p (b, o.2)) (offers r'' flowHash) =
                (offers r'' flowHash).find? p := by
            intro r'' ho
            apply List.find?_congr
            intro x hx
            rw [offers_pattern ho hx]
          rw [← hl, ← hl', ← hfix r (by simp [hl]), ← hfix r' (by simp [hl'])]
          exact h _

/-! ## Agreement -/

/-- The backend and the pattern of a match. -/
def target (rm : RouteMatch) : Backend × Str := (rm.backend, rm.pattern)

/-- For requests with the method and the path the two functions return the same backend and the same
pattern, or both nothing. -/
def SelectAlike (M : Matchit) (R : RegexCrate) (s : Router) (method : HttpMethod) (path : Str) :
    Prop :=
  ∀ (health : HealthData) srcIp srcPort headers,
    (({ s with health := health }.selectBackend M method path srcIp srcPort).1.map target) =
      ({ s with health := health }.selectBackendWithHeaders M R method path srcIp srcPort
        headers).map target

section Answers

variable {config : HealthCheckConfig} {inRuntime : Bool} (h : s.PlainRoutes config inRuntime)
  {method : HttpMethod} {path : Str} {srcIp : Option IpAddr} {srcPort : Option UInt16}

include h

/-- Both loops take the first offer of the route that passes the test. -/
theorem PlainRoutes.select_eq {key : RouteKey} {route : Route} {test : Backend → Bool}
    {flowHash : Nat} (hroute : s.routes.lookup key = some route) :
    ((route.selectByMask test flowHash).map route.toMatch).map target =
        firstOffer test (offers (some route) flowHash) ∧
      ((route.selectBySet test flowHash).map route.toMatch).map target =
        firstOffer test (offers (some route) flowHash) := by
  obtain ⟨path, backends, table, htable, rfl⟩ := h.routes key route hroute
  have hoffer : ∀ l : List Backend,
      ((l.find? test).map (Route.basic path backends table).toMatch).map target =
        firstOffer test (l.map (·, path)) := by
    intro l
    rw [firstOffer, List.find?_map, Option.map_map]
    rfl
  by_cases hne : backends = []
  · subst hne
    exact ⟨rfl, rfl⟩
  · have hrange : (Route.basic path backends table).ProbesInRange :=
      Route.probesInRange hne htable
    have hfew : (Route.basic path backends table).backends.length ≤ 32 :=
      length_le_of_maglevBuildCompactTable htable
    rw [Route.selectByMask_eq_find? hrange hfew, Route.selectBySet_eq_find? hrange]
    exact ⟨hoffer _, hoffer _⟩

/-- What `select_backend` answers: it tests the offers of the route that its lookup finds. -/
theorem PlainRoutes.selectBackend_eq :
    ((s.selectBackend M method path srcIp srcPort).1.map target) =
      firstOffer s.eligiblePassive (offers ((s.lookup M method path).bind fun key =>
        s.routes.lookup key) (computeFlowHash (pathHash path) srcIp srcPort)) := by
  have hkey : (s.resolve M method path).1 = s.lookup M method path := by
    rw [resolve_fst, h.uncached, Option.none_or]
  have heligible : s.eligible = s.eligiblePassive := by
    funext b
    simp [eligible, eligiblePassive, h.unchecked, HealthChecker.isHealthy, HealthChecker.new]
  show (((s.resolve M method path).1.bind fun key =>
    s.selectFrom method path srcIp srcPort key).map target) = _
  rw [hkey]
  cases s.lookup M method path with
  | none => rfl
  | some key =>
      show (s.selectFrom method path srcIp srcPort key).map target = _
      unfold selectFrom
      cases hroute : s.routes.lookup key with
      | none => simp [hroute, offers, firstOffer]
      | some route =>
          have hopen : route.methodMatches = none := by
            obtain ⟨_, _, _, -, rfl⟩ := h.routes key route hroute
            rfl
          simp only [hopen, Option.any_none, Bool.false_eq_true, ↓reduceIte, Option.bind_some,
            hroute, heligible]
          exact (h.select_eq hroute).1

/-- What `select_backend_with_headers` answers. -/
theorem PlainRoutes.selectBackendWithHeaders_eq {headers : List (Str × Str)} :
    ((s.selectBackendWithHeaders M R method path srcIp srcPort headers).map target) =
      firstOffer s.eligiblePassive (offers ((s.lookupExactOrPrefix M method path).bind fun key =>
        s.routes.lookup key) (computeFlowHash (pathHash path) srcIp srcPort)) := by
  unfold selectBackendWithHeaders selectMatching
  cases s.lookupExactOrPrefix M method path with
  | none => rfl
  | some key =>
      cases hroute : s.routes.lookup key with
      | none => simp [hroute, offers, firstOffer]
      | some route =>
          have haccepts : Route.acceptsHeaders R headers route = true := by
            obtain ⟨_, _, _, -, rfl⟩ := h.routes key route hroute
            rfl
          simp only [hroute, haccepts, ↓reduceIte, Option.bind_some]
          exact (h.select_eq hroute).2

end Answers

/-- A snapshot in which exactly the given backends are out. -/
theorem exists_health_eligible (out : List Backend) :
    ∃ health : HealthData, ∀ b,
      { s with health := health }.eligiblePassive b = !decide (b ∈ out) := by
  suffices h : ∃ health : HealthData, (∀ b, health.isHealthyPassive b) ∧
      ∀ b, health.isDraining b = decide (b ∈ out) by
    obtain ⟨health, hpassive, hdraining⟩ := h
    exact ⟨health, fun b => by simp [eligiblePassive, hpassive, hdraining]⟩
  induction out with
  | nil => exact ⟨.new, fun _ => rfl, fun _ => rfl⟩
  | cons b out ih =>
      obtain ⟨health, hpassive, hdraining⟩ := ih
      refine ⟨health.drainBackend b 0 0, hpassive, fun b' => ?_⟩
      rw [HealthData.isDraining_drainBackend, hdraining]
      simp

/-- Every test is made by some snapshot, as far as given offers go. -/
theorem exists_health_test (test : Backend → Bool) (offered : List (Backend × Str)) :
    ∃ health : HealthData, ∀ o ∈ offered,
      { s with health := health }.eligiblePassive o.1 = test o.1 := by
  obtain ⟨health, heligible⟩ :=
    exists_health_eligible (s := s) ((offered.map Prod.fst).filter fun b => !test b)
  refine ⟨health, fun o ho => ?_⟩
  rw [heligible]
  have hmem : o.1 ∈ offered.map Prod.fst := List.mem_map_of_mem ho
  simp [List.mem_filter, hmem]

/-- Two routes answer alike whatever the health of the backends exactly if they offer the same. -/
theorem offersAlike_iff {r r' : Option Route} {path : Str} :
    (∀ (health : HealthData) srcIp srcPort,
      firstOffer { s with health := health }.eligiblePassive
          (offers r (computeFlowHash (pathHash path) srcIp srcPort)) =
        firstOffer { s with health := health }.eligiblePassive
          (offers r' (computeFlowHash (pathHash path) srcIp srcPort))) ↔ OffersAlike path r r' := by
  constructor
  · intro h srcIp srcPort
    rw [← eraseDups_offers_eq_iff]
    intro test
    generalize hflow : computeFlowHash (pathHash path) srcIp srcPort = flowHash
    obtain ⟨health, htest⟩ :=
      exists_health_test (s := s) test (offers r flowHash ++ offers r' flowHash)
    have hanswer := h health srcIp srcPort
    rw [hflow] at hanswer
    have hleft : firstOffer { s with health := health }.eligiblePassive (offers r flowHash) =
        firstOffer test (offers r flowHash) :=
      List.find?_congr fun o ho => htest o (List.mem_append_left _ ho)
    have hright : firstOffer { s with health := health }.eligiblePassive (offers r' flowHash) =
        firstOffer test (offers r' flowHash) :=
      List.find?_congr fun o ho => htest o (List.mem_append_right _ ho)
    rw [← hleft, hanswer, hright]
  · intro h health srcIp srcPort
    exact eraseDups_offers_eq_iff.mpr (h srcIp srcPort) _

/-- So the two functions agree if their lookups lead to routes that offer the same. -/
theorem PlainRoutes.selectAlike_iff_offersAlike {config : HealthCheckConfig} {inRuntime : Bool}
    (h : s.PlainRoutes config inRuntime) {method : HttpMethod} {path : Str} :
    SelectAlike M R s method path ↔
      OffersAlike path ((s.lookup M method path).bind fun key => s.routes.lookup key)
        ((s.lookupExactOrPrefix M method path).bind fun key => s.routes.lookup key) := by
  have hhealth : ∀ health : HealthData, { s with health := health }.PlainRoutes config inRuntime :=
    fun _ => ⟨h.routes, h.uncached, h.unchecked⟩
  rw [← offersAlike_iff (s := s)]
  constructor
  · intro hs health srcIp srcPort
    have hanswer := hs health srcIp srcPort []
    rw [(hhealth health).selectBackend_eq, (hhealth health).selectBackendWithHeaders_eq] at hanswer
    exact hanswer
  · intro hs health srcIp srcPort headers
    rw [(hhealth health).selectBackend_eq, (hhealth health).selectBackendWithHeaders_eq]
    exact hs health srcIp srcPort

/-- **The two request paths route alike** for a method and a path exactly if the path has a route of
that method, or no `ALL` route, or if the route that the prefix router finds offers what the `ALL`
route does. -/
theorem selectAlike_iff (R : RegexCrate) {config : HealthCheckConfig} {inRuntime : Bool}
    (hoff : config.enabled = false)
    (h : (routerSystem M).Reach AddsOnly (.withHealthConfig config inRuntime) s)
    (method : HttpMethod) (path : Str) :
    SelectAlike M R s method path ↔
      method = .all ∨ routeKey method path ∈ s.routes ∨ routeKey .all path ∉ s.routes ∨
        OffersAlike path (s.routes.lookup (routeKey .all path))
          ((s.prefixLookup M method path).bind fun key => s.routes.lookup key) := by
  rw [(plainRoutes_of_reach hoff h).selectAlike_iff_offersAlike]
  by_cases hmethod : method = .all
  · simp [hmethod, lookup, lookupExactOrPrefix, OffersAlike]
  by_cases hown : routeKey method path ∈ s.routes
  · simp [hown, lookup, lookupExactOrPrefix, OffersAlike]
  by_cases hall : routeKey .all path ∈ s.routes
  · simp [hmethod, hown, hall, lookup, lookupExactOrPrefix]
  · simp [hown, hall, lookup, lookupExactOrPrefix, OffersAlike]

/-- A single route, requested under its own method. -/
theorem selectAlike_started : SelectAlike .scan ⟨fun _ => none⟩
    (started .scan .newestFirst .get "/api".toList [.sample]) .get "/api".toList :=
  (selectAlike_iff _ rfl (System.Reach.refl.tail
    (a := .addRoute .newestFirst .get "/api".toList [.sample]) trivial rfl) _ _).mpr
      (Or.inr (Or.inl (by decide +kernel)))

/-- **An `ALL` route and a shorter one**: with `ALL /api` and `GET /`, a `GET` request for `/api`
goes to the former through `select_backend` and to the latter through
`select_backend_with_headers`. -/
theorem exists_select_unlike :
    ¬ ∀ (M : Matchit) (R : RegexCrate), M.Lawful → ∀ config inRuntime s,
      config.enabled = false →
      (routerSystem M).Reach AddsOnly (.withHealthConfig config inRuntime) s →
      ∀ method path, SelectAlike M R s method path := by
  intro h
  let s₁ := started .scan .newestFirst .all "/api".toList [.sample]
  let s := s₁.call .scan (.addRoute .newestFirst .get "/".toList [.sample])
  have hreach : (routerSystem .scan).Reach AddsOnly (.withHealthConfig .default true) s :=
    (System.Reach.refl.tail (a := .addRoute .newestFirst .all "/api".toList [.sample]) trivial
      rfl).tail (a := .addRoute .newestFirst .get "/".toList [.sample]) trivial rfl
  have hplain := plainRoutes_of_reach rfl hreach
  have halike := h .scan ⟨fun _ => none⟩ Matchit.scan_lawful _ _ s rfl hreach .get "/api".toList
    .new none none []
  -- the table holds both routes
  have hfew : [Backend.sample].length ≤ maxBackends := by decide
  obtain ⟨table, htable, hs₁⟩ := started_onlyRoute .scan .newestFirst .all "/api".toList hfew
  have hnew : ¬ s₁.hasRoute .get "/".toList [.sample] := by decide +kernel
  obtain ⟨table', -, hinserted⟩ := addRoute_routes .scan .newestFirst hnew hfew
  have hroutes : s.routes = _ := hinserted
  have hroute : s.routes.lookup (routeKey .all "/api".toList) =
      some (.basic "/api".toList [.sample] table) := by
    rw [hroutes, AList.lookup_insert_ne (by decide +kernel)]
    exact hs₁.own
  have hroute' : s.routes.lookup (routeKey .get "/".toList) =
      some (.basic "/".toList [.sample] table') := by
    rw [hroutes, AList.lookup_insert]
  -- one function gets to the first, the other to the second
  have hresolve : ({ s with health := .new }.resolve .scan .get "/api".toList).1 =
      some (routeKey .all "/api".toList) := by decide +kernel
  have hlookup : { s with health := HealthData.new }.lookupExactOrPrefix .scan .get "/api".toList =
      some (routeKey .get "/".toList) := by decide +kernel
  have heligible : ∀ b, { s with health := HealthData.new }.eligible b := by
    intro b
    simp [eligible, hplain.unchecked, HealthChecker.isHealthy, HealthChecker.new,
      HealthData.isHealthyPassive, HealthData.isDraining, HealthData.new]
  obtain ⟨b, -, hselect⟩ :=
    exists_selectBackend none none hresolve hroute (by simp) htable heligible
  rw [hselect, selectBackendWithHeaders, selectMatching, hlookup] at halike
  simp only [hroute'] at halike
  split at halike
  · obtain ⟨rm, hrm, htarget⟩ := Option.map_eq_some_iff.mp halike.symm
    obtain ⟨b', -, rfl⟩ := Option.map_eq_some_iff.mp hrm
    cases congrArg Prod.snd htarget
  · cases halike

end Router

end Rauta
