import Rauta.Router.Soundness

/-!
# The nine rebuilds

Every adding call rebuilds the prefix router from the whole table, so the last one decides how all
routes are indexed. `add_route` puts the method in front of a pattern. Its siblings do not, and they
write `/{*rest}` for the root path where `add_route` writes `{*rest}`. The two agree on a table
exactly if all its routes are registered for `ALL` and none is that of the root path
(`table_perm_iff`).

As long as they do, a request is never sent to the route of another method
(`MethodAware.servedFor`). After a single call of a sibling for `GET`, a `POST` request is.
-/

namespace Rauta

open Transition

/-! ## When two rebuilds agree -/

namespace Rebuild

/-- A rebuild without methods indexes the entry as `add_route` does. -/
def AgreesOn (e : RouteEntry) : Prop := e.1.method = .all ∧ e.2.pattern ≠ rootPath

variable {r : Rebuild} {e : RouteEntry}

theorem methodPrefix_of_unaware (hr : r.methodAware = false) (key : RouteKey) :
    r.methodPrefix key = [] := by
  simp [methodPrefix, hr]

theorem methodPrefix_addRoute (key : RouteKey) :
    addRoute.methodPrefix key = getMethodPrefix key.method := rfl

/-- A method prefix has a name and a colon. -/
theorem getMethodPrefix_length {m : HttpMethod} (hm : m ≠ .all) :
    4 ≤ (getMethodPrefix m).length := by
  revert hm
  cases m <;> decide

theorem patterns_eq_of_agreesOn (hr : r.methodAware = false) (h : AgreesOn e) :
    r.patterns e = addRoute.patterns e := by
  simp only [patterns, exactPattern, prefixPattern, methodPrefix_of_unaware hr,
    methodPrefix_addRoute, h.1, getMethodPrefix_all, h.2, if_false]

/-- The patterns of an entry are different, unless both rebuilds agree on it. -/
theorem agreesOn_of_patterns (hr : r.methodAware = false)
    (h : ∀ x ∈ r.patterns e, x ∈ addRoute.patterns e) : AgreesOn e := by
  obtain ⟨key, route⟩ := e
  simp only [patterns, exactPattern, prefixPattern, methodPrefix_of_unaware hr,
    methodPrefix_addRoute, List.mem_cons, List.not_mem_nil, or_false, forall_eq_or_imp, forall_eq,
    Prod.mk.injEq, and_true, hr, List.nil_append] at h
  obtain ⟨hexact, hprefix⟩ := h
  by_cases hm : key.method = .all
  · refine ⟨hm, fun hroot => ?_⟩
    simp only at hroot
    rw [hm, getMethodPrefix_all, hroot] at hprefix
    revert hprefix
    decide
  · -- a pattern with a method in front is longer than the same one without
    exfalso
    have hlong := getMethodPrefix_length hm
    have hexact' := hexact.imp (congrArg List.length) (congrArg List.length)
    have hprefix' := hprefix.imp (congrArg List.length) (congrArg List.length)
    by_cases hroot : route.pattern = rootPath
    · simp only [hroot, if_true, addRoute, List.length_append, rootPath, List.length_singleton]
        at hexact'
      omega
    · simp only [hroot, if_false, List.length_append, List.length_cons] at hexact' hprefix'
      omega

/-- **When the rebuilds agree.** -/
theorem table_perm_iff (hr : r.methodAware = false) {routes : RouteMap} :
    (r.table routes).Perm (addRoute.table routes) ↔ ∀ e ∈ routes.entries, AgreesOn e := by
  constructor
  · intro hperm e he
    refine agreesOn_of_patterns hr fun x hx => ?_
    have hmem : x ∈ addRoute.table routes :=
      hperm.mem_iff.mp (List.mem_flatMap.mpr ⟨e, he, hx⟩)
    obtain ⟨e', he', hx'⟩ := List.mem_flatMap.mp hmem
    -- a pattern carries the key of its entry, and a key has one entry
    have hkey : e.1 = e'.1 := by
      simp only [patterns, List.mem_cons, List.not_mem_nil, or_false] at hx hx'
      rcases hx with rfl | rfl <;> rcases hx' with hx' | hx' <;> exact (Prod.mk.inj hx').2
    obtain rfl : e = e' := by
      obtain ⟨key, route⟩ := e
      obtain ⟨key', route'⟩ := e'
      obtain rfl : key = key' := hkey
      have hlookup := AList.mem_lookup_iff.mpr he
      rw [AList.mem_lookup_iff.mpr he'] at hlookup
      cases hlookup
      rfl
    exact hx'
  · intro h
    have htable : r.table routes = addRoute.table routes :=
      List.flatMap_congr fun e he => patterns_eq_of_agreesOn hr (h e he)
    rw [htable]

end Rebuild

/-! ## Lookups keep to the method -/

/-- What a lookup returns is the value of a pattern whose text before the first parameter is a
beginning of the path. Other than `Matchit.Sound` this says something about all patterns. -/
def Matchit.Anchored (M : Matchit) : Prop :=
  ∀ pr x v, M.Built pr → M.matchAt pr x = some v → ∃ p, (p, v) ∈ pr ∧ staticPart p <+: x

theorem Matchit.scan_anchored : Matchit.scan.Anchored := by
  intro pr x v _ hv
  obtain ⟨p, hp, hmatch, -⟩ := Matchit.scan_some hv
  exact ⟨p, hp, hmatch.staticPart_prefix⟩

namespace Router

variable {M : Matchit} {s : Router} {method : HttpMethod} {p : Str} {key : RouteKey}

/-- The prefix router holds the patterns that `add_route` inserts for the table. -/
def AsAddRoute (s : Router) : Prop := s.prefixRouter.Perm (Rebuild.addRoute.table s.routes)

/-- The key is one for the method, or for all. -/
def For (method : HttpMethod) (key : RouteKey) : Prop := key.method = method ∨ key.method = .all

theorem staticPart_getMethodPrefix (m : HttpMethod) (t : Str) :
    staticPart (getMethodPrefix m ++ t) = getMethodPrefix m ++ staticPart t := by
  refine List.takeWhile_append_of_pos fun c hc => ?_
  have : c ≠ '{' := by
    rintro rfl
    exact (plain_getMethodPrefix m).1 hc
  simpa using this

/-- Every pattern of `add_route` has the method of its key in front. -/
theorem exists_eq_of_mem_table {routes : RouteMap} {e : Str × RouteKey}
    (h : e ∈ Rebuild.addRoute.table routes) : ∃ t, e.1 = getMethodPrefix e.2.method ++ t := by
  obtain ⟨x, -, hx⟩ := List.mem_flatMap.mp h
  simp only [Rebuild.patterns, addRoute_prefixPattern, List.mem_cons, List.not_mem_nil,
    or_false] at hx
  rcases hx with rfl | rfl
  · exact ⟨x.2.pattern, rfl⟩
  · exact ⟨_, List.append_assoc ..⟩

section Lookup

variable (hM : M.Anchored) (hb : M.Built s.prefixRouter) (h : s.AsAddRoute) (hp : Unprefixed p)

include hM hb h hp

/-- With the method in front of the path, or nothing. -/
theorem for_of_matchAt
    (hfound : M.matchAt s.prefixRouter (getMethodPrefix method ++ p) = some key) :
    For method key := by
  obtain ⟨pattern, hmem, hstatic⟩ := hM _ _ _ hb hfound
  obtain ⟨t, ht⟩ := exists_eq_of_mem_table (h.mem_iff.mp hmem)
  simp only at ht
  rw [ht, staticPart_getMethodPrefix] at hstatic
  by_cases hkey : key.method = .all
  · exact Or.inr hkey
  · have hstarts := (List.prefix_append _ _).trans hstatic
    by_cases hm : method = .all
    · subst hm
      exact absurd hstarts (hp key.method hkey)
    · exact Or.inl (getMethodPrefix_inj hkey hm
        (List.prefix_or_prefix_of_prefix hstarts (List.prefix_append _ _)))

theorem for_of_lookup (hfound : s.lookup M method p = some key) : For method key := by
  unfold lookup at hfound
  split at hfound
  · cases hfound
    exact Or.inl rfl
  split at hfound
  · cases hfound
    exact Or.inr rfl
  unfold prefixLookup at hfound
  split at hfound
  · next found hmatch =>
    cases hfound
    exact for_of_matchAt hM hb h hp hmatch
  split at hfound
  · have hall : For .all key := for_of_matchAt hM hb h hp hfound
    exact Or.inr (or_self_iff.mp hall)
  · cases hfound

end Lookup

/-! ## Runs -/

/-- What the caller of an adding call is told. -/
def callResult (M : Matchit) (s : Router) : RouterCall → AddResult
  | .addRoute ord method path backends => (s.addRoute M ord method path backends).1
  | .addRouteWith ord method path backends extra =>
    (s.addRouteWith M ord method path backends extra).1
  | .selectBackend .. => .ok

/-- If the call is one of a sibling, its route is for `ALL`, not that of the root path, and so are
all other routes of the table. -/
def KeepsMethods (s : Router) : RouterCall → Prop
  | .addRouteWith _ method path _ _ => method = .all ∧ path ≠ rootPath ∧
    ∀ key route, key ≠ routeKey method path → s.routes.lookup key = some route →
      key.method = .all ∧ route.pattern ≠ rootPath
  | _ => True

/-- Requests have paths that do not begin with a method prefix. -/
def RequestsUnprefixed : RouterCall → Prop
  | .selectBackend _ path _ _ => Unprefixed path
  | _ => True

/-- What a successful call does to the table and the prefix router. -/
theorem callResult_ok_cases {c : RouterCall} (h : s.callResult M c = .ok) :
    (∃ w, c.write s = some w ∧ (s.call M c).routes = w.routes s ∧
      w.rebuild.build M w.ord (w.routes s) = .ok (s.call M c).prefixRouter) ∨
    ((s.call M c).routes = s.routes ∧ (s.call M c).prefixRouter = s.prefixRouter ∧
      s.KeepsMethods c) := by
  cases c with
  | addRoute ord method path backends =>
      cases hwrite : (RouterCall.addRoute ord method path backends).write s with
      | none =>
          obtain ⟨res, hself, -⟩ := addRoute_eq_self (M := M) hwrite
          exact Or.inr ⟨by rw [call, hself], by rw [call, hself], trivial⟩
      | some w =>
          rw [callResult, addRoute_eq_commit hwrite] at h
          rw [call, addRoute_eq_commit hwrite]
          exact Or.inl ⟨w, rfl, commit_routes w, build_of_result_ok h⟩
  | addRouteWith ord method path backends extra =>
      cases hwrite : (RouterCall.addRouteWith ord method path backends extra).write s with
      | none =>
          rw [callResult, addRouteWith_eq_self hwrite] at h
          cases h
      | some w =>
          rw [callResult, addRouteWith_eq_commit hwrite] at h
          rw [call, addRouteWith_eq_commit hwrite]
          exact Or.inl ⟨w, rfl, commit_routes w, build_of_result_ok h⟩
  | selectBackend method path srcIp srcPort => exact Or.inr ⟨rfl, rfl, trivial⟩

/-- What a sibling writes. -/
theorem keepsMethods_iff {c : RouterCall} {w : Write} (hw : c.write s = some w) :
    (w.rebuild = .addRoute ∧ s.KeepsMethods c) ∨
    (w.rebuild.methodAware = false ∧
      ((∀ e ∈ (w.routes s).entries, Rebuild.AgreesOn e) ↔ s.KeepsMethods c)) := by
  cases c with
  | addRoute ord method path backends =>
      obtain ⟨-, table, -, rfl⟩ := RouterCall.of_write_addRoute hw
      exact Or.inl ⟨rfl, trivial⟩
  | addRouteWith ord method path backends extra =>
      obtain ⟨table, htable, rfl⟩ := Option.map_eq_some_iff.mp hw
      refine Or.inr ⟨by cases extra <;> rfl, ?_⟩
      have hpattern : (extra.decorate (.basic path backends table)).pattern = path := by
        cases extra <;> rfl
      constructor
      · intro hall
        have hown := hall ⟨routeKey method path, extra.decorate (.basic path backends table)⟩
          (AList.mem_lookup_iff.mp (AList.lookup_insert _))
        refine ⟨hown.1, hpattern ▸ hown.2, fun key route hne hroute => ?_⟩
        refine hall ⟨key, route⟩ (AList.mem_lookup_iff.mp ?_)
        rw [Write.routes, Write.key, AList.lookup_insert_ne hne]
        exact hroute
      · rintro ⟨hmethod, hpath, hothers⟩ ⟨key, route⟩ he
        have hlookup := AList.mem_lookup_iff.mpr he
        by_cases hne : key = routeKey method path
        · subst hne
          rw [Write.routes, Write.key, AList.lookup_insert] at hlookup
          cases hlookup
          exact ⟨hmethod, hpattern.trans_ne hpath⟩
        · rw [Write.routes, Write.key, AList.lookup_insert_ne hne] at hlookup
          exact hothers key route hne hlookup
  | selectBackend method path srcIp srcPort => cases hw

/-- **The step.** A successful call leaves the prefix router as `add_route` would, exactly if it
keeps the methods. -/
theorem asAddRoute_call_iff (h : s.AsAddRoute) {c : RouterCall} (hok : s.callResult M c = .ok) :
    (s.call M c).AsAddRoute ↔ s.KeepsMethods c := by
  rcases callResult_ok_cases hok with ⟨w, hw, hroutes, hbuild⟩ | ⟨hroutes, hpr, hkeeps⟩
  · have hperm := Rebuild.build_perm hbuild
    rw [AsAddRoute, hroutes]
    rcases keepsMethods_iff hw with ⟨hrebuild, hkeeps⟩ | ⟨hunaware, hiff⟩
    · rw [hrebuild] at hperm
      exact iff_of_true hperm hkeeps
    · rw [← hiff, ← Rebuild.table_perm_iff hunaware]
      exact ⟨hperm.symm.trans, hperm.trans⟩
  · rw [AsAddRoute, hroutes, hpr]
    exact iff_of_true h hkeeps

/-- What runs preserve. -/
structure MethodAware (M : Matchit) (s : Router) : Prop where
  built : M.Built s.prefixRouter
  asAddRoute : s.AsAddRoute
  cached : ∀ key r, s.routeCache.cached key = some r → For key.method r

/-- A cache entry after a call was there before, or is what the lookup of a request found. -/
theorem cached_call {c : RouterCall} {key r : RouteKey}
    (h : (s.call M c).routeCache.cached key = some r) : s.routeCache.cached key = some r ∨
      ∃ method path srcIp srcPort, c = .selectBackend method path srcIp srcPort ∧
        key = routeKey method path ∧ s.lookup M method path = some r := by
  rcases call_cases M s c with ⟨w, checker, -, heq⟩ | heq | ⟨method, path, srcIp, srcPort, hc, heq⟩
  · rw [heq] at h
    exact Or.inl (cached_of_cached_commit h)
  · rw [heq] at h
    exact Or.inl h
  · rw [heq] at h
    rcases cached_resolve h with hold | ⟨hkey, hlookup⟩
    · exact Or.inl hold
    · exact Or.inr ⟨method, path, srcIp, srcPort, hc, hkey, hlookup⟩

/-- The step lemma. -/
theorem MethodAware.call (hM : M.Anchored) (h : MethodAware M s) {c : RouterCall}
    (hok : s.callResult M c = .ok) (hkeeps : s.KeepsMethods c) (hreq : RequestsUnprefixed c) :
    MethodAware M (s.call M c) where
  built := by
    rcases callResult_ok_cases hok with ⟨w, -, -, hbuild⟩ | ⟨-, hpr, -⟩
    · exact (Rebuild.build_eq_ok_iff.mp hbuild).2
    · exact hpr ▸ h.built
  asAddRoute := (asAddRoute_call_iff h.asAddRoute hok).mpr hkeeps
  cached key r hr := by
    rcases cached_call hr with hold | ⟨method, path, srcIp, srcPort, rfl, rfl, hlookup⟩
    · exact h.cached key r hold
    · exact for_of_lookup hM h.built h.asAddRoute hreq hlookup

/-- The match is one of a route for the method of the request, or for `ALL`. -/
def ServedFor (s : Router) (method : HttpMethod) (rm : RouteMatch) : Prop :=
  ∃ key route, s.routes.lookup key = some route ∧ For method key ∧ rm.backend ∈ route.backends ∧
    rm = route.toMatch rm.backend

theorem MethodAware.servedFor (hM : M.Anchored) (h : MethodAware M s) (hp : Unprefixed p)
    {srcIp : Option IpAddr} {srcPort : Option UInt16} {rm : RouteMatch}
    (hrm : (s.selectBackend M method p srcIp srcPort).1 = some rm) : ServedFor s method rm := by
  obtain ⟨key, hkey, hrm⟩ := Option.bind_eq_some_iff.mp hrm
  have hfor : For method key := by
    change (s.resolve M method p).1 = some key at hkey
    rw [resolve_fst, Option.or_eq_some_iff] at hkey
    rcases hkey with hcached | ⟨-, hlookup⟩
    · exact h.cached _ key hcached
    · exact for_of_lookup hM h.built h.asAddRoute hp hlookup
  unfold selectFrom at hrm
  split at hrm
  · cases hrm
  next route hroute =>
  split at hrm
  · cases hrm
  · obtain ⟨b, hb, rfl⟩ := Option.map_eq_some_iff.mp hrm
    obtain ⟨k, hk⟩ := (Route.selectByMask_some hb).2
    exact ⟨key, route, hroute, hfor, List.mem_of_getElem? hk, rfl⟩

/-- **The variants.** As long as all calls succeed and keep the methods, the prefix router is the
one that `add_route` builds, and requests are sent to routes of their own method or of `ALL`. The
condition is exact: the next call breaks the first, unless it meets it. -/
theorem methodAware_of_reach (hM : M.Anchored) {config : HealthCheckConfig} {inRuntime : Bool}
    (h : (routerSystem M).Reach
      (fun s c => s.callResult M c = .ok ∧ s.KeepsMethods c ∧ RequestsUnprefixed c)
      (.withHealthConfig config inRuntime) s) :
    s.AsAddRoute ∧
    (∀ c, s.callResult M c = .ok → ((s.call M c).AsAddRoute ↔ s.KeepsMethods c)) ∧
    ∀ method p srcIp srcPort rm, Unprefixed p →
      (s.selectBackend M method p srcIp srcPort).1 = some rm → ServedFor s method rm := by
  have hinv : MethodAware M s := by
    refine h.invariant ⟨M.built_nil, ?_, ?_⟩ ?_
    · exact List.Perm.refl _
    · intro key r hr
      cases hr
    · rintro s c s' hs ⟨hok, hkeeps, hreq⟩ hstep
      cases hstep
      exact hs.call hM hok hkeeps hreq
  exact ⟨hinv.asAddRoute, fun c => asAddRoute_call_iff hinv.asAddRoute,
    fun method p srcIp srcPort rm hp => hinv.servedFor hM hp⟩

/-- A router with a single route, added by `add_route_with_headers`. -/
def withHeaders (method : HttpMethod) (path : Str) : Router :=
  (Router.new.addRouteWithHeaders .scan .newestFirst method path [.sample] []).2

/-- A sibling for `ALL` keeps to the rule. -/
theorem methodAware_withHeaders : (withHeaders .all "/x".toList).AsAddRoute :=
  (methodAware_of_reach Matchit.scan_anchored (System.Reach.refl.tail
    (a := .addRouteWith .newestFirst .all "/x".toList [.sample] (.headers []))
    ⟨by decide +kernel, ⟨rfl, by decide, fun key route _ h => by cases h⟩, trivial⟩ rfl)).1

/-- Its table and its health data. -/
theorem withHeaders_routes (method : HttpMethod) (path : Str) : ∃ table,
    maglevBuildCompactTable [.sample] = some table ∧
      (withHeaders method path).routes =
        (∅ : RouteMap).insert (routeKey method path) (.basic path [.sample] table) ∧
      ∀ b, (withHeaders method path).eligible b := by
  obtain ⟨table, htable⟩ := exists_maglevBuildCompactTable
    (show [Backend.sample].length ≤ maxBackends by decide)
  have hwrite : (RouterCall.addRouteWith .newestFirst method path [.sample] (.headers [])).write
      Router.new = some ⟨.newestFirst, .withMatches, method, path, .basic path [.sample] table,
        false⟩ := by
    rw [RouterCall.write, htable]
    rfl
  have heq := congrArg Prod.snd (addRouteWith_eq_commit (M := .scan) hwrite)
  change withHeaders method path = _ at heq
  refine ⟨table, htable, ?_, fun b => ?_⟩
  · rw [heq, commit_routes]
    rfl
  · rw [heq, eligible, commit_health, commit_healthChecker]
    rfl

/-- **A sibling drops the method**: after `add_route_with_headers` for `GET` and `/x`, the prefix
router is not that of `add_route`, and a `POST` request below `/x` is sent to the `GET` route. -/
theorem sibling_drops_method :
    Router.new.callResult .scan
        (.addRouteWith .newestFirst .get "/x".toList [.sample] (.headers [])) = .ok ∧
      ¬ (withHeaders .get "/x".toList).AsAddRoute ∧
      ∃ rm, ((withHeaders .get "/x".toList).selectBackend .scan .post "/x/y".toList none none).1 =
          some rm ∧ ¬ ServedFor (withHeaders .get "/x".toList) .post rm := by
  have hok : Router.new.callResult .scan
      (.addRouteWith .newestFirst .get "/x".toList [.sample] (.headers [])) = .ok := by
    decide +kernel
  refine ⟨hok, ?_, ?_⟩
  · intro h
    have hiff := asAddRoute_call_iff (M := .scan) (s := Router.new) (List.Perm.refl _) hok
    exact absurd (hiff.mp h).1 (by decide)
  · obtain ⟨table, htable, hroutes, heligible⟩ := withHeaders_routes .get "/x".toList
    have hresolve : ((withHeaders .get "/x".toList).resolve .scan .post "/x/y".toList).1 =
        some (routeKey .get "/x".toList) := by decide +kernel
    have hroute : (withHeaders .get "/x".toList).routes.lookup (routeKey .get "/x".toList) =
        some (.basic "/x".toList [.sample] table) := by rw [hroutes, AList.lookup_insert]
    obtain ⟨b, -, hrm⟩ :=
      exists_selectBackend none none hresolve hroute (by simp) htable heligible
    refine ⟨_, hrm, ?_⟩
    rintro ⟨key, route, hlookup, hfor, -⟩
    rw [hroutes] at hlookup
    -- the table has one route, and it is for `GET`
    by_cases hkey : key = routeKey .get "/x".toList
    · subst hkey
      rcases hfor with hget | hall
      · cases hget
      · cases hall
    · rw [AList.lookup_insert_ne hkey] at hlookup
      cases hlookup

end Router

end Rauta
