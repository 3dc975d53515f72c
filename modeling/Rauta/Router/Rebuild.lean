import Rauta.Lib.Transition
import Rauta.Router.Basic

/-!
# What the adding calls do

The nine adding calls differ in what they check first, in the patterns they write and in whether
they drop a cache entry. What they do to the router is one thing: `RouterCall.write` says which
route a call writes, if any, and `Router.commit` writes it. `Router.addRoute_eq_commit` and
`Router.call_cases` are the only places that look into the calls; everything later reasons about
`commit`.

A rebuild succeeds exactly when its patterns are well formed and free of conflicts
(`Rebuild.build_eq_ok_iff`), and neither that nor the resulting lookups depend on the iteration
order (`build_isOk_iff`, `build_perm`).
-/

namespace Rauta

/-! ## The rebuild -/

theorem Matchit.Built.of_append {M : Matchit} {pr pr' : PrefixRouter} (h : M.Built (pr ++ pr')) :
    M.Built pr :=
  ⟨fun e he => h.1 e (List.mem_append_left _ he), (List.pairwise_append.mp h.2).1⟩

namespace Rebuild

variable {M : Matchit} {r : Rebuild} {pr pr' : PrefixRouter}

/-- All patterns of a route table. -/
def table (r : Rebuild) (routes : RouteMap) : PrefixRouter := routes.entries.flatMap r.patterns

theorem insertRoute_eq_ok_iff (hb : M.Built pr) {e : RouteEntry} :
    r.insertRoute M pr e = .ok pr' ↔ pr' = pr ++ r.patterns e ∧ M.Built pr' := by
  have happend : pr ++ r.patterns e = pr ++ [(r.exactPattern e.1 e.2.pattern, e.1)] ++
      [(r.prefixPattern e.1 e.2.pattern, e.1)] := by
    simp [patterns]
  unfold insertRoute
  split
  · next msg hexact =>
    simp only [reduceCtorEq, false_iff, not_and]
    rintro rfl hb'
    rw [happend] at hb'
    have := (Matchit.insert_eq_ok_iff hb).mpr ⟨rfl, hb'.of_append⟩
    rw [hexact] at this
    cases this
  · next pr₁ hexact =>
    obtain ⟨rfl, hb₁⟩ := (Matchit.insert_eq_ok_iff hb).mp hexact
    rw [happend]
    split
    · next msg hpre =>
      rw [← Matchit.insert_eq_ok_iff hb₁, hpre]
      simp
    · next pr₂ hpre =>
      rw [← Matchit.insert_eq_ok_iff hb₁, hpre]

theorem insertRoutes_eq_ok_iff (hb : M.Built pr) {es : List RouteEntry} :
    r.insertRoutes M pr es = .ok pr' ↔ pr' = pr ++ es.flatMap r.patterns ∧ M.Built pr' := by
  induction es generalizing pr with
  | nil =>
      simp only [insertRoutes, List.flatMap_nil, List.append_nil, Except.ok.injEq]
      constructor
      · rintro rfl
        exact ⟨rfl, hb⟩
      · rintro ⟨rfl, -⟩
        rfl
  | cons e es ih =>
      simp only [insertRoutes, List.flatMap_cons, ← List.append_assoc]
      split
      · next msg he =>
        simp only [reduceCtorEq, false_iff, not_and]
        rintro rfl hb'
        have := (insertRoute_eq_ok_iff hb).mpr ⟨rfl, hb'.of_append⟩
        rw [he] at this
        cases this
      · next pr₁ he =>
        obtain ⟨rfl, hb₁⟩ := (insertRoute_eq_ok_iff hb).mp he
        exact ih hb₁

/-- **The rebuild**: it inserts all patterns, in iteration order, or fails. -/
theorem build_eq_ok_iff {ord : IterOrder} {routes : RouteMap} :
    r.build M ord routes = .ok pr ↔ pr = (ord.iter routes).flatMap r.patterns ∧ M.Built pr := by
  rw [build, insertRoutes_eq_ok_iff M.built_nil, List.nil_append]

/-- What is built is the table of the routes, up to order. -/
theorem build_perm {ord : IterOrder} {routes : RouteMap} (h : r.build M ord routes = .ok pr) :
    pr.Perm (r.table routes) := by
  obtain ⟨rfl, -⟩ := build_eq_ok_iff.mp h
  exact (ord.perm routes).flatMap_right _

/-- Whether a rebuild succeeds depends on the route table alone. -/
theorem build_isOk_iff (hM : M.Lawful) {ord : IterOrder} {routes : RouteMap} :
    (∃ pr, r.build M ord routes = .ok pr) ↔ M.Built (r.table routes) := by
  constructor
  · rintro ⟨pr, h⟩
    exact (build_eq_ok_iff.mp h).2.perm hM (build_perm h)
  · intro hb
    refine ⟨_, build_eq_ok_iff.mpr ⟨rfl, hb.perm hM ?_⟩⟩
    exact ((ord.perm routes).flatMap_right _).symm

end Rebuild

/-! ## Calls on a router -/

/-- A call on a router, with the iteration order that it meets. -/
inductive RouterCall where
  | addRoute (ord : IterOrder) (method : HttpMethod) (path : Str) (backends : List Backend)
  | addRouteWith (ord : IterOrder) (method : HttpMethod) (path : Str) (backends : List Backend)
      (extra : Router.Extra)
  | selectBackend (method : HttpMethod) (path : Str) (srcIp : Option IpAddr)
      (srcPort : Option UInt16)

/-- The router after a call. -/
def Router.call (M : Matchit) (s : Router) : RouterCall → Router
  | .addRoute ord method path backends => (s.addRoute M ord method path backends).2
  | .addRouteWith ord method path backends extra =>
    (s.addRouteWith M ord method path backends extra).2
  | .selectBackend method path srcIp srcPort => (s.selectBackend M method path srcIp srcPort).2

/-- Calls, one after the other. -/
def routerSystem (M : Matchit) : Transition.System Router RouterCall :=
  ⟨fun s c => some (s.call M c)⟩

/-- What an adding call writes. -/
structure Write where
  ord : IterOrder
  rebuild : Rebuild
  method : HttpMethod
  path : Str
  route : Route
  /-- Whether success drops the cache entry of the route's own key. -/
  drops : Bool

/-- The key of the written route. -/
def Write.key (w : Write) : RouteKey := routeKey w.method w.path

/-- The route table with the new route. -/
def Write.routes (w : Write) (s : Router) : RouteMap := s.routes.insert w.key w.route

/-- A route in that table is the new one, or was there before. -/
theorem Write.lookup_routes {w : Write} {s : Router} {key : RouteKey} {route : Route}
    (h : (w.routes s).lookup key = some route) :
    (key = w.key ∧ route = w.route) ∨ s.routes.lookup key = some route := by
  rw [routes] at h
  by_cases hkey : key = w.key
  · rw [hkey, AList.lookup_insert] at h
    exact Or.inl ⟨hkey, (Option.some.inj h).symm⟩
  · rw [AList.lookup_insert_ne hkey] at h
    exact Or.inr h

/-- What a call writes: nothing if the route is there with the same backends (`add_route` only), if
there are too many backends, or if the call is a request. -/
def RouterCall.write (s : Router) : RouterCall → Option Write
  | .addRoute ord method path backends =>
    if s.hasRoute method path backends then none
    else (maglevBuildCompactTable backends).map fun table =>
      ⟨ord, .addRoute, method, path, .basic path backends table, true⟩
  | .addRouteWith ord method path backends extra =>
    (maglevBuildCompactTable backends).map fun table =>
      ⟨ord, extra.rebuild, method, path, extra.decorate (.basic path backends table), false⟩
  | .selectBackend .. => none

/-- A new route with few enough backends is written. -/
theorem RouterCall.write_addRoute {s : Router} (ord : IterOrder) {method : HttpMethod} {path : Str}
    {backends : List Backend} (hnew : ¬ s.hasRoute method path backends)
    (hfew : backends.length ≤ maxBackends) :
    ∃ table, maglevBuildCompactTable backends = some table ∧
      (RouterCall.addRoute ord method path backends).write s =
        some ⟨ord, .addRoute, method, path, .basic path backends table, true⟩ := by
  obtain ⟨table, htable⟩ := exists_maglevBuildCompactTable hfew
  exact ⟨table, htable, by rw [write, if_neg hnew, htable, Option.map_some]⟩

/-- What `add_route` writes, if it writes. -/
theorem RouterCall.of_write_addRoute {s : Router} {ord : IterOrder} {method : HttpMethod}
    {path : Str} {backends : List Backend} {w : Write}
    (h : (RouterCall.addRoute ord method path backends).write s = some w) :
    s.hasRoute method path backends = false ∧ ∃ table,
      maglevBuildCompactTable backends = some table ∧
        w = ⟨ord, .addRoute, method, path, .basic path backends table, true⟩ := by
  simp only [write] at h
  split at h
  · cases h
  · next hnew =>
    obtain ⟨table, htable, rfl⟩ := Option.map_eq_some_iff.mp h
    exact ⟨Bool.eq_false_iff.mpr hnew, table, htable, rfl⟩

/-- Write the route; then publish the rebuilt prefix router, if the rebuild succeeds. -/
def Router.commit (M : Matchit) (s : Router) (w : Write) : Router :=
  match w.rebuild.build M w.ord (w.routes s) with
  | .error _ => { s with routes := w.routes s }
  | .ok pr =>
    { s with
      routes := w.routes s
      prefixRouter := pr
      routeCache := if w.drops then s.routeCache.invalidate w.key else s.routeCache }

/-- What the caller is told. -/
def Write.result (M : Matchit) (s : Router) (w : Write) : AddResult :=
  match w.rebuild.build M w.ord (w.routes s) with
  | .error msg => .err msg
  | .ok _ => .ok

namespace Router

variable {M : Matchit} {s : Router}

/-- Either way the route is in the table afterwards. -/
@[simp] theorem commit_routes (w : Write) : (s.commit M w).routes = w.routes s := by
  unfold commit
  split <;> rfl

/-- A commit that succeeds publishes the rebuilt prefix router. -/
theorem build_of_result_ok {w : Write} (h : w.result M s = .ok) :
    w.rebuild.build M w.ord (w.routes s) = .ok (s.commit M w).prefixRouter := by
  unfold Write.result at h
  unfold commit
  cases hbuild : w.rebuild.build M w.ord (w.routes s) with
  | error msg =>
      rw [hbuild] at h
      cases h
  | ok pr => rfl

@[simp] theorem commit_health (w : Write) : (s.commit M w).health = s.health := by
  unfold commit
  split <;> rfl

theorem commit_healthChecker (w : Write) :
    s.commit M w = { s.commit M w with healthChecker := s.healthChecker } := by
  unfold commit
  split <;> rfl

/-- Committing adds no cache entry. -/
theorem cached_of_cached_commit {w : Write} {key r : RouteKey}
    (h : (s.commit M w).routeCache.cached key = some r) : s.routeCache.cached key = some r := by
  unfold commit at h
  split at h
  · exact h
  · simp only at h
    split at h
    · exact (RouteLruCache.cached_invalidate h).2
    · exact h

theorem uncached_commit (h : ∀ key, s.routeCache.cached key = none) (w : Write) (key : RouteKey) :
    (s.commit M w).routeCache.cached key = none := by
  cases hcached : (s.commit M w).routeCache.cached key with
  | none => rfl
  | some r => exact absurd ((h key).symm.trans (cached_of_cached_commit hcached)) nofun

/-- What committing does, by the outcome of the rebuild. -/
theorem commit_cases (hM : M.Lawful) (w : Write) :
    (∃ msg, ¬ M.Built (w.rebuild.table (w.routes s)) ∧ w.result M s = .err msg ∧
      s.commit M w = { s with routes := w.routes s }) ∨
    (∃ pr, M.Built (w.rebuild.table (w.routes s)) ∧ w.result M s = .ok ∧ M.Built pr ∧
      pr.Perm (w.rebuild.table (w.routes s)) ∧
      s.commit M w =
        { s with
          routes := w.routes s
          prefixRouter := pr
          routeCache := if w.drops then s.routeCache.invalidate w.key else s.routeCache }) := by
  cases hbuild : w.rebuild.build M w.ord (w.routes s) with
  | error msg =>
      refine Or.inl ⟨msg, fun hb => ?_, by simp [Write.result, hbuild], by simp [commit, hbuild]⟩
      obtain ⟨pr, hpr⟩ := (Rebuild.build_isOk_iff hM).mpr hb
      rw [hbuild] at hpr
      cases hpr
  | ok pr =>
      exact Or.inr ⟨pr, (Rebuild.build_isOk_iff hM).mp ⟨pr, hbuild⟩, by simp [Write.result, hbuild],
        (Rebuild.build_eq_ok_iff.mp hbuild).2, Rebuild.build_perm hbuild, by simp [commit, hbuild]⟩

/-- `add_route` that writes is a commit; active health checking is set up on the side. -/
theorem addRoute_eq_commit {ord : IterOrder} {method : HttpMethod} {path : Str}
    {backends : List Backend} {w : Write}
    (h : (RouterCall.addRoute ord method path backends).write s = some w) :
    s.addRoute M ord method path backends =
      (w.result M s,
        { s.commit M w with healthChecker := s.healthChecker.startChecking backends path }) := by
  obtain ⟨hnew, table, htable, rfl⟩ := RouterCall.of_write_addRoute h
  simp only [addRoute, hnew, htable, install, commit, Write.result, Write.routes, Write.key]
  cases Rebuild.addRoute.build M ord
    (s.routes.insert (routeKey method path) (.basic path backends table)) <;> rfl

/-- `add_route` that writes nothing changes nothing, and reports no error. -/
theorem addRoute_eq_self {ord : IterOrder} {method : HttpMethod} {path : Str}
    {backends : List Backend} (h : (RouterCall.addRoute ord method path backends).write s = none) :
    ∃ res, s.addRoute M ord method path backends = (res, s) ∧ ∀ msg, res ≠ .err msg := by
  simp only [RouterCall.write] at h
  split at h
  · next hsame => exact ⟨.ok, by simp [addRoute, hsame], by simp⟩
  · next hnew =>
    have htable := Option.map_eq_none_iff.mp h
    exact ⟨.panic, by simp only [addRoute, hnew, htable]; rfl, by simp⟩

/-- The router after `add_route`: as before, or a commit. -/
theorem addRoute_snd_cases (M : Matchit) (s : Router) (ord : IterOrder) (method : HttpMethod)
    (path : Str) (backends : List Backend) :
    (s.addRoute M ord method path backends).2 = s ∨
    ∃ w, (RouterCall.addRoute ord method path backends).write s = some w ∧
      (s.addRoute M ord method path backends).2 =
        { s.commit M w with healthChecker := s.healthChecker.startChecking backends path } := by
  cases h : (RouterCall.addRoute ord method path backends).write s with
  | none =>
      obtain ⟨res, hself, -⟩ := addRoute_eq_self (M := M) h
      exact Or.inl (congrArg Prod.snd hself)
  | some w => exact Or.inr ⟨w, rfl, congrArg Prod.snd (addRoute_eq_commit h)⟩

/-- Whatever `add_route` reports, a new route is in the map afterwards, in front of the others. -/
theorem addRoute_routes (M : Matchit) (ord : IterOrder) {method : HttpMethod} {path : Str}
    {backends : List Backend} (hnew : ¬ s.hasRoute method path backends)
    (hfew : backends.length ≤ maxBackends) :
    ∃ table, maglevBuildCompactTable backends = some table ∧
      (s.addRoute M ord method path backends).2.routes =
        s.routes.insert (routeKey method path) (.basic path backends table) := by
  obtain ⟨table, htable, hwrite⟩ := RouterCall.write_addRoute ord hnew hfew
  refine ⟨table, htable, ?_⟩
  rw [addRoute_eq_commit hwrite]
  exact commit_routes _

/-- Adding routes leaves the passive health data alone. -/
@[simp] theorem addRoute_health (M : Matchit) (s : Router) (ord : IterOrder) (method : HttpMethod)
    (path : Str) (backends : List Backend) :
    (s.addRoute M ord method path backends).2.health = s.health := by
  rcases addRoute_snd_cases M s ord method path backends with hself | ⟨w, -, hcommit⟩
  · rw [hself]
  · rw [hcommit]
    exact commit_health w

/-- The siblings that write commit as well, and do nothing else. -/
theorem addRouteWith_eq_commit {ord : IterOrder} {method : HttpMethod} {path : Str}
    {backends : List Backend} {extra : Extra} {w : Write}
    (h : (RouterCall.addRouteWith ord method path backends extra).write s = some w) :
    s.addRouteWith M ord method path backends extra = (w.result M s, s.commit M w) := by
  obtain ⟨table, htable, rfl⟩ := Option.map_eq_some_iff.mp h
  simp only [addRouteWith, htable, install, commit, Write.result, Write.routes, Write.key]
  cases extra.rebuild.build M ord (s.routes.insert (routeKey method path)
    (extra.decorate (.basic path backends table))) <;> rfl

theorem addRouteWith_eq_self {ord : IterOrder} {method : HttpMethod} {path : Str}
    {backends : List Backend} {extra : Extra}
    (h : (RouterCall.addRouteWith ord method path backends extra).write s = none) :
    s.addRouteWith M ord method path backends extra = (.panic, s) := by
  simp only [addRouteWith, Option.map_eq_none_iff.mp h]

/-- **What a call does to the routing state.** A call that writes is a commit, an adding call that
does not write changes nothing, and a request changes the cache. -/
theorem call_cases (M : Matchit) (s : Router) (c : RouterCall) :
    (∃ w hc, c.write s = some w ∧ s.call M c = { s.commit M w with healthChecker := hc }) ∨
    s.call M c = s ∨
    (∃ method path srcIp srcPort, c = .selectBackend method path srcIp srcPort ∧
      s.call M c = { s with routeCache := (s.resolve M method path).2 }) := by
  cases c with
  | addRoute ord method path backends =>
      rcases addRoute_snd_cases M s ord method path backends with hself | ⟨w, hw, hcommit⟩
      · exact Or.inr (Or.inl hself)
      · exact Or.inl ⟨w, _, hw, hcommit⟩
  | addRouteWith ord method path backends extra =>
      cases h : (RouterCall.addRouteWith ord method path backends extra).write s with
      | none => exact Or.inr (Or.inl (congrArg Prod.snd (addRouteWith_eq_self h)))
      | some w =>
          exact Or.inl ⟨w, s.healthChecker, rfl,
            (congrArg Prod.snd (addRouteWith_eq_commit h)).trans (commit_healthChecker w)⟩
  | selectBackend method path srcIp srcPort =>
      exact Or.inr (Or.inr ⟨method, path, srcIp, srcPort, rfl, rfl⟩)

end Router

end Rauta
