import Rauta.Router.Selection

/-!
# What identifies a route

A route is stored under its method and the 64-bit hash of its path, and a request whose key is in
the table is never compared with the path of the route. So two routes of one method are told apart
exactly if the hashes of their paths differ. The hash has no key, and paths that collide can be
computed: `collidingPaths` are two of them.
-/

namespace Rauta

namespace Router

variable {M : Matchit} {s : Router} {ord : IterOrder} {method : HttpMethod} {path : Str}
  {backends : List Backend}

/-- The table has a route of this path with these backends. -/
def HoldsRoute (s : Router) (path : Str) (backends : List Backend) : Prop :=
  ∃ key route, s.routes.lookup key = some route ∧ route.pattern = path ∧ route.backends = backends

/-- The pattern of the route that a request is sent to. -/
def matchedPattern (M : Matchit) (s : Router) (method : HttpMethod) (path : Str)
    (srcIp : Option IpAddr) (srcPort : Option UInt16) : Option Str :=
  (s.selectBackend M method path srcIp srcPort).1.map RouteMatch.pattern

/-- `add_route` that succeeds leaves the route as it is, or writes it. -/
theorem addRoute_ok_cases (h : (s.addRoute M ord method path backends).1 = .ok) :
    (s.hasRoute method path backends ∧ (s.addRoute M ord method path backends).2 = s) ∨
    ∃ table, maglevBuildCompactTable backends = some table ∧
      (s.addRoute M ord method path backends).2.routes =
        s.routes.insert (routeKey method path) (.basic path backends table) := by
  by_cases hsame : s.hasRoute method path backends
  · exact Or.inl ⟨hsame, by simp [addRoute, hsame]⟩
  · cases htable : maglevBuildCompactTable backends with
    | none => simp [addRoute, hsame, htable] at h
    | some table =>
        obtain ⟨table', htable', hroutes⟩ :=
          addRoute_routes M ord hsame (length_le_of_maglevBuildCompactTable htable)
        exact Or.inr ⟨table', htable.symm.trans htable' ▸ rfl, hroutes⟩

/-- A router that no request has been sent to: nothing is cached, and all backends are up. -/
structure Unused (s : Router) : Prop where
  uncached : ∀ key, s.routeCache.cached key = none
  eligible : ∀ b, s.eligible b

theorem Unused.withHealthConfig (config : HealthCheckConfig) (inRuntime : Bool) :
    (Router.withHealthConfig config inRuntime).Unused := ⟨fun _ => rfl, fun _ => rfl⟩

theorem Unused.addRoute (h : s.Unused) (M : Matchit) (ord : IterOrder) (method : HttpMethod)
    (path : Str) (backends : List Backend) : (s.addRoute M ord method path backends).2.Unused := by
  rcases addRoute_snd_cases M s ord method path backends with hself | ⟨w, -, hcommit⟩
  · rw [hself]
    exact h
  · rw [hcommit]
    refine ⟨uncached_commit h.uncached w, fun b => ?_⟩
    have hb := h.eligible b
    simp only [Router.eligible, commit_health, HealthChecker.isHealthy_startChecking] at hb ⊢
    exact hb

section Requests

variable {pattern : Str} {table : List Nat} (h : s.Unused)
  (hroute : s.routes.lookup (routeKey method path) = some (.basic pattern backends table))
  (srcIp : Option IpAddr) (srcPort : Option UInt16)

include h hroute

/-- A request whose key is in the table is sent to the route that is stored there. -/
theorem Unused.resolve_eq : (s.resolve M method path).1 = some (routeKey method path) := by
  have hmem : routeKey method path ∈ s.routes := by
    rw [← AList.lookup_isSome, hroute]
    rfl
  rw [resolve_fst, h.uncached, Option.none_or, lookup_of_mem hmem]

theorem Unused.matchedPattern_eq (hne : backends ≠ [])
    (htable : maglevBuildCompactTable backends = some table) :
    s.matchedPattern M method path srcIp srcPort = some pattern := by
  obtain ⟨b, -, hselect⟩ := exists_selectBackend srcIp srcPort (h.resolve_eq (M := M) hroute)
    hroute hne htable h.eligible
  rw [matchedPattern, hselect]
  rfl

/-- Whatever is matched is the pattern of that route. -/
theorem Unused.eq_of_matchedPattern {t : Str}
    (ht : s.matchedPattern M method path srcIp srcPort = some t) : t = pattern ∧ backends ≠ [] := by
  obtain ⟨rm, hrm, rfl⟩ := Option.map_eq_some_iff.mp ht
  change ((s.resolve M method path).1.bind fun key =>
    s.selectFrom method path srcIp srcPort key) = some rm at hrm
  rw [h.resolve_eq hroute, Option.bind_some, selectFrom, hroute] at hrm
  obtain ⟨b, hb, rfl⟩ := Option.map_eq_some_iff.mp hrm
  obtain ⟨-, k, hk⟩ := Route.selectByMask_some hb
  exact ⟨rfl, List.ne_nil_of_mem (List.mem_of_getElem? hk)⟩

end Requests

/-! ## Two routes -/

theorem routeKey_inj {p q : Str} :
    routeKey method p = routeKey method q ↔ pathHash p = pathHash q := by
  simp [routeKey]

section TwoRoutes

variable {s₁ s₂ : Router} {ord' : IterOrder} {config : HealthCheckConfig} {inRuntime : Bool}
  {p q : Str} {bs cs : List Backend}

/-- The first route of a router. -/
theorem lookup_of_first
    (h : (Router.withHealthConfig config inRuntime).addRoute M ord method p bs = (.ok, s₁)) :
    ∃ table, maglevBuildCompactTable bs = some table ∧ s₁.Unused ∧
      s₁.routes.lookup (routeKey method p) = some (.basic p bs table) ∧
      ∀ key, key ≠ routeKey method p → s₁.routes.lookup key = none := by
  have hunused : s₁.Unused := by
    have := (Unused.withHealthConfig config inRuntime).addRoute M ord method p bs
    rwa [h] at this
  rcases addRoute_ok_cases (congrArg Prod.fst h) with ⟨hsame, -⟩ | ⟨table, htable, hroutes⟩
  · cases hsame
  · rw [h] at hroutes
    refine ⟨table, htable, hunused, ?_, fun key hkey => ?_⟩
    · rw [hroutes, AList.lookup_insert]
    · rw [hroutes, AList.lookup_insert_ne hkey]
      rfl

/-- **What identifies a route.** Two paths of one method are told apart exactly if their hashes
differ and both routes have backends. -/
theorem told_apart_iff
    (h₁ : (Router.withHealthConfig config inRuntime).addRoute M ord method p bs = (.ok, s₁))
    (h₂ : s₁.addRoute M ord' method q cs = (.ok, s₂)) (hpq : p ≠ q) (srcIp : Option IpAddr)
    (srcPort : Option UInt16) :
    (s₂.HoldsRoute p bs ∧ s₂.HoldsRoute q cs ∧
      s₂.matchedPattern M method p srcIp srcPort = some p ∧
      s₂.matchedPattern M method q srcIp srcPort = some q) ↔
    pathHash p ≠ pathHash q ∧ bs ≠ [] ∧ cs ≠ [] := by
  obtain ⟨table, htable, hunused₁, hfirst, hothers⟩ := lookup_of_first h₁
  have hunused : s₂.Unused := by
    have := hunused₁.addRoute M ord' method q cs
    rwa [h₂] at this
  rcases addRoute_ok_cases (congrArg Prod.fst h₂) with ⟨hsame, hself⟩ | ⟨table', htable', hroutes⟩
  · -- nothing is written, so the first route is the only one
    obtain rfl : s₂ = s₁ := by rw [← hself, h₂]
    have hkey : routeKey method q = routeKey method p := by
      by_contra hkey
      rw [hasRoute, hothers _ hkey] at hsame
      cases hsame
    constructor
    · rintro ⟨-, -, -, hq⟩
      exact absurd (hunused.eq_of_matchedPattern (hkey ▸ hfirst) srcIp srcPort hq).1 hpq.symm
    · rintro ⟨hhash, -⟩
      exact absurd (routeKey_inj.mp hkey) hhash.symm
  · rw [h₂] at hroutes
    have hsecond : s₂.routes.lookup (routeKey method q) = some (.basic q cs table') := by
      rw [hroutes, AList.lookup_insert]
    by_cases hhash : pathHash p = pathHash q
    · -- the second route has replaced the first
      constructor
      · rintro ⟨-, -, hp, -⟩
        have hkey : routeKey method p = routeKey method q := routeKey_inj.mpr hhash
        exact absurd (hunused.eq_of_matchedPattern (hkey ▸ hsecond) srcIp srcPort hp).1 hpq
      · rintro ⟨hne, -⟩
        exact absurd hhash hne
    · have hfirst' : s₂.routes.lookup (routeKey method p) = some (.basic p bs table) := by
        rw [hroutes, AList.lookup_insert_ne (fun hkey => hhash (routeKey_inj.mp hkey)), hfirst]
      constructor
      · rintro ⟨-, -, hp, hq⟩
        exact ⟨hhash, (hunused.eq_of_matchedPattern hfirst' srcIp srcPort hp).2,
          (hunused.eq_of_matchedPattern hsecond srcIp srcPort hq).2⟩
      · rintro ⟨-, hbs, hcs⟩
        exact ⟨⟨_, _, hfirst', rfl, rfl⟩, ⟨_, _, hsecond, rfl, rfl⟩,
          hunused.matchedPattern_eq hfirst' srcIp srcPort hbs htable,
          hunused.matchedPattern_eq hsecond srcIp srcPort hcs htable'⟩

/-- With equal hashes the second route replaces the first, unless its backends are the same. -/
theorem lookup_of_collision
    (h₁ : (Router.withHealthConfig config inRuntime).addRoute M ord method p bs = (.ok, s₁))
    (h₂ : s₁.addRoute M ord' method q cs = (.ok, s₂)) (hhash : pathHash p = pathHash q)
    (hne : bs ≠ cs) : ∃ table, maglevBuildCompactTable cs = some table ∧ s₂.Unused ∧
      s₂.routes.lookup (routeKey method p) = some (.basic q cs table) ∧
      ∀ key, key ≠ routeKey method p → s₂.routes.lookup key = none := by
  obtain ⟨_, -, hunused₁, hfirst, hothers⟩ := lookup_of_first h₁
  have hunused : s₂.Unused := by
    have := hunused₁.addRoute M ord' method q cs
    rwa [h₂] at this
  have hkey : routeKey method q = routeKey method p := routeKey_inj.mpr hhash.symm
  rcases addRoute_ok_cases (congrArg Prod.fst h₂) with ⟨hsame, -⟩ | ⟨table, htable, hroutes⟩
  · rw [hasRoute, hkey, hfirst] at hsame
    exact absurd (of_decide_eq_true hsame) hne
  · rw [h₂, hkey] at hroutes
    refine ⟨table, htable, hunused, ?_, fun key hother => ?_⟩
    · rw [hroutes, AList.lookup_insert]
    · rw [hroutes, AList.lookup_insert_ne hother, hothers key hother]

end TwoRoutes

/-- Two paths that do not collide. -/
theorem told_apart_pair : ∃ s₁ s₂,
    Router.new.addRoute .scan .newestFirst .get "/aa".toList [.sample] = (.ok, s₁) ∧
      s₁.addRoute .scan .newestFirst .get "/bb".toList [.sample] = (.ok, s₂) ∧
      s₂.matchedPattern .scan .get "/aa".toList none none = some "/aa".toList ∧
      s₂.matchedPattern .scan .get "/bb".toList none none = some "/bb".toList := by
  have h₁ : (Router.new.addRoute .scan .newestFirst .get "/aa".toList [.sample]).1 = .ok := by
    decide +kernel
  have h₂ : ((Router.new.addRoute .scan .newestFirst .get "/aa".toList [.sample]).2.addRoute .scan
      .newestFirst .get "/bb".toList [.sample]).1 = .ok := by decide +kernel
  obtain ⟨s₁, hs₁⟩ : ∃ s₁, Router.new.addRoute .scan .newestFirst .get "/aa".toList [.sample] =
      (.ok, s₁) := ⟨_, Prod.ext h₁ rfl⟩
  rw [hs₁] at h₂
  obtain ⟨s₂, hs₂⟩ : ∃ s₂, s₁.addRoute .scan .newestFirst .get "/bb".toList [.sample] =
      (.ok, s₂) := ⟨_, Prod.ext h₂ rfl⟩
  have hiff := told_apart_iff hs₁ hs₂ (by decide) none none
  exact ⟨s₁, s₂, hs₁, hs₂, (hiff.mpr ⟨by decide +kernel, by simp, by simp⟩).2.2⟩

/-- Two paths of one length and one hash. -/
def collidingPaths : Str × Str := ("/f2xtxcxkqrvna".toList, "/rf13q3mna3dej".toList)

/-- **A collision**: both calls succeed, the route of the first path is gone, and requests for it
are sent to the second. -/
theorem exists_collision :
    collidingPaths.1 ≠ collidingPaths.2 ∧ collidingPaths.1.length = collidingPaths.2.length ∧
    ∃ s₁ s₂, Router.new.addRoute .scan .newestFirst .get collidingPaths.1 [.sample] = (.ok, s₁) ∧
      s₁.addRoute .scan .newestFirst .get collidingPaths.2 [.other] = (.ok, s₂) ∧
      ¬ s₂.HoldsRoute collidingPaths.1 [.sample] ∧
      s₂.matchedPattern .scan .get collidingPaths.1 none none = some collidingPaths.2 := by
  have h₁ : (Router.new.addRoute .scan .newestFirst .get collidingPaths.1 [.sample]).1 = .ok := by
    decide +kernel
  have h₂ : ((Router.new.addRoute .scan .newestFirst .get collidingPaths.1 [.sample]).2.addRoute
      .scan .newestFirst .get collidingPaths.2 [.other]).1 = .ok := by decide +kernel
  obtain ⟨s₁, hs₁⟩ : ∃ s₁, Router.new.addRoute .scan .newestFirst .get collidingPaths.1 [.sample] =
      (.ok, s₁) := ⟨_, Prod.ext h₁ rfl⟩
  rw [hs₁] at h₂
  obtain ⟨s₂, hs₂⟩ : ∃ s₂, s₁.addRoute .scan .newestFirst .get collidingPaths.2 [.other] =
      (.ok, s₂) := ⟨_, Prod.ext h₂ rfl⟩
  obtain ⟨table, htable, hunused, hroute, hothers⟩ :=
    lookup_of_collision hs₁ hs₂ (by decide +kernel) (by decide)
  refine ⟨by decide, by decide, s₁, s₂, hs₁, hs₂, ?_,
    hunused.matchedPattern_eq hroute none none (by simp) htable⟩
  rintro ⟨key, route, hlookup, hpattern, -⟩
  by_cases hkey : key = routeKey .get collidingPaths.1
  · rw [hkey, hroute] at hlookup
    cases hlookup
    exact absurd (show collidingPaths.2 = collidingPaths.1 from hpattern) (by decide)
  · rw [hothers key hkey] at hlookup
    cases hlookup

end Router

end Rauta
