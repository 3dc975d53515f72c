import Mathlib.Data.Set.Function
import Rauta.Router.Recovery

/-!
# What a request can match

A request may get its route from the exact key, from the `ALL` key, from one of two lookups in the
prefix router, or from a cache entry that was made under an older route table. All of these lead to
a key whose method is that of the request or `ALL`, and whose path covers that of the request
(`Leads`): the patterns of the prefix router do, because a lookup returns a pattern that matches,
and cache entries do, because a key keeps its path when its route is replaced.

The method is written in front of the path with no separator of its own, so a request whose *path*
begins with `GET:` meets the patterns of `GET` routes. `Unprefixed` excludes such paths. They are
not hypothetical: in HTTP/2 the path is whatever the client sends as `:path`.
-/

namespace Rauta

open Transition

/-! ## Patterns and requests -/

/-- The path equals `t` or lies below it, segment by segment; slashes at the end of `t` do not
count, and everything lies below the root. -/
def SegmentPrefix (t p : Str) : Prop :=
  p = t ∨ t = rootPath ∨ (trimEndSlashes t ++ ['/']) <+: p

/-- A path that may be registered: it begins with a slash and has no braces. -/
def Registrable (t : Str) : Prop := t.head? = some '/' ∧ Plain t

instance (t : Str) : Decidable (Registrable t) := inferInstanceAs (Decidable (_ ∧ _))

/-- The path does not begin with a method prefix. -/
def Unprefixed (p : Str) : Prop := ∀ method, method ≠ .all → ¬ getMethodPrefix method <+: p

/-- What precedes the catch-all of a path. -/
def catchStem (t : Str) : Str := if t = rootPath then [] else trimEndSlashes t ++ ['/']

theorem addRoute_prefixPattern (key : RouteKey) (t : Str) :
    Rebuild.addRoute.prefixPattern key t =
      getMethodPrefix key.method ++ catchStem t ++ catchAll := by
  have hstarts : Rebuild.addRoute.methodPrefix key = getMethodPrefix key.method := rfl
  unfold Rebuild.prefixPattern catchStem
  split
  · rw [List.append_nil]
    exact congrArg (· ++ catchAll) hstarts
  · rw [hstarts]
    simp

theorem plain_append {t u : Str} (ht : Plain t) (hu : Plain u) : Plain (t ++ u) :=
  ⟨by simp [ht.1, hu.1], by simp [ht.2, hu.2]⟩

theorem plain_getMethodPrefix (method : HttpMethod) : Plain (getMethodPrefix method) := by
  cases method <;> decide

theorem plain_catchStem {t : Str} (h : Plain t) : Plain (catchStem t) := by
  have hsub : trimEndSlashes t ⊆ t := (List.rdropWhile_prefix _ t).subset
  unfold catchStem
  split
  · decide
  · exact plain_append ⟨fun hc => h.1 (hsub hc), fun hc => h.2 (hsub hc)⟩ (by decide)

/-- What precedes the catch-all begins with a slash, if there is anything. -/
theorem head?_catchStem {t : Str} (h : t.head? = some '/') (hroot : t ≠ rootPath) :
    (catchStem t).head? = some '/' := by
  rw [catchStem, if_neg hroot]
  obtain ⟨rest, hrest⟩ := List.rdropWhile_prefix (· == '/') t
  cases htrim : trimEndSlashes t with
  | nil => rfl
  | cons c cs =>
      rw [trimEndSlashes] at htrim
      rw [htrim] at hrest
      rw [← hrest] at h
      exact h

/-- Method prefixes are told apart by what they begin. -/
theorem getMethodPrefix_inj {k m : HttpMethod} (hk : k ≠ .all) (hm : m ≠ .all)
    (h : getMethodPrefix k <+: getMethodPrefix m ∨ getMethodPrefix m <+: getMethodPrefix k) :
    k = m := by
  revert hk hm h
  cases k <;> cases m <;> decide

/-- A method prefix is no beginning of a path. -/
theorem getMethodPrefix_append_head? {m : HttpMethod} (hm : m ≠ .all) (p : Str) :
    (getMethodPrefix m ++ p).head? ≠ some '/' := by
  cases m with
  | all => exact absurd rfl hm
  | _ => exact fun h => absurd (Option.some.inj h) (by decide)

/-- Which methods a pattern and a request can have: the same one, except for the catch-all of the
root path of `ALL`. -/
theorem method_of_prefix {k m : HttpMethod} {t p : Str} (ht : t = [] ∨ t.head? = some '/')
    (hp : Unprefixed p) (h : getMethodPrefix k ++ t <+: getMethodPrefix m ++ p) :
    k = m ∨ (k = .all ∧ t = []) := by
  by_cases hk : k = .all
  · subst hk
    rcases ht with rfl | ht
    · exact Or.inr ⟨rfl, rfl⟩
    · left
      by_contra hm
      obtain ⟨rest, hrest⟩ := h
      apply getMethodPrefix_append_head? (Ne.symm hm) p
      rw [← hrest, getMethodPrefix_all, List.nil_append, List.head?_append, ht]
      rfl
  · left
    have hstarts : getMethodPrefix k <+: getMethodPrefix m ++ p :=
      (List.prefix_append _ _).trans h
    by_cases hm : m = .all
    · subst hm
      exact absurd hstarts (hp k hk)
    · exact getMethodPrefix_inj hk hm
        (List.prefix_or_prefix_of_prefix hstarts (List.prefix_append _ _))

/-! ## Where lookups lead -/

/-- The lookup of a request may lead to the key: its method is that of the request or `ALL`, and it
is the key of a path that covers that of the request. -/
def Leads (paths : Set Str) (method : HttpMethod) (p : Str) (key : RouteKey) : Prop :=
  (key.method = method ∨ key.method = .all) ∧
    ∃ t ∈ paths, key.pathHash = pathHash t ∧ SegmentPrefix t p

/-- A pattern of `add_route` for a path. -/
def PatternOf (paths : Set Str) (e : Str × RouteKey) : Prop :=
  ∃ t ∈ paths, Registrable t ∧ e.2.pathHash = pathHash t ∧
    (e.1 = getMethodPrefix e.2.method ++ t ∨
      e.1 = getMethodPrefix e.2.method ++ catchStem t ++ catchAll)

variable {paths : Set Str} {method : HttpMethod} {p : Str} {e : Str × RouteKey}

theorem PatternOf.simple (h : PatternOf paths e) : Simple e.1 := by
  obtain ⟨t, -, ⟨hslash, hplain⟩, -, heq | heq⟩ := h
  · have hne : getMethodPrefix e.2.method ++ t ≠ [] := by
      intro hnil
      rw [(List.append_eq_nil_iff.mp hnil).2] at hslash
      cases hslash
    rw [heq]
    exact simple_of_plain (plain_append (plain_getMethodPrefix _) hplain) hne
  · rw [heq]
    exact simple_append_catchAll (plain_append (plain_getMethodPrefix _) (plain_catchStem hplain))

/-- A pattern that matches leads to its key. -/
theorem PatternOf.leads (h : PatternOf paths e) (hp : Unprefixed p)
    (hmatch : Matches e.1 (getMethodPrefix method ++ p)) : Leads paths method p e.2 := by
  obtain ⟨t, ht, ⟨hslash, hplain⟩, hhash, heq | heq⟩ := h
  · -- the exact pattern
    rw [heq, matches_of_plain (plain_append (plain_getMethodPrefix _) hplain)] at hmatch
    have hstarts : getMethodPrefix e.2.method ++ t <+: getMethodPrefix method ++ p :=
      hmatch ▸ List.prefix_rfl
    rcases method_of_prefix (Or.inr hslash) hp hstarts with hmethod | ⟨-, rfl⟩
    · rw [hmethod] at hmatch
      exact ⟨Or.inl hmethod, t, ht, hhash, Or.inl (List.append_cancel_left hmatch)⟩
    · cases hslash
  · -- the catch-all
    rw [heq, matches_append_catchAll
      (plain_append (plain_getMethodPrefix _) (plain_catchStem hplain))] at hmatch
    by_cases hroot : t = rootPath
    · rcases method_of_prefix (Or.inl (if_pos hroot)) hp hmatch.1 with hmethod | ⟨hmethod, -⟩
      · exact ⟨Or.inl hmethod, t, ht, hhash, Or.inr (Or.inl hroot)⟩
      · exact ⟨Or.inr hmethod, t, ht, hhash, Or.inr (Or.inl hroot)⟩
    · have hstem := head?_catchStem hslash hroot
      rcases method_of_prefix (Or.inr hstem) hp hmatch.1 with hmethod | ⟨-, hnil⟩
      · have hcovers := hmatch.1
        rw [hmethod, List.prefix_append_right_inj, catchStem, if_neg hroot] at hcovers
        exact ⟨Or.inl hmethod, t, ht, hhash, Or.inr (Or.inr hcovers)⟩
      · rw [hnil] at hstem
        cases hstem

namespace Router

variable {M : Matchit} {s : Router} {key : RouteKey}

theorem prefixLookup_leads (hM : M.Sound) (hb : M.Built s.prefixRouter)
    (hpat : ∀ e ∈ s.prefixRouter, PatternOf paths e) (hp : Unprefixed p)
    (h : s.prefixLookup M method p = some key) : Leads paths method p key := by
  have hsimple : ∀ e ∈ s.prefixRouter, Simple e.1 := fun e he => (hpat e he).simple
  unfold prefixLookup at h
  split at h
  · next found hfound =>
    cases h
    obtain ⟨pattern, hmem, hmatch⟩ := hM _ _ _ hb hsimple hfound
    exact (hpat _ hmem).leads hp hmatch
  · split at h
    · -- without the method in front only routes of `ALL` are found
      obtain ⟨pattern, hmem, hmatch⟩ := hM _ _ _ hb hsimple h
      have hleads : Leads paths .all p key := (hpat _ hmem).leads hp hmatch
      obtain ⟨hall, hcovers⟩ := hleads
      exact ⟨Or.inr (or_self_iff.mp hall), hcovers⟩
    · cases h

theorem lookup_leads (hM : M.Sound) (hb : M.Built s.prefixRouter)
    (hpat : ∀ e ∈ s.prefixRouter, PatternOf paths e) (hmem : p ∈ paths) (hp : Unprefixed p)
    (h : s.lookup M method p = some key) : Leads paths method p key := by
  unfold lookup at h
  split at h
  · cases h
    exact ⟨Or.inl rfl, p, hmem, rfl, Or.inl rfl⟩
  · split at h
    · cases h
      exact ⟨Or.inr rfl, p, hmem, rfl, Or.inl rfl⟩
    · exact prefixLookup_leads hM hb hpat hp h

/-! ## Runs -/

/-- Only `add_route` and `select_backend` are called, with paths of `paths`. -/
def Registers (paths : Set Str) (_ : Router) : RouterCall → Prop
  | .addRoute _ _ path _ => path ∈ paths ∧ Registrable path
  | .addRouteWith .. => False
  | .selectBackend _ path _ _ => path ∈ paths

/-- What runs preserve: keys belong to paths, in the table, in the prefix router and in the
cache. -/
structure Routed (M : Matchit) (paths : Set Str) (s : Router) : Prop where
  built : M.Built s.prefixRouter
  patterns : ∀ e ∈ s.prefixRouter, PatternOf paths e
  table : ∀ key route, s.routes.lookup key = some route →
    route.pattern ∈ paths ∧ Registrable route.pattern ∧ key.pathHash = pathHash route.pattern
  cached : ∀ method, ∀ p ∈ paths, Unprefixed p → ∀ key,
    s.routeCache.cached (routeKey method p) = some key → Leads paths method p key

/-- What `add_route` writes. -/
theorem write_of_registers {c : RouterCall} {w : Write} (hc : Registers paths s c)
    (hw : c.write s = some w) :
    w.rebuild = .addRoute ∧ w.route.pattern ∈ paths ∧ Registrable w.route.pattern ∧
      w.key.pathHash = pathHash w.route.pattern := by
  cases c with
  | addRoute ord method path backends =>
      obtain ⟨-, table, -, rfl⟩ := RouterCall.of_write_addRoute hw
      exact ⟨rfl, hc.1, hc.2, rfl⟩
  | addRouteWith ord method path backends extra => cases hc
  | selectBackend method path srcIp srcPort => cases hw

/-- A table whose routes belong to paths gives rise to patterns of these paths. -/
theorem patternOf_of_mem {routes : RouteMap} {ord : IterOrder}
    (h : ∀ key route, routes.lookup key = some route →
      route.pattern ∈ paths ∧ Registrable route.pattern ∧ key.pathHash = pathHash route.pattern)
    (he : e ∈ (ord.iter routes).flatMap Rebuild.addRoute.patterns) : PatternOf paths e := by
  obtain ⟨⟨key, route⟩, hentry, he⟩ := List.mem_flatMap.mp he
  have hlookup : routes.lookup key = some route :=
    AList.mem_lookup_iff.mpr ((ord.perm routes).mem_iff.mp hentry)
  obtain ⟨hmem, hreg, hhash⟩ := h key route hlookup
  simp only [Rebuild.patterns, addRoute_prefixPattern, List.mem_cons, List.not_mem_nil,
    or_false] at he
  rcases he with rfl | rfl
  · exact ⟨route.pattern, hmem, hreg, hhash, Or.inl rfl⟩
  · exact ⟨route.pattern, hmem, hreg, hhash, Or.inr rfl⟩

theorem Routed.commit (h : Routed M paths s) {w : Write} (hrebuild : w.rebuild = .addRoute)
    (hw : w.route.pattern ∈ paths ∧ Registrable w.route.pattern ∧
      w.key.pathHash = pathHash w.route.pattern) : Routed M paths (s.commit M w) := by
  have htable : ∀ key route, (w.routes s).lookup key = some route →
      route.pattern ∈ paths ∧ Registrable route.pattern ∧
        key.pathHash = pathHash route.pattern := by
    intro key route hroute
    rcases Write.lookup_routes hroute with ⟨rfl, rfl⟩ | hroute
    · exact hw
    · exact h.table key route hroute
  have hcached : ∀ method, ∀ p ∈ paths, Unprefixed p → ∀ key,
      (s.commit M w).routeCache.cached (routeKey method p) = some key →
        Leads paths method p key := by
    intro method p hp hun key hkey
    exact h.cached method p hp hun key (cached_of_cached_commit hkey)
  cases hbuild : w.rebuild.build M w.ord (w.routes s) with
  | error msg =>
      have hpr : (s.commit M w).prefixRouter = s.prefixRouter := by simp [Router.commit, hbuild]
      exact ⟨hpr ▸ h.built, hpr ▸ h.patterns, by rwa [commit_routes], hcached⟩
  | ok pr =>
      have hpr : (s.commit M w).prefixRouter = pr := by simp [Router.commit, hbuild]
      obtain ⟨hpatterns, hb⟩ := Rebuild.build_eq_ok_iff.mp hbuild
      refine ⟨hpr ▸ hb, ?_, by rwa [commit_routes], hcached⟩
      intro e he
      rw [hpr, hpatterns, hrebuild] at he
      exact patternOf_of_mem htable he

theorem Routed.select (hM : M.Sound) (hinj : Set.InjOn pathHash paths) (h : Routed M paths s)
    (hmem : p ∈ paths) :
    Routed M paths { s with routeCache := (s.resolve M method p).2 } := by
  refine ⟨h.built, h.patterns, h.table, ?_⟩
  intro method' p' hp' hun key hkey
  rcases cached_resolve hkey with hold | ⟨hown, hlookup⟩
  · exact h.cached method' p' hp' hun key hold
  · obtain ⟨rfl, hhash⟩ := RouteKey.mk.injEq .. ▸ hown
    obtain rfl := hinj hp' hmem hhash
    exact lookup_leads hM h.built h.patterns hmem hun hlookup

/-- The step lemma. -/
theorem Routed.call (hM : M.Sound) (hinj : Set.InjOn pathHash paths) (h : Routed M paths s)
    {c : RouterCall} (hc : Registers paths s c) : Routed M paths (s.call M c) := by
  rcases call_cases M s c with ⟨w, checker, hw, heq⟩ | heq | ⟨method, p, srcIp, srcPort, rfl, heq⟩
  · obtain ⟨hrebuild, hroute⟩ := write_of_registers hc hw
    have hcommit := h.commit hrebuild hroute
    rw [heq]
    exact ⟨hcommit.built, hcommit.patterns, hcommit.table, hcommit.cached⟩
  · rw [heq]
    exact h
  · rw [heq]
    exact h.select hM hinj hc

theorem routed_of_reach (hM : M.Sound) (hinj : Set.InjOn pathHash paths)
    {config : HealthCheckConfig} {inRuntime : Bool}
    (h : (routerSystem M).Reach (Registers paths) (.withHealthConfig config inRuntime) s) :
    Routed M paths s := by
  refine h.invariant ⟨M.built_nil, ?_, ?_, ?_⟩ ?_
  · intro e he
    cases he
  · intro key route hroute
    cases hroute
  · intro method p _ _ key hkey
    cases hkey
  · intro s c s' hs hok hstep
    cases hstep
    exact hs.call hM hinj hok

/-- The match is one of a route that is registered for the method of the request or for `ALL`, whose
path covers that of the request, and the backend is one of the route's. -/
def SoundMatch (s : Router) (method : HttpMethod) (p : Str) (rm : RouteMatch) : Prop :=
  ∃ key route, s.routes.lookup key = some route ∧ key = routeKey key.method route.pattern ∧
    (key.method = method ∨ key.method = .all) ∧ SegmentPrefix route.pattern p ∧
    rm.backend ∈ route.backends ∧ rm = route.toMatch rm.backend

/-- **Requests are routed soundly**, in all runs, as long as their paths do not begin with a method
prefix. -/
theorem selectBackend_sound (hM : M.Sound) (hinj : Set.InjOn pathHash paths)
    {config : HealthCheckConfig} {inRuntime : Bool}
    (h : (routerSystem M).Reach (Registers paths) (.withHealthConfig config inRuntime) s)
    (hmem : p ∈ paths) (hp : Unprefixed p) {srcIp : Option IpAddr} {srcPort : Option UInt16}
    {rm : RouteMatch} (hrm : (s.selectBackend M method p srcIp srcPort).1 = some rm) :
    SoundMatch s method p rm := by
  have hrouted := routed_of_reach hM hinj h
  obtain ⟨key, hkey, hrm⟩ := Option.bind_eq_some_iff.mp hrm
  have hleads : Leads paths method p key := by
    change (s.resolve M method p).1 = some key at hkey
    rw [resolve_fst, Option.or_eq_some_iff] at hkey
    rcases hkey with hcached | ⟨-, hlookup⟩
    · exact hrouted.cached method p hmem hp key hcached
    · exact lookup_leads hM hrouted.built hrouted.patterns hmem hp hlookup
  obtain ⟨hmethod, t, ht, hhash, hcovers⟩ := hleads
  unfold selectFrom at hrm
  split at hrm
  · cases hrm
  next route hroute =>
  split at hrm
  · cases hrm
  · obtain ⟨b, hb, rfl⟩ := Option.map_eq_some_iff.mp hrm
    obtain ⟨hpattern, -, hhash'⟩ := hrouted.table key route hroute
    -- the route stored under the key is the one of the path that covers the request
    have heq : route.pattern = t := hinj hpattern ht (hhash'.symm.trans hhash)
    obtain ⟨k, hk⟩ := (Route.selectByMask_some hb).2
    refine ⟨key, route, hroute, ?_, hmethod, heq ▸ hcovers, List.mem_of_getElem? hk, rfl⟩
    rw [routeKey, ← hhash']

/-- With a single route, a request that resolves to it gets one of its backends. -/
theorem exists_selectBackend_started (M : Matchit) (ord : IterOrder) {method m : HttpMethod}
    {path p : Str} {backends : List Backend} (hne : backends ≠ [])
    (hfew : backends.length ≤ maxBackends)
    (hresolve : ((started M ord method path backends).resolve M m p).1 =
      some (routeKey method path)) :
    ∃ rm, ((started M ord method path backends).selectBackend M m p none none).1 = some rm := by
  obtain ⟨table, htable, hs⟩ := started_onlyRoute M ord method path hfew
  have heligible : ∀ b, (started M ord method path backends).eligible b :=
    fun b => hs.eligible_iff.mpr (started_healthy M ord method path backends b)
  obtain ⟨b, -, hrm⟩ :=
    exists_selectBackend none none hresolve hs.own hne htable heligible
  exact ⟨_, hrm⟩

/-- A request below the only route. -/
theorem selectBackend_sound_below :
    ∃ rm, ((started .scan .newestFirst .get "/x".toList [.sample]).selectBackend .scan .get
        "/x/y".toList none none).1 = some rm ∧
      SoundMatch (started .scan .newestFirst .get "/x".toList [.sample]) .get "/x/y".toList rm := by
  have hresolve : ((started .scan .newestFirst .get "/x".toList [.sample]).resolve .scan .get
      "/x/y".toList).1 = some (routeKey .get "/x".toList) := by decide +kernel
  obtain ⟨rm, hrm⟩ := exists_selectBackend_started .scan .newestFirst (by simp) (by decide) hresolve
  have hreach : (routerSystem .scan).Reach (Registers {"/x".toList, "/x/y".toList})
      (.withHealthConfig .default true) (started .scan .newestFirst .get "/x".toList [.sample]) :=
    System.Reach.refl.tail (a := .addRoute .newestFirst .get "/x".toList [.sample])
      ⟨Or.inl rfl, by decide⟩ rfl
  have hinj : Set.InjOn pathHash {"/x".toList, "/x/y".toList} := by
    rintro p (rfl | rfl) q (rfl | rfl) hpq
    · rfl
    · exact absurd hpq (by decide +kernel)
    · exact absurd hpq (by decide +kernel)
    · rfl
  have hun : Unprefixed "/x/y".toList := by
    intro m hm
    cases m with
    | all => exact absurd rfl hm
    | _ => decide
  exact ⟨rm, hrm, selectBackend_sound Matchit.scan_lawful.sound hinj hreach (Or.inr rfl) hun hrm⟩

/-- **A path that looks like a method**: a `POST` request for the path `GET:/x` gets the route that
is registered for `GET` and `/x`. -/
theorem exists_unsound_match :
    ¬ ∀ M : Matchit, M.Sound → ∀ paths : Set Str, Set.InjOn pathHash paths →
      ∀ config inRuntime s,
        (routerSystem M).Reach (Registers paths) (.withHealthConfig config inRuntime) s →
      ∀ method, ∀ p ∈ paths, ∀ srcIp srcPort rm,
        (s.selectBackend M method p srcIp srcPort).1 = some rm → SoundMatch s method p rm := by
  intro h
  have hresolve : ((started .scan .newestFirst .get "/x".toList [.sample]).resolve .scan .post
      "GET:/x".toList).1 = some (routeKey .get "/x".toList) := by decide +kernel
  obtain ⟨rm, hrm⟩ := exists_selectBackend_started .scan .newestFirst (by simp) (by decide) hresolve
  have hreach : (routerSystem .scan).Reach (Registers {"/x".toList, "GET:/x".toList})
      (.withHealthConfig .default true) (started .scan .newestFirst .get "/x".toList [.sample]) :=
    System.Reach.refl.tail (a := .addRoute .newestFirst .get "/x".toList [.sample])
      ⟨Or.inl rfl, by decide⟩ rfl
  have hinj : Set.InjOn pathHash {"/x".toList, "GET:/x".toList} := by
    rintro p (rfl | rfl) q (rfl | rfl) hpq
    · rfl
    · exact absurd hpq (by decide +kernel)
    · exact absurd hpq (by decide +kernel)
    · rfl
  obtain ⟨key, route, hroute, hkey, hmethod, -⟩ :=
    h .scan Matchit.scan_lawful.sound _ hinj _ _ _ hreach .post _ (Or.inr rfl) _ _ rm hrm
  have hfew : [Backend.sample].length ≤ maxBackends := by decide
  obtain ⟨table, -, hs⟩ := started_onlyRoute .scan .newestFirst .get "/x".toList hfew
  have hpattern : route.pattern = "/x".toList := by rw [hs.only key route hroute]; rfl
  rw [hkey, hpattern] at hroute
  -- the table has a route for `GET` only
  have hpost : ((started .scan .newestFirst .get "/x".toList [.sample]).routes.lookup
      (routeKey .post "/x".toList)).isSome = false := by decide +kernel
  have hall : ((started .scan .newestFirst .get "/x".toList [.sample]).routes.lookup
      (routeKey .all "/x".toList)).isSome = false := by decide +kernel
  rcases hmethod with hm | hm
  · rw [hm] at hroute
    rw [hroute] at hpost
    cases hpost
  · rw [hm] at hroute
    rw [hroute] at hall
    cases hall

end Router

end Rauta
