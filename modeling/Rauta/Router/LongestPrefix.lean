import Mathlib.Data.List.Nodup
import Rauta.HttpRoute
import Rauta.Router.Rebuild

/-!
# Longest-prefix routing

What a route table registered under `HttpMethod::ALL` is for: a request goes to the longest
registered path that it equals or lies under, segment by segment (`Under`, `IsLongest`). This file
says for which requests the lookup of the router does that.

There are two ways for it not to. The catch-all of a path needs a non-empty remainder, so `/api`
does not serve `/api/`. And the catch-all of the root path is `{*rest}`, without a slash: it matches
every text, in particular `GET:/api/users`, so a request with a method stops at the root route
before the paths without a method are even tried. These are all (`Served`).
-/

namespace Rauta

/-! ## The specification -/

/-- A request path equals a registered path, or lies under it by whole segments. -/
def Covers (t p : Str) : Prop := p = t ∨ t = rootPath ∨ (t ++ ['/']) <+: p

instance (t p : Str) : Decidable (Covers t p) := inferInstanceAs (Decidable (_ ∨ _))

/-- The longest registered path that covers the request. -/
def IsLongest (paths : List Str) (p t : Str) : Prop :=
  t ∈ paths ∧ Covers t p ∧ ∀ u ∈ paths, Covers u p → u.length ≤ t.length

/-- The lookup goes to the longest covering path, and nowhere exactly when there is none. -/
def RoutesToLongest (M : Matchit) (s : Router) (paths : List Str) (method : HttpMethod) (p : Str) :
    Prop :=
  (∀ t, IsLongest paths p t → s.lookup M method p = some (routeKey .all t)) ∧
    (s.lookup M method p = none ↔ ∀ t ∈ paths, ¬ Covers t p)

/-- The requests that are routed to the longest path: those for a registered path itself; and, of
the others, those that are not a registered path with a slash at the end and, if they carry a method
and the root is registered, lie under no other path. -/
def Served (paths : List Str) (method : HttpMethod) (p : Str) : Prop :=
  p ∈ paths ∨
    (∀ t ∈ paths, t ≠ rootPath → p ≠ t ++ ['/']) ∧
      (method = .all ∨ rootPath ∉ paths ∨ ∀ t ∈ paths, t ≠ rootPath → ¬ (t ++ ['/']) <+: p)

/-! ## Registering routes -/

/-- A route as the controller registers it: an accepted path without braces, not too many
backends. -/
structure Registration where
  ord : IterOrder
  path : Str
  backends : List Backend
  accepted : validatePath path = .ok ()
  plain : Plain path
  few : backends.length ≤ maxBackends

/-- One `add_route` under `HttpMethod::ALL`. -/
def Router.register (M : Matchit) (s : Router) (reg : Registration) : Router :=
  (s.addRoute M reg.ord .all reg.path reg.backends).2

/-- A router with the given routes. -/
def Router.registerAll (M : Matchit) (regs : List Registration) : Router :=
  regs.foldl (Router.register M) .new

/-! ## The patterns of a registered path -/

/-- What precedes the catch-all of a path. -/
def stem (t : Str) : Str := if t = rootPath then [] else t ++ ['/']

/-- The two patterns of an accepted path under `HttpMethod::ALL`. -/
def pathPatterns (t : Str) : PrefixRouter :=
  [(t, routeKey .all t), (stem t ++ catchAll, routeKey .all t)]

/-- Accepted and without braces. -/
def Routable (t : Str) : Prop := validatePath t = .ok () ∧ Plain t

/-- The catch-all pattern of an accepted path. -/
theorem prefixPattern_addRoute {t : Str} (h : validatePath t = .ok ()) (method : HttpMethod) :
    Rebuild.addRoute.prefixPattern (routeKey method t) t =
      getMethodPrefix method ++ (stem t ++ catchAll) := by
  have hmethod : Rebuild.addRoute.methodPrefix (routeKey method t) = getMethodPrefix method := rfl
  rw [Rebuild.prefixPattern, hmethod, stem]
  by_cases hroot : t = rootPath
  · rw [if_pos hroot, if_pos hroot]
    rfl
  · rw [if_neg hroot, if_neg hroot, trimEndSlashes_of_validatePath h hroot, List.append_assoc,
      List.append_assoc]
    rfl

theorem patterns_addRoute_all {t : Str} (h : validatePath t = .ok ()) {route : Route}
    (hroute : route.pattern = t) :
    Rebuild.addRoute.patterns ⟨routeKey .all t, route⟩ = pathPatterns t := by
  rw [Rebuild.patterns, hroute, prefixPattern_addRoute h]
  rfl

theorem plain_stem {t : Str} (h : Plain t) : Plain (stem t) := by
  unfold stem
  split
  · exact ⟨by simp, by simp⟩
  · exact ⟨by simpa using h.1, by simpa using h.2⟩

theorem stem_injective {t u : Str} (h : stem t = stem u) : t = u := by
  unfold stem at h
  split at h <;> split at h
  · next ht hu => rw [ht, hu]
  · simp at h
  · simp at h
  · exact List.append_cancel_right h

theorem ne_nil_of_routable {t : Str} (h : Routable t) : t ≠ [] := by
  rintro rfl
  cases head?_of_validatePath h.1

theorem simple_of_mem_pathPatterns {t : Str} (h : Routable t) {e : Str × RouteKey}
    (he : e ∈ pathPatterns t) : Simple e.1 := by
  simp only [pathPatterns, List.mem_cons, List.not_mem_nil, or_false] at he
  rcases he with rfl | rfl
  · exact simple_of_plain h.2 (ne_nil_of_routable h)
  · exact simple_append_catchAll (plain_stem h.2)

theorem simple_patterns {paths : List Str} (h : ∀ t ∈ paths, Routable t) :
    ∀ e ∈ paths.flatMap pathPatterns, Simple e.1 := by
  intro e he
  obtain ⟨t, ht, he⟩ := List.mem_flatMap.mp he
  exact simple_of_mem_pathPatterns (h t ht) he

/-- An exact pattern has no brace, a catch-all has. -/
theorem ne_append_catchAll_of_plain {t u : Str} (h : Plain t) : t ≠ u ++ catchAll := by
  rintro rfl
  exact h.1 (by simp [catchAll])

/-- The patterns of distinct paths are distinct. -/
theorem nodup_patterns {paths : List Str} (h : ∀ t ∈ paths, Routable t) (hd : paths.Nodup) :
    ((paths.flatMap pathPatterns).map Prod.fst).Nodup := by
  rw [List.map_flatMap, List.nodup_flatMap]
  constructor
  · intro t ht
    simpa [pathPatterns] using ne_append_catchAll_of_plain (h t ht).2
  · refine hd.imp_of_mem ?_
    intro t u ht hu hne x hx hx'
    simp only [pathPatterns, List.map_cons, List.map_nil, List.mem_cons, List.not_mem_nil,
      or_false] at hx hx'
    rcases hx with rfl | rfl <;> rcases hx' with hx' | hx'
    · exact hne hx'
    · exact ne_append_catchAll_of_plain (h _ ht).2 hx'
    · exact ne_append_catchAll_of_plain (h _ hu).2 hx'.symm
    · exact hne (stem_injective (List.append_cancel_right hx'))

/-! ## The state after registering -/

/-- The routes are those of `paths`, and the prefix router has their patterns. -/
structure Registered (M : Matchit) (paths : List Str) (s : Router) : Prop where
  entries : (s.routes.entries.map fun e => (e.1, e.2.pattern)) =
    paths.map fun t => (routeKey .all t, t)
  built : M.Built s.prefixRouter
  patterns : s.prefixRouter.Perm (paths.flatMap pathPatterns)

namespace Registered

variable {M : Matchit} {paths : List Str} {s : Router}

theorem init (M : Matchit) : Registered M [] .new := ⟨rfl, M.built_nil, List.Perm.refl _⟩

theorem mem_routes_iff (h : Registered M paths s) {key : RouteKey} :
    key ∈ s.routes ↔ ∃ t ∈ paths, key = routeKey .all t := by
  have hkeys : s.routes.keys = paths.map (routeKey .all) := by
    have := congrArg (List.map Prod.fst) h.entries
    simpa [AList.keys, List.keys, Function.comp_def] using this
  rw [AList.mem_keys, hkeys, List.mem_map]
  simp only [eq_comm]

/-- The table that a rebuild of these routes inserts. -/
theorem table_eq (h : Registered M paths s) (hr : ∀ t ∈ paths, Routable t) :
    Rebuild.addRoute.table s.routes = paths.flatMap pathPatterns := by
  let f : RouteKey × Str → PrefixRouter := fun kt =>
    [(Rebuild.addRoute.exactPattern kt.1 kt.2, kt.1),
      (Rebuild.addRoute.prefixPattern kt.1 kt.2, kt.1)]
  calc Rebuild.addRoute.table s.routes
      = (s.routes.entries.map fun e => (e.1, e.2.pattern)).flatMap f := by
        rw [List.flatMap_map]
        rfl
    _ = paths.flatMap fun t => f (routeKey .all t, t) := by rw [h.entries, List.flatMap_map]
    _ = paths.flatMap pathPatterns := List.flatMap_congr fun t ht =>
        patterns_addRoute_all (hr t ht).1 (rfl : (Route.basic t [] []).pattern = t)

/-- Registering one more path. -/
theorem register (hM : M.Lawful) (h : Registered M paths s) (hr : ∀ t ∈ paths, Routable t)
    (hd : paths.Nodup) {reg : Registration}
    (hnew : ∀ t ∈ paths, pathHash t ≠ pathHash reg.path) :
    Registered M (reg.path :: paths) (s.register M reg) := by
  have hroutable : ∀ t ∈ reg.path :: paths, Routable t := by
    intro t ht
    rcases List.mem_cons.mp ht with rfl | ht
    · exact ⟨reg.accepted, reg.plain⟩
    · exact hr t ht
  have hnodup : (reg.path :: paths).Nodup :=
    List.nodup_cons.mpr ⟨fun hmem => hnew _ hmem rfl, hd⟩
  have hkey : routeKey .all reg.path ∉ s.routes := by
    rw [h.mem_routes_iff]
    rintro ⟨t, ht, hkey⟩
    exact hnew t ht (congrArg RouteKey.pathHash hkey).symm
  -- the call writes the new route in front of the others
  have hfresh : ¬ s.hasRoute .all reg.path reg.backends := by
    simp [Router.hasRoute, AList.lookup_eq_none.mpr hkey]
  obtain ⟨table, -, hwrite⟩ := RouterCall.write_addRoute reg.ord hfresh reg.few
  let w : Write := ⟨reg.ord, .addRoute, .all, reg.path, .basic reg.path reg.backends table, true⟩
  have hentries : (w.routes s).entries = ⟨routeKey .all reg.path, w.route⟩ :: s.routes.entries :=
    AList.entries_insert_of_notMem hkey
  have hsize : Registered M (reg.path :: paths)
      { s with routes := w.routes s, prefixRouter := (reg.path :: paths).flatMap pathPatterns } :=
    ⟨by rw [hentries, List.map_cons, h.entries]; rfl,
      Matchit.built_of_simple hM (simple_patterns hroutable) (nodup_patterns hroutable hnodup),
      List.Perm.refl _⟩
  have htab : Rebuild.addRoute.table (w.routes s) = (reg.path :: paths).flatMap pathPatterns :=
    hsize.table_eq hroutable
  rw [Router.register, Router.addRoute_eq_commit hwrite]
  rcases Router.commit_cases (s := s) hM w with ⟨-, hfail, -⟩ | ⟨pr, -, -, hbpr, hperm, heq⟩
  · exact absurd (htab ▸ hsize.built) hfail
  · rw [heq]
    exact ⟨hsize.entries, hbpr, hperm.trans (List.Perm.of_eq htab)⟩

/-- Registering many paths, one after the other. -/
theorem foldl (hM : M.Lawful) (regs : List Registration) (h : Registered M paths s)
    (hr : ∀ t ∈ paths, Routable t) (hd : (regs.map Registration.path ++ paths).Nodup)
    (hinj : Set.InjOn pathHash {t | t ∈ regs.map Registration.path ++ paths}) :
    Registered M ((regs.map Registration.path).reverse ++ paths)
      (regs.foldl (Router.register M) s) := by
  induction regs generalizing paths s with
  | nil => exact h
  | cons reg regs ih =>
      have hperm : ((reg :: regs).map Registration.path ++ paths).Perm
          (regs.map Registration.path ++ reg.path :: paths) := List.perm_middle.symm
      have hreg : Registered M (reg.path :: paths) (s.register M reg) := by
        refine h.register hM hr (List.nodup_append.mp hd).2.1 fun t ht heq => ?_
        have hne : t ≠ reg.path := by
          rintro rfl
          exact (List.nodup_cons.mp hd).1 (List.mem_append_right _ ht)
        exact hne (hinj (List.mem_append_right _ ht) List.mem_cons_self heq)
      have := ih hreg ?_ (hperm.nodup_iff.mp hd) ?_
      · simpa using this
      · intro t ht
        rcases List.mem_cons.mp ht with rfl | ht
        · exact ⟨reg.accepted, reg.plain⟩
        · exact hr t ht
      · intro t ht u hu heq
        exact hinj (hperm.mem_iff.mpr ht) (hperm.mem_iff.mpr hu) heq

/-! ### Lookups in the prefix router -/

/-- The catch-all of `t` matches `x`. -/
def Catches (t x : Str) : Prop := stem t <+: x ∧ stem t ≠ x

/-- A text that is no registered path can only be caught. -/
theorem matches_iff {t x : Str} (ht : Routable t) (hx : x ≠ t) {e : Str × RouteKey}
    (he : e ∈ pathPatterns t) :
    Matches e.1 x ↔ e = (stem t ++ catchAll, routeKey .all t) ∧ Catches t x := by
  simp only [pathPatterns, List.mem_cons, List.not_mem_nil, or_false] at he
  rcases he with rfl | rfl
  · have hne : t ≠ stem t ++ catchAll := ne_append_catchAll_of_plain ht.2
    simp [matches_of_plain ht.2, hx, hne]
  · simp [matches_append_catchAll (plain_stem ht.2), Catches]

section Lookup

variable (hM : M.Lawful) (h : Registered M paths s) (hr : ∀ t ∈ paths, Routable t) {x : Str}
  (hx : x ∉ paths)
include hM h hr hx

theorem matchAt_eq_none_iff :
    M.matchAt s.prefixRouter x = none ↔ ∀ t ∈ paths, ¬ Catches t x := by
  rw [hM.at_perm x h.built h.patterns,
    Matchit.matchAt_eq_none_iff hM (h.built.perm hM h.patterns) (simple_patterns hr)]
  constructor
  · intro hnone t ht hc
    have he : (stem t ++ catchAll, routeKey .all t) ∈ pathPatterns t := by simp [pathPatterns]
    exact hnone _ (List.mem_flatMap.mpr ⟨t, ht, he⟩)
      ((matches_iff (hr t ht) (ne_of_mem_of_not_mem ht hx).symm he).mpr ⟨rfl, hc⟩)
  · intro hnone e he hex
    obtain ⟨t, ht, he⟩ := List.mem_flatMap.mp he
    exact hnone t ht ((matches_iff (hr t ht) (ne_of_mem_of_not_mem ht hx).symm he).mp hex).2

theorem matchAt_eq_some_iff {v : RouteKey} :
    M.matchAt s.prefixRouter x = some v ↔ ∃ t ∈ paths, v = routeKey .all t ∧ Catches t x ∧
      ∀ u ∈ paths, Catches u x → (stem u).length ≤ (stem t).length := by
  have hmatch : ∀ {t e}, t ∈ paths → e ∈ pathPatterns t →
      (Matches e.1 x ↔ e = (stem t ++ catchAll, routeKey .all t) ∧ Catches t x) :=
    fun ht he => matches_iff (hr _ ht) (ne_of_mem_of_not_mem ht hx).symm he
  have hstatic : ∀ {t}, t ∈ paths → staticPart (stem t ++ catchAll) = stem t :=
    fun ht => staticPart_append_catchAll (plain_stem (hr _ ht).2)
  have hmem : ∀ {t}, t ∈ paths →
      (stem t ++ catchAll, routeKey .all t) ∈ paths.flatMap pathPatterns :=
    fun ht => List.mem_flatMap.mpr ⟨_, ht, by simp [pathPatterns]⟩
  rw [hM.at_perm x h.built h.patterns,
    Matchit.matchAt_eq_some_iff hM (h.built.perm hM h.patterns) (simple_patterns hr)]
  constructor
  · rintro ⟨p, hp, hpx, hbest⟩
    obtain ⟨t, ht, hp⟩ := List.mem_flatMap.mp hp
    obtain ⟨heq, hc⟩ := (hmatch ht hp).mp hpx
    obtain ⟨rfl, rfl⟩ := Prod.mk.inj heq
    refine ⟨t, ht, rfl, hc, fun u hu hcu => ?_⟩
    have := hbest _ (hmem hu) ((hmatch hu (by simp [pathPatterns])).mpr ⟨rfl, hcu⟩)
    rwa [hstatic hu, hstatic ht] at this
  · rintro ⟨t, ht, rfl, hc, hbest⟩
    refine ⟨_, hmem ht, (hmatch ht (by simp [pathPatterns])).mpr ⟨rfl, hc⟩, fun e he hex => ?_⟩
    obtain ⟨u, hu, he⟩ := List.mem_flatMap.mp he
    obtain ⟨rfl, hcu⟩ := (hmatch hu he).mp hex
    rw [hstatic hu, hstatic ht]
    exact hbest u hu hcu

end Lookup

/-! ### Lookups in the router -/

/-- With a method in front, only the root catches. -/
theorem catches_method_iff {t p : Str} (ht : Routable t) {method : HttpMethod}
    (hmethod : method ≠ .all) : Catches t (getMethodPrefix method ++ p) ↔ t = rootPath := by
  obtain ⟨c, rest, hc, hx⟩ : ∃ c rest, c ≠ '/' ∧ getMethodPrefix method ++ p = c :: rest := by
    cases method with
    | all => exact absurd rfl hmethod
    | _ => exact ⟨_, _, by decide, rfl⟩
  rw [hx]
  unfold Catches stem
  split
  · next hroot => simp [hroot]
  · next hroot =>
    obtain ⟨rest', rfl⟩ : ∃ rest', t = '/' :: rest' :=
      List.head?_eq_some_iff.mp (head?_of_validatePath ht.1)
    simp [hroot, hc.symm]

theorem method_notMem {p : Str} (hr : ∀ t ∈ paths, Routable t) {method : HttpMethod}
    (hmethod : method ≠ .all) : getMethodPrefix method ++ p ∉ paths := by
  intro hmem
  have hhead := head?_of_validatePath (hr _ hmem).1
  cases method with
  | all => exact hmethod rfl
  | _ => cases hhead

section Route

variable (hM : M.Lawful) (h : Registered M paths s) (hr : ∀ t ∈ paths, Routable t) {p : Str}
  (hinj : Set.InjOn pathHash {t | t = p ∨ t ∈ paths}) (method : HttpMethod)

include hinj in
theorem key_injective {t u : Str} (ht : t = p ∨ t ∈ paths) (hu : u = p ∨ u ∈ paths)
    (hkey : routeKey .all t = routeKey .all u) : t = u :=
  hinj ht hu (congrArg RouteKey.pathHash hkey)

include h in
/-- A registered path is found by its hash. -/
theorem lookup_of_mem (hp : p ∈ paths) : s.lookup M method p = some (routeKey .all p) := by
  have hall : routeKey .all p ∈ s.routes := h.mem_routes_iff.mpr ⟨p, hp, rfl⟩
  by_cases hmethod : method = .all
  · subst hmethod
    simp [Router.lookup, hall]
  · have hown : routeKey method p ∉ s.routes := by
      rw [h.mem_routes_iff]
      rintro ⟨t, -, hkey⟩
      exact hmethod (congrArg RouteKey.method hkey)
    simp [Router.lookup, hall, hown, hmethod]

include h hinj in
/-- Any other path goes to the prefix router. -/
theorem lookup_of_notMem (hp : p ∉ paths) : s.lookup M method p = s.prefixLookup M method p := by
  have hkeys : ∀ m, routeKey m p ∉ s.routes := by
    intro m
    rw [h.mem_routes_iff]
    rintro ⟨t, ht, hkey⟩
    exact hp (hinj (Or.inl rfl) (Or.inr ht) (congrArg RouteKey.pathHash hkey) ▸ ht)
  simp [Router.lookup, hkeys]

include hM h hr in
/-- The prefix lookup stops at a registered root if the request has a method. -/
theorem prefixLookup_eq : s.prefixLookup M method p =
    if method ≠ .all ∧ rootPath ∈ paths then some (routeKey .all rootPath)
    else M.matchAt s.prefixRouter p := by
  by_cases hmethod : method = .all
  · rw [hmethod, Router.prefixLookup, getMethodPrefix_all, List.nil_append]
    cases M.matchAt s.prefixRouter p <;> simp
  · have hx := method_notMem (p := p) hr hmethod
    have hcatch : ∀ t ∈ paths, (Catches t (getMethodPrefix method ++ p) ↔ t = rootPath) :=
      fun t ht => catches_method_iff (hr t ht) hmethod
    by_cases hroot : rootPath ∈ paths
    · have hsome : M.matchAt s.prefixRouter (getMethodPrefix method ++ p) =
          some (routeKey .all rootPath) := by
        refine (h.matchAt_eq_some_iff hM hr hx).mpr
          ⟨rootPath, hroot, rfl, (hcatch _ hroot).mpr rfl, fun u hu hc => ?_⟩
        rw [(hcatch u hu).mp hc]
      simp [Router.prefixLookup, hsome, hmethod, hroot]
    · have hnone : M.matchAt s.prefixRouter (getMethodPrefix method ++ p) = none := by
        refine (h.matchAt_eq_none_iff hM hr hx).mpr fun t ht hc => hroot ?_
        rw [← (hcatch t ht).mp hc]
        exact ht
      simp [Router.prefixLookup, hnone, hmethod, hroot]

end Route

end Registered

/-! ## Which requests are served -/

/-- Among accepted paths, stems are ordered by length as the paths are. -/
theorem stem_length_le_iff {t u : Str} (ht : Routable t) (hu : Routable u) :
    (stem u).length ≤ (stem t).length ↔ u.length ≤ t.length := by
  have hlen : ∀ {t}, Routable t → t ≠ rootPath → 2 ≤ t.length := by
    intro t ht hroot
    rcases validatePath_ok_cases ht.1 with h | ⟨c, rest, rfl, -⟩
    · exact absurd h hroot
    · simp
  have hrootlen : rootPath.length = 1 := rfl
  unfold stem
  split <;> split
  · simp_all
  · next hu' ht' =>
    have := hlen ht ht'
    simp only [List.length_nil, Nat.zero_le, true_iff, hu', hrootlen]
    omega
  · next hu' ht' =>
    have := hlen hu hu'
    simp only [List.length_append, List.length_singleton, List.length_nil, ht', hrootlen]
    omega
  · simp

/-- A path that is not registered is caught by what covers it, unless it is that path with a
slash. -/
theorem catches_iff_covers {t p : Str} (hp : p.head? = some '/') (hne : p ≠ t)
    (hslash : t ≠ rootPath → p ≠ t ++ ['/']) : Registered.Catches t p ↔ Covers t p := by
  unfold Registered.Catches Covers stem
  split
  · next hroot =>
    have hnil : [] ≠ p := by
      rintro rfl
      cases hp
    simp [hroot, hnil]
  · next hroot => simp [hroot, hne, (hslash hroot).symm]

/-- If some path covers the request, one of them is longest. -/
theorem exists_isLongest {paths : List Str} {p t : Str} (ht : t ∈ paths) (hc : Covers t p) :
    ∃ u, IsLongest paths p u := by
  have hmem : t ∈ paths.filter (Covers · p) := List.mem_filter.mpr ⟨ht, decide_eq_true hc⟩
  cases hmax : (paths.filter (Covers · p)).argmax List.length with
  | none =>
      rw [List.argmax_eq_none.mp hmax] at hmem
      cases hmem
  | some u =>
      obtain ⟨hu, huc⟩ := List.mem_filter.mp (List.argmax_mem hmax)
      refine ⟨u, hu, of_decide_eq_true huc, fun v hv hvc => ?_⟩
      exact List.le_of_mem_argmax (List.mem_filter.mpr ⟨hv, decide_eq_true hvc⟩) hmax

namespace Registered

variable {M : Matchit} {paths : List Str} {s : Router} {p : Str}

section

variable (hM : M.Lawful) (h : Registered M paths s) (hr : ∀ t ∈ paths, Routable t)
  (hinj : Set.InjOn pathHash {t | t = p ∨ t ∈ paths}) (hp : p.head? = some '/')
  {method : HttpMethod}
include hM h hr hp

/-- The prefix router on its own routes to the longest path, but for the slash at the end. -/
theorem routesToLongest_of_matchAt (hmem : p ∉ paths)
    (hslash : ∀ t ∈ paths, t ≠ rootPath → p ≠ t ++ ['/'])
    (hlookup : s.lookup M method p = M.matchAt s.prefixRouter p) :
    RoutesToLongest M s paths method p := by
  have hcov : ∀ t ∈ paths, (Catches t p ↔ Covers t p) := fun t ht =>
    catches_iff_covers hp (ne_of_mem_of_not_mem ht hmem).symm (hslash t ht)
  unfold RoutesToLongest
  rw [hlookup, h.matchAt_eq_none_iff hM hr hmem]
  constructor
  · rintro t ⟨ht, htc, hbest⟩
    refine (h.matchAt_eq_some_iff hM hr hmem).mpr
      ⟨t, ht, rfl, (hcov t ht).mpr htc, fun u hu huc => ?_⟩
    exact (stem_length_le_iff (hr t ht) (hr u hu)).mpr (hbest u hu ((hcov u hu).mp huc))
  · exact forall₂_congr fun t ht => not_congr (hcov t ht)

include hinj in
theorem routesToLongest_of_served (hs : Served paths method p) :
    RoutesToLongest M s paths method p := by
  by_cases hmem : p ∈ paths
  · -- a registered path covers itself, and nothing longer does
    have hlook := h.lookup_of_mem method hmem
    refine ⟨fun t ht => ?_, ?_⟩
    · obtain ⟨htmem, htc, hbest⟩ := ht
      have hlen := hbest p hmem (Or.inl rfl)
      have : t = p := by
        rcases htc with rfl | rfl | hpre
        · rfl
        · obtain ⟨rest, rfl⟩ := List.head?_eq_some_iff.mp hp
          have : rest = [] := by simpa [rootPath] using hlen
          rw [this, rootPath]
        · have := hpre.length_le
          simp only [List.length_append, List.length_singleton] at this
          omega
      rw [this]
      exact hlook
    · rw [hlook]
      simp only [reduceCtorEq, false_iff, not_forall, not_not]
      exact ⟨p, hmem, Or.inl rfl⟩
  · obtain ⟨hslash, hcase⟩ := hs.resolve_left hmem
    have hlook := h.lookup_of_notMem hinj method hmem
    rw [h.prefixLookup_eq hM hr method] at hlook
    split at hlook
    · next hroot =>
      -- only the root covers the request
      have honly : ∀ t ∈ paths, Covers t p → t = rootPath := by
        intro t ht hc
        have hunder := (hcase.resolve_left hroot.1).resolve_left (not_not.mpr hroot.2)
        rcases hc with rfl | hc | hc
        · exact absurd ht hmem
        · exact hc
        · by_contra hne
          exact hunder t ht hne hc
      refine ⟨fun t ht => ?_, ?_⟩
      · rw [honly t ht.1 ht.2.1]
        exact hlook
      · rw [hlook]
        simp only [reduceCtorEq, false_iff, not_forall, not_not]
        exact ⟨rootPath, hroot.2, Or.inr (Or.inl rfl)⟩
    · exact h.routesToLongest_of_matchAt hM hr hp hmem hslash hlook

include hinj in
theorem served_of_routesToLongest (hroutes : RoutesToLongest M s paths method p) :
    Served paths method p := by
  by_cases hmem : p ∈ paths
  · exact Or.inl hmem
  have hlook := h.lookup_of_notMem hinj method hmem
  rw [h.prefixLookup_eq hM hr method] at hlook
  have hkey : ∀ {t u}, t ∈ paths → u ∈ paths → routeKey .all t = routeKey .all u → t = u :=
    fun ht hu => key_injective hinj (Or.inr ht) (Or.inr hu)
  refine Or.inr ⟨?_, ?_⟩
  · -- `t/` is covered by `t` and by nothing longer, but the catch-all of `t` does not match it
    rintro t ht hroot rfl
    have hlongest : IsLongest paths (t ++ ['/']) t := by
      refine ⟨ht, Or.inr (Or.inr List.prefix_rfl), fun u hu huc => ?_⟩
      rcases huc with rfl | rfl | hpre
      · exact absurd hu hmem
      · exact List.length_pos_of_ne_nil (ne_nil_of_routable (hr t ht))
      · simpa using hpre.length_le
    rw [hroutes.1 t hlongest] at hlook
    split at hlook
    · next hr' => exact hroot (hkey ht hr'.2 (Option.some.inj hlook))
    · obtain ⟨u, hu, heq, ⟨-, hne⟩, -⟩ := (h.matchAt_eq_some_iff hM hr hmem).mp hlook.symm
      rw [← hkey ht hu heq, stem, if_neg hroot] at hne
      exact hne rfl
  · -- a request with a method stops at the root, which is not the longest
    by_contra hcase
    push Not at hcase
    obtain ⟨hmethod, hrootmem, t, ht, hroot, hpre⟩ := hcase
    obtain ⟨u, hu⟩ := exists_isLongest ht (Or.inr (Or.inr hpre) : Covers t p)
    rw [if_pos ⟨hmethod, hrootmem⟩, hroutes.1 u hu] at hlook
    have huroot : u = rootPath := hkey hu.1 hrootmem (Option.some.inj hlook)
    have hle := hu.2.2 t ht (Or.inr (Or.inr hpre))
    have hstem := (stem_length_le_iff (hr u hu.1) (hr t ht)).mpr hle
    rw [huroot, stem, stem, if_neg hroot, if_pos rfl] at hstem
    simp at hstem

end

end Registered

/-- **Longest-prefix routing**: of the requests to a router with the given routes, exactly the
served ones go to the longest path that covers them. -/
theorem routesToLongest_iff {M : Matchit} (hM : M.Lawful) (regs : List Registration)
    (hd : (regs.map Registration.path).Nodup) {p : Str} (hp : p.head? = some '/')
    (hinj : Set.InjOn pathHash {t | t = p ∨ t ∈ regs.map Registration.path}) (method : HttpMethod) :
    RoutesToLongest M (Router.registerAll M regs) (regs.map Registration.path) method p ↔
      Served (regs.map Registration.path) method p := by
  have hreg := (Registered.init M).foldl hM regs (by simp) (by simpa using hd)
    (fun t ht u hu => hinj (Or.inr (by simpa using ht)) (Or.inr (by simpa using hu)))
  rw [List.append_nil] at hreg
  have hr : ∀ t ∈ (regs.map Registration.path).reverse, Routable t := by
    intro t ht
    obtain ⟨reg, -, rfl⟩ := List.mem_map.mp (List.mem_reverse.mp ht)
    exact ⟨reg.accepted, reg.plain⟩
  have hinj' : Set.InjOn pathHash {t | t = p ∨ t ∈ (regs.map Registration.path).reverse} := by
    simpa only [List.mem_reverse] using hinj
  -- only the set of the registered paths matters, not their order
  have hiff : RoutesToLongest M (Router.registerAll M regs) (regs.map Registration.path).reverse
      method p ↔ Served (regs.map Registration.path).reverse method p :=
    ⟨hreg.served_of_routesToLongest hM hr hinj' hp, hreg.routesToLongest_of_served hM hr hinj' hp⟩
  simpa only [RoutesToLongest, IsLongest, Served, List.mem_reverse] using hiff

/-- The root route, for concrete runs. -/
def Registration.root : Registration :=
  ⟨.newestFirst, ['/'], [.sample], rfl, by decide, by decide⟩

/-- A route below the root, for concrete runs. -/
def Registration.api : Registration :=
  ⟨.newestFirst, "/api".toList, [.sample], rfl, by decide, by decide⟩

/-- With the root and `/api` registered, `GET /web` is served, and goes to the root. -/
theorem routesToLongest_get_web :
    RoutesToLongest .scan (Router.registerAll .scan [.root, .api]) [['/'], "/api".toList] .get
      "/web".toList := by
  have hinj : ∀ t ∈ ["/web".toList, ['/'], "/api".toList],
      ∀ u ∈ ["/web".toList, ['/'], "/api".toList], pathHash t = pathHash u → t = u := by
    decide +kernel
  refine (routesToLongest_iff Matchit.scan_lawful [.root, .api] (by decide) rfl ?_ .get).mpr
    (Or.inr ⟨by decide, Or.inr (Or.inr (by decide))⟩)
  intro t ht u hu
  exact hinj t (List.mem_cons.mpr ht) u (List.mem_cons.mpr hu)

/-- **The root route captures requests with a method**: with the root and `/api` registered,
`GET /api/users` goes to the root. -/
theorem exists_request_not_routed_to_longest :
    ¬ ∀ M : Matchit, M.Lawful → ∀ regs : List Registration, (regs.map Registration.path).Nodup →
      ∀ p : Str, p.head? = some '/' →
      Set.InjOn pathHash {t | t = p ∨ t ∈ regs.map Registration.path} → ∀ method,
      RoutesToLongest M (Router.registerAll M regs) (regs.map Registration.path) method p := by
  intro h
  have hinj : ∀ t ∈ ["/api/users".toList, ['/'], "/api".toList],
      ∀ u ∈ ["/api/users".toList, ['/'], "/api".toList], pathHash t = pathHash u → t = u := by
    decide +kernel
  have hroutes := h .scan Matchit.scan_lawful [.root, .api] (by decide) "/api/users".toList rfl
    (fun t ht u hu => hinj t (List.mem_cons.mpr ht) u (List.mem_cons.mpr hu)) .get
  have hlookup := hroutes.1 "/api".toList ⟨by decide, by decide, by decide⟩
  revert hlookup
  decide +kernel

end Rauta
