import Rauta.Router.Atomicity
import Rauta.Router.LongestPrefix
import Rauta.Router.PathIdentity

/-!
# When a route is installed

Two things are expected of `add_route` on the paths that `validate_path` accepts: that it succeeds,
and that its success means that the route is there.

The first is a question about two grammars. The validator knows slashes; `matchit` knows braces. A
list of accepted paths can be added one after the other exactly if their hashes differ and the two
patterns of each of them are well formed and free of conflicts (`Compatible`). For paths without
braces they are (`compatible_of_plain`); `/{` is accepted, and never installed.

The second fails on the fast path. A route that is stored with the same backends is taken for the
same route, whatever else it carries (`Undecorated`), and whether or not it ever got into the
prefix router.
-/

namespace Rauta

open Transition

/-! ## Patterns -/

/-- The two patterns of an accepted path: its own text, and the catch-all below it. -/
def methodPatterns (method : HttpMethod) (path : Str) : List Str :=
  [getMethodPrefix method ++ path, getMethodPrefix method ++ (stem path ++ catchAll)]

/-- The same, as `add_route` inserts them. -/
def keyedPatterns (method : HttpMethod) (path : Str) : PrefixRouter :=
  (methodPatterns method path).map (·, routeKey method path)

theorem patterns_addRoute {path : Str} (h : validatePath path = .ok ()) (method : HttpMethod)
    {route : Route} (hroute : route.pattern = path) :
    Rebuild.addRoute.patterns ⟨routeKey method path, route⟩ = keyedPatterns method path := by
  rw [Rebuild.patterns, hroute, prefixPattern_addRoute h]
  rfl

/-- A successful rebuild has both patterns of every route. -/
theorem Rebuild.mem_of_build {r : Rebuild} {M : Matchit} {ord : IterOrder} {routes : RouteMap}
    {pr : PrefixRouter} (h : r.build M ord routes = .ok pr) {key : RouteKey} {route : Route}
    (hroute : routes.lookup key = some route) {e : Str × RouteKey}
    (he : e ∈ r.patterns ⟨key, route⟩) : e ∈ pr := by
  rw [(build_eq_ok_iff.mp h).1]
  exact List.mem_flatMap.mpr
    ⟨_, (ord.perm routes).mem_iff.mpr (AList.mem_lookup_iff.mp hroute), he⟩

/-- The patterns are well formed, and no two of them conflict. -/
def Matchit.Compatible (M : Matchit) (patterns : List Str) : Prop :=
  (∀ p ∈ patterns, M.malformed p = false) ∧ patterns.Pairwise fun p q => M.conflicts p q = false

namespace Matchit

variable {M : Matchit}

theorem built_iff_compatible {pr : PrefixRouter} : M.Built pr ↔ M.Compatible (pr.map Prod.fst) := by
  rw [Built, Compatible, List.pairwise_map, List.forall_mem_map]

theorem Compatible.of_append {patterns patterns' : List Str}
    (h : M.Compatible (patterns ++ patterns')) : M.Compatible patterns :=
  ⟨fun p hp => h.1 p (List.mem_append_left _ hp), (List.pairwise_append.mp h.2).1⟩

theorem compatible_nil : M.Compatible [] := ⟨by simp, .nil⟩

/-- A pattern whose only brace is opened at its end is malformed. -/
def RejectsUnclosed (M : Matchit) : Prop := ∀ t, Plain t → M.malformed (t ++ ['{']) = true

theorem scan_rejectsUnclosed : scan.RejectsUnclosed := by
  intro t ht
  have hnot : ¬ Simple (t ++ ['{']) := by
    rintro ⟨-, -, h⟩
    rw [staticPart_append_brace ht []] at h
    rcases h with h | h
    · simp at h
    · exact absurd (List.append_cancel_left h) (by decide)
  simp [scan, hnot]

end Matchit

/-! ## Adding paths one after the other -/

/-- A route to be added, with the iteration order that its call meets. -/
structure Install where
  ord : IterOrder
  path : Str
  backends : List Backend

/-- What the call writes, if its key is not taken. -/
def Install.write (i : Install) (method : HttpMethod) (table : List Nat) : Write :=
  ⟨i.ord, .addRoute, method, i.path, .basic i.path i.backends table, true⟩

namespace Router

variable {M : Matchit} {method : HttpMethod} {s : Router} {is : List Install} {i : Install}

/-- One `add_route`. -/
def add (M : Matchit) (method : HttpMethod) (s : Router) (i : Install) : AddResult × Router :=
  s.addRoute M i.ord method i.path i.backends

/-- The router after adding all of them. -/
def addAll (M : Matchit) (method : HttpMethod) (s : Router) (is : List Install) : Router :=
  is.foldl (fun s i => (s.add M method i).2) s

theorem addAll_concat :
    s.addAll M method (is ++ [i]) = ((s.addAll M method is).add M method i).2 := by
  rw [addAll, List.foldl_append]
  rfl

/-- A request for the path, taken literally, is sent to the route of the path. -/
def OwnRoute (M : Matchit) (method : HttpMethod) (s : Router) (i : Install) : Prop :=
  ∃ key route, (s.resolve M method i.path).1 = some key ∧ s.routes.lookup key = some route ∧
    route.pattern = i.path ∧ route.backends = i.backends

/-- Every call returns `Ok`, and afterwards every path is matched by its own route. -/
def AllInstalled (M : Matchit) (method : HttpMethod) (s : Router) (is : List Install) : Prop :=
  (∀ before i, before ++ [i] <+: is → ((s.addAll M method before).add M method i).1 = .ok) ∧
    ∀ i ∈ is, OwnRoute M method (s.addAll M method is) i

/-- The state after adding routes with different hashes, whatever the calls returned. -/
structure HasInstalls (method : HttpMethod) (is : List Install) (s : Router) : Prop where
  unused : s.Unused
  routes : ∀ i ∈ is, ∃ table,
    s.routes.lookup (routeKey method i.path) = some (.basic i.path i.backends table)
  keys : ∀ key ∈ s.routes, ∃ i ∈ is, key = routeKey method i.path
  table : (Rebuild.addRoute.table s.routes).Perm (is.flatMap fun i => keyedPatterns method i.path)

/-- The patterns of all paths. -/
def allPatterns (method : HttpMethod) (is : List Install) : List Str :=
  is.flatMap fun i => methodPatterns method i.path

theorem map_fst_keyedPatterns (is : List Install) :
    (is.flatMap fun i => keyedPatterns method i.path).map Prod.fst = allPatterns method is := by
  rw [List.map_flatMap, allPatterns]
  refine List.flatMap_congr fun i _ => ?_
  rw [keyedPatterns, List.map_map]
  exact List.map_id _

theorem exists_add_eq (hkey : routeKey method i.path ∉ s.routes)
    (hfew : i.backends.length ≤ maxBackends) :
    ∃ table, s.add M method i = ((i.write method table).result M s,
      { s.commit M (i.write method table) with
        healthChecker := s.healthChecker.startChecking i.backends i.path }) := by
  have hnew : ¬ s.hasRoute method i.path i.backends := by
    simp [hasRoute, AList.lookup_eq_none.mpr hkey]
  obtain ⟨table, -, hwrite⟩ := RouterCall.write_addRoute i.ord hnew hfew
  exact ⟨table, addRoute_eq_commit hwrite⟩

/-- The patterns of one more path. -/
theorem HasInstalls.table_write (h : HasInstalls method is s)
    (hkey : routeKey method i.path ∉ s.routes) (hvalid : validatePath i.path = .ok ())
    (table : List Nat) :
    (Rebuild.addRoute.table ((i.write method table).routes s)).Perm
      ((is ++ [i]).flatMap fun i => keyedPatterns method i.path) := by
  have hsplit : Rebuild.addRoute.table ((i.write method table).routes s) =
      keyedPatterns method i.path ++ Rebuild.addRoute.table s.routes :=
    (Rebuild.table_insert_of_notMem .addRoute hkey _).trans
      (congrArg (· ++ _) (patterns_addRoute hvalid method rfl))
  rw [hsplit, List.flatMap_append, List.flatMap_singleton]
  exact (h.table.append_left _).trans List.perm_append_comm

/-- **One more path**, with a hash of its own. It is written in any case, and the call returns `Ok`
exactly if all patterns are compatible. -/
theorem HasInstalls.add (hM : M.Lawful) (h : HasInstalls method is s)
    (hvalid : validatePath i.path = .ok ()) (hfew : i.backends.length ≤ maxBackends)
    (hhash : ∀ i' ∈ is, pathHash i'.path ≠ pathHash i.path) :
    HasInstalls method (is ++ [i]) (s.add M method i).2 ∧
      ((s.add M method i).1 = .ok ↔ M.Compatible (allPatterns method (is ++ [i]))) := by
  have hkey : routeKey method i.path ∉ s.routes := by
    intro hmem
    obtain ⟨i', hi', heq⟩ := h.keys _ hmem
    exact hhash i' hi' (routeKey_inj.mp heq).symm
  obtain ⟨table, hadd⟩ := exists_add_eq hkey hfew
  have htable := h.table_write hkey hvalid table
  have hroutes : (s.add M method i).2.routes = (i.write method table).routes s := by
    rw [hadd]
    exact commit_routes _
  refine ⟨⟨h.unused.addRoute .., ?_, ?_, ?_⟩, ?_⟩
  · intro i' hi'
    rw [hroutes]
    rcases List.mem_append.mp hi' with hi' | hi'
    · obtain ⟨table', hlookup⟩ := h.routes i' hi'
      refine ⟨table', (AList.lookup_insert_ne fun heq => ?_).trans hlookup⟩
      exact hhash i' hi' (routeKey_inj.mp heq)
    · rw [List.mem_singleton.mp hi']
      exact ⟨table, AList.lookup_insert _⟩
  · intro key hmem
    rw [hroutes, Write.routes, AList.mem_insert] at hmem
    rcases hmem with rfl | hmem
    · exact ⟨i, by simp, rfl⟩
    · obtain ⟨i', hi', heq⟩ := h.keys key hmem
      exact ⟨i', List.mem_append_left _ hi', heq⟩
  · rw [hroutes]
    exact htable
  · have hbuilt : M.Built ((i.write method table).rebuild.table ((i.write method table).routes s)) ↔
        M.Compatible (allPatterns method (is ++ [i])) := by
      rw [← map_fst_keyedPatterns, ← Matchit.built_iff_compatible]
      exact ⟨fun hb => hb.perm hM htable, fun hb => hb.perm hM htable.symm⟩
    rw [hadd, ← hbuilt]
    rcases commit_cases (s := s) hM (i.write method table) with
      ⟨msg, hfail, hres, -⟩ | ⟨pr, hok, hres, -⟩
    · rw [hres]
      refine iff_of_false (fun hok => ?_) hfail
      cases hok
    · rw [hres]
      exact iff_of_true rfl hok

/-- What is known of the paths to be added: accepted, and with few enough backends. -/
def Acceptable (i : Install) : Prop :=
  validatePath i.path = .ok () ∧ i.backends.length ≤ maxBackends

section Run

variable {config : HealthCheckConfig} {inRuntime : Bool}

/-- Paths with different hashes: the state after all calls, and when all of them return `Ok`. -/
theorem hasInstalls_addAll (hM : M.Lawful) (hok : ∀ i ∈ is, Acceptable i)
    (hhash : (is.map fun i => pathHash i.path).Nodup) :
    HasInstalls method is ((withHealthConfig config inRuntime).addAll M method is) ∧
      ((∀ before i, before ++ [i] <+: is →
        (((withHealthConfig config inRuntime).addAll M method before).add M method i).1 = .ok) ↔
          M.Compatible (allPatterns method is)) := by
  induction is using List.reverseRecOn with
  | nil =>
      refine ⟨⟨Unused.withHealthConfig .., by simp, ?_, List.Perm.refl _⟩, ?_⟩
      · intro key hmem
        exact absurd hmem (AList.notMem_empty key)
      · refine iff_of_true (fun before i hpre => ?_) Matchit.compatible_nil
        simp at hpre
  | append_singleton is i ih =>
      rw [List.map_append, List.nodup_append] at hhash
      obtain ⟨hbefore, -, hlast⟩ := hhash
      obtain ⟨hstate, hcalls⟩ := ih (fun i' hi' => hok i' (List.mem_append_left _ hi')) hbefore
      obtain ⟨hvalid, hfew⟩ := hok i (by simp)
      have hnew : ∀ i' ∈ is, pathHash i'.path ≠ pathHash i.path := by
        intro i' hi'
        exact hlast _ (List.mem_map_of_mem hi') _ (by simp)
      obtain ⟨hstate', hcall⟩ := hstate.add hM hvalid hfew hnew
      rw [addAll_concat]
      refine ⟨hstate', ?_⟩
      constructor
      · intro h
        exact hcall.mp (h is i (List.prefix_refl _))
      · intro hcompatible before i' hpre
        rcases List.prefix_concat_iff.mp hpre with heq | hpre
        · obtain ⟨rfl, hi⟩ := List.append_inj' heq rfl
          cases hi
          exact hcall.mpr hcompatible
        · refine hcalls.mpr ?_ before i' hpre
          rw [allPatterns, List.flatMap_append] at hcompatible
          exact hcompatible.of_append

/-- A call with few enough backends leaves a route under its key, and removes none. -/
theorem mem_routes_add (hfew : i.backends.length ≤ maxBackends) {key : RouteKey} :
    key ∈ (s.add M method i).2.routes ↔ key = routeKey method i.path ∨ key ∈ s.routes := by
  by_cases hsame : s.hasRoute method i.path i.backends
  · have hself : (s.add M method i).2 = s := by simp [add, addRoute, hsame]
    have hmem : routeKey method i.path ∈ s.routes := by
      obtain ⟨route, hroute, -⟩ := (Option.any_eq_true ..).mp hsame
      exact AList.lookup_isSome.mp (Option.isSome_of_eq_some hroute)
    rw [hself]
    exact ⟨Or.inr, fun h => h.elim (fun heq => heq ▸ hmem) id⟩
  · obtain ⟨table, -, hroutes⟩ := addRoute_routes M i.ord hsame hfew
    rw [add, hroutes, AList.mem_insert]

theorem mem_routes_addAll (hfew : ∀ i ∈ is, i.backends.length ≤ maxBackends) (hi : i ∈ is) :
    routeKey method i.path ∈ (s.addAll M method is).routes := by
  induction is using List.reverseRecOn with
  | nil => cases hi
  | append_singleton is i' ih =>
      rw [addAll_concat, mem_routes_add (hfew i' (by simp))]
      rcases List.mem_append.mp hi with hi | hi
      · exact Or.inr (ih (fun i hi => hfew i (List.mem_append_left _ hi)) hi)
      · exact Or.inl (by rw [List.mem_singleton.mp hi])

theorem unused_addAll (h : s.Unused) (is : List Install) : (s.addAll M method is).Unused := by
  induction is using List.reverseRecOn with
  | nil => exact h
  | append_singleton is i ih =>
      rw [addAll_concat]
      exact ih.addRoute ..

/-- A request finds its own key. -/
theorem resolve_of_unused_of_mem (h : s.Unused) {path : Str}
    (hmem : routeKey method path ∈ s.routes) :
    (s.resolve M method path).1 = some (routeKey method path) := by
  rw [resolve_fst, h.uncached, Option.none_or, lookup_of_mem hmem]

/-- Paths that all have their own route have different hashes. -/
theorem nodup_pathHash_of_ownRoute (hok : ∀ i ∈ is, Acceptable i)
    (hdistinct : (is.map Install.path).Nodup)
    (hown : ∀ i ∈ is,
      OwnRoute M method ((withHealthConfig config inRuntime).addAll M method is) i) :
    (is.map fun i => pathHash i.path).Nodup := by
  have hpattern : ∀ i ∈ is, ∃ route,
      ((withHealthConfig config inRuntime).addAll M method is).routes.lookup
        (routeKey method i.path) = some route ∧ route.pattern = i.path := by
    intro i hi
    obtain ⟨key, route, hkey, hroute, hp, -⟩ := hown i hi
    rw [resolve_of_unused_of_mem (unused_addAll (Unused.withHealthConfig ..) is)
      (mem_routes_addAll (fun i hi => (hok i hi).2) hi), Option.some.injEq] at hkey
    exact ⟨route, hkey ▸ hroute, hp⟩
  have hpaths := List.pairwise_map.mp hdistinct
  refine List.pairwise_map.mpr (hpaths.imp_of_mem fun {i i'} hi hi' hne heq => hne ?_)
  obtain ⟨route, hroute, hp⟩ := hpattern i hi
  obtain ⟨route', hroute', hp'⟩ := hpattern i' hi'
  rw [routeKey_inj.mpr heq, hroute'] at hroute
  rw [← hp, ← hp', Option.some.inj hroute]

/-- **Accepted paths can be installed** exactly if their hashes differ, and the patterns that
`add_route` derives from them are compatible. -/
theorem allInstalled_iff (hM : M.Lawful) (hok : ∀ i ∈ is, Acceptable i)
    (hdistinct : (is.map Install.path).Nodup) :
    AllInstalled M method (withHealthConfig config inRuntime) is ↔
      (is.map fun i => pathHash i.path).Nodup ∧ M.Compatible (allPatterns method is) := by
  constructor
  · rintro ⟨hcalls, hown⟩
    have hhash := nodup_pathHash_of_ownRoute hok hdistinct hown
    exact ⟨hhash, (hasInstalls_addAll hM hok hhash).2.mp hcalls⟩
  · rintro ⟨hhash, hcompatible⟩
    refine ⟨(hasInstalls_addAll hM hok hhash).2.mpr hcompatible, fun i hi => ?_⟩
    have hstate : HasInstalls method is ((withHealthConfig config inRuntime).addAll M method is) :=
      (hasInstalls_addAll hM hok hhash).1
    obtain ⟨table, hlookup⟩ := hstate.routes i hi
    exact ⟨_, _, hstate.unused.resolve_eq hlookup, hlookup, rfl, rfl⟩

end Run

/-- Paths without braces have compatible patterns. -/
theorem compatible_of_plain (hM : M.Lawful) (method : HttpMethod)
    (hroutable : ∀ i ∈ is, Routable i.path) (hdistinct : (is.map Install.path).Nodup) :
    M.Compatible (allPatterns method is) := by
  have hmethod : Plain (getMethodPrefix method) := by cases method <;> decide
  have heq : allPatterns method is = (((is.map Install.path).flatMap pathPatterns).map Prod.fst).map
      (getMethodPrefix method ++ ·) := by
    rw [List.map_flatMap, List.map_flatMap, List.flatMap_map]
    rfl
  have hplain : ∀ t, Plain t → Plain (getMethodPrefix method ++ t) := by
    intro t ht
    exact ⟨by simp [hmethod.1, ht.1], by simp [hmethod.2, ht.2]⟩
  have hsimple : ∀ p ∈ allPatterns method is, Simple p := by
    intro p hp
    obtain ⟨i, hi, hp⟩ := List.mem_flatMap.mp hp
    have hr := hroutable i hi
    simp only [methodPatterns, List.mem_cons, List.not_mem_nil, or_false] at hp
    rcases hp with rfl | rfl
    · exact simple_of_plain (hplain _ hr.2) fun hnil =>
        ne_nil_of_routable hr (List.append_eq_nil_iff.mp hnil).2
    · rw [← List.append_assoc]
      exact simple_append_catchAll (hplain _ (plain_stem hr.2))
  have hnodup : (allPatterns method is).Nodup := by
    rw [heq]
    refine List.Nodup.map (List.append_right_injective _) (nodup_patterns ?_ hdistinct)
    intro t ht
    obtain ⟨i, hi, rfl⟩ := List.mem_map.mp ht
    exact hroutable i hi
  refine ⟨fun p hp => hM.simple_wellFormed (hsimple p hp), ?_⟩
  exact hnodup.imp_of_mem fun hp hq hne => hM.simple_conflicts (hsimple _ hp) (hsimple _ hq) hne

/-- Two routes without braces. -/
def plainInstalls : List Install :=
  [⟨.newestFirst, "/api".toList, [.sample]⟩, ⟨.newestFirst, "/web".toList, [.sample]⟩]

theorem allInstalled_iff_plain :
    AllInstalled .scan .get (withHealthConfig .default true) plainInstalls := by
  have hroutable : ∀ i ∈ plainInstalls, Routable i.path := by
    intro i hi
    simp only [plainInstalls, List.mem_cons, List.not_mem_nil, or_false] at hi
    rcases hi with rfl | rfl <;> exact ⟨rfl, by decide⟩
  have hok : ∀ i ∈ plainInstalls, Acceptable i := by
    intro i hi
    refine ⟨(hroutable i hi).1, ?_⟩
    simp only [plainInstalls, List.mem_cons, List.not_mem_nil, or_false] at hi
    rcases hi with rfl | rfl <;> decide
  have hdistinct : (plainInstalls.map Install.path).Nodup := by decide
  exact (allInstalled_iff Matchit.scan_lawful hok hdistinct).mpr
    ⟨by decide +kernel, compatible_of_plain Matchit.scan_lawful .get hroutable hdistinct⟩

/-- **An accepted path that cannot be installed**: `/{`, with any `matchit` that rejects a brace
that is not closed. -/
theorem exists_not_allInstalled :
    (∃ M : Matchit, M.Lawful ∧ M.RejectsUnclosed) ∧
    ∀ M : Matchit, M.RejectsUnclosed → ∃ is : List Install, (∀ i ∈ is, Acceptable i) ∧
      (is.map Install.path).Nodup ∧
      ∀ config inRuntime, ¬ AllInstalled M .get (withHealthConfig config inRuntime) is := by
  refine ⟨⟨.scan, Matchit.scan_lawful, Matchit.scan_rejectsUnclosed⟩, fun M hM => ?_⟩
  let i : Install := ⟨.newestFirst, "/\x7b".toList, [.sample]⟩
  refine ⟨[i], ?_, by decide, fun config inRuntime h => ?_⟩
  · intro i' hi'
    rw [List.mem_singleton.mp hi']
    exact ⟨rfl, by decide⟩
  · have hok : ((withHealthConfig config inRuntime).add M .get i).1 = .ok :=
      h.1 [] i (List.prefix_refl _)
    obtain ⟨table, -, hwrite⟩ := RouterCall.write_addRoute i.ord
      (nofun : ¬ (withHealthConfig config inRuntime).hasRoute .get i.path i.backends) (by decide)
    rw [add, addRoute_eq_commit hwrite] at hok
    have hbuild := build_of_result_ok hok
    have hmem : ("GET:/".toList ++ ['{'], routeKey .get i.path) ∈ _ :=
      Rebuild.mem_of_build hbuild (AList.lookup_insert _) List.mem_cons_self
    have hmalformed := (Rebuild.build_eq_ok_iff.mp hbuild).2.1 _ hmem
    rw [hM _ (by decide)] at hmalformed
    cases hmalformed

end Router

/-! ## What `Ok` means -/

/-- The route has neither constraints nor filters. -/
def Route.Undecorated (route : Route) : Prop :=
  route = .basic route.pattern route.backends route.maglevTable

namespace Router

variable {M : Matchit} {s : Router} {paths : Set Str}

/-- The route is there with its table and without constraints or filters, and both patterns of its
path lead to it. -/
def Installed (method : HttpMethod) (path : Str) (backends : List Backend) (s : Router) : Prop :=
  ∃ table, maglevBuildCompactTable backends = some table ∧
    s.routes.lookup (routeKey method path) = some (.basic path backends table) ∧
    ∀ e ∈ keyedPatterns method path, e ∈ s.prefixRouter

/-- Only routes are added, with paths of `paths`. -/
def AddsPath (paths : Set Str) (_ : Router) : RouterCall → Prop
  | .addRoute _ _ path _ => path ∈ paths
  | .addRouteWith _ _ path _ _ => path ∈ paths
  | .selectBackend .. => False

/-- What the adding calls leave in the map: the routes of their paths, each with the table of its
backends. -/
def RoutesOf (paths : Set Str) (s : Router) : Prop :=
  ∀ key route, s.routes.lookup key = some route → route.pattern ∈ paths ∧
    key.pathHash = pathHash route.pattern ∧
    maglevBuildCompactTable route.backends = some route.maglevTable

/-- What such a call writes. -/
theorem write_of_addsPath {c : RouterCall} {w : Write} (hc : AddsPath paths s c)
    (hw : c.write s = some w) :
    w.route.pattern ∈ paths ∧ w.key.pathHash = pathHash w.route.pattern ∧
      maglevBuildCompactTable w.route.backends = some w.route.maglevTable := by
  cases c with
  | addRoute ord method path backends =>
      obtain ⟨-, table, htable, rfl⟩ := RouterCall.of_write_addRoute hw
      exact ⟨hc, rfl, htable⟩
  | addRouteWith ord method path backends extra =>
      obtain ⟨table, htable, rfl⟩ := Option.map_eq_some_iff.mp hw
      cases extra <;> exact ⟨hc, rfl, htable⟩
  | selectBackend method path srcIp srcPort => cases hc

theorem RoutesOf.call (h : RoutesOf paths s) {c : RouterCall} (hc : AddsPath paths s c) :
    RoutesOf paths (s.call M c) := by
  rcases call_cases M s c with ⟨w, checker, hw, heq⟩ | heq | ⟨method, p, srcIp, srcPort, rfl, -⟩
  · rw [heq]
    intro key route hroute
    change (s.commit M w).routes.lookup key = some route at hroute
    rw [commit_routes] at hroute
    rcases Write.lookup_routes hroute with ⟨rfl, rfl⟩ | hroute
    · exact write_of_addsPath hc hw
    · exact h key route hroute
  · rw [heq]
    exact h
  · cases hc

theorem routesOf_of_reach {config : HealthCheckConfig} {inRuntime : Bool}
    (h : (routerSystem M).Reach (AddsPath paths) (.withHealthConfig config inRuntime) s) :
    RoutesOf paths s := by
  refine h.invariant ?_ ?_
  · intro key route hroute
    cases hroute
  · intro s c s' hs hc hstep
    cases hstep
    exact hs.call hc

/-- A call that writes and succeeds installs the route. -/
theorem installed_of_write {ord : IterOrder} {method : HttpMethod} {path : Str}
    {backends : List Backend} (hvalid : validatePath path = .ok ())
    (hnew : ¬ s.hasRoute method path backends)
    (hok : (s.addRoute M ord method path backends).1 = .ok) :
    Installed method path backends (s.addRoute M ord method path backends).2 := by
  cases hw : (RouterCall.addRoute ord method path backends).write s with
  | none =>
      rw [RouterCall.write, if_neg hnew] at hw
      have htable := Option.map_eq_none_iff.mp hw
      simp [addRoute, hnew, htable] at hok
  | some w =>
      obtain ⟨-, table, htable, rfl⟩ := RouterCall.of_write_addRoute hw
      rw [addRoute_eq_commit hw] at hok ⊢
      refine ⟨table, htable, ?_, ?_⟩
      · show (s.commit M _).routes.lookup _ = _
        rw [commit_routes]
        exact AList.lookup_insert _
      · intro e he
        show e ∈ (s.commit M _).prefixRouter
        have hbuild := build_of_result_ok hok
        have hpattern : (Route.basic path backends table).pattern = path := rfl
        rw [← patterns_addRoute hvalid method hpattern] at he
        exact Rebuild.mem_of_build hbuild (AList.lookup_insert _) he

/-- **`Ok` means installed** exactly if a route that is stored with these backends is undecorated,
and in the prefix router. -/
theorem ok_means_installed_iff (hvalid : ∀ path ∈ paths, validatePath path = .ok ())
    (hhash : Set.InjOn pathHash paths) {config : HealthCheckConfig} {inRuntime : Bool}
    (hreach : (routerSystem M).Reach (AddsPath paths) (.withHealthConfig config inRuntime) s)
    (ord : IterOrder) (method : HttpMethod) {path : Str} (hpath : path ∈ paths)
    (backends : List Backend) :
    ((s.addRoute M ord method path backends).1 = .ok →
      Installed method path backends (s.addRoute M ord method path backends).2) ↔
    ∀ route, s.routes.lookup (routeKey method path) = some route → route.backends = backends →
      route.Undecorated ∧ ∀ e ∈ keyedPatterns method path, e ∈ s.prefixRouter := by
  by_cases hsame : s.hasRoute method path backends
  · -- the fast path: the route is taken for the same
    have hself : s.addRoute M ord method path backends = (.ok, s) := by
      rw [addRoute, if_pos hsame]
    rw [hself]
    constructor
    · intro h route hroute _
      obtain ⟨table, -, hlookup, hpatterns⟩ := h rfl
      rw [hroute, Option.some.injEq] at hlookup
      exact ⟨by rw [hlookup]; rfl, hpatterns⟩
    · intro h _
      obtain ⟨route, hroute, hbackends⟩ := (Option.any_eq_true ..).mp hsame
      have hbackends := of_decide_eq_true hbackends
      obtain ⟨hplain, hpatterns⟩ := h route hroute hbackends
      obtain ⟨hmem, hkey, htable⟩ := routesOf_of_reach hreach _ _ hroute
      have hpattern : route.pattern = path := hhash hmem hpath hkey.symm
      rw [hbackends] at htable
      refine ⟨route.maglevTable, htable, ?_, hpatterns⟩
      rw [hroute, hplain, ← hpattern, ← hbackends]
      rfl
  · refine iff_of_true (installed_of_write (hvalid path hpath) hsame) ?_
    intro route hroute hbackends
    refine absurd ((Option.any_eq_true ..).mpr ⟨route, hroute, ?_⟩) hsame
    exact decide_eq_true hbackends

/-- A route that was added, and is added again. -/
theorem ok_means_installed_iff_again :
    Installed .get "/api".toList [.sample]
      ((Router.new.addRoute .scan .newestFirst .get "/api".toList [.sample]).2.addRoute .scan
        .newestFirst .get "/api".toList [.sample]).2 := by
  let s := Router.new.call .scan (.addRoute .newestFirst .get "/api".toList [.sample])
  have hreach : (routerSystem .scan).Reach (AddsPath {"/api".toList}) .new s :=
    System.Reach.refl.tail (a := .addRoute .newestFirst .get "/api".toList [.sample])
      (Set.mem_singleton _) rfl
  have hvalid : ∀ path ∈ ({"/api".toList} : Set Str), validatePath path = .ok () := by
    rintro path rfl
    rfl
  have hinstalled : Installed .get "/api".toList [.sample] s :=
    installed_of_write rfl (nofun : ¬ Router.new.hasRoute .get "/api".toList [.sample])
      (by decide +kernel)
  refine (ok_means_installed_iff hvalid (Set.injOn_singleton _ _) hreach .newestFirst .get
    (Set.mem_singleton _) [.sample]).mpr ?_ ?_
  · intro route hroute _
    obtain ⟨table, -, hlookup, hpatterns⟩ := hinstalled
    rw [hroute, Option.some.injEq] at hlookup
    exact ⟨by rw [hlookup]; rfl, hpatterns⟩
  · obtain ⟨table, -, hlookup, -⟩ := hinstalled
    have hsame : s.hasRoute .get "/api".toList [.sample] :=
      (Option.any_eq_true ..).mpr ⟨_, hlookup, decide_eq_true rfl⟩
    show (s.addRoute .scan .newestFirst .get "/api".toList [.sample]).1 = .ok
    rw [addRoute, if_pos hsame]

/-- A permanent redirect to HTTPS. -/
def toHttps : RequestRedirect := ⟨.movedPermanently, some "https".toList, none, none, none⟩

/-- **`Ok` for a route that is not there**: after `add_route_with_redirect`, adding the route
without the redirect returns `Ok` and leaves the redirect in place. -/
theorem exists_ok_not_installed :
    ¬ ∀ (M : Matchit), M.Lawful →
      ∀ (paths : Set Str), (∀ path ∈ paths, validatePath path = .ok ()) →
      Set.InjOn pathHash paths → ∀ s,
      (routerSystem M).Reach (AddsPath paths) .new s →
      ∀ ord method path, path ∈ paths → ∀ backends,
        (s.addRoute M ord method path backends).1 = .ok →
        Installed method path backends (s.addRoute M ord method path backends).2 := by
  intro h
  let s := Router.new.call .scan
    (.addRouteWith .newestFirst .get "/api".toList [.sample] (.redirect toHttps))
  have hreach : (routerSystem .scan).Reach (AddsPath {"/api".toList}) .new s :=
    System.Reach.refl.tail
      (a := .addRouteWith .newestFirst .get "/api".toList [.sample] (.redirect toHttps))
      (Set.mem_singleton _) rfl
  obtain ⟨table, htable⟩ := exists_maglevBuildCompactTable
    (by decide : [Backend.sample].length ≤ maxBackends)
  let w : Write := ⟨.newestFirst, .withFilters, .get, "/api".toList,
    { Route.basic "/api".toList [.sample] table with redirect := some toHttps }, false⟩
  have hwrite : (RouterCall.addRouteWith .newestFirst .get "/api".toList [.sample]
      (.redirect toHttps)).write .new = some w := by
    rw [RouterCall.write, htable, Option.map_some]
    rfl
  have hroutes : s.routes.lookup (routeKey .get "/api".toList) = some w.route := by
    show (Router.new.addRouteWith .scan .newestFirst .get "/api".toList [.sample]
      (.redirect toHttps)).2.routes.lookup _ = _
    rw [addRouteWith_eq_commit hwrite, commit_routes]
    exact AList.lookup_insert _
  have hsame : s.hasRoute .get "/api".toList [.sample] :=
    (Option.any_eq_true ..).mpr ⟨_, hroutes, decide_eq_true rfl⟩
  have hself : s.addRoute .scan .newestFirst .get "/api".toList [.sample] = (.ok, s) := by
    rw [addRoute, if_pos hsame]
  have hvalid : ∀ path ∈ ({"/api".toList} : Set Str), validatePath path = .ok () := by
    rintro path rfl
    rfl
  have hinstalled := h .scan Matchit.scan_lawful {"/api".toList} hvalid (Set.injOn_singleton _ _) s
    hreach .newestFirst .get _ (Set.mem_singleton _) [.sample]
  rw [hself] at hinstalled
  obtain ⟨table', -, hlookup, -⟩ := hinstalled rfl
  rw [hroutes, Option.some.injEq] at hlookup
  exact absurd (congrArg Route.redirect hlookup) (Option.some_ne_none toHttps)

end Router

end Rauta
