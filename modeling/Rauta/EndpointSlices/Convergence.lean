import Rauta.EndpointSlices
import Rauta.Router.Recovery

/-!
# Convergence of the watcher

The watcher is there to make the routes of a tracked path hold exactly the ready endpoints of its
service. It does so only for the route under `GET`, the method it hands to `update_route_backends`
in the belief that `GET` matches every method. A route that HTTPRoute registered under `ALL`, which
is what a rule without a method gives, keeps its backends forever, and the first event even puts a
`GET` route in front of it.

`Watcher.Fits` says when an event leaves the routes converged. Nothing at all is written when a
slice is deleted, or when no endpoint is ready: then the routes must hold the right endpoints
already. Otherwise they are written, and have the endpoints that aggregation found, which are the
ready endpoints if these are all on one port and no two have the same address bytes.
-/

namespace Rauta

open Transition Collect

/-! ## Rewriting a route -/

/-- Writing a route over one with the same path leaves the patterns what they are. -/
theorem Rebuild.table_insert_perm (r : Rebuild) {routes : RouteMap} {key : RouteKey}
    {route route' : Route} (h : routes.lookup key = some route)
    (hpattern : route'.pattern = route.pattern) :
    (r.table (routes.insert key route')).Perm (r.table routes) := by
  rw [r.table_insert_congr routes key hpattern]
  refine List.Perm.flatMap_right _ ?_
  have hmem : key ∈ routes := AList.lookup_isSome.mp (Option.isSome_iff_exists.mpr ⟨route, h⟩)
  obtain ⟨old, before, after, -, hentries, hrest⟩ := List.exists_of_kerase hmem
  have hold : old = route := by
    have hin : (⟨key, old⟩ : RouteEntry) ∈ routes.entries := hentries ▸ by simp
    exact Option.some.inj ((AList.mem_lookup_iff.mpr hin).symm.trans h)
  rw [AList.entries_insert, hrest, hentries, hold]
  exact List.perm_middle.symm

namespace Router

variable {M : Matchit} {s : Router} {ord : IterOrder} {path : Str} {backends : List Backend}

/-- The path has a route under `GET`. -/
def Registered (s : Router) (path : Str) : Prop :=
  ∃ route, s.routes.lookup (routeKey .get path) = some route ∧ route.pattern = path

/-- The path has a route under `GET`, with these backends. -/
def Holds (s : Router) (backends : List Backend) (path : Str) : Prop :=
  ∃ route, s.routes.lookup (routeKey .get path) = some route ∧ route.backends = backends

/-- A path stays registered when only another one, registered before and after, was written. -/
theorem Registered.of_frame {s s' : Router} {path path' : Str} (hreg : s.Registered path)
    (hreg' : s'.Registered path)
    (hframe : ∀ key ≠ routeKey .get path, s'.routes.lookup key = s.routes.lookup key)
    (h : s.Registered path') : s'.Registered path' := by
  obtain ⟨route, hroute, hpattern⟩ := hreg
  obtain ⟨route', hroute', hpattern'⟩ := h
  by_cases hkey : routeKey .get path' = routeKey .get path
  · -- A path that shares the key is the same path.
    have hsame : route' = route := by
      rw [hkey, hroute] at hroute'
      exact (Option.some.inj hroute').symm
    rw [← hpattern', hsame, hpattern]
    exact hreg'
  · exact ⟨route', (hframe _ hkey).trans hroute', hpattern'⟩

/-- Updating a registered path succeeds, and changes its `GET` route only. -/
theorem updateRouteBackends_registered (hM : M.Lawful) (ord : IterOrder)
    (hfew : backends.length ≤ maxBackends) (hb : ¬ Blocked M s) (hreg : s.Registered path) :
    ∃ s', s.updateRouteBackends M ord .get path backends = (.ok, s') ∧ ¬ Blocked M s' ∧
      s'.Registered path ∧ s'.Holds backends path ∧
      ∀ key ≠ routeKey .get path, s'.routes.lookup key = s.routes.lookup key := by
  obtain ⟨route, hroute, hpattern⟩ := hreg
  by_cases hsame : s.hasRoute .get path backends
  · refine ⟨s, by rw [updateRouteBackends, addRoute, if_pos hsame], hb, ⟨route, hroute, hpattern⟩,
      ⟨route, hroute, ?_⟩, fun key _ => rfl⟩
    simpa [hasRoute, hroute] using hsame
  · obtain ⟨table, -, hroutes⟩ := addRoute_routes M ord hsame hfew
    have hbuilt : M.Built (Rebuild.addRoute.table
        (s.routes.insert (routeKey .get path) (.basic path backends table))) :=
      (not_not.mp hb).perm hM (Rebuild.table_insert_perm .addRoute hroute hpattern.symm).symm
    have hacc : s.Accepts M .get path := (accepts_iff backends table).mpr hbuilt
    have hok : (s.addRoute M ord .get path backends).1 = .ok := by
      rcases addRoute_cases hM s ord .get path hfew with h | h | h
      · exact absurd h.1 hsame
      · exact h.2.2
      · exact absurd hacc h.2.1
    have hlookup : (s.addRoute M ord .get path backends).2.routes.lookup (routeKey .get path) =
        some (.basic path backends table) := by
      rw [hroutes, AList.lookup_insert]
    refine ⟨(s.addRoute M ord .get path backends).2, Prod.ext hok rfl, ?_, ⟨_, hlookup, rfl⟩,
      ⟨_, hlookup, rfl⟩, fun key hkey => ?_⟩
    · rw [Blocked, hroutes]
      exact not_not.mpr hbuilt
    · rw [hroutes, AList.lookup_insert_ne hkey]

/-- **The update loop** gives every registered path the backends, under `GET`, and changes nothing
else. -/
theorem updateRoutes_registered (hM : M.Lawful) (ord : IterOrder)
    (hfew : backends.length ≤ maxBackends) {paths : List Str} (hb : ¬ Blocked M s)
    (hreg : ∀ path ∈ paths, s.Registered path) :
    ∃ s', s.updateRoutes M ord backends paths = (.ok, s') ∧ ¬ Blocked M s' ∧
      (∀ path, s.Registered path → s'.Registered path) ∧
      (∀ path ∈ paths, s'.Holds backends path) ∧
      ∀ key, (∀ path ∈ paths, key ≠ routeKey .get path) →
        s'.routes.lookup key = s.routes.lookup key := by
  induction paths generalizing s with
  | nil => exact ⟨s, rfl, hb, fun _ h => h, by simp, fun key _ => rfl⟩
  | cons path paths ih =>
      have hpath := hreg path List.mem_cons_self
      obtain ⟨s₁, hupdate, hb₁, hreg₁, hholds₁, hframe₁⟩ :=
        updateRouteBackends_registered hM ord hfew hb hpath
      have hkept : ∀ path', s.Registered path' → s₁.Registered path' := fun _ =>
        hpath.of_frame hreg₁ hframe₁
      obtain ⟨s', hrest, hb', hkept', hholds, hframe⟩ :=
        ih hb₁ fun path' hmem => hkept path' (hreg path' (List.mem_cons_of_mem path hmem))
      refine ⟨s', by rw [updateRoutes, hupdate]; exact hrest, hb',
        fun path' h => hkept' path' (hkept path' h), ?_, ?_⟩
      · intro path' hmem
        rcases List.mem_cons.mp hmem with rfl | hmem
        · -- The head keeps its backends unless a later path has its key, and then gets them again.
          by_cases hagain : ∃ path'' ∈ paths, routeKey .get path' = routeKey .get path''
          · obtain ⟨path'', hmem'', hkey⟩ := hagain
            obtain ⟨route, hroute, hbackends⟩ := hholds path'' hmem''
            exact ⟨route, hkey ▸ hroute, hbackends⟩
          · obtain ⟨route, hroute, hbackends⟩ := hholds₁
            refine ⟨route, (hframe _ fun path'' hmem'' hkey => ?_).trans hroute, hbackends⟩
            exact hagain ⟨path'', hmem'', hkey⟩
        · exact hholds path' hmem
      · intro key hkey
        rw [hframe key fun path' hmem => hkey path' (List.mem_cons_of_mem path hmem),
          hframe₁ key (hkey path List.mem_cons_self)]

/-- Every route stored for one of the paths, whatever its method, has exactly these backends. -/
def Reflects (s : Router) (paths : List Str) (backends : List Backend) : Prop :=
  ∀ path ∈ paths, ∀ method route, s.routes.lookup (routeKey method path) = some route →
    ∀ b, b ∈ route.backends ↔ b ∈ backends

/-- The same for the methods other than `GET`. -/
def ReflectsBesidesGet (s : Router) (paths : List Str) (backends : List Backend) : Prop :=
  ∀ path ∈ paths, ∀ method ≠ .get, ∀ route,
    s.routes.lookup (routeKey method path) = some route → ∀ b, b ∈ route.backends ↔ b ∈ backends

end Router

namespace Watcher

open Router

variable {M : Matchit} {w : Watcher} {key : Str}

/-! ## Bookkeeping -/

theorem slices_store (w : Watcher) (key : Str) (slice : EndpointSlice) :
    (w.store key slice).slices key = (w.slices key).insert slice.nameAny slice := by
  simp [slices, store]

/-! ## Convergence -/

/-- Every route stored for a tracked path holds exactly the ready endpoints of its service. -/
def Converged (w : Watcher) : Prop :=
  ∀ key paths, w.serviceRoutes.lookup key = some paths →
    w.router.Reflects paths (readyEndpoints (w.slices key))

/-- The same for the services other than one. -/
def ConvergedBesides (w : Watcher) (key : Str) : Prop :=
  ∀ key' ≠ key, ∀ paths, w.serviceRoutes.lookup key' = some paths →
    w.router.Reflects paths (readyEndpoints (w.slices key'))

theorem converged_iff (w : Watcher) (key : Str) : w.Converged ↔ w.ConvergedBesides key ∧
    ∀ paths, w.serviceRoutes.lookup key = some paths →
      w.router.Reflects paths (readyEndpoints (w.slices key)) := by
  constructor
  · intro h
    exact ⟨fun key' _ => h key', h key⟩
  · rintro ⟨hbesides, hown⟩ key'
    by_cases hkey : key' = key
    · exact hkey ▸ hown
    · exact hbesides key' hkey

/-- Only the bookkeeping of the other services matters. -/
theorem ConvergedBesides.congr {w' : Watcher} (h : w.ConvergedBesides key)
    (hrouter : w'.router = w.router)
    (hroutes : ∀ key' ≠ key, w'.serviceRoutes.lookup key' = w.serviceRoutes.lookup key')
    (hslices : ∀ key' ≠ key, w'.serviceSlices.lookup key' = w.serviceSlices.lookup key') :
    w'.ConvergedBesides key := by
  intro key' hkey' paths hpaths
  rw [hroutes key' hkey'] at hpaths
  rw [hrouter, slices, hslices key' hkey']
  exact h key' hkey' paths hpaths

/-- What it takes to write the ready endpoints of some slices to the routes of the paths. -/
structure Updatable (M : Matchit) (w : Watcher) (key : Str) (paths : List Str) (port : UInt16)
    (ready : List Backend) : Prop where
  few : ready.dedup.length ≤ maxBackends
  onePort : ∀ b ∈ ready, b.port = port
  apart : ∀ b ∈ ready, ∀ b' ∈ ready, b.ip = b'.ip → b = b'
  registered : ∀ path ∈ paths, w.router.Registered path
  rebuilds : ¬ Blocked M w.router
  besidesGet : w.router.ReflectsBesidesGet paths ready
  unshared : ∀ key' ≠ key, ∀ paths', w.serviceRoutes.lookup key' = some paths' →
    ∀ path' ∈ paths', ∀ path ∈ paths, pathHash path' ≠ pathHash path

/-- When an event leaves the routes converged. -/
def Fits (M : Matchit) (w : Watcher) : SliceEvent → Prop
  | .apply _ _ slice =>
    match slice.serviceName with
    | none => w.Converged
    | some service =>
      let key := slice.serviceKey service
      let ready := readyEndpoints ((w.slices key).insert slice.nameAny slice)
      w.ConvergedBesides key ∧ ∀ paths, w.serviceRoutes.lookup key = some paths →
        if ready = [] then w.router.Reflects paths []
        else w.Updatable M key paths slice.targetPort ready
  | .delete slice =>
    let key := slice.serviceKey (slice.serviceName.getD [])
    let slices := (w.slices key).erase slice.nameAny
    w.ConvergedBesides key ∧ ∀ paths, w.serviceRoutes.lookup key = some paths →
      -- With the last slice the tracking ends.
      (key ∈ w.serviceSlices → slices.entries ≠ []) →
      w.router.Reflects paths (readyEndpoints slices)

variable {paths : List Str} {port : UInt16}

/-- **The update**: it succeeds, and the routes of all services hold what is ready. -/
theorem Updatable.exists_converged (hM : M.Lawful) (ord : IterOrder) (order : SliceOrder)
    (hu : w.Updatable M key paths port (readyEndpoints (w.slices key)))
    (hbesides : w.ConvergedBesides key) (hpaths : w.serviceRoutes.lookup key = some paths) :
    ∃ router, w.router.updateRoutes M ord (w.aggregateBackendsForService order key port) paths =
      (.ok, router) ∧ ({ w with router := router } : Watcher).Converged := by
  have hmem := fun b => mem_aggregateBackendsForService_iff order hu.onePort hu.apart (b := b)
  have hfew : (w.aggregateBackendsForService order key port).length ≤ maxBackends :=
    (length_aggregateBackendsForService_le order hu.onePort).trans hu.few
  obtain ⟨router, hupdate, -, -, hholds, hframe⟩ :=
    updateRoutes_registered hM ord hfew hu.rebuilds hu.registered
  refine ⟨router, hupdate, (converged_iff _ key).mpr ⟨?_, ?_⟩⟩
  · -- The paths of other services have other keys.
    intro key' hkey' paths' hpaths' path' hpath' method route hroute
    refine hbesides key' hkey' paths' hpaths' path' hpath' method route ?_
    rw [← hroute]
    refine (hframe _ fun path hpath heq => ?_).symm
    exact hu.unshared key' hkey' paths' hpaths' path' hpath' path hpath
      (congrArg RouteKey.pathHash heq)
  · intro paths' hpaths' path hpath method route hroute b
    obtain rfl : paths = paths' := Option.some.inj (hpaths.symm.trans hpaths')
    by_cases hmethod : method = .get
    · obtain ⟨route', hroute', hbackends⟩ := hholds path hpath
      obtain rfl : route' = route := by
        rw [hmethod] at hroute
        exact Option.some.inj (hroute'.symm.trans hroute)
      rw [hbackends]
      exact hmem b
    · refine hu.besidesGet path hpath method hmethod route ?_ b
      rw [← hroute]
      exact (hframe _ fun path' _ heq => hmethod (congrArg RouteKey.method heq)).symm

/-- **A written slice** that fits leaves the routes converged. -/
theorem converged_handleEndpointsliceApply (hM : M.Lawful) (ord : IterOrder) (order : SliceOrder)
    {slice : EndpointSlice} (h : w.Fits M (.apply ord order slice)) :
    (w.handleEndpointsliceApply M ord order slice).1 ≠ .panic ∧
      (w.handleEndpointsliceApply M ord order slice).2.Converged := by
  unfold handleEndpointsliceApply
  cases hservice : slice.serviceName with
  | none =>
      simp only [Fits, hservice] at h
      exact ⟨by simp, h⟩
  | some service =>
      simp only [Fits, hservice] at h
      obtain ⟨hbesides, hown⟩ := h
      -- From here on only the stored slices count.
      rw [← slices_store w] at hown
      replace hbesides : (w.store (slice.serviceKey service) slice).ConvergedBesides
          (slice.serviceKey service) :=
        hbesides.congr rfl (fun _ _ => rfl) fun _ hkey' => AList.lookup_insert_ne hkey'
      simp only [aggregateBackendsForService_eq_nil_iff]
      split
      · next hnone =>
        simp only [hnone, if_true] at hown
        refine ⟨by simp, (converged_iff _ _).mpr ⟨hbesides, ?_⟩⟩
        rw [hnone]
        exact hown
      · next hsome =>
        simp only [hsome, if_false] at hown
        split
        · next hpaths =>
          refine ⟨by simp, (converged_iff _ _).mpr ⟨hbesides, ?_⟩⟩
          rw [hpaths]
          simp
        · next paths hpaths =>
          have hu : (w.store (slice.serviceKey service) slice).Updatable M
              (slice.serviceKey service) paths slice.targetPort
              (readyEndpoints ((w.store (slice.serviceKey service) slice).slices
                (slice.serviceKey service))) :=
            have hu := hown paths hpaths
            ⟨hu.few, hu.onePort, hu.apart, hu.registered, hu.rebuilds, hu.besidesGet, hu.unshared⟩
          obtain ⟨router, hupdate, hconv⟩ :=
            hu.exists_converged hM ord order hbesides hpaths
          rw [hupdate]
          exact ⟨by simp, hconv⟩

/-- **A deleted slice** that fits leaves the routes converged. -/
theorem converged_handleDelete {slice : EndpointSlice} (h : w.Fits M (.delete slice)) :
    (w.handleDelete slice).Converged := by
  simp only [Fits] at h
  obtain ⟨hbesides, hown⟩ := h
  simp only [handleDelete]
  generalize slice.serviceKey (slice.serviceName.getD []) = key at hbesides hown ⊢
  cases hlookup : w.serviceSlices.lookup key with
  | none =>
      have hempty : (w.slices key).erase slice.nameAny = w.slices key := by
        rw [slices, hlookup]
        rfl
      rw [hempty] at hown
      refine (converged_iff _ key).mpr ⟨hbesides, fun paths hpaths => hown paths hpaths ?_⟩
      exact fun hmem => absurd hmem (AList.lookup_eq_none.mp hlookup)
  | some slices =>
      have hslices : w.slices key = slices := by
        rw [Watcher.slices, hlookup, Option.getD_some]
      rw [hslices] at hown
      dsimp only
      split
      · -- The last slice: the service is no longer tracked.
        refine (converged_iff _ key).mpr ⟨?_, fun paths hpaths => ?_⟩
        · exact hbesides.congr rfl (fun _ hkey' => AList.lookup_erase_ne hkey')
            fun _ hkey' => AList.lookup_erase_ne hkey'
        · rw [AList.lookup_erase] at hpaths
          cases hpaths
      · next hleft =>
        refine (converged_iff _ key).mpr ⟨?_, fun paths hpaths => ?_⟩
        · exact hbesides.congr rfl (fun _ _ => rfl) fun _ hkey' => AList.lookup_insert_ne hkey'
        · rw [Watcher.slices, AList.lookup_insert]
          exact hown paths hpaths fun _ => hleft

/-- An event that fits leaves the routes converged. -/
theorem Fits.converged (hM : M.Lawful) {event : SliceEvent} (h : w.Fits M event) :
    (w.handle M event).Converged := by
  cases event with
  | apply ord order slice =>
      obtain ⟨hpanic, hconv⟩ := converged_handleEndpointsliceApply hM ord order h
      rw [handle]
      split
      · next heq => exact absurd (congrArg Prod.fst heq) hpanic
      · next heq => rwa [heq] at hconv
  | delete slice => exact converged_handleDelete h

/-- **Convergence**: in a run whose events all fit, the routes are converged after every event. -/
theorem converged_of_reach (hM : M.Lawful) {w₀ : Watcher}
    (h : (watcherSystem M).Reach (Fits M) w₀ w) : w = w₀ ∨ w.Converged := by
  cases h with
  | refl => exact Or.inl rfl
  | tail _ hfits hstep =>
      obtain ⟨-, hw⟩ := Option.ite_none_right_eq_some.mp hstep
      cases hw
      exact Or.inr (hfits.converged hM)

/-! ## Two runs -/

/-- The watcher at its start, with the given tracking. -/
def start (router : Router) (serviceRoutes : AList fun _ : Str => List Str) : Watcher where
  router := router
  serviceRoutes := serviceRoutes
  serviceSlices := ∅
  running := true

/-- A slice of `api-service` whose pods are all ready, on port 8080. -/
def apiSlice (addresses : List Str) : EndpointSlice where
  metadata :=
    { name := some "api-service-abc123".toList
      generateName := none
      metaNamespace := some "default".toList
      labels := some (AList.singleton serviceNameLabel "api-service".toList) }
  endpoints := addresses.map fun address => ⟨[address], some ⟨some true⟩⟩
  ports := some [⟨some "http".toList, some 8080⟩]

/-- Its service, tracked for one path. -/
def apiRoutes (path : Str) : AList fun _ : Str => List Str :=
  AList.singleton "default/api-service".toList [path]

theorem lookup_apiRoutes {path key : Str} {paths : List Str}
    (h : (apiRoutes path).lookup key = some paths) :
    key = "default/api-service".toList ∧ paths = [path] := by
  have hmem : (⟨key, paths⟩ : Sigma fun _ : Str => List Str) ∈ (apiRoutes path).entries :=
    AList.mem_lookup_iff.mp h
  cases List.mem_singleton.mp hmem
  exact ⟨rfl, rfl⟩

/-- A scale-up of a service that is routed to under `GET`. -/
theorem converged_of_reach_scaleUp :
    ((start (started .scan .newestFirst .get "/api/users".toList [.sample])
      (apiRoutes "/api/users".toList)).handle .scan (.apply .newestFirst .newestFirst
        (apiSlice ["10.0.1.2".toList, "10.0.1.3".toList]))).Converged := by
  let s := started .scan .newestFirst .get "/api/users".toList [.sample]
  let w₀ := start s (apiRoutes "/api/users".toList)
  let slice := apiSlice ["10.0.1.2".toList, "10.0.1.3".toList]
  let event := SliceEvent.apply .newestFirst .newestFirst slice
  have hservice : slice.serviceName = some "api-service".toList := by decide +kernel
  have hkey : slice.serviceKey "api-service".toList = "default/api-service".toList := by
    decide +kernel
  have hready : readyEndpoints ((w₀.slices "default/api-service".toList).insert
      slice.nameAny slice) = [.fromIpv4 10 0 1 2 8080 100, .fromIpv4 10 0 1 3 8080 100] := by
    decide +kernel
  have hkeys : s.routes.keys = [routeKey .get "/api/users".toList] := by decide +kernel
  obtain ⟨table, -, hroute⟩ := started_onlyRoute .scan .newestFirst .get "/api/users".toList
    (by decide : [Backend.sample].length ≤ maxBackends)
  have hfits : w₀.Fits .scan event := by
    simp only [event, Fits, hservice, hkey, hready]
    refine ⟨fun key' hne paths hpaths => absurd (lookup_apiRoutes hpaths).1 hne, ?_⟩
    intro paths hpaths
    obtain ⟨-, rfl⟩ := lookup_apiRoutes hpaths
    rw [if_neg (by simp)]
    refine ⟨by decide, by decide, by decide, ?_, fun hb => hb (by decide +kernel), ?_, ?_⟩
    · intro path hpath
      rw [List.mem_singleton.mp hpath]
      exact ⟨_, hroute.own, rfl⟩
    · intro path hpath method hmethod route hlookup
      have hmem : routeKey method path ∈ s.routes.keys :=
        AList.mem_keys.mp (AList.lookup_isSome.mp (hlookup ▸ rfl))
      rw [hkeys, List.mem_singleton] at hmem
      exact absurd (congrArg RouteKey.method hmem) hmethod
    · intro key' hne paths' hpaths'
      exact absurd (lookup_apiRoutes hpaths').1 hne
  have hreach : (watcherSystem .scan).Reach (Fits .scan) w₀ (w₀.handle .scan event) :=
    System.Reach.refl.tail hfits rfl
  refine (converged_of_reach Matchit.scan_lawful hreach).resolve_left fun heq => ?_
  have hkeys := congrArg (fun w => w.serviceSlices.keys) heq
  revert hkeys
  decide +kernel

/-- **Routes that are never updated**: `/api` is routed to under `ALL`, as HTTPRoute registers a
rule without a method. The pod moves from 10.0.1.1 to 10.0.1.2, and the route stays with the old
one. -/
theorem exists_not_converged :
    ¬ ∀ M : Matchit, M.Lawful → ∀ s, (routerSystem M).Reach System.Anything .new s →
      ∀ serviceRoutes : AList fun _ : Str => List Str,
      (∀ key paths, serviceRoutes.lookup key = some paths →
        ∀ path ∈ paths, ∃ method, routeKey method path ∈ s.routes) →
      ∀ w, (watcherSystem M).Reach System.Anything (start s serviceRoutes) w →
        w = start s serviceRoutes ∨ w.Converged := by
  intro h
  let s := started .scan .newestFirst .all "/api".toList [.sample]
  let w₀ := start s (apiRoutes "/api".toList)
  let w := w₀.handle .scan
    (.apply .newestFirst .newestFirst (apiSlice ["10.0.1.2".toList]))
  have hs : (routerSystem .scan).Reach System.Anything .new s :=
    System.Reach.refl.tail (a := .addRoute .newestFirst .all "/api".toList [.sample]) trivial rfl
  have hw : (watcherSystem .scan).Reach System.Anything w₀ w :=
    System.Reach.refl.tail trivial rfl
  have hregistered : ∀ key paths, (apiRoutes "/api".toList).lookup key = some paths →
      ∀ path ∈ paths, ∃ method, routeKey method path ∈ s.routes := by
    intro key paths hpaths path hpath
    obtain ⟨-, rfl⟩ := lookup_apiRoutes hpaths
    rw [List.mem_singleton.mp hpath]
    exact ⟨.all, by decide +kernel⟩
  have hroute : (w.router.routes.lookup (routeKey .all "/api".toList)).map (·.backends) =
      some [.sample] := by
    decide +kernel
  have hready : readyEndpoints (w.slices "default/api-service".toList) =
      [.fromIpv4 10 0 1 2 8080 100] := by
    decide +kernel
  have htracked : w.serviceRoutes.lookup "default/api-service".toList = some ["/api".toList] := by
    decide +kernel
  rcases h .scan Matchit.scan_lawful s hs _ hregistered w hw with heq | hconv
  · have hkeys := congrArg (fun w => w.serviceSlices.keys) heq
    revert hkeys
    decide +kernel
  · obtain ⟨route, hlookup, hbackends⟩ := Option.map_eq_some_iff.mp hroute
    have hsample := (hconv _ _ htracked _ List.mem_cons_self .all route hlookup .sample).mp
      (hbackends ▸ List.mem_cons_self)
    rw [hready] at hsample
    revert hsample
    decide

end Watcher

end Rauta
