import Rauta.Maglev.Removal
import Rauta.Router.FlowHash
import Rauta.Router.Rebuild

/-!
# Selecting a backend

A request probes slots of the route's Maglev table, from its flow hash on, and takes the first
backend that passes the test of the function it was made through. So a selected backend owns a slot
and passes that test (`selectByMask_some`, `selectBySet_some`). Conversely a slot of any number can
be the first one that a request probes: the flow hash mixes in the source address, and `exists_flow`
finds a source for every slot.

`select_backend` tests passive health, active health and draining. The other two leave out active
health, which does not show as long as no backend is down for the active checks alone
(`NoneDownActively`).
-/

namespace Rauta

open Transition

/-! ## The loops -/

/-- The backend owns a slot of the table. -/
def Route.OwnsSlot (route : Route) (b : Backend) : Prop :=
  ∃ flowKey, route.backends[maglevLookupCompact flowKey route.maglevTable]? = some b

namespace Route

variable {route : Route} {eligible : Backend → Bool} {flowHash : Nat} {b : Backend}

theorem maskLoop_some {attempts : List Nat} {triedMask triedCount : Nat}
    (h : route.maskLoop eligible flowHash attempts triedMask triedCount = some b) :
    eligible b ∧ route.OwnsSlot b := by
  induction attempts generalizing triedMask triedCount with
  | nil => cases h
  | cons attempt rest ih =>
      simp only [maskLoop] at h
      split at h
      · exact ih h
      split at h
      · cases h
      · next b' hb' =>
        split at h
        · next he =>
          cases h
          exact ⟨he, _, hb'⟩
        split at h
        · cases h
        · exact ih h

theorem setLoop_some {attempts triedIndices : List Nat}
    (h : route.setLoop eligible flowHash attempts triedIndices = some b) :
    eligible b ∧ route.OwnsSlot b := by
  induction attempts generalizing triedIndices with
  | nil => cases h
  | cons attempt rest ih =>
      simp only [setLoop] at h
      split at h
      · exact ih h
      split at h
      · cases h
      · next b' hb' =>
        split at h
        · next he =>
          cases h
          exact ⟨he, _, hb'⟩
        split at h
        · cases h
        · exact ih h

theorem selectByMask_some (h : route.selectByMask eligible flowHash = some b) :
    eligible b ∧ route.OwnsSlot b := maskLoop_some h

theorem selectBySet_some (h : route.selectBySet eligible flowHash = some b) :
    eligible b ∧ route.OwnsSlot b := setLoop_some h

/-- Where there is a backend there is a first attempt. -/
theorem attempts_eq_cons {k : Nat} (h : route.backends[k]? = some b) :
    ∃ rest, route.attempts = 0 :: rest := by
  obtain ⟨hk, -⟩ := List.getElem?_eq_some_iff.mp h
  obtain ⟨n, hn⟩ : ∃ n, route.backends.length * 10 = n + 1 :=
    Nat.exists_eq_succ_of_ne_zero (by omega)
  exact ⟨_, by rw [attempts, hn, List.range_succ_eq_map]⟩

/-- The first probe decides, if its backend passes the test. -/
theorem selectByMask_first (hb : route.backends[route.probe flowHash 0]? = some b)
    (he : eligible b) : route.selectByMask eligible flowHash = some b := by
  obtain ⟨rest, hrest⟩ := attempts_eq_cons hb
  simp [selectByMask, hrest, maskLoop, hb, he]

theorem selectBySet_first (hb : route.backends[route.probe flowHash 0]? = some b)
    (he : eligible b) : route.selectBySet eligible flowHash = some b := by
  obtain ⟨rest, hrest⟩ := attempts_eq_cons hb
  simp [selectBySet, hrest, setLoop, hb, he]

end Route

/-- With the table that was built for them, all slots belong to the backends. -/
theorem Route.exists_slot (path : Str) {backends : List Backend} {table : List Nat}
    (hne : backends ≠ []) (htable : maglevBuildCompactTable backends = some table) (flowKey : Nat) :
    ∃ b ∈ backends, (Route.basic path backends table).backends[
      maglevLookupCompact flowKey (Route.basic path backends table).maglevTable]? = some b := by
  have hlt := maglevLookupCompact_lt (maglevBuildCompactTable_lt hne htable) flowKey
  exact ⟨_, List.getElem_mem hlt, List.getElem?_eq_getElem hlt⟩

/-! ## A source for every slot -/

theorem maglevLookupCompact_congr {k k' : Nat} (h : k % compactMaglevSize = k' % compactMaglevSize)
    (table : List Nat) : maglevLookupCompact k table = maglevLookupCompact k' table := by
  simp only [maglevLookupCompact, h]

/-- The source of `exists_flow`, as a first probe. -/
theorem Route.OwnsSlot.exists_probe {route : Route} {b : Backend} (h : route.OwnsSlot b)
    (path : Str) : ∃ addr port, route.backends[route.probe
      (computeFlowHash (pathHash path) (some (.v4 addr)) (some port)) 0]? = some b := by
  obtain ⟨k, hk⟩ := h
  obtain ⟨addr, port, hflow⟩ := exists_flow (pathHash_lt path) k
  refine ⟨addr, port, ?_⟩
  rw [probe, Nat.add_zero, maglevLookupCompact_congr hflow]
  exact hk

/-! ## Eligible backends -/

/-- A backend that reaches a slot first owns it. -/
theorem Route.ownsSlot_of_reachedFirst {pattern : Str} {backends : List Backend} {table : List Nat}
    (htable : maglevBuildCompactTable backends = some table) {c k : Nat}
    (hc : c < compactMaglevSize) (hfirst : ReachedFirst backends c k) {b : Backend}
    (hb : backends[k]? = some b) : (Route.basic pattern backends table).OwnsSlot b := by
  have hne : backends ≠ [] := List.ne_nil_of_mem (List.mem_of_getElem? hb)
  have hlength := (maglevBuildCompactTable_lt hne htable).1
  have hentry : maglevLookupCompact c table = k := by
    have htable' : table ≠ [] := by
      rintro rfl
      cases hlength
    rw [maglevLookupCompact, if_neg htable', Nat.mod_eq_of_lt hc]
    exact (reachedFirst_entry hne htable hc).unique hfirst
  refine ⟨c, ?_⟩
  show backends[maglevLookupCompact c table]? = some b
  rw [hentry, hb]

namespace Router

variable {M : Matchit} {R : RegexCrate} {s : Router}

/-- Whatever a request gets from one of the three functions is eligible. -/
def OnlyEligible (M : Matchit) (R : RegexCrate) (s : Router) : Prop :=
  ∀ method path srcIp srcPort,
    (∀ rm, (s.selectBackend M method path srcIp srcPort).1 = some rm → s.eligible rm.backend) ∧
    (∀ headers rm, s.selectBackendWithHeaders M R method path srcIp srcPort headers = some rm →
      s.eligible rm.backend) ∧
    (∀ query rm, s.selectBackendWithQueryParams M R method path srcIp srcPort query = some rm →
      s.eligible rm.backend)

/-- No backend that owns a slot is down for the active checks only. -/
def NoneDownActively (s : Router) : Prop :=
  ∀ key route, s.routes.lookup key = some route → ∀ b, route.OwnsSlot b →
    s.eligiblePassive b → s.healthChecker.isHealthy b

theorem eligible_iff {b : Backend} :
    s.eligible b ↔ s.eligiblePassive b ∧ s.healthChecker.isHealthy b := by
  simp only [eligible, eligiblePassive, Bool.and_eq_true]
  tauto

/-- What `select_backend` selects. -/
theorem selectBackend_slot {method : HttpMethod} {path : Str} {srcIp : Option IpAddr}
    {srcPort : Option UInt16} {rm : RouteMatch}
    (h : (s.selectBackend M method path srcIp srcPort).1 = some rm) :
    s.eligible rm.backend ∧
      ∃ key route, s.routes.lookup key = some route ∧ route.OwnsSlot rm.backend := by
  obtain ⟨key, -, h⟩ := Option.bind_eq_some_iff.mp h
  unfold selectFrom at h
  split at h
  · cases h
  · next route hroute =>
    split at h
    · cases h
    · obtain ⟨b, hb, rfl⟩ := Option.map_eq_some_iff.mp h
      exact ⟨(Route.selectByMask_some hb).1, key, route, hroute, (Route.selectByMask_some hb).2⟩

/-- A request that resolves to a route without constraints gets one of its backends, if all of them
are eligible. -/
theorem exists_selectBackend {method : HttpMethod} {path path' : Str} {key : RouteKey}
    {backends : List Backend} {table : List Nat} (srcIp : Option IpAddr) (srcPort : Option UInt16)
    (hresolve : (s.resolve M method path).1 = some key)
    (hroute : s.routes.lookup key = some (.basic path' backends table)) (hne : backends ≠ [])
    (htable : maglevBuildCompactTable backends = some table) (heligible : ∀ b, s.eligible b) :
    ∃ b ∈ backends, (s.selectBackend M method path srcIp srcPort).1 =
      some ((Route.basic path' backends table).toMatch b) := by
  obtain ⟨b, hb, hslot⟩ := Route.exists_slot path' hne htable
    ((computeFlowHash (pathHash path) srcIp srcPort + 0) % 2 ^ 64)
  have hselect := Route.selectByMask_first hslot (heligible b)
  refine ⟨b, hb, ?_⟩
  show ((s.resolve M method path).1.bind fun key => s.selectFrom method path srcIp srcPort key) = _
  have hopen : (Route.basic path' backends table).methodMatches = none := rfl
  rw [hresolve, Option.bind_some]
  simp [selectFrom, hroute, hopen, hselect]

/-- What the other two functions select. -/
theorem selectMatching_slot {method : HttpMethod} {path : Str} {srcIp : Option IpAddr}
    {srcPort : Option UInt16} {accepts : Route → Bool} {rm : RouteMatch}
    (h : s.selectMatching M method path srcIp srcPort accepts = some rm) :
    s.eligiblePassive rm.backend ∧
      ∃ key route, s.routes.lookup key = some route ∧ route.OwnsSlot rm.backend := by
  unfold selectMatching at h
  split at h
  · cases h
  split at h
  · cases h
  · next key _ _ route hroute =>
    split at h
    · obtain ⟨b, hb, rfl⟩ := Option.map_eq_some_iff.mp h
      exact ⟨(Route.selectBySet_some hb).1, key, route, hroute, (Route.selectBySet_some hb).2⟩
    · cases h

theorem onlyEligible_of_noneDownActively (h : s.NoneDownActively) : OnlyEligible M R s := by
  have hmatching : ∀ {method path srcIp srcPort accepts rm},
      s.selectMatching M method path srcIp srcPort accepts = some rm → s.eligible rm.backend := by
    intro method path srcIp srcPort accepts rm hrm
    obtain ⟨hpassive, key, route, hroute, hslot⟩ := selectMatching_slot hrm
    exact eligible_iff.mpr ⟨hpassive, h key route hroute _ hslot hpassive⟩
  intro method path srcIp srcPort
  exact ⟨fun rm hrm => (selectBackend_slot hrm).1, fun headers rm => hmatching,
    fun query rm => hmatching⟩

/-! ## Reachable tables -/

/-- What holds of every route in a table: it is stored under the hash of its path, and has header or
query constraints but not both. -/
def TableInvariant (s : Router) : Prop :=
  ∀ key route, s.routes.lookup key = some route → key = routeKey key.method route.pattern ∧
    (route.headerMatches = [] ∨ route.queryParamMatches = [])

theorem write_route {c : RouterCall} {w : Write} (h : c.write s = some w) :
    w.route.pattern = w.path ∧ (w.route.headerMatches = [] ∨ w.route.queryParamMatches = []) := by
  cases c with
  | addRoute ord method path backends =>
      obtain ⟨-, table, -, rfl⟩ := RouterCall.of_write_addRoute h
      exact ⟨rfl, Or.inl rfl⟩
  | addRouteWith ord method path backends extra =>
      obtain ⟨table, -, rfl⟩ := Option.map_eq_some_iff.mp h
      cases extra with
      | headers hm => exact ⟨rfl, Or.inr rfl⟩
      | _ => exact ⟨rfl, Or.inl rfl⟩
  | selectBackend => cases h

/-- Every call keeps it. -/
theorem TableInvariant.call (h : s.TableInvariant) (c : RouterCall) :
    (s.call M c).TableInvariant := by
  rcases call_cases M s c with ⟨w, checker, hw, heq⟩ | heq | ⟨method, path, srcIp, srcPort, -, heq⟩
  · rw [heq]
    intro key route hroute
    change (s.commit M w).routes.lookup key = some route at hroute
    rw [commit_routes] at hroute
    rcases Write.lookup_routes hroute with ⟨rfl, rfl⟩ | hroute
    · obtain ⟨hpattern, hmatches⟩ := write_route hw
      exact ⟨by rw [hpattern]; rfl, hmatches⟩
    · exact h key route hroute
  · rw [heq]
    exact h
  · rw [heq]
    exact h

theorem tableInvariant_of_reach {config : HealthCheckConfig} {inRuntime : Bool}
    (h : (routerSystem M).Reach System.Anything (.withHealthConfig config inRuntime) s) :
    s.TableInvariant := by
  refine h.invariant ?_ ?_
  · intro key route hroute
    cases hroute
  · intro s c s' hs _ hstep
    cases hstep
    exact hs.call c

/-- A route is found under its own path. -/
theorem lookupExactOrPrefix_pattern (h : s.TableInvariant) {key : RouteKey} {route : Route}
    (hroute : s.routes.lookup key = some route) :
    s.lookupExactOrPrefix M key.method route.pattern = some key := by
  have hkey := (h key route hroute).1
  have hmem : key ∈ s.routes := AList.lookup_isSome.mp (by rw [hroute]; rfl)
  rw [lookupExactOrPrefix, ← hkey, if_pos hmem]

/-- An accepting route can be made to select any backend that owns one of its slots. -/
theorem exists_selectMatching (ht : s.TableInvariant) {key : RouteKey} {route : Route}
    (hroute : s.routes.lookup key = some route) {b : Backend} (hslot : route.OwnsSlot b)
    (hpassive : s.eligiblePassive b) {accepts : Route → Bool} (haccepts : accepts route) :
    ∃ addr port, s.selectMatching M key.method route.pattern (some (.v4 addr)) (some port) accepts =
      some (route.toMatch b) := by
  obtain ⟨addr, port, hprobe⟩ := hslot.exists_probe route.pattern
  have hselect := Route.selectBySet_first hprobe hpassive
  have hlookup := lookupExactOrPrefix_pattern (M := M) ht hroute
  exact ⟨addr, port, by simp [selectMatching, hlookup, hroute, haccepts, hselect]⟩

/-- In a table as the adding calls build it, any slot of any route can be probed through one of the
two functions that do not test active health. -/
theorem noneDownActively_of_onlyEligible (ht : s.TableInvariant) (h : OnlyEligible M R s) :
    s.NoneDownActively := by
  intro key route hroute b hslot hpassive
  apply And.right
  apply eligible_iff.mp
  rcases (ht key route hroute).2 with hm | hm
  · have haccepts : Route.acceptsHeaders R [] route = true := by simp [Route.acceptsHeaders, hm]
    obtain ⟨addr, port, hsel⟩ := exists_selectMatching ht hroute hslot hpassive haccepts
    exact (h key.method route.pattern _ _).2.1 [] _ hsel
  · have haccepts : Route.acceptsQueryParams R [] route = true := by
      simp [Route.acceptsQueryParams, hm]
    obtain ⟨addr, port, hsel⟩ := exists_selectMatching ht hroute hslot hpassive haccepts
    exact (h key.method route.pattern _ _).2.2 [] _ hsel

/-- The router with other health data and other results of the active checks. -/
def withHealth (s : Router) (health : HealthData)
    (states : AList (fun _ : Backend => BackendHealthState)) : Router :=
  { s with health := health, healthChecker := { s.healthChecker with states := states } }

/-- **Only eligible backends receive traffic** exactly in the states in which no backend with a slot
is down for the active checks alone. -/
theorem onlyEligible_iff (R : RegexCrate) {config : HealthCheckConfig} {inRuntime : Bool}
    (h : (routerSystem M).Reach System.Anything (.withHealthConfig config inRuntime) s)
    (health : HealthData) (states : AList (fun _ : Backend => BackendHealthState)) :
    OnlyEligible M R (s.withHealth health states) ↔
      NoneDownActively (s.withHealth health states) := by
  have ht : s.TableInvariant := tableInvariant_of_reach h
  have ht' : (s.withHealth health states).TableInvariant := ht
  exact ⟨noneDownActively_of_onlyEligible ht', onlyEligible_of_noneDownActively⟩

/-- Two backends. -/
def twoBackends : List Backend := [.sample, .other]

/-- Each of the two reaches a slot in the first round. -/
theorem twoBackends_ownsSlot {table : List Nat}
    (htable : maglevBuildCompactTable twoBackends = some table) {b : Backend}
    (hb : b ∈ twoBackends) : (Route.basic "/api".toList twoBackends table).OwnsSlot b := by
  have hfirst : ReachedFirst twoBackends 957 0 :=
    ⟨0, by decide, by decide +kernel, fun j hj => absurd hj (Nat.not_lt_zero j),
      fun m hm => absurd hm (Nat.not_lt_zero m)⟩
  have hsecond : ReachedFirst twoBackends 3880 1 :=
    ⟨0, by decide, by decide +kernel, fun j hj => absurd hj (Nat.not_lt_zero j),
      by decide +kernel⟩
  rcases List.mem_pair.mp hb with rfl | rfl
  · exact Route.ownsSlot_of_reachedFirst htable (by decide) hfirst rfl
  · exact Route.ownsSlot_of_reachedFirst htable (by decide) hsecond rfl

/-- A router whose active checks are on. -/
def checking : Router := .withHealthConfig { HealthCheckConfig.default with enabled := true } true

/-- The same with one route to one backend. -/
def probed : Router := checking.call .scan (.addRoute .newestFirst .get "/api".toList [.sample])

theorem probed_reach : (routerSystem .scan).Reach System.Anything checking probed :=
  System.Reach.refl.tail trivial rfl

/-- The same with one route to two backends. -/
def probedTwo : Router :=
  checking.call .scan (.addRoute .newestFirst .get "/api".toList twoBackends)

/-- The second backend is draining, and its probes fail. -/
def secondLeaving : Router :=
  probedTwo.withHealth (HealthData.new.drainBackend .other 0 30)
    (AList.singleton .other { BackendHealthState.new with status := .unhealthy })

/-- Since it is draining it gets no request, and the failing probes do no harm. -/
theorem onlyEligible_secondLeaving : OnlyEligible .scan ⟨fun _ => none⟩ secondLeaving ∧
    secondLeaving.eligible .sample = true ∧ secondLeaving.eligible .other = false := by
  have hreach : (routerSystem .scan).Reach System.Anything checking probedTwo :=
    System.Reach.refl.tail trivial rfl
  refine ⟨(onlyEligible_iff _ hreach _ _).mpr ?_, by decide +kernel, by decide +kernel⟩
  intro key route _ b _ hpassive
  have hother : b ≠ .other := by
    rintro rfl
    have hdraining : secondLeaving.eligiblePassive .other = false := by decide +kernel
    rw [show probedTwo.withHealth _ _ = secondLeaving from rfl, hdraining] at hpassive
    cases hpassive
  simp only [withHealth, HealthChecker.isHealthy, ← AList.insert_empty,
    AList.lookup_insert_ne hother]
  rfl

/-- **A backend that the probes report down receives traffic** from
`select_backend_with_headers`. -/
theorem exists_ineligible_selected :
    ¬ ∀ (M : Matchit) (R : RegexCrate), M.Lawful → ∀ config inRuntime s,
      (routerSystem M).Reach System.Anything (.withHealthConfig config inRuntime) s →
      ∀ health states, OnlyEligible M R (s.withHealth health states) := by
  intro h
  let states : AList (fun _ : Backend => BackendHealthState) :=
    AList.singleton .sample { BackendHealthState.new with status := .unhealthy }
  have honly := h .scan ⟨fun _ => none⟩ Matchit.scan_lawful _ _ probed probed_reach .new states
  have hnew : ¬ checking.hasRoute .get "/api".toList [.sample] := by decide
  obtain ⟨table, htable, hroutes⟩ := addRoute_routes .scan .newestFirst hnew (by decide)
  obtain ⟨b, hb, hslot⟩ := Route.exists_slot "/api".toList (by simp) htable 0
  obtain rfl := List.mem_singleton.mp hb
  have hroute : (probed.withHealth .new states).routes.lookup (routeKey .get "/api".toList) =
      some (.basic "/api".toList [.sample] table) := by
    show (checking.addRoute .scan .newestFirst .get "/api".toList [.sample]).2.routes.lookup _ = _
    rw [hroutes, AList.lookup_insert]
  have ht : probed.TableInvariant := tableInvariant_of_reach probed_reach
  have ht' : (probed.withHealth .new states).TableInvariant := ht
  obtain ⟨addr, port, hsel⟩ := exists_selectMatching (M := .scan) ht' hroute ⟨0, hslot⟩
    (by decide +kernel) (rfl : Route.acceptsHeaders ⟨fun _ => none⟩ [] _ = true)
  have heligible : (probed.withHealth .new states).eligible .sample = true :=
    (honly _ _ _ _).2.1 [] _ hsel
  have hdown : (probed.withHealth .new states).eligible .sample = false := by decide +kernel
  rw [hdown] at heligible
  cases heligible

end Router

end Rauta
