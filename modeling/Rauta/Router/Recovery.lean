import Rauta.Router.Selection

/-!
# Recovery from passive ejection

`handle_request` closes a loop: `select_backend` chooses by the health windows, and the status of
the chosen backend's response goes back into its window. A backend whose window has more errors than
successes is passed over, and then nothing moves its window any more. So a route recovers only
through a backend that is still healthy (`recoverable_iff`), and the step to avoid is the one that
ejects the last of them (`SparesLast`).
-/

namespace Rauta

open Transition

/-- One round of `handle_request`: a request, and the status with which the selected backend
answers. -/
structure Exchange where
  method : HttpMethod
  path : Str
  srcIp : Option IpAddr
  srcPort : Option UInt16
  status : Nat

namespace Router

variable {M : Matchit} {s s' : Router}

/-- What `select_backend` returns to the request of an exchange. -/
def selected (M : Matchit) (s : Router) (x : Exchange) : Option RouteMatch :=
  (s.selectBackend M x.method x.path x.srcIp x.srcPort).1

/-- The router after an exchange. A request without a backend records nothing. -/
def exchange (M : Matchit) (s : Router) (x : Exchange) : Router :=
  match s.selectBackend M x.method x.path x.srcIp x.srcPort with
  | (some rm, s') => s'.recordBackendResponse rm.backend x.status
  | (none, s') => s'

/-- Exchanges, one after the other. -/
def exchangeSystem (M : Matchit) : System Router Exchange := ⟨fun s x => some (s.exchange M x)⟩

/-- Some request gets a backend. -/
def Serves (M : Matchit) (s : Router) : Prop :=
  ∃ method path srcIp srcPort, (s.selectBackend M method path srcIp srcPort).1.isSome

/-- Some continuation leads to a state in which some request gets a backend. -/
def Recoverable (M : Matchit) (s : Router) : Prop :=
  ∃ s', (exchangeSystem M).Reach System.Anything s s' ∧ s'.Serves M

/-- The response ejects no backend that is the last healthy one with a slot: for every healthy
backend with a slot, it would leave that backend healthy, or another one is healthy. -/
def SparesLast (s : Router) (x : Exchange) : Prop :=
  ∀ key route b, s.routes.lookup key = some route → route.OwnsSlot b → s.health.isHealthyPassive b →
    (s.health.recordBackendResponse b x.status).isHealthyPassive b ∨
    ∃ b', route.OwnsSlot b' ∧ b' ≠ b ∧ s.health.isHealthyPassive b'

theorem exchange_cases (M : Matchit) (s : Router) (x : Exchange) :
    (s.selected M x = none ∧
      s.exchange M x = { s with routeCache := (s.resolve M x.method x.path).2 }) ∨
    (∃ rm, s.selected M x = some rm ∧
      s.exchange M x =
        { s with
          routeCache := (s.resolve M x.method x.path).2
          health := s.health.recordBackendResponse rm.backend x.status }) := by
  unfold exchange selected
  have hsnd : (s.selectBackend M x.method x.path x.srcIp x.srcPort).2 =
      { s with routeCache := (s.resolve M x.method x.path).2 } := rfl
  cases hsel : s.selectBackend M x.method x.path x.srcIp x.srcPort with
  | mk found s' =>
      rw [hsel] at hsnd
      cases found with
      | none => exact Or.inl ⟨rfl, hsnd⟩
      | some rm =>
          exact Or.inr ⟨rm, rfl, congrArg (recordBackendResponse · rm.backend x.status) hsnd⟩

/-- The backend that was selected gets the response on its record. -/
theorem exchange_health {x : Exchange} {rm : RouteMatch} (hrm : s.selected M x = some rm) :
    (s.exchange M x).health = s.health.recordBackendResponse rm.backend x.status := by
  rcases exchange_cases M s x with ⟨hnone, -⟩ | ⟨rm', hrm', heq⟩
  · rw [hnone] at hrm
    cases hrm
  · rw [hrm] at hrm'
    cases hrm'
    rw [heq]

/-- A response that is no error ejects nobody. -/
theorem sparesLast_of_not_error {x : Exchange} (h : BackendHealth.isError x.status = false) :
    s.SparesLast x := by
  intro key route b _ _ hhealthy
  left
  rw [HealthData.isHealthyPassive_recordBackendResponse_self]
  apply BackendHealth.isHealthy_recordResponse_of_not_error _ h
  unfold HealthData.isHealthyPassive at hhealthy
  cases hw : s.health.backendHealth.lookup b with
  | none => rfl
  | some window =>
      rw [hw] at hhealthy
      exact hhealthy

/-! ## A single route -/

/-- The setting: one route and no draining, with active health checking off. -/
structure OnlyRoute (method : HttpMethod) (path : Str) (route : Route) (s : Router) : Prop where
  own : s.routes.lookup (routeKey method path) = some route
  only : ∀ key r, s.routes.lookup key = some r → r = route
  cached : ∀ r, s.routeCache.cached (routeKey method path) = some r → r = routeKey method path
  undrained : ∀ b, s.health.isDraining b = false
  unprobed : ∀ b, s.healthChecker.isHealthy b = true

/-- Some backend with a slot is healthy. -/
def HealthySlot (route : Route) (s : Router) : Prop :=
  ∃ b, route.OwnsSlot b ∧ s.health.isHealthyPassive b

namespace OnlyRoute

variable {method : HttpMethod} {path : Str} {route : Route}

theorem eligible_iff (h : OnlyRoute method path route s) {b : Backend} :
    s.eligible b ↔ s.health.isHealthyPassive b := by
  simp [eligible, h.undrained, h.unprobed]

theorem resolve_own (h : OnlyRoute method path route s) :
    (s.resolve M method path).1 = some (routeKey method path) := by
  have hmem : routeKey method path ∈ s.routes := AList.lookup_isSome.mp (by rw [h.own]; rfl)
  rw [resolve_fst, lookup_of_mem hmem]
  cases hc : s.routeCache.cached (routeKey method path) with
  | none => rfl
  | some r =>
      rw [h.cached r hc]
      rfl

theorem selected_slot (h : OnlyRoute method path route s) {x : Exchange} {rm : RouteMatch}
    (hrm : s.selected M x = some rm) :
    route.OwnsSlot rm.backend ∧ s.health.isHealthyPassive rm.backend := by
  obtain ⟨heligible, key, r, hr, hslot⟩ := selectBackend_slot hrm
  obtain rfl := h.only key r hr
  exact ⟨hslot, h.eligible_iff.mp heligible⟩

/-- A request for the route's own path gets the backend of its first probe. -/
theorem selectBackend_own (h : OnlyRoute method path route s) (hopen : route.methodMatches = none)
    {srcIp : Option IpAddr} {srcPort : Option UInt16} {b : Backend}
    (hprobe : route.backends[route.probe (computeFlowHash (pathHash path) srcIp srcPort) 0]? =
      some b)
    (hhealthy : s.health.isHealthyPassive b) :
    (s.selectBackend M method path srcIp srcPort).1 = some (route.toMatch b) := by
  have hselect := Route.selectByMask_first hprobe (h.eligible_iff.mpr hhealthy)
  show ((s.resolve M method path).1.bind fun key => s.selectFrom method path srcIp srcPort key) = _
  rw [h.resolve_own, Option.bind_some]
  simp [selectFrom, h.own, hopen, hselect]

theorem serves_iff (h : OnlyRoute method path route s) (hopen : route.methodMatches = none) :
    s.Serves M ↔ HealthySlot route s := by
  constructor
  · rintro ⟨m, p, srcIp, srcPort, hsome⟩
    obtain ⟨rm, hrm⟩ := Option.isSome_iff_exists.mp hsome
    exact ⟨rm.backend, h.selected_slot (x := ⟨m, p, srcIp, srcPort, 0⟩) hrm⟩
  · rintro ⟨b, hslot, hhealthy⟩
    obtain ⟨addr, port, hprobe⟩ := hslot.exists_probe path
    exact ⟨method, path, _, _, by rw [h.selectBackend_own hopen hprobe hhealthy]; rfl⟩

/-! ### Steps -/

theorem cached_resolve_own (h : OnlyRoute method path route s) {m : HttpMethod} {p : Str}
    {r : RouteKey} (hr : (s.resolve M m p).2.cached (routeKey method path) = some r) :
    r = routeKey method path := by
  rcases cached_resolve hr with hr | ⟨hkey, hr⟩
  · exact h.cached r hr
  · -- the request looked up the route's own key, and that is in the table
    have hmem : routeKey m p ∈ s.routes := by
      rw [← hkey]
      exact AList.lookup_isSome.mp (by rw [h.own]; rfl)
    rw [lookup_of_mem hmem, ← hkey] at hr
    exact (Option.some.inj hr).symm

theorem exchange (h : OnlyRoute method path route s) (x : Exchange) :
    OnlyRoute method path route (s.exchange M x) := by
  rcases exchange_cases M s x with ⟨-, heq⟩ | ⟨rm, -, heq⟩
  · rw [heq]
    exact ⟨h.own, h.only, fun r => h.cached_resolve_own, h.undrained, h.unprobed⟩
  · rw [heq]
    exact ⟨h.own, h.only, fun r => h.cached_resolve_own, h.undrained, h.unprobed⟩

/-- An exchange whose request gets a backend leaves a healthy one exactly if it spares the last. -/
theorem healthySlot_exchange (h : OnlyRoute method path route s) {x : Exchange} {rm : RouteMatch}
    (hrm : s.selected M x = some rm) : HealthySlot route (s.exchange M x) ↔ s.SparesLast x := by
  obtain ⟨hslot, hhealthy⟩ := h.selected_slot hrm
  have heq := exchange_health hrm
  constructor
  · rintro ⟨b, hb, hbh⟩ key r b' hr hb' _
    obtain rfl := h.only key r hr
    rw [heq] at hbh
    by_cases hown : b' = rm.backend
    · subst hown
      by_cases hne : b = rm.backend
      · subst hne
        exact Or.inl hbh
      · rw [HealthData.isHealthyPassive_recordBackendResponse_of_ne _ _ hne] at hbh
        exact Or.inr ⟨b, hb, hne, hbh⟩
    · exact Or.inr ⟨rm.backend, hslot, Ne.symm hown, hhealthy⟩
  · intro hspares
    rcases hspares _ route rm.backend h.own hslot hhealthy with hself | ⟨b, hb, hne, hbh⟩
    · exact ⟨rm.backend, hslot, by rw [heq]; exact hself⟩
    · refine ⟨b, hb, ?_⟩
      rw [heq, HealthData.isHealthyPassive_recordBackendResponse_of_ne _ _ hne]
      exact hbh

/-- Without a healthy backend nothing is selected, so nothing is recorded. -/
theorem healthySlot_of_exchange (h : OnlyRoute method path route s) {x : Exchange}
    (hslot : HealthySlot route (s.exchange M x)) : HealthySlot route s := by
  rcases exchange_cases M s x with ⟨-, heq⟩ | ⟨rm, hrm, -⟩
  · rw [heq] at hslot
    exact hslot
  · exact ⟨rm.backend, h.selected_slot hrm⟩

/-- An exchange that spares the last healthy backend leaves one. -/
theorem healthySlot_of_sparesLast (h : OnlyRoute method path route s) {x : Exchange}
    (hslot : HealthySlot route s) (hspares : s.SparesLast x) :
    HealthySlot route (s.exchange M x) := by
  rcases exchange_cases M s x with ⟨-, heq⟩ | ⟨rm, hrm, -⟩
  · rw [heq]
    exact hslot
  · exact (h.healthySlot_exchange hrm).mpr hspares

/-! ### Runs -/

/-- **No way back**: a route without a healthy backend never serves again, so it is recoverable
exactly if it serves now. -/
theorem recoverable_iff (h : OnlyRoute method path route s) (hopen : route.methodMatches = none) :
    s.Recoverable M ↔ HealthySlot route s := by
  constructor
  · rintro ⟨s', hreach, hserves⟩
    by_contra hdead
    have hinv : OnlyRoute method path route s' ∧ ¬ HealthySlot route s' := by
      clear hserves
      induction hreach with
      | refl => exact ⟨h, hdead⟩
      | @tail s s' x _ _ hstep ih =>
          cases hstep
          exact ⟨ih.1.exchange x, fun hslot => ih.2 (ih.1.healthySlot_of_exchange hslot)⟩
    exact hinv.2 ((hinv.1.serves_iff hopen).mp hserves)
  · intro hslot
    exact ⟨s, .refl, (h.serves_iff hopen).mpr hslot⟩

end OnlyRoute

/-- The router with one route, before the first request. -/
def started (M : Matchit) (ord : IterOrder) (method : HttpMethod) (path : Str)
    (backends : List Backend) : Router :=
  (Router.new.addRoute M ord method path backends).2

theorem started_onlyRoute (M : Matchit) (ord : IterOrder) (method : HttpMethod) (path : Str)
    {backends : List Backend} (hfew : backends.length ≤ maxBackends) :
    ∃ table, maglevBuildCompactTable backends = some table ∧
      OnlyRoute method path (.basic path backends table) (started M ord method path backends) := by
  have hnew : ¬ Router.new.hasRoute method path backends := Bool.false_ne_true
  obtain ⟨table, htable, hwrite⟩ := RouterCall.write_addRoute ord hnew hfew
  refine ⟨table, htable, ?_⟩
  have hstarted := congrArg Prod.snd (addRoute_eq_commit (M := M) hwrite)
  have hoff : Router.new.healthChecker.startChecking backends path = Router.new.healthChecker :=
    HealthChecker.startChecking_of_disabled rfl backends path
  rw [hoff] at hstarted
  rw [started, hstarted]
  refine ⟨?_, ?_, ?_, ?_, fun b => rfl⟩
  · show (commit M Router.new _).routes.lookup _ = _
    rw [commit_routes]
    exact AList.lookup_insert _
  · intro key r hr
    change (commit M Router.new _).routes.lookup key = some r at hr
    rw [commit_routes] at hr
    rcases Write.lookup_routes hr with ⟨-, rfl⟩ | hr
    · rfl
    · cases hr
  · intro r hr
    cases cached_of_cached_commit hr
  · intro b
    show (commit M Router.new _).health.isDraining b = false
    rw [commit_health]
    rfl

theorem started_healthy (M : Matchit) (ord : IterOrder) (method : HttpMethod) (path : Str)
    (backends : List Backend) (b : Backend) :
    (started M ord method path backends).health.isHealthyPassive b := by
  rw [started, addRoute_health]
  rfl

/-- **Recovery**: while every exchange spares the last healthy backend, some continuation serves
again. The condition is exact: an exchange that reaches a backend and does not meet it leaves a
state that refuses every request for ever. -/
theorem recoverable_of_sparesLast {ord : IterOrder} {method : HttpMethod} {path : Str}
    {backends : List Backend} (hne : backends ≠ []) (hfew : backends.length ≤ maxBackends)
    (h : (exchangeSystem M).Reach SparesLast (started M ord method path backends) s) :
    s.Recoverable M ∧
      ∀ x, (s.selected M x).isSome → ((s.exchange M x).Recoverable M ↔ s.SparesLast x) := by
  obtain ⟨table, htable, hstart⟩ := started_onlyRoute M ord method path hfew
  have hinv : OnlyRoute method path (.basic path backends table) s ∧
      HealthySlot (.basic path backends table) s := by
    induction h with
    | refl =>
        obtain ⟨b, -, hslot⟩ := Route.exists_slot path hne htable 0
        exact ⟨hstart, b, ⟨0, hslot⟩, started_healthy M ord method path backends b⟩
    | @tail s s' x _ hspares hstep ih =>
        cases hstep
        exact ⟨ih.1.exchange x, ih.1.healthySlot_of_sparesLast ih.2 hspares⟩
  refine ⟨(hinv.1.recoverable_iff rfl).mpr hinv.2, ?_⟩
  intro x hsome
  obtain ⟨rm, hrm⟩ := Option.isSome_iff_exists.mp hsome
  rw [(hinv.1.exchange x).recoverable_iff rfl]
  exact hinv.1.healthySlot_exchange hrm

/-- A request for their route, and the status of the response. -/
def apiExchange (status : Nat) : Exchange := ⟨.get, "/api".toList, none, none, status⟩

/-- One of two backends is ejected, and the route goes on. -/
theorem recoverable_of_sparesLast_ejected : ∃ b ∈ twoBackends,
    ((started .scan .newestFirst .get "/api".toList twoBackends).exchange .scan
      (apiExchange 500)).health.isHealthyPassive b = false ∧
    (((started .scan .newestFirst .get "/api".toList twoBackends).exchange .scan
      (apiExchange 500)).exchange .scan (apiExchange 200)).Recoverable .scan := by
  have hfew : twoBackends.length ≤ maxBackends := by decide
  obtain ⟨table, htable, hs⟩ := started_onlyRoute .scan .newestFirst .get "/api".toList hfew
  have hfresh := started_healthy .scan .newestFirst .get "/api".toList twoBackends
  have hspares : (started .scan .newestFirst .get "/api".toList twoBackends).SparesLast
      (apiExchange 500) := by
    intro key route b hroute hslot _
    obtain rfl := hs.only key route hroute
    obtain ⟨k, hk⟩ := hslot
    -- the other one is healthy
    right
    rcases List.mem_pair.mp (List.mem_of_getElem? hk) with rfl | rfl
    · exact ⟨.other, twoBackends_ownsSlot htable (by decide), by decide,
        hfresh _⟩
    · exact ⟨.sample, twoBackends_ownsSlot htable (by decide), by decide, hfresh _⟩
  obtain ⟨b, hb, hprobe⟩ := Route.exists_slot "/api".toList (by decide) htable
    ((computeFlowHash (pathHash "/api".toList) none none + 0) % 2 ^ 64)
  have hselected : (started .scan .newestFirst .get "/api".toList twoBackends).selected .scan
      (apiExchange 500) = some _ := hs.selectBackend_own rfl hprobe (hfresh b)
  refine ⟨b, hb, ?_, (recoverable_of_sparesLast (by decide) hfew
    ((System.Reach.refl.tail hspares rfl).tail (sparesLast_of_not_error rfl) rfl)).1⟩
  have hhealth : (started .scan .newestFirst .get "/api".toList twoBackends).health = .new :=
    addRoute_health ..
  rw [exchange_health hselected, hhealth]
  exact HealthData.isHealthyPassive_recordBackendResponse_self _ _ _

/-- **One bad response and never again**: the first response of a single backend is a `500`, and the
route refuses every request from then on. -/
theorem exists_route_lost_for_ever :
    ¬ ∀ (M : Matchit), M.Lawful → ∀ (ord : IterOrder) method path backends s, backends ≠ [] →
      backends.length ≤ maxBackends →
      (exchangeSystem M).Reach System.Anything (started M ord method path backends) s →
      s.Recoverable M := by
  intro h
  let s := started .scan .newestFirst .get "/api".toList [.sample]
  let x : Exchange := ⟨.get, "/api".toList, none, none, 500⟩
  have hfew : [Backend.sample].length ≤ maxBackends := by decide
  have hrec : (s.exchange .scan x).Recoverable .scan :=
    h .scan Matchit.scan_lawful .newestFirst .get "/api".toList [.sample] _ (by simp) hfew
      (System.Reach.refl.tail trivial rfl)
  obtain ⟨table, htable, hs⟩ := started_onlyRoute .scan .newestFirst .get "/api".toList hfew
  -- the request reaches the backend
  obtain ⟨b, hb, hprobe⟩ := Route.exists_slot "/api".toList (by simp) htable
    ((computeFlowHash (pathHash "/api".toList) none none + 0) % 2 ^ 64)
  obtain rfl := List.mem_singleton.mp hb
  have hfresh := started_healthy .scan .newestFirst .get "/api".toList [.sample] .sample
  have hselected : s.selected .scan x = some _ := hs.selectBackend_own rfl hprobe hfresh
  have hslot := ((hs.exchange x).recoverable_iff rfl).mp hrec
  have hspares := (hs.healthySlot_exchange hselected).mp hslot
  rcases hspares _ _ _ hs.own ⟨_, hprobe⟩ hfresh with hhealthy | ⟨b, ⟨k, hk⟩, hne, -⟩
  · -- one error in a window of one
    have hhealth : s.health = .new := addRoute_health ..
    rw [hhealth] at hhealthy
    cases hhealthy
  · -- and there is no other backend
    exact hne (List.mem_singleton.mp (List.mem_of_getElem? hk))

end Router

end Rauta
