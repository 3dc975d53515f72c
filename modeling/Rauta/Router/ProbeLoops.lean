import Rauta.Lib.Workers
import Rauta.Router.Selection

/-!
# The probe loops

`add_route` hands the backends of a route that it writes to `start_checking`, which spawns a probe
loop for each of them. It does not ask which loops run already, and nothing but the shutdown of the
whole checker stops one: this is the registry of `Lib/Workers`, with the route key as the key
(`probes_run`).

So there is one loop for each backend of a current route and none for the others only as long as
routes do not share a backend, and a route never changes the backends it has. A rollout that
replaces one pod of a service starts a second loop for every pod that stays, and leaves the loop of
the old one running.
-/

namespace Rauta

open Workers

/-- A call that sets the backends of a route. -/
inductive BackendCall where
  | addRoute (ord : IterOrder) (method : HttpMethod) (path : Str) (backends : List Backend)
  | updateRouteBackends (ord : IterOrder) (method : HttpMethod) (path : Str)
      (backends : List Backend)

/-- What the call registers: the backends, under the key of the route. A call with too many of them
ends at the assertion of the table. -/
def BackendCall.registration : BackendCall → Option (Workers.Registration RouteKey Backend)
  | .addRoute _ method path backends | .updateRouteBackends _ method path backends =>
    if backends.length ≤ maxBackends then some (routeKey method path, backends) else none

namespace Router

/-- The router after the call. -/
def setBackends (M : Matchit) (s : Router) : BackendCall → Router
  | .addRoute ord method path backends => (s.addRoute M ord method path backends).2
  | .updateRouteBackends ord method path backends =>
    (s.updateRouteBackends M ord method path backends).2

/-- The number of `check_backend_loop` tasks that run for a backend. They end with the checker. -/
def running (s : Router) (b : Backend) : Nat := (s.healthChecker.tasks.map Prod.fst).count b

/-- The backend belongs to a current route. -/
def Current (s : Router) (b : Backend) : Prop :=
  ∃ key route, s.routes.lookup key = some route ∧ b ∈ route.backends

/-- One probe loop for each backend of a current route, and none for the others. -/
def OneLoop (s : Router) : Prop :=
  ∀ b, (s.Current b → s.running b = 1) ∧ (¬ s.Current b → s.running b = 0)

/-- The routes and the probe loops as a registry of workers. -/
def probes (s : Router) : Pool RouteKey Backend where
  table key := ((s.routes.lookup key).map Route.backends).getD []
  started := s.healthChecker.tasks.map Prod.fst

variable {M : Matchit} {s : Router}

theorem listed_probes_iff {b : Backend} : s.probes.Listed b ↔ s.Current b := by
  constructor
  · rintro ⟨key, hb⟩
    cases hroute : s.routes.lookup key with
    | none => simp [probes, hroute] at hb
    | some route => exact ⟨key, route, hroute, by simpa [probes, hroute] using hb⟩
  · rintro ⟨key, route, hroute, hb⟩
    exact ⟨key, by simpa [probes, hroute] using hb⟩

theorem oneEach_probes_iff : s.probes.OneEach ↔ s.OneLoop := by
  unfold Pool.OneEach OneLoop
  simp only [listed_probes_iff]
  exact Iff.rfl

/-- The checker probes, and there is a runtime to spawn on. -/
def Probing (s : Router) : Prop :=
  s.healthChecker.config.enabled = true ∧ s.healthChecker.inRuntime = true

theorem startChecking_of_probing (h : s.Probing) (backends : List Backend) (routeName : Str) :
    (s.healthChecker.startChecking backends routeName).tasks =
        s.healthChecker.tasks ++ backends.map (·, routeName) ∧
      (s.healthChecker.startChecking backends routeName).config = s.healthChecker.config ∧
      (s.healthChecker.startChecking backends routeName).inRuntime =
        s.healthChecker.inRuntime := by
  simp [HealthChecker.startChecking, h.1, h.2]

theorem Probing.addRoute (h : s.Probing) (ord : IterOrder) (method : HttpMethod) (path : Str)
    (backends : List Backend) : (s.addRoute M ord method path backends).2.Probing := by
  rcases addRoute_snd_cases M s ord method path backends with hself | ⟨w, -, hcommit⟩
  · rwa [hself]
  · obtain ⟨-, hconfig, hruntime⟩ := startChecking_of_probing h backends path
    rw [hcommit]
    exact ⟨(congrArg HealthCheckConfig.enabled hconfig).trans h.1, hruntime.trans h.2⟩

/-- What a commit and the probe loops that go with it do to the registry. -/
theorem probes_commit (h : s.Probing) (ord : IterOrder) (method : HttpMethod) (path : Str)
    (backends : List Backend) (table : List Nat) :
    ({ s.commit M ⟨ord, .addRoute, method, path, .basic path backends table, true⟩
        with healthChecker := s.healthChecker.startChecking backends path } : Router).probes =
      ⟨Function.update s.probes.table (routeKey method path) backends,
        s.probes.started ++ backends⟩ := by
  unfold probes
  rw [Pool.mk.injEq]
  constructor
  · funext key
    by_cases hkey : key = routeKey method path
    · subst hkey
      simp [Write.routes, Write.key, Route.basic, AList.lookup_insert]
    · simp [Write.routes, Write.key, AList.lookup_insert_ne hkey, hkey]
  · simp [(startChecking_of_probing h backends path).1, Function.comp_def]

/-- **`add_route` is a registration.** -/
theorem probes_addRoute (h : s.Probing) (ord : IterOrder) (method : HttpMethod) (path : Str)
    {backends : List Backend} (hfew : backends.length ≤ maxBackends) :
    (s.addRoute M ord method path backends).2.probes =
      s.probes.register (routeKey method path, backends) := by
  by_cases hsame : s.hasRoute method path backends
  · obtain ⟨route, hroute, hbackends⟩ := (Option.any_eq_true ..).mp hsame
    have htable : s.probes.table (routeKey method path) = backends := by
      simpa [probes, hroute] using hbackends
    rw [Pool.register, if_pos htable]
    simp only [Router.addRoute, hsame, if_true]
  · obtain ⟨table, htable, hwrite⟩ := RouterCall.write_addRoute ord hsame hfew
    rw [addRoute_eq_commit hwrite]
    refine (probes_commit h ord method path backends table).trans (Eq.symm ?_)
    apply register_eq
    -- only a route without backends is listed like one that is not there
    intro hlisted
    cases hroute : s.routes.lookup (routeKey method path) with
    | none => simpa [probes, hroute] using hlisted.symm
    | some route =>
        refine absurd ((Option.any_eq_true ..).mpr ⟨route, hroute, ?_⟩) hsame
        simpa [probes, hroute] using hlisted

/-- A call that registers, and one that does not. -/
theorem probes_setBackends (h : s.Probing) (call : BackendCall) :
    (s.setBackends M call).probes = call.registration.toList.foldl Pool.register s.probes ∧
      (s.setBackends M call).Probing := by
  have hadd : ∀ ord method path backends,
      (s.addRoute M ord method path backends).2.probes =
        ((BackendCall.addRoute ord method path backends).registration.toList.foldl Pool.register
          s.probes) := by
    intro ord method path backends
    by_cases hfew : backends.length ≤ maxBackends
    · simp only [BackendCall.registration, if_pos hfew]
      exact probes_addRoute h ord method path hfew
    · simp only [BackendCall.registration, if_neg hfew]
      rcases addRoute_snd_cases M s ord method path backends with hself | ⟨w, hw, -⟩
      · rw [hself]
        rfl
      · obtain ⟨-, table, htable, -⟩ := RouterCall.of_write_addRoute hw
        exact absurd (length_le_of_maglevBuildCompactTable htable) hfew
  cases call with
  | addRoute ord method path backends =>
      exact ⟨hadd ord method path backends, h.addRoute ord method path backends⟩
  | updateRouteBackends ord method path backends =>
      exact ⟨hadd ord method path backends, h.addRoute ord method path backends⟩

/-- The registry after a sequence of calls on a new router. -/
theorem probes_run {config : HealthCheckConfig} (henabled : config.enabled = true)
    (calls : List BackendCall) :
    (calls.foldl (setBackends M) (.withHealthConfig config true)).probes =
        Pool.run (calls.filterMap BackendCall.registration) ∧
      (calls.foldl (setBackends M) (.withHealthConfig config true)).Probing := by
  induction calls using List.reverseRecOn with
  | nil => exact ⟨rfl, henabled, rfl⟩
  | append_singleton calls call ih =>
      obtain ⟨hprobes, hprobing⟩ := ih
      obtain ⟨hstep, hprobing'⟩ := probes_setBackends (M := M) hprobing call
      rw [List.foldl_append, List.filterMap_append, Pool.run, List.foldl_append]
      refine ⟨?_, hprobing'⟩
      have hone : [call].filterMap BackendCall.registration = call.registration.toList := by
        cases hcall : call.registration <;> simp [hcall]
      rw [hone]
      exact hstep.trans (by rw [hprobes, Pool.run])

/-- **One probe loop per backend**, after each call of a sequence: exactly if no list of backends
repeats one, routes do not share backends, and no route changes the backends it has. -/
theorem oneLoop_after_each_call_iff {config : HealthCheckConfig} (henabled : config.enabled = true)
    (calls : List BackendCall) :
    (∀ before, before <+: calls →
      (before.foldl (setBackends M) (.withHealthConfig config true)).OneLoop) ↔
    Consistent (calls.filterMap BackendCall.registration) := by
  rw [← forall_prefix_oneEach_iff]
  constructor
  · intro h rs hrs
    obtain ⟨before, hbefore, rfl⟩ := List.prefix_filterMap_iff.mp hrs
    rw [← (probes_run (M := M) henabled before).1]
    exact oneEach_probes_iff.mpr (h before hbefore)
  · intro h before hbefore
    rw [← oneEach_probes_iff, (probes_run henabled before).1]
    exact h _ (hbefore.filterMap _)

/-- A route for a service with one pod. -/
def serviceCall (path : Str) : BackendCall := .addRoute .newestFirst .get path [.sample]

/-- A route that is registered twice, and one to another service. -/
def serviceCalls : List BackendCall :=
  [serviceCall "/api".toList, serviceCall "/api".toList,
    .addRoute .newestFirst .get "/web".toList [.other]]

/-- Each of the two backends has one loop, all along. -/
theorem oneLoop_after_each_call_iff_services :
    Consistent (serviceCalls.filterMap BackendCall.registration) ∧
    ∀ before, before <+: serviceCalls →
      (before.foldl (setBackends .scan)
        (.withHealthConfig checking.healthChecker.config true)).OneLoop := by
  have hother : routeKey .get "/api".toList ≠ routeKey .get "/web".toList := by decide +kernel
  have hne : Backend.sample ≠ .other := by decide
  have hapart : Compatible (routeKey .get "/api".toList, [Backend.sample])
      (routeKey .get "/web".toList, [.other]) := by
    rw [Compatible, if_neg hother]
    simpa using hne.symm
  have hagain : Compatible (routeKey .get "/api".toList, [Backend.sample])
      (routeKey .get "/api".toList, [Backend.sample]) := by
    rw [Compatible, if_pos rfl]
    exact .inr rfl
  have hconsistent : Consistent (serviceCalls.filterMap BackendCall.registration) := by
    refine ⟨by decide +kernel, .cons ?_ (.cons ?_ (List.pairwise_singleton ..))⟩
    · exact List.forall_mem_cons.mpr ⟨hagain, List.forall_mem_singleton.mpr hapart⟩
    · exact List.forall_mem_singleton.mpr hapart
  exact ⟨hconsistent, (oneLoop_after_each_call_iff rfl _).mpr hconsistent⟩

/-- **Two loops for one backend**: two routes to the same service. -/
theorem exists_two_probe_loops :
    ¬ ∀ (M : Matchit) (config : HealthCheckConfig), config.enabled = true → ∀ calls before,
      before <+: calls →
      (before.foldl (setBackends M) (.withHealthConfig config true)).OneLoop := by
  intro h
  have hloop := h .scan checking.healthChecker.config rfl
    [serviceCall "/api".toList, serviceCall "/web".toList] _ (List.prefix_refl _)
  rw [← oneEach_probes_iff, (probes_run rfl _).1] at hloop
  have hlisted : (Pool.run ([serviceCall "/api".toList, serviceCall "/web".toList].filterMap
      BackendCall.registration)).Listed .sample := ⟨routeKey .get "/api".toList, by decide +kernel⟩
  have htwo : (Pool.run ([serviceCall "/api".toList, serviceCall "/web".toList].filterMap
      BackendCall.registration)).started.count .sample = 2 := by decide +kernel
  have hone := (hloop .sample).1 hlisted
  rw [htwo] at hone
  cases hone

end Router

end Rauta
