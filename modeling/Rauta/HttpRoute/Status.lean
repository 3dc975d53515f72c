import Rauta.Gateway.Status
import Rauta.HttpRoute.Effects

/-!
# What the status of an HTTPRoute says

A call that gets to the end of the rules writes two conditions to every parent. `Accepted` says that
some rule has backends, and then the routes of all such rules are in the table. `ResolvedRefs` is
about all references of all rules, and is left out if the HTTPRoute is not accepted: an HTTPRoute
none of whose services can be resolved is told that it has no valid rules, not why.
-/

namespace Rauta

namespace RouteWorld

variable {W : RouteWorld} {route : HttpRoute}

/-! ## The references of a rule -/

/-- A reference that resolves to nothing is remembered, and is not forgotten again. -/
theorem resolved_resolveRef_iff (i : Nat) (acc : Resolution) (ref : BackendRef × Nat) :
    (W.resolveRef route i acc ref).refs.resolved = false ↔
      acc.refs.resolved = false ∨ W.service route i ref = none := by
  unfold resolveRef service
  split <;> simp [RefsStatus.notFound]

theorem resolved_resolveAll_iff (i : Nat) (refs : List BackendRef) (status : RefsStatus) :
    (W.resolveAll route i refs status).refs.resolved = false ↔
      status.resolved = false ∨ ∃ ref ∈ refs.zipIdx, W.service route i ref = none :=
  Collect.foldl_iff (P := fun acc : Resolution => acc.refs.resolved = false)
    (fun acc ref => resolved_resolveRef_iff i acc ref) _ _

/-- All references of the rule resolve to something. -/
def Resolves (W : RouteWorld) (route : HttpRoute) (rule : RouteRule × Nat) : Prop :=
  ∀ ref ∈ (rule.1.backendRefs.getD []).zipIdx, (W.service route rule.2 ref).isSome = true

theorem not_resolves_iff {rule : RouteRule × Nat} :
    ¬ W.Resolves route rule ↔
      ∃ ref ∈ (rule.1.backendRefs.getD []).zipIdx, W.service route rule.2 ref = none := by
  simp [Resolves]

theorem resolved_configureRule_iff (p : Progress) (rule : RouteRule × Nat) :
    (W.configureRule route p rule).refs.resolved = false ↔
      p.refs.resolved = false ∨ ¬ W.Resolves route rule := by
  rw [not_resolves_iff]
  unfold configureRule
  cases hrefs : rule.1.backendRefs with
  | none => simp
  | some backendRefs =>
    rw [Option.getD_some, ← resolved_resolveAll_iff]
    dsimp only
    split <;> rfl

/-! ## The rules that have backends -/

theorem routesAdded_configureRule_iff (p : Progress) (rule : RouteRule × Nat) :
    0 < (W.configureRule route p rule).routesAdded ↔
      0 < p.routesAdded ∨ W.HasBackends route rule := by
  unfold configureRule
  split
  · next hnone => simp [HasBackends, services, hnone]
  · next backendRefs hsome =>
    have hnil : weightedBackends W.float.round (W.services route rule)
        (totalWeight (W.services route rule)) = [] ↔ ¬ W.HasBackends route rule := by
      refine weightedBackends_eq_nil_iff (fun s hs => W.backends_ne_nil route hs) fun h hempty => ?_
      rw [hempty] at h
      exact absurd h (by decide)
    simp only [W.totalWeight_resolveAll, W.services_resolveAll route hsome]
    split
    · next h => exact (or_iff_left (hnil.mp h)).symm
    · next h => exact iff_of_true (Nat.succ_pos _) (Or.inr (not_not.mp (mt hnil.mpr h)))

end RouteWorld

namespace HttpRouteReconciler

variable {W : RouteWorld} {route : HttpRoute} {r : HttpRouteReconciler} {status : List ParentStatus}

/-- A call that gets to the end goes through all rules. -/
theorem processed_of_configured (h : (r.reconcile W route).1 = .configured status) :
    route.processed r.gatewayIndex = (route.rules.getD []).zipIdx ∧
      status = parentStatuses route.namespaceOrDefault (route.getMatchingParentRefs r.gatewayIndex)
        (statusConditions (0 < (r.progress W route).routesAdded) (r.progress W route).refs
          (route.metadata.generation.getD 0)) := by
  have hexit : route.getMatchingParentRefs r.gatewayIndex ≠ [] ∧ ¬ route.HasInvalidRule := by
    have hvalid : ¬ (r.reconcile W route).1.isInvalid := by simp [h, RouteExit.isInvalid]
    rw [isInvalid_reconcile_iff] at hvalid
    have hrefs : route.getMatchingParentRefs r.gatewayIndex ≠ [] := by
      intro hnone
      simp [reconcile, hnone] at h
    exact ⟨hrefs, fun hinvalid => hvalid ⟨hrefs, hinvalid⟩⟩
  obtain ⟨hrefs, hrules⟩ := hexit
  have hall : ∀ rule ∈ (route.rules.getD []).zipIdx, rule.1.hasValidPath = true := by
    intro rule hrule
    by_contra hinvalid
    exact hrules (Collect.exists_mem_zipIdx.mp ⟨rule, hrule, hinvalid⟩)
  have hprocessed : route.processed r.gatewayIndex = (route.rules.getD []).zipIdx := by
    rw [HttpRoute.processed, if_neg hrefs]
    exact List.takeWhile_eq_self_iff.mpr hall
  refine ⟨hprocessed, ?_⟩
  obtain ⟨hinvalid, hprogress⟩ := W.configureRules_eq route
    ⟨r.router, r.rateLimiter, 0, .allResolved⟩ (route.rules.getD []).zipIdx
  have hnone : (W.configureRules route ⟨r.router, r.rateLimiter, 0, .allResolved⟩
      (route.rules.getD []).zipIdx).1 = none := by
    rw [← Option.not_isSome_iff_eq_none, hinvalid]
    rintro ⟨rule, hrule, hbad⟩
    exact hbad (hall rule hrule)
  rw [List.takeWhile_eq_self_iff.mpr hall] at hprogress
  rw [progress, hprocessed, ← hprogress]
  simp only [reconcile, if_neg hrefs, hnone, Option.isSome_none, Bool.false_eq_true, if_false,
    RouteExit.configured.injEq] at h
  exact h.symm

/-- The conditions of an HTTPRoute. -/
theorem conditionStatus_statusConditions (accepted : Bool) (refs : RefsStatus) (generation : Int) :
    conditionStatus (statusConditions accepted refs generation) "Accepted".toList = some accepted ∧
      conditionStatus (statusConditions accepted refs generation) "ResolvedRefs".toList =
        if accepted then some refs.resolved else none := by
  cases accepted <;> exact ⟨rfl, rfl⟩

/-- **What the status says**: `Accepted` means that some rule has backends, and then the routes of
all such rules are in the table; `ResolvedRefs` means that moreover all references resolve. -/
theorem accepted_and_resolved_iff (h : (r.reconcile W route).1 = .configured status)
    {parent : ParentStatus} (hparent : parent ∈ status) :
    (conditionStatus parent.conditions "Accepted".toList = some true ↔
      ∃ rule ∈ (route.rules.getD []).zipIdx, W.HasBackends route rule) ∧
    (conditionStatus parent.conditions "ResolvedRefs".toList = some true ↔
      (∃ rule ∈ (route.rules.getD []).zipIdx, W.HasBackends route rule) ∧
        ∀ rule ∈ (route.rules.getD []).zipIdx, W.Resolves route rule) ∧
    (∀ rule ∈ (route.rules.getD []).zipIdx, W.HasBackends route rule →
      ∀ pair, rule.1.ValidPair pair →
        routeKey (pair.2.getD .all) pair.1 ∈ (r.reconcile W route).2.2.router.routes) := by
  obtain ⟨hprocessed, rfl⟩ := processed_of_configured h
  obtain ⟨ref, -, rfl⟩ := List.mem_map.mp hparent
  have haccepted : 0 < (r.progress W route).routesAdded ↔
      ∃ rule ∈ (route.rules.getD []).zipIdx, W.HasBackends route rule := by
    rw [progress, hprocessed, Collect.foldl_iff (P := fun p : Progress => 0 < p.routesAdded)
      fun p rule => RouteWorld.routesAdded_configureRule_iff p rule]
    simp
  have hresolved : (r.progress W route).refs.resolved = false ↔
      ∃ rule ∈ (route.rules.getD []).zipIdx, ¬ W.Resolves route rule := by
    rw [progress, hprocessed, Collect.foldl_iff (P := fun p : Progress => p.refs.resolved = false)
      fun p rule => RouteWorld.resolved_configureRule_iff p rule]
    simp [RefsStatus.allResolved]
  obtain ⟨hfirst, hsecond⟩ := conditionStatus_statusConditions
    (decide (0 < (r.progress W route).routesAdded)) (r.progress W route).refs
    (route.metadata.generation.getD 0)
  refine ⟨?_, ?_, ?_⟩
  · rw [hfirst, ← haccepted]
    simp
  · rw [hsecond, ← haccepted]
    by_cases hsome : 0 < (r.progress W route).routesAdded
    · rw [if_pos (decide_eq_true hsome), Option.some.injEq, ← Bool.not_eq_false, hresolved]
      simp [hsome]
    · simp [hsome]
  · intro rule hrule hhas pair hpair
    refine mem_routes_reconcile_iff.mpr (Or.inr ⟨rule, pair, ⟨?_, hhas, hpair⟩, rfl⟩)
    rw [hprocessed]
    exact hrule

/-- An HTTPRoute with one rule, whose service resolves. -/
theorem accepted_and_resolved_iff_sample :
    ∃ status, ((new sampleIndex).reconcile .sample (.sample [["/api".toList]])).1 =
        .configured status ∧
      ∃ parent ∈ status, conditionStatus parent.conditions "Accepted".toList = some true := by
  have hexit : ((new sampleIndex).reconcile .sample (.sample [["/api".toList]])).1 =
      .configured _ := rfl
  refine ⟨_, hexit, _, List.mem_cons_self, ?_⟩
  refine (accepted_and_resolved_iff hexit List.mem_cons_self).1.mpr ?_
  exact ⟨_, List.mem_cons_self, by decide⟩

end HttpRouteReconciler

end Rauta
