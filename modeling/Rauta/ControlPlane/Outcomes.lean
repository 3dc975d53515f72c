import Rauta.ControlPlane

/-!
# What the control plane does not do

Three results about every run of the control plane, from its invariants:

* it never takes a configuration back. The Gateways of the index and the routes of the router are
  those that some call put there, deleted or not;
* it does not follow the endpoints. Between the calls for HTTPRoutes the router stays as it is,
  whatever EndpointSlices are applied;
* it does not come back to an HTTPRoute that was called before its Gateways. The controller of the
  HTTPRoutes watches no Gateways, and the call asked for nothing, so the HTTPRoute has to be
  delivered again.
-/

namespace Rauta

open Transition WorkQueue History

namespace ControlPlane

variable {M : Matchit} {s s' : ControlPlane} {history history' : List ControlRecord}
  {event : ControlEvent} {gatewayClassName : Str} {tls : Bool}

/-! ## Samples -/

/-- The Gateway that the HTTPRoute of the samples refers to. -/
def sampleGateway : Gateway where
  metadata :=
    { name := some "gw".toList
      generateName := none
      metaNamespace := some "default".toList
      labels := none }
  gatewayClassName := "rauta".toList
  listeners := []

/-- An HTTPRoute for one path. -/
def sampleRoute : HttpRoute := .sample [["/a".toList]]

/-- Both are delivered, and the Gateway is called before the HTTPRoute. -/
def inOrder : List ControlEvent :=
  [.deliverGateway sampleGateway, .deliverRoute sampleRoute,
    .reconcileGateway sampleGateway.key (fun _ => .ok ()) (.ok ()),
    .reconcileRoute sampleRoute.key .sample]

/-- Both are delivered, and the HTTPRoute is called before the Gateway. -/
def outOfOrder : List ControlEvent :=
  [.deliverGateway sampleGateway, .deliverRoute sampleRoute,
    .reconcileRoute sampleRoute.key .sample,
    .reconcileGateway sampleGateway.key (fun _ => .ok ()) (.ok ())]

/-- Where a schedule of the sample leads. -/
def after (events : List ControlEvent) : Option (ControlPlane × List ControlRecord) :=
  (controlPlane .scan).exec (start "rauta".toList false, []) events

/-! ## Nothing is taken back -/

/-- **The state by the calls.** In every run the index holds exactly the Gateways that a call found
to be of our class and none has since found to be of another, and the router has exactly the routes
that calls for HTTPRoutes added. -/
theorem configured_iff_called {s : ControlPlane × List ControlRecord}
    (h : Run M gatewayClassName tls s) :
    (∀ key, key ∈ s.1.gatewayReconciler.gatewayIndex ↔
      Since (ControlRecord.Manages gatewayClassName key)
        (ControlRecord.Releases gatewayClassName key) s.2) ∧
    ∀ key, key ∈ s.1.watcher.router.routes ↔ ∃ record ∈ s.2, record.Adds key :=
  ⟨h.indexed.mem_iff, h.routed.mem_iff⟩

/-- Both are called in order, and deleted afterwards. -/
def deleted : List ControlEvent :=
  inOrder ++ [.deleteRoute sampleRoute.key, .deleteGateway sampleGateway.key]

/-- The calls of `inOrder`. -/
def calledInOrder : List ControlRecord :=
  [.routeDelivered sampleRoute.key, .gatewayCalled sampleGateway,
    .routeCalled sampleRoute.key .sample sampleRoute sampleIndex]

/-- After the deletion of the HTTPRoute and of its Gateway, the one is routed and the other is ours
as before. -/
theorem configured_iff_called_deleted :
    ∃ s, after deleted = some s ∧
      s.1.routeQueue.store sampleRoute.key = none ∧
      s.1.gatewayQueue.store sampleGateway.key = none ∧
      sampleGateway.key ∈ s.1.gatewayReconciler.gatewayIndex ∧
      routeKey .get "/a".toList ∈ s.1.watcher.router.routes := by
  obtain ⟨s, hs⟩ : ∃ s, after deleted = some s := ⟨_, rfl⟩
  have hroute : (after deleted).all fun s => (s.1.routeQueue.store sampleRoute.key).isNone := by
    decide +kernel
  have hgateway : (after deleted).all fun s =>
      (s.1.gatewayQueue.store sampleGateway.key).isNone := by decide +kernel
  have hhistory : (after deleted).map Prod.snd = some calledInOrder := rfl
  rw [hs] at hroute hgateway hhistory
  obtain ⟨hindex, hroutes⟩ := configured_iff_called (System.Reach.of_exec hs)
  rw [Option.some.inj hhistory] at hindex hroutes
  refine ⟨s, hs, Option.isNone_iff_eq_none.mp hroute, Option.isNone_iff_eq_none.mp hgateway, ?_, ?_⟩
  · refine (hindex _).mpr ⟨[_], .gatewayCalled sampleGateway, [_], rfl, ⟨rfl, rfl⟩, ?_⟩
    intro record hrecord
    rw [List.mem_singleton.mp hrecord]
    exact id
  · refine (hroutes _).mpr ⟨_, List.mem_cons_of_mem _ (List.mem_cons_of_mem _ List.mem_cons_self),
      (.sample ["/a".toList], 0), ("/a".toList, some .get), ⟨?_, ?_, ?_, rfl⟩, rfl⟩
    · decide +kernel
    · decide +kernel
    · decide +kernel

/-! ## The endpoints are not followed -/

end ControlPlane

/-- A call for an HTTPRoute. -/
def ControlEvent.IsRouteCall : ControlEvent → Prop
  | .reconcileRoute _ _ => True
  | _ => False

namespace ControlPlane

/-- A step that is not a call for an HTTPRoute leaves the router and the rate limiter alone. -/
theorem Steps.router_eq (h : Steps M s history event s' history') (hs : Routed s history)
    (hevent : ¬ event.IsRouteCall) :
    s'.watcher.router = s.watcher.router ∧ s'.rateLimiter = s.rateLimiter := by
  cases h with
  | route => exact absurd trivial hevent
  | @slice event =>
      obtain ⟨slices, hhandle⟩ := Watcher.handle_untracked (M := M) hs.untracked event
      show (s.watcher.handle M event).router = s.watcher.router ∧ _
      rw [hhandle]
      exact ⟨rfl, rfl⟩
  | gateway => exact ⟨rfl, rfl⟩
  | deliverRoute => exact ⟨rfl, rfl⟩
  | deleteRoute => exact ⟨rfl, rfl⟩
  | dropRoute => exact ⟨rfl, rfl⟩
  | other => exact ⟨rfl, rfl⟩

/-- **Only calls for HTTPRoutes configure the data plane.** From any state of a run on, as long as
no HTTPRoute is called, the router and the rate limiter stay as they are: EndpointSlices may be
applied and deleted, and Gateways come and go. -/
theorem unchanged_of_no_call {s s' : ControlPlane × List ControlRecord}
    (h : Run M gatewayClassName tls s)
    (hrest : (controlPlane M).Reach (fun _ event => ¬ event.IsRouteCall) s s') :
    s'.1.watcher.router = s.1.watcher.router ∧ s'.1.rateLimiter = s.1.rateLimiter := by
  induction hrest with
  | refl => exact ⟨rfl, rfl⟩
  | tail hrest hevent hstep ih =>
      have hrun : Run M gatewayClassName tls _ := h.trans (hrest.mono fun _ _ _ => trivial)
      obtain ⟨hrouter, hlimiter⟩ := (steps_of_step hstep).router_eq hrun.routed hevent
      exact ⟨hrouter.trans ih.1, hlimiter.trans ih.2⟩

/-- The pods of the service of the sample, after a rollout. -/
def rolledOut : EndpointSlice where
  metadata :=
    { name := some "svc-abc123".toList
      generateName := none
      metaNamespace := some "default".toList
      labels := some (AList.singleton serviceNameLabel "svc".toList) }
  endpoints := [⟨["10.0.0.9".toList], some ⟨some true⟩⟩]
  ports := some [⟨some "http".toList, some 8080⟩]

/-- The watch delivers them. -/
def rollout : ControlEvent := .endpointSlice (.apply .newestFirst .newestFirst rolledOut)

/-- After a rollout the watcher knows of the new pod, and the router has the pods of before. -/
theorem unchanged_of_no_call_rolledOut :
    ∃ s s', after inOrder = some s ∧ after (inOrder ++ [rollout]) = some s' ∧
      s.1.watcher.aggregateBackendsForService .newestFirst "default/svc".toList 8080 = [] ∧
      s'.1.watcher.aggregateBackendsForService .newestFirst "default/svc".toList 8080 ≠ [] ∧
      s'.1.watcher.router = s.1.watcher.router ∧ s'.1.rateLimiter = s.1.rateLimiter := by
  obtain ⟨s, hs⟩ : ∃ s, after inOrder = some s := ⟨_, rfl⟩
  obtain ⟨s', hs'⟩ : ∃ s', after (inOrder ++ [rollout]) = some s' := ⟨_, rfl⟩
  have hold : (after inOrder).all fun s =>
      s.1.watcher.aggregateBackendsForService .newestFirst "default/svc".toList 8080 = [] := by
    decide +kernel
  have hnew : (after (inOrder ++ [rollout])).all fun s =>
      s.1.watcher.aggregateBackendsForService .newestFirst "default/svc".toList 8080 ≠ [] := by
    decide +kernel
  have hstep : (controlPlane .scan).step s rollout = some s' := by
    rw [← hs', after, System.exec_concat, ← after, hs]
    rfl
  rw [hs, Option.all_some, decide_eq_true_eq] at hold
  rw [hs', Option.all_some, decide_eq_true_eq] at hnew
  have hrollout : ¬ rollout.IsRouteCall := id
  exact ⟨s, s', hs, hs', hold, hnew, unchanged_of_no_call (System.Reach.of_exec hs)
    (System.Reach.refl.tail hrollout hstep)⟩

/-! ## HTTPRoutes that were called too early -/

end ControlPlane

/-- The watch delivers the HTTPRoute. -/
def ControlEvent.Delivers (key : Str × Str) : ControlEvent → Prop
  | .deliverRoute route => route.key = key
  | _ => False

namespace ControlPlane

variable {key : Str × Str}

/-- An idle HTTPRoute that is not delivered stays idle, and is not called. -/
theorem Steps.idle (h : Steps M s history event s' history') (hidle : s.routeQueue.Idle key)
    (hevent : ¬ event.Delivers key) :
    s'.routeQueue.Idle key ∧
      ∃ later, history' = history ++ later ∧ ∀ record ∈ later, ¬ record.Calls key := by
  cases h with
  | gateway => exact ⟨hidle, [_], rfl, by simp [ControlRecord.Calls]⟩
  | @route key' W route hready =>
      have hne : key ≠ key' := by
        rintro rfl
        exact hready.not_idle hidle
      refine ⟨(Queue.idle_settle_of_ne _ _ _ hne).mpr hidle, [_], rfl, ?_⟩
      simp [ControlRecord.Calls, hne.symm]
  | @deliverRoute route =>
      have hne : key ≠ route.key := fun hkey => hevent hkey.symm
      refine ⟨(Queue.idle_deliver_of_ne _ _ _ hne).mpr hidle, [_], rfl, ?_⟩
      simp [ControlRecord.Calls]
  | deleteRoute => exact ⟨hidle, [], by simp, by simp⟩
  | @dropRoute key' W hready =>
      have hne : key ≠ key' := by
        rintro rfl
        exact hready.not_idle hidle
      have hkept := Queue.idle_settle_of_ne s.routeQueue s.now .awaitChange hne
      exact ⟨hkept.mpr hidle, [], by simp, by simp⟩
  | slice => exact ⟨hidle, [], by simp, by simp⟩
  | other => exact ⟨hidle, [], by simp, by simp⟩

/-- Whatever happens but a delivery, the HTTPRoute is not called again. -/
def NeverCalled (M : Matchit) (key : Str × Str) (s : ControlPlane × List ControlRecord) : Prop :=
  ∀ s', (controlPlane M).Reach (fun _ event => ¬ event.Delivers key) s s' →
    ∃ later, s'.2 = s.2 ++ later ∧ ∀ record ∈ later, ¬ record.Calls key

theorem neverCalled_of_idle {s : ControlPlane × List ControlRecord}
    (hidle : s.1.routeQueue.Idle key) : NeverCalled M key s := by
  intro s' h
  have hinv : s'.1.routeQueue.Idle key ∧
      ∃ later, s'.2 = s.2 ++ later ∧ ∀ record ∈ later, ¬ record.Calls key := by
    induction h with
    | refl => exact ⟨hidle, [], by simp, by simp⟩
    | tail _ hevent hstep ih =>
        obtain ⟨hidle₁, later₁, hlater₁, hcalls₁⟩ := ih
        obtain ⟨hidle₂, later₂, hlater₂, hcalls₂⟩ := (steps_of_step hstep).idle hidle₁ hevent
        refine ⟨hidle₂, later₁ ++ later₂, ?_, ?_⟩
        · rw [hlater₂, hlater₁, List.append_assoc]
        · intro record hrecord
          exact (List.mem_append.mp hrecord).elim (hcalls₁ record) (hcalls₂ record)
  exact hinv.2

/-- If a call for it is due at some time, an HTTPRoute that is not deleted gets called: time has
only to pass. -/
theorem not_neverCalled_of_not_idle {s : ControlPlane × List ControlRecord} {route : HttpRoute}
    (hstored : s.1.routeQueue.store key = some route) (hidle : ¬ s.1.routeQueue.Idle key) :
    ¬ NeverCalled M key s := by
  intro hnever
  obtain ⟨time, htime⟩ := Option.ne_none_iff_exists'.mp hidle
  have hready : s.1.routeQueue.Ready (s.1.now + time) key := ⟨time, htime, Nat.le_add_left ..⟩
  let waited : ControlPlane × List ControlRecord := ({ s.1 with now := s.1.now + time }, s.2)
  let called : ControlPlane × List ControlRecord := (waited.1.callRoute key .sample route,
    s.2 ++ [.routeCalled key .sample route s.1.gatewayReconciler.gatewayIndex])
  have htick : (controlPlane M).step s (.tick time) = some waited := by
    simp [controlPlane, System.observed, step, record, waited]
  have hcall : (controlPlane M).step waited (.reconcileRoute key .sample) = some called := by
    simp [controlPlane, System.observed, step, record, waited, called, hready, hstored]
  have hrest : (controlPlane M).Reach (fun _ event => ¬ event.Delivers key) s called :=
    (System.Reach.refl.tail (a := .tick time) id htick).tail (a := .reconcileRoute key .sample) id
      hcall
  obtain ⟨later, hlater, hcalls⟩ := hnever called hrest
  have hmem : ControlRecord.routeCalled key .sample route s.1.gatewayReconciler.gatewayIndex ∈
      later := by
    rw [← List.append_cancel_left hlater]
    exact List.mem_singleton_self _
  exact hcalls _ hmem rfl

/-- **A call that comes too early is the last one.** In every run, for every HTTPRoute that is not
deleted: no call is ever made for it again, unless the watch delivers it again, exactly if the last
call since its last delivery found none of its Gateways in the index. That these Gateways are in the
index by now, or will be, makes no difference. -/
theorem neverCalled_iff_ignored {s : ControlPlane × List ControlRecord} {route : HttpRoute}
    (h : Run M gatewayClassName tls s) (hstored : s.1.routeQueue.store key = some route) :
    NeverCalled M key s ↔ Ignored key s.2 := by
  rw [← h.tracked key route hstored]
  constructor
  · intro hnever
    by_contra hidle
    exact not_neverCalled_of_not_idle hstored hidle hnever
  · exact neverCalled_of_idle

/-- The same two calls in the other order: the Gateway is ours, and its HTTPRoute is left out for
good. -/
theorem neverCalled_iff_ignored_outOfOrder :
    ∃ s, after outOfOrder = some s ∧
      sampleGateway.key ∈ s.1.gatewayReconciler.gatewayIndex ∧
      s.1.watcher.router.routes = ∅ ∧ NeverCalled .scan sampleRoute.key s := by
  obtain ⟨s, hs⟩ : ∃ s, after outOfOrder = some s := ⟨_, rfl⟩
  have hindex : (after outOfOrder).all fun s =>
      sampleGateway.key ∈ s.1.gatewayReconciler.gatewayIndex := by decide +kernel
  have hroutes : (after outOfOrder).map (fun s => s.1.watcher.router.routes) = some ∅ := rfl
  have hstored : (after outOfOrder).map (fun s => s.1.routeQueue.store sampleRoute.key) =
      some (some sampleRoute) := rfl
  have hhistory : (after outOfOrder).map Prod.snd = some [.routeDelivered sampleRoute.key,
      .routeCalled sampleRoute.key .sample sampleRoute ∅, .gatewayCalled sampleGateway] := rfl
  rw [hs] at hindex hroutes hstored hhistory
  rw [Option.all_some, decide_eq_true_eq] at hindex
  refine ⟨s, hs, hindex, Option.some.inj hroutes, ?_⟩
  refine (neverCalled_iff_ignored (System.Reach.of_exec hs) (Option.some.inj hstored)).mpr ?_
  rw [Option.some.inj hhistory]
  refine ⟨[_], _, [_], rfl, ⟨rfl, rfl⟩, ?_⟩
  intro record hrecord
  rw [List.mem_singleton.mp hrecord]
  exact id

end ControlPlane

end Rauta
