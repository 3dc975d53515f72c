import Rauta.EndpointSlices.Convergence
import Rauta.HttpRoute.Effects
import Rauta.Lib.History
import Rauta.Lib.WorkQueue

/-!
# The control plane

In Kubernetes mode three tasks write what the data plane reads: the Gateway controller, the
HTTPRoute controller and the EndpointSlice watcher. The first two share the index of our Gateways,
the last two the router. A controller calls its reconciler when the work queue says so, and the
queue of a controller is fed by the watch of its own kind of object only.

The system `controlPlane` takes one of their steps at a time, in any order; a call of a reconciler
is one step. Its history variable records the calls and the deliveries of HTTPRoutes. Three
invariants of its runs:

* `Run.indexed` and `Run.routed` are the index and the routes in terms of the calls alone;
* `Watcher.handle_untracked` is the reason that the EndpointSlice watcher never changes the router:
  it starts without tracking any route, and nothing tells it of one;
* `Run.tracked` says which HTTPRoutes no call is going to be made for: those whose last call found
  none of their Gateways in the index.
-/

namespace Rauta

open Transition WorkQueue History

/-! ## The three tasks -/

/-- The key of an HTTPRoute: `namespace()`, with the reconciler's default, and `name_any()`. -/
def HttpRoute.key (route : HttpRoute) : Str × Str :=
  (route.namespaceOrDefault, (route.metadata.name.or route.metadata.generateName).getD [])

/-- The action of a call; after an error it is that of `error_policy`. In nanoseconds. -/
def ReconcileResult.action : ReconcileResult → Action
  | .awaitChange => .awaitChange
  | .requeue seconds => .requeue (seconds * 10 ^ 9)
  | .statusError _ => .requeue (60 * 10 ^ 9)

/-- The controllers with their queues, and the watcher, which holds the router. -/
structure ControlPlane where
  now : Nat
  gatewayQueue : Queue (Str × Str) Gateway
  routeQueue : Queue (Str × Str) HttpRoute
  gatewayReconciler : GatewayReconciler
  rateLimiter : RateLimiter
  watcher : Watcher

/-- A step: time passes, a watch reports something, or a reconciler is called. -/
inductive ControlEvent where
  | tick (duration : Nat)
  | deliverGateway (gateway : Gateway)
  | deleteGateway (key : Str × Str)
  | reconcileGateway (key : Str × Str) (bind : ListenerConfig → Except Str Unit)
      (status : Except Str Unit)
  | deliverRoute (route : HttpRoute)
  | deleteRoute (key : Str × Str)
  | reconcileRoute (key : Str × Str) (W : RouteWorld)
  | endpointSlice (event : SliceEvent)

namespace ControlPlane

/-- As `main` starts the tasks: the watcher tracks no routes. -/
def start (gatewayClassName : Str) (tls : Bool) : ControlPlane where
  now := 0
  gatewayQueue := .empty
  routeQueue := .empty
  gatewayReconciler := .new gatewayClassName tls
  rateLimiter := ∅
  watcher := .start Router.new ∅

/-- The HTTPRoute reconciler: it shares the router and the index. -/
def routeReconciler (s : ControlPlane) : HttpRouteReconciler :=
  ⟨s.watcher.router, s.rateLimiter, s.gatewayReconciler.gatewayIndex⟩

/-- A call of the Gateway reconciler. -/
def callGateway (s : ControlPlane) (key : Str × Str) (bind : ListenerConfig → Except Str Unit)
    (status : Except Str Unit) (gateway : Gateway) : ControlPlane :=
  let (result, reconciler) := s.gatewayReconciler.reconcile bind status gateway
  { s with
    gatewayQueue := s.gatewayQueue.settle s.now key result.action
    gatewayReconciler := reconciler }

/-- A call of the HTTPRoute reconciler. -/
def callRoute (s : ControlPlane) (key : Str × Str) (W : RouteWorld) (route : HttpRoute) :
    ControlPlane :=
  let (_, result, reconciler) := s.routeReconciler.reconcile W route
  { s with
    routeQueue := s.routeQueue.settle s.now key result.action
    rateLimiter := reconciler.rateLimiter
    watcher := { s.watcher with router := reconciler.router } }

/-- One step. A call that is due for a deleted object is dropped. -/
def step (M : Matchit) (s : ControlPlane) : ControlEvent → Option ControlPlane
  | .tick duration => some { s with now := s.now + duration }
  | .deliverGateway gateway =>
    some { s with gatewayQueue := s.gatewayQueue.deliver s.now gateway.key gateway }
  | .deleteGateway key => some { s with gatewayQueue := s.gatewayQueue.delete key }
  | .reconcileGateway key bind status =>
    if s.gatewayQueue.Ready s.now key then
      match s.gatewayQueue.store key with
      | none => some { s with gatewayQueue := s.gatewayQueue.settle s.now key .awaitChange }
      | some gateway => some (s.callGateway key bind status gateway)
    else none
  | .deliverRoute route =>
    some { s with routeQueue := s.routeQueue.deliver s.now route.key route }
  | .deleteRoute key => some { s with routeQueue := s.routeQueue.delete key }
  | .reconcileRoute key W =>
    if s.routeQueue.Ready s.now key then
      match s.routeQueue.store key with
      | none => some { s with routeQueue := s.routeQueue.settle s.now key .awaitChange }
      | some route => some (s.callRoute key W route)
    else none
  | .endpointSlice event =>
    if s.watcher.running then some { s with watcher := s.watcher.handle M event } else none

end ControlPlane

/-! ## The history -/

/-- A call of a reconciler, with the index that a call for an HTTPRoute met, or the delivery of an
HTTPRoute. -/
inductive ControlRecord where
  | gatewayCalled (gateway : Gateway)
  | routeDelivered (key : Str × Str)
  | routeCalled (key : Str × Str) (W : RouteWorld) (route : HttpRoute)
      (gatewayIndex : Finset (Str × Str))

/-- What a step adds to the history. -/
def ControlPlane.record (s : ControlPlane) : ControlEvent → List ControlRecord
  | .reconcileGateway key _ _ => (s.gatewayQueue.store key).toList.map .gatewayCalled
  | .deliverRoute route => [.routeDelivered route.key]
  | .reconcileRoute key W =>
    (s.routeQueue.store key).toList.map fun route =>
      .routeCalled key W route s.gatewayReconciler.gatewayIndex
  | _ => []

/-- The control plane, with its history. -/
def controlPlane (M : Matchit) : System (ControlPlane × List ControlRecord) ControlEvent :=
  (⟨ControlPlane.step M⟩ : System ControlPlane ControlEvent).observed
    fun s event _ history => history ++ s.record event

variable {M : Matchit} {s s' : ControlPlane} {history history' : List ControlRecord}
  {event : ControlEvent}

namespace ControlPlane

/-- **What a step does.** Apart from the calls and the queue of the HTTPRoutes, only the watcher can
change what is looked at here. -/
inductive Steps (M : Matchit) (s : ControlPlane) (history : List ControlRecord) :
    ControlEvent → ControlPlane → List ControlRecord → Prop
  | gateway {key : Str × Str} {bind : ListenerConfig → Except Str Unit}
      {status : Except Str Unit} {gateway : Gateway} :
      Steps M s history (.reconcileGateway key bind status) (s.callGateway key bind status gateway)
        (history ++ [.gatewayCalled gateway])
  | route {key : Str × Str} {W : RouteWorld} {route : HttpRoute}
      (ready : s.routeQueue.Ready s.now key) (stored : s.routeQueue.store key = some route) :
      Steps M s history (.reconcileRoute key W) (s.callRoute key W route)
        (history ++ [.routeCalled key W route s.gatewayReconciler.gatewayIndex])
  | deliverRoute {route : HttpRoute} :
      Steps M s history (.deliverRoute route)
        { s with routeQueue := s.routeQueue.deliver s.now route.key route }
        (history ++ [.routeDelivered route.key])
  | deleteRoute {key : Str × Str} :
      Steps M s history (.deleteRoute key) { s with routeQueue := s.routeQueue.delete key } history
  | dropRoute {key : Str × Str} {W : RouteWorld}
      (ready : s.routeQueue.Ready s.now key) (deleted : s.routeQueue.store key = none) :
      Steps M s history (.reconcileRoute key W)
        { s with routeQueue := s.routeQueue.settle s.now key .awaitChange } history
  | slice {event : SliceEvent} :
      Steps M s history (.endpointSlice event) { s with watcher := s.watcher.handle M event }
        history
  | other {event : ControlEvent} {now : Nat} {gatewayQueue : Queue (Str × Str) Gateway} :
      Steps M s history event { s with now := now, gatewayQueue := gatewayQueue } history

theorem steps_of_step (h : (controlPlane M).step (s, history) event = some (s', history')) :
    Steps M s history event s' history' := by
  obtain ⟨s₁, hstep, heq⟩ := Option.map_eq_some_iff.mp h
  obtain ⟨rfl, rfl⟩ := Prod.mk.inj heq
  cases event with
  | tick duration =>
      cases hstep
      simpa [record] using Steps.other
  | deliverGateway gateway =>
      cases hstep
      simpa [record] using Steps.other
  | deleteGateway key =>
      cases hstep
      simpa [record] using Steps.other
  | reconcileGateway key bind status =>
      obtain ⟨-, hcall⟩ := Option.ite_none_right_eq_some.mp hstep
      cases hstored : s.gatewayQueue.store key with
      | none =>
          rw [hstored] at hcall
          cases hcall
          simpa [record, hstored] using Steps.other
      | some gateway =>
          rw [hstored] at hcall
          cases hcall
          simpa [record, hstored] using Steps.gateway
  | deliverRoute route =>
      cases hstep
      exact .deliverRoute
  | deleteRoute key =>
      cases hstep
      simpa [record] using Steps.deleteRoute
  | reconcileRoute key W =>
      obtain ⟨hready, hcall⟩ := Option.ite_none_right_eq_some.mp hstep
      cases hstored : s.routeQueue.store key with
      | none =>
          rw [hstored] at hcall
          cases hcall
          simpa [record, hstored] using Steps.dropRoute hready hstored
      | some route =>
          rw [hstored] at hcall
          cases hcall
          simpa [record, hstored] using Steps.route hready hstored
  | endpointSlice event =>
      obtain ⟨-, hhandle⟩ := Option.ite_none_right_eq_some.mp hstep
      cases hhandle
      simpa [record] using Steps.slice

/-- The state that the results are about. -/
abbrev Run (M : Matchit) (gatewayClassName : Str) (tls : Bool)
    (s : ControlPlane × List ControlRecord) : Prop :=
  (controlPlane M).Reach System.Anything (start gatewayClassName tls, []) s

/-! ## The index -/

end ControlPlane

namespace ControlRecord

/-- The Gateway was found to be of our class. -/
def Manages (gatewayClassName : Str) (key : Str × Str) : ControlRecord → Prop
  | .gatewayCalled gateway => gateway.key = key ∧ gateway.gatewayClassName = gatewayClassName
  | _ => False

/-- The Gateway was found to be of another class. -/
def Releases (gatewayClassName : Str) (key : Str × Str) : ControlRecord → Prop
  | .gatewayCalled gateway => gateway.key = key ∧ gateway.gatewayClassName ≠ gatewayClassName
  | _ => False

end ControlRecord

theorem GatewayReconciler.gatewayIndex_reconcile (r : GatewayReconciler)
    (bind : ListenerConfig → Except Str Unit) (status : Except Str Unit) (gateway : Gateway) :
    (r.reconcile bind status gateway).2.gatewayIndex =
      if gateway.gatewayClassName = r.gatewayClassName then insert gateway.key r.gatewayIndex
      else r.gatewayIndex.erase gateway.key := by
  unfold reconcile
  by_cases hclass : gateway.gatewayClassName = r.gatewayClassName
  · cases status <;> simp [hclass]
  · simp [hclass]

theorem GatewayReconciler.gatewayClassName_reconcile (r : GatewayReconciler)
    (bind : ListenerConfig → Except Str Unit) (status : Except Str Unit) (gateway : Gateway) :
    (r.reconcile bind status gateway).2.gatewayClassName = r.gatewayClassName := by
  unfold reconcile
  split
  · rfl
  · cases status <;> rfl

namespace ControlPlane

/-- The index holds the Gateways that were found to be ours and not since found to be others'. -/
structure Indexed (gatewayClassName : Str) (s : ControlPlane) (history : List ControlRecord) :
    Prop where
  class_eq : s.gatewayReconciler.gatewayClassName = gatewayClassName
  mem_iff : ∀ key, key ∈ s.gatewayReconciler.gatewayIndex ↔
    Since (ControlRecord.Manages gatewayClassName key) (ControlRecord.Releases gatewayClassName key)
      history

/-- A record that is not of a Gateway has no say in the index. -/
theorem Indexed.concat {gatewayClassName : Str} {record : ControlRecord}
    (h : Indexed gatewayClassName s history)
    (hmanages : ∀ key, ¬ record.Manages gatewayClassName key)
    (hreleases : ∀ key, ¬ record.Releases gatewayClassName key)
    (hs : s'.gatewayReconciler = s.gatewayReconciler) :
    Indexed gatewayClassName s' (history ++ [record]) := by
  refine ⟨hs ▸ h.class_eq, fun key => ?_⟩
  rw [hs, h.mem_iff, since_concat]
  simp [hmanages, hreleases]

theorem Indexed.callGateway {gatewayClassName : Str} (h : Indexed gatewayClassName s history)
    (key : Str × Str) (bind : ListenerConfig → Except Str Unit) (status : Except Str Unit)
    (gateway : Gateway) :
    Indexed gatewayClassName (s.callGateway key bind status gateway)
      (history ++ [.gatewayCalled gateway]) := by
  refine ⟨(GatewayReconciler.gatewayClassName_reconcile ..).trans h.class_eq, fun key' => ?_⟩
  rw [since_concat, ← h.mem_iff]
  show key' ∈ (s.gatewayReconciler.reconcile bind status gateway).2.gatewayIndex ↔ _
  rw [GatewayReconciler.gatewayIndex_reconcile, h.class_eq]
  simp only [ControlRecord.Manages, ControlRecord.Releases]
  by_cases hclass : gateway.gatewayClassName = gatewayClassName
  · simp [hclass, eq_comm]
  · simp [hclass, eq_comm, and_comm]

theorem Steps.indexed {gatewayClassName : Str} (h : Steps M s history event s' history')
    (hs : Indexed gatewayClassName s history) : Indexed gatewayClassName s' history' := by
  cases h with
  | gateway => exact hs.callGateway ..
  | route => exact hs.concat (fun _ => id) (fun _ => id) rfl
  | deliverRoute => exact hs.concat (fun _ => id) (fun _ => id) rfl
  | deleteRoute => exact ⟨hs.class_eq, hs.mem_iff⟩
  | dropRoute => exact ⟨hs.class_eq, hs.mem_iff⟩
  | slice => exact ⟨hs.class_eq, hs.mem_iff⟩
  | other => exact ⟨hs.class_eq, hs.mem_iff⟩

theorem Run.indexed {gatewayClassName : Str} {tls : Bool}
    {s : ControlPlane × List ControlRecord} (h : Run M gatewayClassName tls s) :
    Indexed gatewayClassName s.1 s.2 := by
  induction h with
  | refl => exact ⟨rfl, fun key => iff_of_false (Finset.notMem_empty key) not_since_nil⟩
  | tail _ _ hstep ih => exact (steps_of_step hstep).indexed ih

/-! ## The router -/

end ControlPlane

namespace Watcher

variable {w : Watcher}

/-- For a watcher that tracks no routes, an applied slice is one more to store. -/
theorem handleEndpointsliceApply_untracked (h : w.serviceRoutes = ∅) (ord : IterOrder)
    (order : SliceOrder) (slice : EndpointSlice) :
    ∃ result slices, result ≠ AddResult.panic ∧
      w.handleEndpointsliceApply M ord order slice =
        (result, { w with serviceSlices := slices }) := by
  unfold handleEndpointsliceApply
  cases slice.serviceName with
  | none => exact ⟨.err (missingLabel slice), w.serviceSlices, by simp, rfl⟩
  | some service =>
      have huntracked : (w.store (slice.serviceKey service) slice).serviceRoutes.lookup
          (slice.serviceKey service) = none := by
        show w.serviceRoutes.lookup (slice.serviceKey service) = none
        rw [h]
        rfl
      simp only [huntracked, ite_self]
      exact ⟨.ok, _, by simp, rfl⟩

/-- **A watcher that tracks no routes** does nothing but store slices. -/
theorem handle_untracked (h : w.serviceRoutes = ∅) (event : SliceEvent) :
    ∃ slices, w.handle M event = { w with serviceSlices := slices } := by
  cases event with
  | apply ord order slice =>
      obtain ⟨result, slices, hresult, happly⟩ :=
        handleEndpointsliceApply_untracked (M := M) h ord order slice
      refine ⟨slices, ?_⟩
      simp only [handle, happly]
  | delete slice =>
      have herase : ∀ key, w.serviceRoutes.erase key = w.serviceRoutes := by
        intro key
        rw [h]
        rfl
      simp only [handle, handleDelete, herase]
      split
      · exact ⟨w.serviceSlices, rfl⟩
      · split
        · exact ⟨_, rfl⟩
        · exact ⟨_, rfl⟩

end Watcher

/-- A call for an HTTPRoute added the route. -/
def ControlRecord.Adds (key : RouteKey) : ControlRecord → Prop
  | .routeCalled _ W route gatewayIndex => ∃ rule pair, W.AddsRoute route gatewayIndex rule pair ∧
      key = routeKey (pair.2.getD .all) pair.1
  | _ => False

namespace ControlPlane

/-- The watcher tracks no routes, and the router has the routes that calls added. -/
structure Routed (s : ControlPlane) (history : List ControlRecord) : Prop where
  untracked : s.watcher.serviceRoutes = ∅
  mem_iff : ∀ key, key ∈ s.watcher.router.routes ↔ ∃ record ∈ history, record.Adds key

/-- A record that adds nothing has no say in the routes. -/
theorem Routed.concat {record : ControlRecord} (h : Routed s history)
    (hadds : ∀ key, ¬ record.Adds key) (hs : s'.watcher = s.watcher) :
    Routed s' (history ++ [record]) := by
  refine ⟨hs ▸ h.untracked, fun key => ?_⟩
  rw [hs, h.mem_iff]
  simp [or_and_right, exists_or, hadds]

theorem Routed.callRoute (h : Routed s history) (key : Str × Str) (W : RouteWorld)
    (route : HttpRoute) :
    Routed (s.callRoute key W route)
      (history ++ [.routeCalled key W route s.gatewayReconciler.gatewayIndex]) := by
  refine ⟨h.untracked, fun key' => ?_⟩
  show key' ∈ (s.routeReconciler.reconcile W route).2.2.router.routes ↔ _
  rw [HttpRouteReconciler.mem_routes_reconcile_iff]
  simp only [List.mem_append, List.mem_singleton, or_and_right, exists_or, exists_eq_left]
  exact or_congr_left (h.mem_iff key')

theorem Steps.routed (h : Steps M s history event s' history') (hs : Routed s history) :
    Routed s' history' := by
  cases h with
  | gateway => exact hs.concat (fun _ => id) rfl
  | route => exact hs.callRoute ..
  | deliverRoute => exact hs.concat (fun _ => id) rfl
  | deleteRoute => exact ⟨hs.untracked, hs.mem_iff⟩
  | dropRoute => exact ⟨hs.untracked, hs.mem_iff⟩
  | @slice event =>
      obtain ⟨slices, hhandle⟩ := Watcher.handle_untracked (M := M) hs.untracked event
      rw [hhandle]
      exact ⟨hs.untracked, hs.mem_iff⟩
  | other => exact ⟨hs.untracked, hs.mem_iff⟩

theorem Run.routed {gatewayClassName : Str} {tls : Bool} {s : ControlPlane × List ControlRecord}
    (h : Run M gatewayClassName tls s) : Routed s.1 s.2 := by
  induction h with
  | refl => exact ⟨rfl, fun key => iff_of_false (AList.notMem_empty key) (by simp)⟩
  | tail _ _ hstep ih => exact (steps_of_step hstep).routed ih

/-! ## The queue of the HTTPRoutes -/

end ControlPlane

namespace ControlRecord

/-- A call for the HTTPRoute. -/
def Calls (key : Str × Str) : ControlRecord → Prop
  | .routeCalled key' _ _ _ => key' = key
  | _ => False

/-- A call for the HTTPRoute that found none of its Gateways in the index. -/
def Ignores (key : Str × Str) : ControlRecord → Prop
  | .routeCalled key' _ route gatewayIndex =>
    key' = key ∧ route.getMatchingParentRefs gatewayIndex = []
  | _ => False

/-- The HTTPRoute was delivered. -/
def Delivers (key : Str × Str) : ControlRecord → Prop
  | .routeDelivered key' => key' = key
  | _ => False

end ControlRecord

/-- Nothing is asked for by the calls that find no Gateway, and by no others. -/
theorem HttpRouteReconciler.action_reconcile_iff (r : HttpRouteReconciler) (W : RouteWorld)
    (route : HttpRoute) :
    (r.reconcile W route).2.1.action = .awaitChange ↔
      route.getMatchingParentRefs r.gatewayIndex = [] := by
  unfold reconcile
  by_cases hrefs : route.getMatchingParentRefs r.gatewayIndex = []
  · simp [hrefs, ReconcileResult.action]
  · cases hstatus : W.statusUpdate <;> simp [hrefs, ReconcileResult.action]

namespace ControlPlane

/-- The last call for the HTTPRoute since its last delivery found none of its Gateways. -/
def Ignored (key : Str × Str) (history : List ControlRecord) : Prop :=
  Since (ControlRecord.Ignores key) (ControlRecord.Delivers key) history

theorem ignored_concat {key : Str × Str} {record : ControlRecord} :
    Ignored key (history ++ [record]) ↔
      record.Ignores key ∨ Ignored key history ∧ ¬ record.Delivers key :=
  since_concat record

/-- The HTTPRoutes for which no call is going to be made are those that were ignored. -/
def Tracked (s : ControlPlane) (history : List ControlRecord) : Prop :=
  ∀ key route, s.routeQueue.store key = some route →
    (s.routeQueue.Idle key ↔ Ignored key history)

theorem idle_callRoute_self (key : Str × Str) (W : RouteWorld) (route : HttpRoute) :
    (s.callRoute key W route).routeQueue.Idle key ↔
      route.getMatchingParentRefs s.gatewayReconciler.gatewayIndex = [] := by
  show (s.routeQueue.settle s.now key (s.routeReconciler.reconcile W route).2.1.action).Idle key ↔
    route.getMatchingParentRefs s.routeReconciler.gatewayIndex = []
  rw [Queue.idle_settle_self]
  exact s.routeReconciler.action_reconcile_iff W route

theorem Tracked.callRoute {key : Str × Str} {route : HttpRoute} (h : Tracked s history)
    (hready : s.routeQueue.Ready s.now key) (hstored : s.routeQueue.store key = some route)
    (W : RouteWorld) :
    Tracked (s.callRoute key W route)
      (history ++ [.routeCalled key W route s.gatewayReconciler.gatewayIndex]) := by
  intro key' route' hstored'
  have hbefore : s.routeQueue.store key' = some route' := by
    rw [← hstored']
    exact (congrFun (Queue.store_settle ..) key').symm
  rw [ignored_concat]
  by_cases hkey : key' = key
  · subst hkey
    -- a call that was due comes after the delivery, so an earlier call does not count
    have hnot : ¬ Ignored key' history := fun hsince =>
      hready.not_idle ((h key' route hstored).mpr hsince)
    rw [idle_callRoute_self]
    simp [ControlRecord.Ignores, hnot]
  · have hidle : (s.callRoute key W route).routeQueue.Idle key' ↔ s.routeQueue.Idle key' :=
      Queue.idle_settle_of_ne _ _ _ hkey
    rw [hidle, h key' route' hbefore]
    simp [ControlRecord.Ignores, ControlRecord.Delivers, Ne.symm hkey]

theorem Tracked.deliverRoute (h : Tracked s history) (route : HttpRoute) :
    Tracked { s with routeQueue := s.routeQueue.deliver s.now route.key route }
      (history ++ [.routeDelivered route.key]) := by
  intro key route' hstored
  rw [ignored_concat]
  by_cases hkey : key = route.key
  · subst hkey
    exact iff_of_false (Queue.not_idle_deliver _ _ _ _) (by simp [ControlRecord.Ignores,
      ControlRecord.Delivers])
  · have hbefore : s.routeQueue.store key = some route' := by
      rw [← hstored]
      exact (Queue.store_deliver_of_ne _ _ _ hkey).symm
    have hidle := Queue.idle_deliver_of_ne s.routeQueue s.now route hkey
    rw [hidle, h key route' hbefore]
    simp [ControlRecord.Ignores, ControlRecord.Delivers, Ne.symm hkey]

theorem Tracked.deleteRoute (h : Tracked s history) (key : Str × Str) :
    Tracked { s with routeQueue := s.routeQueue.delete key } history := by
  intro key' route hstored
  by_cases hkey : key' = key
  · subst hkey
    simp [Queue.delete] at hstored
  · refine h key' route ?_
    rw [← hstored]
    exact (Function.update_of_ne hkey ..).symm

theorem Tracked.dropRoute {key : Str × Str} (h : Tracked s history)
    (hdeleted : s.routeQueue.store key = none) :
    Tracked { s with routeQueue := s.routeQueue.settle s.now key .awaitChange } history := by
  intro key' route hstored
  have hne : key' ≠ key := by
    rintro rfl
    rw [Queue.store_settle, hdeleted] at hstored
    cases hstored
  rw [Queue.store_settle] at hstored
  have hidle := Queue.idle_settle_of_ne s.routeQueue s.now .awaitChange hne
  exact hidle.trans (h key' route hstored)

theorem Steps.tracked (h : Steps M s history event s' history') (hs : Tracked s history) :
    Tracked s' history' := by
  cases h with
  | @gateway _ _ _ gateway =>
      intro key route hstored
      have hignored : Ignored key (history ++ [.gatewayCalled gateway]) ↔ Ignored key history := by
        rw [ignored_concat]
        simp [ControlRecord.Ignores, ControlRecord.Delivers]
      exact (hs key route hstored).trans hignored.symm
  | route hready hstored => exact hs.callRoute hready hstored _
  | deliverRoute => exact hs.deliverRoute _
  | deleteRoute => exact hs.deleteRoute _
  | dropRoute _ hdeleted => exact hs.dropRoute hdeleted
  | slice => exact hs
  | other => exact hs

theorem Run.tracked {gatewayClassName : Str} {tls : Bool} {s : ControlPlane × List ControlRecord}
    (h : Run M gatewayClassName tls s) : Tracked s.1 s.2 := by
  induction h with
  | refl => exact fun key route hstored => nomatch hstored
  | tail _ _ hstep ih => exact (steps_of_step hstep).tracked ih

end ControlPlane

end Rauta
