import Mathlib.Data.List.Dedup
import Rauta.IpText
import Rauta.Lib.Distinct
import Rauta.Router.Atomicity

/-!
# The EndpointSlice watcher

`watch_endpointslices`: the task that keeps the router's backends in step with the pods of a
service. Kubernetes reports the pods in EndpointSlices, several for one service, and the watcher
receives an event for each slice that is written or deleted.

It keeps two maps by service: the slices it has seen, and the route paths the service is tracked
for. On a write it stores the slice, puts the ready endpoints of all slices of the service together,
without repeating an address, and hands the list to `update_route_backends` for every tracked path.
On a deletion it only drops the slice.

The order in which a map lists its values is not specified, so an event brings along the orders
that it meets (`IterOrder` for the routes, `SliceOrder` for the slices). An event after a panic is
not handled: the assertion of `maglev_build_compact_table` ends the task.
-/

namespace Rauta

open Collect

/-! ## Slices -/

/-- `EndpointPort`, as far as the watcher reads it. -/
structure EndpointPort where
  name : Option Str
  port : Option Int32

/-- `EndpointConditions`, as far as the watcher reads it. -/
structure EndpointConditions where
  ready : Option Bool

/-- `Endpoint`, as far as the watcher reads it. -/
structure Endpoint where
  addresses : List Str
  conditions : Option EndpointConditions

/-- `ObjectMeta`, as far as the watcher reads it. -/
structure ObjectMeta where
  name : Option Str
  generateName : Option Str
  metaNamespace : Option Str
  labels : Option (AList fun _ : Str => Str)

/-- `EndpointSlice`. -/
structure EndpointSlice where
  metadata : ObjectMeta
  endpoints : List Endpoint
  ports : Option (List EndpointPort)

/-- The label that names the service of a slice. -/
def serviceNameLabel : Str := "kubernetes.io/service-name".toList

/-- A cast of an `i32` to `u16`: the low sixteen bits. -/
def asU16 (port : Int32) : UInt16 := port.toUInt32.toUInt16

/-- The check of an endpoint's conditions: ready unless the conditions do not say so. -/
def Endpoint.isReady (endpoint : Endpoint) : Bool :=
  match endpoint.conditions with
  | some conditions => conditions.ready.getD false
  | none => true

/-- The backend of an address: IPv4 is tried first; other text gives none. -/
def backendOfAddress (port : UInt16) (address : Str) : Option Backend :=
  match parseIpv4Addr address with
  | some (a, b, c, d) => some (.fromIpv4 a b c d port 100)
  | none => (parseIpv6Addr address).map fun octets => .fromIpv6 octets port 100

namespace EndpointSlice

/-- `namespace()`, with the watcher's default. -/
def namespaceOrDefault (slice : EndpointSlice) : Str :=
  slice.metadata.metaNamespace.getD "default".toList

/-- `name_any()`. -/
def nameAny (slice : EndpointSlice) : Str :=
  (slice.metadata.name.or slice.metadata.generateName).getD []

/-- The service that the label names. -/
def serviceName (slice : EndpointSlice) : Option Str :=
  slice.metadata.labels.bind fun labels => labels.lookup serviceNameLabel

/-- `service_key`. -/
def serviceKey (slice : EndpointSlice) (service : Str) : Str :=
  slice.namespaceOrDefault ++ '/' :: service

/-- `target_port`: the port named `http`, else the first one, else 8080. -/
def targetPort (slice : EndpointSlice) : UInt16 :=
  asU16 <| Option.getD
    (slice.ports.bind fun ports =>
      ((ports.find? fun p => p.name = some "http".toList).or ports.head?).bind (·.port))
    8080

/-- The backends of the ready endpoints, on a given port. -/
def readyBackends (slice : EndpointSlice) (port : UInt16) : List Backend :=
  slice.endpoints.flatMap fun endpoint =>
    if endpoint.isReady then endpoint.addresses.filterMap (backendOfAddress port) else []

/-- `parse_endpointslice_to_backends`. -/
def parseEndpointsliceToBackends (slice : EndpointSlice) (targetPort : UInt16) : List Backend :=
  let port :=
    match slice.ports with
    | some ports =>
      asU16 <| Option.getD
        ((ports.find? fun p => p.port.map asU16 = some targetPort).bind (·.port))
        targetPort.toUInt32.toInt32
    | none => targetPort
  slice.readyBackends port

theorem asU16_toInt32 (port : UInt16) : asU16 port.toUInt32.toInt32 = port := by
  simp [asU16]

/-- The port found under the target port is the target port. -/
theorem parseEndpointsliceToBackends_eq (slice : EndpointSlice) (targetPort : UInt16) :
    slice.parseEndpointsliceToBackends targetPort = slice.readyBackends targetPort := by
  unfold parseEndpointsliceToBackends
  cases slice.ports with
  | none => rfl
  | some ports =>
      cases hfind : ports.find? fun p => p.port.map asU16 = some targetPort with
      | none => simp only [hfind, Option.bind_none, Option.getD_none, asU16_toInt32]
      | some p =>
          obtain ⟨port, hport, htarget⟩ : ∃ port, p.port = some port ∧ asU16 port = targetPort := by
            simpa using List.find?_some hfind
          simp only [hfind, Option.bind_some, hport, Option.getD_some, htarget]

/-- The port is all that the port changes. -/
theorem readyBackends_eq_map (slice : EndpointSlice) (port port' : UInt16) :
    slice.readyBackends port = (slice.readyBackends port').map ({ · with port := port }) := by
  have haddress : ∀ address, backendOfAddress port address =
      (backendOfAddress port' address).map ({ · with port := port }) := by
    intro address
    unfold backendOfAddress
    cases parseIpv4Addr address with
    | some addr => rfl
    | none => cases parseIpv6Addr address <;> rfl
  simp only [readyBackends, List.map_flatMap]
  congr 1
  funext endpoint
  split
  · rw [List.map_filterMap]
    exact congrArg (fun f => endpoint.addresses.filterMap f) (funext haddress)
  · rfl

/-- Every backend of a slice is on the port it was asked for. -/
theorem port_of_mem_readyBackends {slice : EndpointSlice} {port : UInt16} {b : Backend}
    (h : b ∈ slice.readyBackends port) : b.port = port := by
  obtain ⟨endpoint, -, hb⟩ := List.mem_flatMap.mp h
  split at hb
  · obtain ⟨address, -, hb⟩ := List.mem_filterMap.mp hb
    unfold backendOfAddress at hb
    split at hb
    · cases hb
      rfl
    · obtain ⟨octets, -, rfl⟩ := Option.map_eq_some_iff.mp hb
      rfl
  · cases hb

end EndpointSlice

/-! ## The watcher's state -/

/-- The slices of one service, by name. -/
abbrev SliceMap := AList fun _ : Str => EndpointSlice

/-- An order of `slices.values()`. -/
structure SliceOrder where
  values : SliceMap → List EndpointSlice
  perm : ∀ slices, (values slices).Perm (slices.entries.map Sigma.snd)

/-- Newest slice first. -/
def SliceOrder.newestFirst : SliceOrder :=
  ⟨fun slices => slices.entries.map Sigma.snd, fun _ => List.Perm.refl _⟩

/-- The local state of `watch_endpointslices`, with the router it updates. -/
structure Watcher where
  router : Router
  serviceRoutes : AList fun _ : Str => List Str
  serviceSlices : AList fun _ : Str => SliceMap
  running : Bool

namespace Watcher

/-- The slices stored for a service. -/
def slices (w : Watcher) (key : Str) : SliceMap := (w.serviceSlices.lookup key).getD ∅

/-- Store a slice under its service. -/
def store (w : Watcher) (key : Str) (slice : EndpointSlice) : Watcher :=
  { w with serviceSlices := w.serviceSlices.insert key ((w.slices key).insert slice.nameAny slice) }

/-- `aggregate_backends_for_service`: of the backends with one address, the first. -/
def aggregateBackendsForService (w : Watcher) (order : SliceOrder) (key : Str)
    (targetPort : UInt16) : List Backend :=
  let aggregation : Distinct Backend.ip :=
    (order.values (w.slices key)).foldl
      (fun aggregation slice =>
        aggregation.pushAll (slice.parseEndpointsliceToBackends targetPort))
      .empty
  aggregation.kept

end Watcher

/-- The update loop of `handle_endpointslice_apply`; it ends with the first update that fails. -/
def Router.updateRoutes (M : Matchit) (ord : IterOrder) (backends : List Backend) :
    Router → List Str → AddResult × Router
  | s, [] => (.ok, s)
  | s, routePath :: routes =>
    match s.updateRouteBackends M ord .get routePath backends with
    | (.ok, s) => Router.updateRoutes M ord backends s routes
    | (result, s) => (result, s)

namespace Watcher

/-- The error of a slice without the label. -/
def missingLabel (slice : EndpointSlice) : Str :=
  "EndpointSlice ".toList ++ slice.namespaceOrDefault ++ '/' :: slice.nameAny ++
    " missing kubernetes.io/service-name label".toList

/-- `handle_endpointslice_apply`. -/
def handleEndpointsliceApply (M : Matchit) (ord : IterOrder) (order : SliceOrder) (w : Watcher)
    (slice : EndpointSlice) : AddResult × Watcher :=
  match slice.serviceName with
  | none => (.err (missingLabel slice), w)
  | some service =>
    let key := slice.serviceKey service
    let w := w.store key slice
    let allBackends := w.aggregateBackendsForService order key slice.targetPort
    if allBackends = [] then (.ok, w)
    else
      match w.serviceRoutes.lookup key with
      | none => (.ok, w)
      | some routes =>
        let (result, router) := w.router.updateRoutes M ord allBackends routes
        (result, { w with router := router })

/-- The `Delete` arm of the loop. With the last slice of a service goes its tracking; the router is
left alone. -/
def handleDelete (w : Watcher) (slice : EndpointSlice) : Watcher :=
  let key := slice.serviceKey (slice.serviceName.getD [])
  match w.serviceSlices.lookup key with
  | none => w
  | some slices =>
    let slices := slices.erase slice.nameAny
    if slices.entries = [] then
      { w with
        serviceSlices := w.serviceSlices.erase key
        serviceRoutes := w.serviceRoutes.erase key }
    else { w with serviceSlices := w.serviceSlices.insert key slices }

end Watcher

/-- An event of the watch stream; `Apply` and `InitApply` are handled alike. -/
inductive SliceEvent where
  | apply (ord : IterOrder) (order : SliceOrder) (slice : EndpointSlice)
  | delete (slice : EndpointSlice)

/-- One round of the loop. An error is logged; a panic is the end. -/
def Watcher.handle (M : Matchit) (w : Watcher) : SliceEvent → Watcher
  | .apply ord order slice =>
    match w.handleEndpointsliceApply M ord order slice with
    | (.panic, w) => { w with running := false }
    | (_, w) => w
  | .delete slice => w.handleDelete slice

/-- The watch loop. -/
def watcherSystem (M : Matchit) : Transition.System Watcher SliceEvent :=
  ⟨fun w event => if w.running then some (w.handle M event) else none⟩

/-! ## Aggregation -/

namespace Watcher

/-- The endpoints that are ready, each on the port of its own slice. -/
def readyEndpoints (slices : SliceMap) : List Backend :=
  slices.entries.flatMap fun e => e.2.readyBackends e.2.targetPort

variable {w : Watcher} {order : SliceOrder} {key : Str} {port : UInt16}

/-- The two loops are one over the backends of all slices. -/
theorem aggregateBackendsForService_eq (w : Watcher) (order : SliceOrder) (key : Str)
    (port : UInt16) :
    w.aggregateBackendsForService order key port =
      ((Distinct.empty : Distinct Backend.ip).pushAll
        ((order.values (w.slices key)).flatMap (·.readyBackends port))).kept := by
  simp only [aggregateBackendsForService, EndpointSlice.parseEndpointsliceToBackends_eq,
    Distinct.pushAll, List.foldl_flatMap]

/-- What is put together, on one port. -/
theorem mem_values_flatMap (order : SliceOrder) (slices : SliceMap) (port : UInt16) {b : Backend} :
    b ∈ (order.values slices).flatMap (·.readyBackends port) ↔
      ∃ e ∈ slices.entries, b ∈ e.2.readyBackends port := by
  rw [((order.perm slices).flatMap_right _).mem_iff, List.flatMap_map, List.mem_flatMap]

/-- When all that is ready is on one port, these are the ready endpoints. -/
theorem mem_values_flatMap_iff (order : SliceOrder) {slices : SliceMap} {port : UInt16}
    (hport : ∀ b ∈ readyEndpoints slices, b.port = port) {b : Backend} :
    b ∈ (order.values slices).flatMap (·.readyBackends port) ↔ b ∈ readyEndpoints slices := by
  -- A slice on another port has nothing ready, on any port.
  have hslice : ∀ e ∈ slices.entries,
      e.2.readyBackends port = e.2.readyBackends e.2.targetPort := by
    intro e he
    by_cases hready : e.2.readyBackends e.2.targetPort = []
    · rw [EndpointSlice.readyBackends_eq_map _ port e.2.targetPort, hready, List.map_nil]
    · obtain ⟨c, hc⟩ := List.exists_mem_of_ne_nil _ hready
      have htarget := hport c (List.mem_flatMap.mpr ⟨e, he, hc⟩)
      rw [← htarget, EndpointSlice.port_of_mem_readyBackends hc]
  rw [mem_values_flatMap, readyEndpoints, List.mem_flatMap]
  exact exists_congr fun e => and_congr_right fun he => by rw [hslice e he]

/-- There is nothing to hand to the router exactly when nothing is ready, on whatever port. -/
theorem aggregateBackendsForService_eq_nil_iff (w : Watcher) (order : SliceOrder) (key : Str)
    (port : UInt16) :
    w.aggregateBackendsForService order key port = [] ↔ readyEndpoints (w.slices key) = [] := by
  rw [aggregateBackendsForService_eq, Distinct.kept_pushAll_eq_nil_iff]
  have hport : ∀ slice : EndpointSlice,
      slice.readyBackends port = [] ↔ slice.readyBackends slice.targetPort = [] := by
    intro slice
    rw [slice.readyBackends_eq_map port slice.targetPort, List.map_eq_nil_iff]
  simp only [readyEndpoints, List.flatMap_eq_nil_iff, (order.perm _).mem_iff, hport,
    List.forall_mem_map]

/-- What is put together is what is ready, if addresses tell the ready endpoints apart. -/
theorem mem_aggregateBackendsForService_iff (order : SliceOrder)
    (hport : ∀ b ∈ readyEndpoints (w.slices key), b.port = port)
    (hapart : ∀ b ∈ readyEndpoints (w.slices key), ∀ b' ∈ readyEndpoints (w.slices key),
      b.ip = b'.ip → b = b') {b : Backend} :
    b ∈ w.aggregateBackendsForService order key port ↔ b ∈ readyEndpoints (w.slices key) := by
  have hvalues := fun {b : Backend} => mem_values_flatMap_iff order hport (b := b)
  rw [aggregateBackendsForService_eq, Distinct.mem_kept_pushAll_iff, hvalues]
  intro a ha b hb
  exact hapart a (hvalues.mp ha) b (hvalues.mp hb)

/-- No endpoint is put in twice. -/
theorem length_aggregateBackendsForService_le (order : SliceOrder)
    (hport : ∀ b ∈ readyEndpoints (w.slices key), b.port = port) :
    (w.aggregateBackendsForService order key port).length ≤
      (readyEndpoints (w.slices key)).dedup.length := by
  rw [aggregateBackendsForService_eq]
  refine (List.subperm_of_subset (Distinct.kept_nodup _) fun b hb => ?_).length_le
  have hmem := (Distinct.mem_of_mem_kept_pushAll hb).resolve_left List.not_mem_nil
  exact List.mem_dedup.mpr ((mem_values_flatMap_iff order hport).mp hmem)

end Watcher

end Rauta
