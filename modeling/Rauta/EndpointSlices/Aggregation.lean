import Rauta.EndpointSlices.Convergence

/-!
# What aggregation keeps

`aggregate_backends_for_service` puts the ready endpoints of all slices together and leaves out
repeated addresses. Two things can go wrong on the way to the router.

* A repetition is found by the sixteen bytes of a backend, and they do not say which family they
  belong to: `1.2.3.4` and `102:304::` have the same bytes. Of two such endpoints one is lost
  (`Distinguishable` says that there are none).
* Nothing bounds the number of addresses. The list goes to `update_route_backends` as it is, and
  with more than `MAX_BACKENDS` of them the table builder panics
  (`handleEndpointsliceApply_eq_panic`).
-/

namespace Rauta

open Collect

/-! ## Addresses -/

/-- An IP address. -/
inductive Address where
  | v4 (a b c d : UInt8)
  | v6 (octets : Vector UInt8 16)
  deriving DecidableEq

/-- The address that a text stands for. -/
def parseAddress (text : Str) : Option Address :=
  match parseIpv4Addr text with
  | some (a, b, c, d) => some (.v4 a b c d)
  | none => (parseIpv6Addr text).map .v6

/-- One of the sixteen bytes. -/
def Backend.octet (b : Backend) (i : Nat) : UInt8 := b.ip.toArray.getD i 0

/-- The address that a backend is connected to, by `as_ipv6` and `as_ipv4`. -/
def Backend.address (b : Backend) : Address :=
  if b.isIpv6 then .v6 b.ip else .v4 (b.octet 0) (b.octet 1) (b.octet 2) (b.octet 3)

namespace Address

/-- The backend at an address. -/
def backend (port : UInt16) : Address → Backend
  | .v4 a b c d => .fromIpv4 a b c d port 100
  | .v6 octets => .fromIpv6 octets port 100

/-- The sixteen bytes that the backend stores: those of an IPv4 address come first, and the others
are zero. -/
def bytes (address : Address) : Vector UInt8 16 := (address.backend 0).ip

@[simp] theorem backend_ip (port : UInt16) (address : Address) :
    (address.backend port).ip = address.bytes := by
  cases address <;> rfl

@[simp] theorem address_backend (port : UInt16) (address : Address) :
    (address.backend port).address = address := by
  cases address <;> rfl

/-- Two addresses with the same bytes are the same, or one of each family. -/
theorem eq_or_families_of_bytes_eq {x y : Address} (h : x.bytes = y.bytes) :
    x = y ∨ ∃ a b c d, (x = .v4 a b c d ∧ y = .v6 (bytes (.v4 a b c d))) ∨
      (y = .v4 a b c d ∧ x = .v6 (bytes (.v4 a b c d))) := by
  cases x with
  | v4 a b c d =>
      cases y with
      | v4 a' b' c' d' =>
          left
          have hlist := congrArg Vector.toList h
          simp only [bytes, backend, Backend.fromIpv4, Vector.toList_mk, List.cons.injEq,
            and_true] at hlist
          obtain ⟨rfl, rfl, rfl, rfl⟩ := hlist
          rfl
      | v6 octets => exact Or.inr ⟨a, b, c, d, Or.inl ⟨rfl, congrArg Address.v6 h.symm⟩⟩
  | v6 octets =>
      cases y with
      | v4 a b c d => exact Or.inr ⟨a, b, c, d, Or.inr ⟨rfl, congrArg Address.v6 h⟩⟩
      | v6 octets' => exact Or.inl (congrArg Address.v6 h)

end Address

theorem backendOfAddress_eq (port : UInt16) (text : Str) :
    backendOfAddress port text = (parseAddress text).map (Address.backend port) := by
  unfold backendOfAddress parseAddress
  cases parseIpv4Addr text with
  | some addr => rfl
  | none => cases parseIpv6Addr text <;> rfl

/-! ## What is ready -/

/-- An endpoint is ready if its ready condition is true, or if it has no conditions. -/
def Endpoint.Ready (endpoint : Endpoint) : Prop :=
  endpoint.conditions = none ∨
    ∃ conditions, endpoint.conditions = some conditions ∧ conditions.ready = some true

theorem Endpoint.isReady_iff {endpoint : Endpoint} : endpoint.isReady = true ↔ endpoint.Ready := by
  unfold isReady Ready
  cases endpoint.conditions with
  | none => simp
  | some conditions => cases hready : conditions.ready <;> simp [hready]

/-- The address belongs to an endpoint that is ready in some slice. -/
def ReadyIn (slices : SliceMap) (address : Address) : Prop :=
  ∃ e ∈ slices.entries, ∃ endpoint ∈ e.2.endpoints, endpoint.Ready ∧
    ∃ text ∈ endpoint.addresses, parseAddress text = some address

/-- The addresses of the ready endpoints of a slice. -/
def EndpointSlice.addresses (slice : EndpointSlice) : List Address :=
  slice.endpoints.flatMap fun endpoint =>
    if endpoint.isReady then endpoint.addresses.filterMap parseAddress else []

/-- The addresses of the ready endpoints of all slices. -/
def allAddresses (slices : SliceMap) : List Address := slices.entries.flatMap (·.2.addresses)

theorem mem_allAddresses_iff {slices : SliceMap} {address : Address} :
    address ∈ allAddresses slices ↔ ReadyIn slices address := by
  have hendpoint : ∀ endpoint : Endpoint,
      address ∈ (if endpoint.isReady then endpoint.addresses.filterMap parseAddress else []) ↔
        endpoint.Ready ∧ ∃ text ∈ endpoint.addresses, parseAddress text = some address := by
    intro endpoint
    rw [← Endpoint.isReady_iff, ← List.mem_filterMap]
    split
    · next hready => exact (and_iff_right hready).symm
    · next hready => exact iff_of_false List.not_mem_nil fun h => hready h.1
  simp only [allAddresses, EndpointSlice.addresses, List.mem_flatMap, hendpoint, ReadyIn]

theorem readyBackends_eq_map_addresses (slice : EndpointSlice) (port : UInt16) :
    slice.readyBackends port = slice.addresses.map (Address.backend port) := by
  simp only [EndpointSlice.readyBackends, EndpointSlice.addresses, List.map_flatMap]
  congr 1
  funext endpoint
  split
  · rw [List.map_filterMap]
    exact congrArg (fun f => endpoint.addresses.filterMap f) (funext (backendOfAddress_eq port))
  · rfl

namespace Watcher

variable {M : Matchit} {w : Watcher} {order : SliceOrder} {key : Str} {port : UInt16}

/-- Aggregation goes over the addresses of all slices, in some order. -/
theorem exists_aggregateBackendsForService_eq (w : Watcher) (order : SliceOrder) (key : Str)
    (port : UInt16) :
    ∃ addresses : List Address, addresses.Perm (allAddresses (w.slices key)) ∧
      w.aggregateBackendsForService order key port =
        ((Distinct.empty : Distinct Backend.ip).pushAll
          (addresses.map (Address.backend port))).kept := by
  refine ⟨(order.values (w.slices key)).flatMap (·.addresses), ?_, ?_⟩
  · have hperm := (order.perm (w.slices key)).flatMap_right EndpointSlice.addresses
    rwa [List.flatMap_map] at hperm
  · rw [aggregateBackendsForService_eq, List.map_flatMap]
    simp only [readyBackends_eq_map_addresses]

/-- As many backends as there are different addresses, by their bytes. -/
theorem length_aggregateBackendsForService (w : Watcher) (order : SliceOrder) (key : Str)
    (port : UInt16) :
    (w.aggregateBackendsForService order key port).length =
      ((allAddresses (w.slices key)).map Address.bytes).dedup.length := by
  obtain ⟨addresses, hperm, heq⟩ := exists_aggregateBackendsForService_eq w order key port
  rw [heq, Distinct.length_kept_pushAll, List.map_map]
  have hbytes : Backend.ip ∘ Address.backend port = Address.bytes :=
    funext (Address.backend_ip port)
  rw [hbytes]
  exact ((hperm.map _).dedup).length_eq

/-- Every aggregated backend is at a ready address. -/
theorem exists_of_mem_aggregateBackendsForService {b : Backend}
    (h : b ∈ w.aggregateBackendsForService order key port) :
    ∃ address ∈ allAddresses (w.slices key), address.backend port = b := by
  obtain ⟨addresses, hperm, heq⟩ := exists_aggregateBackendsForService_eq w order key port
  rw [heq] at h
  have hmem := (Distinct.mem_of_mem_kept_pushAll h).resolve_left List.not_mem_nil
  obtain ⟨address, haddress, hb⟩ := List.mem_map.mp hmem
  exact ⟨address, hperm.mem_iff.mp haddress, hb⟩

theorem map_ip_aggregateBackendsForService_nodup (w : Watcher) (order : SliceOrder) (key : Str)
    (port : UInt16) : ((w.aggregateBackendsForService order key port).map Backend.ip).Nodup := by
  rw [aggregateBackendsForService_eq, ← Distinct.seen_eq]
  exact Distinct.nodup _

/-! ## Nothing lost, nothing twice -/

/-- A list of backends holds the ready addresses of the slices, each once. -/
def Faithful (slices : SliceMap) (backends : List Backend) : Prop :=
  (backends.map Backend.address).Nodup ∧
    ∀ address, address ∈ backends.map Backend.address ↔ ReadyIn slices address

/-- Different bytes are different addresses. -/
theorem map_address_aggregateBackendsForService_nodup (w : Watcher) (order : SliceOrder)
    (key : Str) (port : UInt16) :
    ((w.aggregateBackendsForService order key port).map Backend.address).Nodup := by
  have hnodup := map_ip_aggregateBackendsForService_nodup w order key port
  refine List.pairwise_map.mpr ((List.pairwise_map.mp hnodup).imp_of_mem ?_)
  intro b b' hb hb' hne heq
  obtain ⟨x, -, rfl⟩ := exists_of_mem_aggregateBackendsForService hb
  obtain ⟨y, -, rfl⟩ := exists_of_mem_aggregateBackendsForService hb'
  rw [Address.address_backend, Address.address_backend] at heq
  exact hne (heq ▸ rfl)

/-- No IPv4 address is ready whose bytes are those of a ready IPv6 address. -/
def Distinguishable (slices : SliceMap) : Prop :=
  ∀ a b c d, ReadyIn slices (.v4 a b c d) →
    ¬ ReadyIn slices (.v6 (Address.v4 a b c d).bytes)

/-- **Aggregation neither loses nor repeats an endpoint** exactly if the bytes of the ready
addresses tell the families apart. -/
theorem faithful_iff (w : Watcher) (order : SliceOrder) (key : Str) (port : UInt16) :
    Faithful (w.slices key) (w.aggregateBackendsForService order key port) ↔
      Distinguishable (w.slices key) := by
  have hnodup := map_ip_aggregateBackendsForService_nodup w order key port
  constructor
  · rintro ⟨-, hall⟩ a b c d hv4 hv6
    obtain ⟨x, hx, hv4⟩ := List.mem_map.mp ((hall _).mpr hv4)
    obtain ⟨y, hy, hv6⟩ := List.mem_map.mp ((hall _).mpr hv6)
    obtain ⟨x', -, rfl⟩ := exists_of_mem_aggregateBackendsForService hx
    obtain ⟨y', -, rfl⟩ := exists_of_mem_aggregateBackendsForService hy
    rw [Address.address_backend] at hv4 hv6
    subst hv4 hv6
    have hsame := List.inj_on_of_nodup_map hnodup hx hy rfl
    cases congrArg Backend.isIpv6 hsame
  · intro hfamilies
    refine ⟨map_address_aggregateBackendsForService_nodup w order key port, fun address => ?_⟩
    obtain ⟨addresses, hperm, heq⟩ := exists_aggregateBackendsForService_eq w order key port
    -- among ready addresses the bytes decide
    have hbytes : ∀ x ∈ addresses, ∀ y ∈ addresses, x.bytes = y.bytes → x = y := by
      intro x hx y hy hxy
      have hx' := mem_allAddresses_iff.mp (hperm.mem_iff.mp hx)
      have hy' := mem_allAddresses_iff.mp (hperm.mem_iff.mp hy)
      rcases Address.eq_or_families_of_bytes_eq hxy with h | ⟨a, b, c, d, ⟨rfl, rfl⟩ | ⟨rfl, rfl⟩⟩
      · exact h
      · exact absurd hy' (hfamilies a b c d hx')
      · exact absurd hx' (hfamilies a b c d hy')
    have hkey : ∀ b ∈ addresses.map (Address.backend port),
        ∀ b' ∈ addresses.map (Address.backend port), b.ip = b'.ip → b = b' := by
      intro b hb b' hb' hip
      obtain ⟨x, hx, rfl⟩ := List.mem_map.mp hb
      obtain ⟨y, hy, rfl⟩ := List.mem_map.mp hb'
      rw [Address.backend_ip, Address.backend_ip] at hip
      rw [hbytes x hx y hy hip]
    rw [← mem_allAddresses_iff, ← hperm.mem_iff, heq]
    simp only [List.mem_map, Distinct.mem_kept_pushAll_iff hkey, exists_exists_and_eq_and,
      Address.address_backend, exists_eq_right]

/-- **An endpoint is lost**: of the pods `1.2.3.4` and `102:304::` only the first is kept. -/
theorem exists_not_faithful :
    ¬ ∀ (w : Watcher) (order : SliceOrder) (key : Str) (port : UInt16),
      Faithful (w.slices key) (w.aggregateBackendsForService order key port) := by
  intro h
  let w := (start .new (apiRoutes "/api".toList)).store "default/api-service".toList
    (apiSlice ["1.2.3.4".toList, "102:304::".toList])
  have hready : ReadyIn (w.slices "default/api-service".toList)
      (.v6 #v[1, 2, 3, 4, 0, 0, 0, 0, 0, 0, 0, 0, 0, 0, 0, 0]) :=
    mem_allAddresses_iff.mp (by decide +kernel)
  have hkept : w.aggregateBackendsForService .newestFirst "default/api-service".toList 8080 =
      [.fromIpv4 1 2 3 4 8080 100] := by
    decide +kernel
  have hmem := ((h w .newestFirst "default/api-service".toList 8080).2 _).mpr hready
  rw [hkept] at hmem
  revert hmem
  decide

/-! ## Too many backends -/

/-- The lists that the update loop passes to `update_route_backends`. -/
def passedBackends (M : Matchit) (ord : IterOrder) (backends : List Backend) :
    Router → List Str → List (List Backend)
  | _, [] => []
  | s, routePath :: routes =>
    backends :: match s.updateRouteBackends M ord .get routePath backends with
      | (.ok, s) => passedBackends M ord backends s routes
      | _ => []

/-- The lists that an event passes to `update_route_backends`. -/
def passed (M : Matchit) (ord : IterOrder) (order : SliceOrder) (w : Watcher)
    (slice : EndpointSlice) : List (List Backend) :=
  match slice.serviceName with
  | none => []
  | some service =>
    let key := slice.serviceKey service
    let w := w.store key slice
    let allBackends := w.aggregateBackendsForService order key slice.targetPort
    if allBackends = [] then []
    else
      match w.serviceRoutes.lookup key with
      | none => []
      | some routes => passedBackends M ord allBackends w.router routes

/-- The event is handled without a panic, and no list that it passes on is too long. -/
def NoPanic (M : Matchit) (ord : IterOrder) (order : SliceOrder) (w : Watcher)
    (slice : EndpointSlice) : Prop :=
  (w.handleEndpointsliceApply M ord order slice).1 ≠ .panic ∧
    ∀ backends ∈ w.passed M ord order slice, backends.length ≤ maxBackends

theorem eq_of_mem_passedBackends {ord : IterOrder} {backends : List Backend} {s : Router}
    {routes : List Str} {bs : List Backend} (h : bs ∈ passedBackends M ord backends s routes) :
    bs = backends := by
  induction routes generalizing s with
  | nil => cases h
  | cons routePath routes ih =>
      rw [passedBackends] at h
      rcases List.mem_cons.mp h with h | h
      · exact h
      · split at h
        · exact ih h
        · cases h

/-- With few enough backends the table is built, and the update does not panic. -/
theorem addRoute_ne_panic {ord : IterOrder} {s : Router} {method : HttpMethod} {path : Str}
    {backends : List Backend} (hfew : backends.length ≤ maxBackends) :
    (s.addRoute M ord method path backends).1 ≠ .panic := by
  by_cases hsame : s.hasRoute method path backends
  · simp [Router.addRoute, hsame]
  · obtain ⟨table, -, hwrite⟩ := RouterCall.write_addRoute ord hsame hfew
    rw [Router.addRoute_eq_commit hwrite]
    unfold Write.result
    split <;> simp

theorem updateRoutes_ne_panic {ord : IterOrder} {backends : List Backend}
    (hfew : backends.length ≤ maxBackends) (s : Router) (routes : List Str) :
    (s.updateRoutes M ord backends routes).1 ≠ .panic := by
  induction routes generalizing s with
  | nil => simp [Router.updateRoutes]
  | cons routePath routes ih =>
      have hstep : (s.updateRouteBackends M ord .get routePath backends).1 ≠ .panic :=
        addRoute_ne_panic hfew
      unfold Router.updateRoutes
      split
      · exact ih _
      · next result s' hne hupdate =>
        rw [hupdate] at hstep
        exact hstep

@[simp] theorem serviceRoutes_store (w : Watcher) (key : Str) (slice : EndpointSlice) :
    (w.store key slice).serviceRoutes = w.serviceRoutes := rfl

/-- What the handler of a tracked service with ready endpoints returns. -/
theorem fst_handleEndpointsliceApply {ord : IterOrder} {slice : EndpointSlice} {service : Str}
    {routes : List Str} (hservice : slice.serviceName = some service)
    (hready : (w.store (slice.serviceKey service) slice).aggregateBackendsForService order
      (slice.serviceKey service) slice.targetPort ≠ [])
    (hroutes : w.serviceRoutes.lookup (slice.serviceKey service) = some routes) :
    (w.handleEndpointsliceApply M ord order slice).1 =
      (w.router.updateRoutes M ord ((w.store (slice.serviceKey service) slice)
        |>.aggregateBackendsForService order (slice.serviceKey service) slice.targetPort)
        routes).1 := by
  simp only [handleEndpointsliceApply, hservice, if_neg hready, serviceRoutes_store, hroutes]
  rfl

/-- The update loop, from its first path on. -/
theorem updateRoutes_noPanic_iff {ord : IterOrder} {backends : List Backend} {s : Router}
    {path : Str} {paths : List Str} :
    ((s.updateRoutes M ord backends (path :: paths)).1 ≠ .panic ∧
      ∀ bs ∈ passedBackends M ord backends s (path :: paths), bs.length ≤ maxBackends) ↔
    backends.length ≤ maxBackends := by
  constructor
  · rintro ⟨-, hpassed⟩
    exact hpassed backends (by rw [passedBackends]; exact List.mem_cons_self)
  · intro hfew
    refine ⟨updateRoutes_ne_panic hfew s _, fun bs hbs => ?_⟩
    rw [eq_of_mem_passedBackends hbs]
    exact hfew

/-- **Backend updates never panic** exactly if the service of the slice, where it is tracked, has at
most `MAX_BACKENDS` different ready addresses. -/
theorem noPanic_iff (M : Matchit) (ord : IterOrder) (order : SliceOrder) (w : Watcher)
    (slice : EndpointSlice) :
    w.NoPanic M ord order slice ↔
      ∀ service, slice.serviceName = some service → ∀ path paths,
        w.serviceRoutes.lookup (slice.serviceKey service) = some (path :: paths) →
        ((allAddresses ((w.slices (slice.serviceKey service)).insert slice.nameAny slice)).map
          Address.bytes).dedup.length ≤ maxBackends := by
  unfold NoPanic handleEndpointsliceApply passed
  cases slice.serviceName with
  | none => simp
  | some service =>
      have hlength := length_aggregateBackendsForService (w.store (slice.serviceKey service) slice)
        order (slice.serviceKey service) slice.targetPort
      rw [slices_store] at hlength
      simp only [Option.some.injEq, forall_eq', serviceRoutes_store, ← hlength]
      by_cases hempty : (w.store (slice.serviceKey service) slice).aggregateBackendsForService order
          (slice.serviceKey service) slice.targetPort = []
      · simp [hempty]
      · simp only [if_neg hempty]
        cases w.serviceRoutes.lookup (slice.serviceKey service) with
        | none => simp
        | some routes =>
            cases routes with
            | nil => simp [Router.updateRoutes, passedBackends]
            | cons path paths =>
                rw [updateRoutes_noPanic_iff]
                exact ⟨fun hfew _ _ _ => hfew, fun hfew => hfew path paths rfl⟩

/-- A new route with too many backends is not built. -/
theorem addRoute_eq_panic {ord : IterOrder} {s : Router} {method : HttpMethod} {path : Str}
    {backends : List Backend} (hnew : ¬ s.hasRoute method path backends)
    (hmany : maxBackends < backends.length) :
    s.addRoute M ord method path backends = (.panic, s) := by
  have htable : maglevBuildCompactTable backends = none := by
    cases htable : maglevBuildCompactTable backends with
    | none => rfl
    | some table =>
        exact absurd (length_le_of_maglevBuildCompactTable htable) (Nat.not_le.mpr hmany)
  simp only [Router.addRoute, hnew, htable]
  rfl

/-- A tracked service with too many addresses, and no route yet. -/
theorem handleEndpointsliceApply_eq_panic {ord : IterOrder} {slice : EndpointSlice} {service : Str}
    {path : Str} {paths : List Str} (hservice : slice.serviceName = some service)
    (hroutes : w.serviceRoutes.lookup (slice.serviceKey service) = some (path :: paths))
    (hnew : routeKey .get path ∉ w.router.routes)
    (hmany : maxBackends < ((allAddresses ((w.slices (slice.serviceKey service)).insert
      slice.nameAny slice)).map Address.bytes).dedup.length) :
    (w.handleEndpointsliceApply M ord order slice).1 = .panic := by
  rw [← slices_store, ← length_aggregateBackendsForService _ order _ slice.targetPort] at hmany
  have hnew' : ¬ w.router.hasRoute .get path ((w.store (slice.serviceKey service) slice)
      |>.aggregateBackendsForService order (slice.serviceKey service) slice.targetPort) := by
    simp [Router.hasRoute, AList.lookup_eq_none.mpr hnew]
  rw [fst_handleEndpointsliceApply hservice
    (List.ne_nil_of_length_pos (Nat.zero_lt_of_lt hmany)) hroutes]
  simp only [Router.updateRoutes, Router.updateRouteBackends, addRoute_eq_panic hnew' hmany]

/-- The addresses `10.0.1.0` to `10.0.1.32`. -/
def manyAddresses : List Str := (List.range 33).map fun i => "10.0.1.".toList ++ decimal i

/-- **A panic**: a service with 33 pods. -/
theorem exists_panic :
    ¬ ∀ (M : Matchit) (ord : IterOrder) (order : SliceOrder) (w : Watcher) (slice : EndpointSlice),
      w.NoPanic M ord order slice := by
  intro h
  let w := start .new (apiRoutes "/api".toList)
  let slice := apiSlice manyAddresses
  let addresses := (allAddresses ((w.slices (slice.serviceKey "api-service".toList)).insert
    slice.nameAny slice)).map Address.bytes
  -- the last byte tells the addresses apart
  have hlast : addresses.map (fun ip => ip.get 3) = (List.range 33).map Nat.toUInt8 := by
    decide +kernel
  have hnodup : addresses.Nodup := by
    refine List.Nodup.of_map (fun ip : Vector UInt8 16 => ip.get 3) ?_
    rw [hlast]
    decide +kernel
  have hmany : maxBackends < addresses.dedup.length := by
    have hlength := congrArg List.length hlast
    simp only [List.length_map, List.length_range] at hlength
    rw [hnodup.dedup, hlength]
    decide
  have hservice : slice.serviceName = some "api-service".toList := by decide +kernel
  have hroutes : w.serviceRoutes.lookup (slice.serviceKey "api-service".toList) =
      some ["/api".toList] := by
    decide +kernel
  refine (h .scan .newestFirst .newestFirst w slice).1 ?_
  exact handleEndpointsliceApply_eq_panic hservice hroutes (AList.notMem_empty _) hmany

end Watcher

end Rauta
