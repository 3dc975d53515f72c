import Rauta.HttpRoute.Reconciler

/-!
# The status of a Gateway

At the end of a call `GatewayReconciler::reconcile` writes a status: the addresses of the nodes,
conditions of the Gateway, and conditions of every listener. The status is made from the spec, the
Secrets and the nodes. What has become of the listeners in the same call is not looked at, so every
listener is said to be programmed.

The module compares what is said with what is so. A listener is served exactly if its port has got
its protocol (`holds_registerWith`). A port keeps its protocol for good, so a listener that
asks for another one is never served; and yet each call says that it is programmed.
-/

namespace Rauta

open Transition

/-! ## What the status reads -/

/-- `GatewayListenersTlsCertificateRefs`. -/
structure CertificateRef where
  group : Option Str
  kind : Option Str
  name : Str
  refNamespace : Option Str

/-- `GatewayListenersAllowedRoutesKinds`. -/
structure RouteGroupKind where
  group : Option Str
  kind : Str

/-- A listener, with what only the status reads: the `certificate_refs` of `tls`, if there are any,
and the `kinds` of `allowed_routes`. -/
structure ListenerSpec extends GatewayListener where
  tls : Option (Option (List CertificateRef))
  allowedRoutes : Option (Option (List RouteGroupKind))

/-- A version of a Gateway. -/
structure GatewayVersion where
  metadata : ObjectMeta
  generation : Option Int
  gatewayClassName : Str
  listeners : List ListenerSpec

/-- The version as the rest of the reconciler sees it. -/
def GatewayVersion.gateway (g : GatewayVersion) : Gateway :=
  ⟨g.metadata, g.gatewayClassName, g.listeners.map (·.toGatewayListener)⟩

/-- Why a Secret cannot be read: the API answers 404, or there is another error. -/
inductive SecretError where
  | notFound
  | other (text : Str)

/-- An address of a node. -/
structure NodeAddress where
  addressType : Str
  address : Str

/-- What the API answers: the keys of the data of a Secret, if it has data, and for every node the
addresses of its status, if there are any. -/
structure Cluster where
  getSecret : (secretNamespace name : Str) → Except SecretError (Option (List Str))
  listNodes : Except Str (List (Option (List NodeAddress)))

/-! ## References -/

namespace CertificateRef

/-- The group is that of Secrets. -/
def groupSupported (ref : CertificateRef) : Bool :=
  ref.group.all fun group => group = [] ∨ group = "core".toList

/-- The kind is that of Secrets. -/
def kindSupported (ref : CertificateRef) : Bool := ref.kind.all fun kind => kind = "Secret".toList

/-- The namespace of the Secret. -/
def secretNamespace (ref : CertificateRef) (gatewayNamespace : Str) : Str :=
  ref.refNamespace.getD gatewayNamespace

end CertificateRef

namespace Cluster

variable (C : Cluster) (gatewayNamespace : Str)

/-- The loop body of `validate_certificate_refs`. -/
def checkCertificateRef (ref : CertificateRef) : Except Str Unit :=
  let secretNamespace := ref.secretNamespace gatewayNamespace
  let secret := "Secret ".toList ++ secretNamespace ++ '/' :: ref.name
  if !ref.groupSupported then
    .error ("Unsupported group '".toList ++ ref.group.getD [] ++ "' for certificateRef".toList)
  else if !ref.kindSupported then
    .error ("Unsupported kind '".toList ++ ref.kind.getD [] ++ "' for certificateRef".toList)
  else
    match C.getSecret secretNamespace ref.name with
    | .error .notFound => .error (secret ++ " not found".toList)
    | .error (.other text) => .error ("Failed to access ".toList ++ secret ++ ": ".toList ++ text)
    | .ok none => .error (secret ++ " has no data".toList)
    | .ok (some keys) =>
      if keys.contains "tls.crt".toList && keys.contains "tls.key".toList then .ok ()
      else
        .error (secret ++ " is missing required fields (needs both tls.crt and tls.key)".toList)

/-- What is said if nothing is wrong. -/
def referencesResolved : RefsStatus :=
  ⟨true, "ResolvedRefs".toList, "All references resolved".toList⟩

/-- `validate_certificate_refs`: the first reference that is wrong decides. -/
def validateCertificateRefs : List CertificateRef → RefsStatus
  | [] => referencesResolved
  | ref :: refs =>
    match C.checkCertificateRef gatewayNamespace ref with
    | .error message => ⟨false, "InvalidCertificateRef".toList, message⟩
    | .ok () => validateCertificateRefs refs

/-- The references of a listener. Without any there is nothing to validate. -/
def validateTls (listener : ListenerSpec) : RefsStatus :=
  match listener.tls with
  | some (some refs) => C.validateCertificateRefs gatewayNamespace refs
  | _ => referencesResolved

end Cluster

/-- The group of the Gateway API. -/
def gatewayGroup : Str := "gateway.networking.k8s.io".toList

/-- The kind of route that is supported. -/
def httpRouteKind : Str × Str := (gatewayGroup, "HTTPRoute".toList)

/-- What is wrong with the kinds of routes. -/
def invalidRouteKinds (message : Str) : RefsStatus :=
  ⟨false, "InvalidRouteKinds".toList, message⟩

namespace ListenerSpec

variable (C : Cluster) (gatewayNamespace : Str) (listener : ListenerSpec)

/-- The kinds of routes that a listener allows. Their groups are not looked at. -/
def resolveKinds (kinds : List RouteGroupKind) : RefsStatus × List (Str × Str) :=
  if kinds.isEmpty then (invalidRouteKinds "No route kinds specified".toList, [])
  else
    let validKinds := kinds.filter fun k => k.kind = "HTTPRoute".toList
    if validKinds.isEmpty then (invalidRouteKinds "No supported route kinds found".toList, [])
    else
      let supported := validKinds.map fun k => (k.group.getD gatewayGroup, k.kind)
      if validKinds.length < kinds.length then
        (invalidRouteKinds "Some route kinds are not supported".toList, supported)
      else (Cluster.referencesResolved, supported)

/-- The `ResolvedRefs` condition of a listener and its `supportedKinds`. -/
def resolveRefs : RefsStatus × List (Str × Str) :=
  let tlsValidation := C.validateTls gatewayNamespace listener
  if !tlsValidation.resolved then (tlsValidation, [httpRouteKind])
  else
    match listener.allowedRoutes with
    | some (some kinds) => resolveKinds kinds
    | _ => (Cluster.referencesResolved, [httpRouteKind])

end ListenerSpec

/-! ## The status -/

/-- The status of a listener. -/
structure ListenerReport where
  name : Str
  attachedRoutes : Nat
  conditions : List Condition
  supportedKinds : List (Str × Str)

/-- What is patched: a field that is missing stays what it was. -/
structure GatewayPatch where
  addresses : Option (List Str)
  conditions : List Condition
  listeners : Option (List ListenerReport)

/-- `get_node_addresses`: without the nodes there are no addresses. -/
def Cluster.getNodeAddresses (C : Cluster) : List Str :=
  match C.listNodes with
  | .error _ => []
  | .ok nodes => nodes.flatMap fun addresses =>
    ((addresses.getD []).filter fun a => a.addressType = "InternalIP".toList).map (·.address)

/-- The status of one listener. No route is ever counted as attached. -/
def ListenerSpec.report (C : Cluster) (gatewayNamespace : Str) (generation : Int)
    (listener : ListenerSpec) : ListenerReport :=
  let (refs, supportedKinds) := listener.resolveRefs C gatewayNamespace
  { name := listener.name
    attachedRoutes := 0
    conditions :=
      [⟨"Accepted".toList, true, "Accepted".toList, "Listener is accepted".toList, generation⟩,
        ⟨"Programmed".toList, true, "Programmed".toList, "Listener is programmed".toList,
          generation⟩,
        ⟨"ResolvedRefs".toList, refs.resolved, refs.reason, refs.message, generation⟩]
    supportedKinds := supportedKinds }

/-- The patch of `set_gateway_status`. -/
def GatewayVersion.statusPatch (C : Cluster) (accepted : Bool) (g : GatewayVersion) :
    GatewayPatch :=
  let generation := g.generation.getD 0
  if accepted then
    { addresses := some C.getNodeAddresses
      conditions :=
        [⟨"Accepted".toList, true, "Accepted".toList, "Gateway is accepted".toList, generation⟩,
          ⟨"Programmed".toList, true, "Programmed".toList, "Gateway is programmed".toList,
            generation⟩]
      listeners := some (g.listeners.map (·.report C g.gateway.key.1 generation)) }
  else
    { addresses := none
      conditions :=
        [⟨"Accepted".toList, false, "Invalid".toList, "Gateway configuration is invalid".toList,
          generation⟩]
      listeners := none }

/-- The value of a condition. -/
def conditionStatus (conditions : List Condition) (conditionType : Str) : Option Bool :=
  (conditions.find? fun c => c.conditionType = conditionType).map (·.status)

/-! ## References that are resolved -/

/-- The reference is to a Secret that holds a certificate and a key, whatever they are. -/
structure CertificateRef.Valid (C : Cluster) (gatewayNamespace : Str) (ref : CertificateRef) :
    Prop where
  group : ref.groupSupported = true
  kind : ref.kindSupported = true
  secret : ∃ keys, C.getSecret (ref.secretNamespace gatewayNamespace) ref.name = .ok (some keys) ∧
    "tls.crt".toList ∈ keys ∧ "tls.key".toList ∈ keys

section Resolved

variable {C : Cluster} {gatewayNamespace : Str}

theorem checkCertificateRef_eq_ok_iff {ref : CertificateRef} :
    C.checkCertificateRef gatewayNamespace ref = .ok () ↔ ref.Valid C gatewayNamespace := by
  unfold Cluster.checkCertificateRef
  constructor
  · intro h
    split at h
    · cases h
    next hgroup =>
    split at h
    · cases h
    next hkind =>
    dsimp only at h
    split at h
    · cases h
    · cases h
    · cases h
    · next keys hsecret =>
      split at h
      · next hkeys =>
        rw [Bool.and_eq_true, List.contains_iff_mem, List.contains_iff_mem] at hkeys
        exact ⟨by simpa using hgroup, by simpa using hkind, keys, hsecret, hkeys⟩
      · cases h
  · rintro ⟨hgroup, hkind, keys, hsecret, hkeys⟩
    rw [← List.contains_iff_mem, ← List.contains_iff_mem, ← Bool.and_eq_true] at hkeys
    simp only [hgroup, hkind, Bool.not_true, Bool.false_eq_true, if_false, hsecret, if_pos hkeys]

theorem resolved_validateCertificateRefs_iff {refs : List CertificateRef} :
    (C.validateCertificateRefs gatewayNamespace refs).resolved = true ↔
      ∀ ref ∈ refs, ref.Valid C gatewayNamespace := by
  induction refs with
  | nil => simp [Cluster.validateCertificateRefs, Cluster.referencesResolved]
  | cons ref refs ih =>
    rw [List.forall_mem_cons, ← checkCertificateRef_eq_ok_iff, Cluster.validateCertificateRefs]
    cases C.checkCertificateRef gatewayNamespace ref with
    | error message => simp
    | ok _ => simp [ih]

theorem resolved_validateTls_iff {listener : ListenerSpec} :
    (C.validateTls gatewayNamespace listener).resolved = true ↔
      ∀ refs, listener.tls = some (some refs) → ∀ ref ∈ refs, ref.Valid C gatewayNamespace := by
  unfold Cluster.validateTls
  split
  · next refs htls =>
    rw [resolved_validateCertificateRefs_iff, htls]
    exact ⟨fun h refs' heq => by cases heq; exact h, fun h => h refs rfl⟩
  · next htls => exact iff_of_true rfl fun refs heq => absurd heq (htls refs)

theorem resolved_resolveKinds_iff {kinds : List RouteGroupKind} :
    (ListenerSpec.resolveKinds kinds).1.resolved = true ↔
      kinds ≠ [] ∧ ∀ k ∈ kinds, k.kind = "HTTPRoute".toList := by
  unfold ListenerSpec.resolveKinds
  split
  · next hempty => exact iff_of_false Bool.false_ne_true fun h => h.1 (List.isEmpty_iff.mp hempty)
  next hempty =>
  have hne : kinds ≠ [] := fun h => hempty (List.isEmpty_iff.mpr h)
  dsimp only
  split
  · next hnone =>
    refine iff_of_false Bool.false_ne_true fun h => hne ?_
    rwa [List.filter_eq_self.mpr fun k hk => decide_eq_true (h.2 k hk), List.isEmpty_iff] at hnone
  split
  · next hless =>
    refine iff_of_false Bool.false_ne_true fun h => ?_
    rw [List.filter_eq_self.mpr fun k hk => decide_eq_true (h.2 k hk)] at hless
    exact absurd hless (Nat.lt_irrefl _)
  · next hall =>
    have hlength := List.length_filter_eq_length_iff.mp
      ((List.length_filter_le _ kinds).antisymm (Nat.not_lt.mp hall))
    exact iff_of_true rfl ⟨hne, fun k hk => of_decide_eq_true (hlength k hk)⟩

/-- **What `ResolvedRefs` says**: all references are to Secrets with the two keys, and the list of
the kinds of routes, if one is given, is not empty and has `HTTPRoute` only. -/
theorem resolvedRefs_iff {listener : ListenerSpec} {generation : Int} :
    conditionStatus (listener.report C gatewayNamespace generation).conditions
        "ResolvedRefs".toList = some true ↔
      (∀ refs, listener.tls = some (some refs) → ∀ ref ∈ refs, ref.Valid C gatewayNamespace) ∧
      (∀ kinds, listener.allowedRoutes = some (some kinds) →
        kinds ≠ [] ∧ ∀ k ∈ kinds, k.kind = "HTTPRoute".toList) := by
  have hcondition : conditionStatus (listener.report C gatewayNamespace generation).conditions
      "ResolvedRefs".toList = some (listener.resolveRefs C gatewayNamespace).1.resolved := rfl
  rw [hcondition, Option.some.injEq, ← resolved_validateTls_iff, ListenerSpec.resolveRefs]
  cases htls : (C.validateTls gatewayNamespace listener).resolved with
  | false => simp [htls]
  | true =>
    simp only [Bool.not_true, Bool.false_eq_true, if_false, true_and]
    split
    · next kinds hkinds =>
      rw [resolved_resolveKinds_iff, hkinds]
      exact ⟨fun h kinds' heq => by cases heq; exact h, fun h => h kinds rfl⟩
    · next hkinds => exact iff_of_true rfl fun kinds heq => absurd heq (hkinds kinds)

end Resolved

/-! ## Listeners that are served -/

namespace ListenerManager

variable {m : ListenerManager} {bind : ListenerConfig → Except Str Unit} {config : ListenerConfig}
  {gateway g : GatewayRef} {p : UInt16} {protocol : Protocol} {wanted : List ListenerRequest}

/-- A port keeps its protocol, and a reference its place. -/
structure Keeps (m m' : ListenerManager) : Prop where
  tlsAcceptor : m'.tlsAcceptor = m.tlsAcceptor
  protocolAt : ∀ {p protocol}, m.protocolAt p = some protocol → m'.protocolAt p = some protocol
  holds : ∀ {p g protocol}, m.Holds p g protocol → m'.Holds p g protocol

theorem Keeps.refl (m : ListenerManager) : m.Keeps m := ⟨rfl, id, id⟩

theorem Keeps.trans {m₁ m₂ m₃ : ListenerManager} (h : m₁.Keeps m₂) (h' : m₂.Keeps m₃) :
    m₁.Keeps m₃ :=
  ⟨h'.tlsAcceptor.trans h.tlsAcceptor, fun hp => h'.protocolAt (h.protocolAt hp),
    fun hg => h'.holds (h.holds hg)⟩

theorem keeps_registerGateway (answer : Except Str Unit) :
    m.Keeps (m.registerGateway answer config gateway).2 := by
  refine ⟨registerGateway_tlsAcceptor answer, fun {p protocol} hp => ?_,
    fun {p g protocol} hg => ?_⟩
  · rcases m.registerGateway_cases answer config gateway with
      ⟨e, hr, -⟩ | ⟨listener, hlookup, -, hr⟩ | ⟨hlookup, -, hr⟩
    · rwa [hr]
    · rw [hr]
      by_cases hport : p = config.port
      · subst hport
        simpa [protocolAt, put, hlookup] using hp
      · simpa [protocolAt, put, AList.lookup_insert_ne hport] using hp
    · rw [hr]
      have hport : p ≠ config.port := by
        rintro rfl
        simp [protocolAt, hlookup] at hp
      simpa [protocolAt, put, AList.lookup_insert_ne hport] using hp
  · cases hresult : (m.registerGateway answer config gateway).1 with
    | ok _ => exact (holds_registerGateway hresult).mpr (.inr hg)
    | error e =>
      rcases m.registerGateway_cases answer config gateway with
        ⟨e, hr, -⟩ | ⟨_, -, -, hr⟩ | ⟨-, -, hr⟩
      · rwa [hr]
      · simp [hr] at hresult
      · simp [hr] at hresult

theorem keeps_registerWith : m.Keeps (m.registerWith bind wanted) := by
  induction wanted generalizing m with
  | nil => exact .refl m
  | cons r wanted ih => exact (keeps_registerGateway (bind r.1)).trans ih

/-- Only a registration for a port opens it. -/
theorem config_of_opened {answer : Except Str Unit} (hclosed : m.protocolAt p = none)
    (h : (m.registerGateway answer config gateway).2.protocolAt p = some protocol) :
    config = ⟨p, protocol⟩ ∧ m.spawnListener answer config = .ok () := by
  rcases m.registerGateway_cases answer config gateway with
    ⟨e, hr, -⟩ | ⟨listener, hlookup, -, hr⟩ | ⟨hlookup, hspawn, hr⟩
  · rw [hr, hclosed] at h
    cases h
  · have hport : p ≠ config.port := by
      rintro rfl
      simp [protocolAt, hlookup] at hclosed
    rw [hr] at h
    simp only [protocolAt, put, AList.lookup_insert_ne hport] at h hclosed
    rw [hclosed] at h
    cases h
  · rw [hr] at h
    by_cases hport : p = config.port
    · subst hport
      simp only [protocolAt, put, AList.lookup_insert, Option.map_some, Option.some.injEq] at h
      exact ⟨by rw [← h], hspawn⟩
    · simp only [protocolAt, put, AList.lookup_insert_ne hport] at h hclosed
      rw [hclosed] at h
      cases h

/-- A port that is opened for a protocol can be. -/
theorem spawnListener_of_opened (hclosed : m.protocolAt p = none)
    (h : (m.registerWith bind wanted).protocolAt p = some protocol) :
    m.spawnListener (bind ⟨p, protocol⟩) ⟨p, protocol⟩ = .ok () := by
  induction wanted generalizing m with
  | nil =>
    rw [registerWith, List.foldl_nil, hclosed] at h
    cases h
  | cons r wanted ih =>
    obtain ⟨config, gateway⟩ := r
    have hkeeps : m.Keeps (m.registerGateway (bind config) config gateway).2 :=
      keeps_registerGateway _
    change ((m.registerGateway (bind config) config gateway).2.registerWith bind
      wanted).protocolAt p = some protocol at h
    cases hnow : (m.registerGateway (bind config) config gateway).2.protocolAt p with
    | none =>
      have hspawn := ih hnow h
      rwa [spawnListener, hkeeps.tlsAcceptor] at hspawn
    | some opened =>
      -- this registration has opened the port, which keeps its protocol
      obtain ⟨rfl, hspawn⟩ := config_of_opened hclosed hnow
      obtain rfl : opened = protocol :=
        Option.some.inj ((keeps_registerWith.protocolAt hnow).symm.trans h)
      exact hspawn

/-- **Whoever asks for the protocol that a port has got is served.** -/
theorem holds_registerWith {r : ListenerRequest} (hmem : r ∈ wanted)
    (h : (m.registerWith bind wanted).protocolAt r.1.port = some r.1.protocol) :
    (m.registerWith bind wanted).Holds r.1.port r.2 r.1.protocol := by
  induction wanted generalizing m with
  | nil => cases hmem
  | cons r' wanted ih =>
    rcases List.mem_cons.mp hmem with rfl | hmem
    · have hkeeps : (m.registerGateway (bind r.1) r.1 r.2).2.Keeps
          (m.registerWith bind (r :: wanted)) := keeps_registerWith
      rcases m.registerGateway_cases (bind r.1) r.1 r.2 with
        ⟨e, hr, ⟨listener, hlookup, hother⟩ | ⟨hlookup, hspawn⟩⟩ | ⟨_, -, -, hr⟩ | ⟨-, -, hr⟩
      · have hat : m.protocolAt r.1.port = some listener.config.protocol := by
          simp [protocolAt, hlookup]
        have hlater : (m.registerWith bind (r :: wanted)).protocolAt r.1.port =
            some listener.config.protocol := keeps_registerWith.protocolAt hat
        exact absurd (Option.some.inj (hlater.symm.trans h)) hother
      · have hclosed : m.protocolAt r.1.port = none := by simp [protocolAt, hlookup]
        rw [show m.spawnListener (bind r.1) r.1 = .ok () from spawnListener_of_opened hclosed h]
          at hspawn
        cases hspawn
      · refine hkeeps.holds ((holds_registerGateway ?_).mpr (.inl ⟨rfl, rfl, rfl⟩))
        rw [hr]
      · refine hkeeps.holds ((holds_registerGateway ?_).mpr (.inl ⟨rfl, rfl, rfl⟩))
        rw [hr]
    · exact ih hmem h

end ListenerManager

/-- The port of the listener is open for its protocol, and knows of it. -/
def ListenerManager.Serves (m : ListenerManager) (gateway : Gateway) (listener : GatewayListener) :
    Prop :=
  ∃ r, gateway.request listener = some r ∧ m.Holds r.1.port r.2 r.1.protocol

/-- A call of `reconcile`: the version, what the API answers, what `bind` answers, and what the
patch returns. -/
structure GatewayCall where
  version : GatewayVersion
  cluster : Cluster
  bind : ListenerConfig → Except Str Unit
  patch : Except Str Unit

namespace GatewayReconciler

variable {r r' : GatewayReconciler} {call : GatewayCall} {listener : ListenerSpec}

/-- The reconciler after a call. -/
def after (r : GatewayReconciler) (call : GatewayCall) : GatewayReconciler :=
  (r.reconcile call.bind call.patch call.version.gateway).2

/-- Any calls, one after the other. -/
def calls : System GatewayReconciler GatewayCall := ⟨fun r call => some (r.after call)⟩

theorem listenerManager_after (hclass : call.version.gatewayClassName = r.gatewayClassName) :
    (r.after call).listenerManager =
      r.listenerManager.registerWith call.bind call.version.gateway.requests := by
  have hours : ¬ call.version.gateway.gatewayClassName ≠ r.gatewayClassName := not_not.mpr hclass
  rw [after, reconcile, if_neg hours, Gateway.requests,
    ← Gateway.configureListeners_eq]
  cases call.patch <;> rfl

theorem keeps_after (r : GatewayReconciler) (call : GatewayCall) :
    r.listenerManager.Keeps (r.after call).listenerManager := by
  by_cases hclass : call.version.gatewayClassName = r.gatewayClassName
  · rw [listenerManager_after hclass]
    exact ListenerManager.keeps_registerWith
  · have hother : call.version.gateway.gatewayClassName ≠ r.gatewayClassName := hclass
    rw [after, reconcile, if_pos hother]
    exact .refl _

theorem keeps_of_reach (h : calls.Reach System.Anything r r') :
    r.listenerManager.Keeps r'.listenerManager := by
  induction h with
  | refl => exact .refl _
  | tail _ _ hstep ih =>
    cases hstep
    exact ih.trans (keeps_after _ _)

theorem mem_requests {request : ListenerRequest} (hl : listener ∈ call.version.listeners)
    (hr : call.version.gateway.request listener.toGatewayListener = some request) :
    request ∈ call.version.gateway.requests :=
  List.mem_filterMap.mpr ⟨_, List.mem_map_of_mem hl, hr⟩

/-- An HTTP and an HTTPS listener on one port. -/
def samePort : GatewayCall where
  version := ⟨⟨some "web".toList, none, none, none⟩, some 1, "rauta".toList,
    [⟨⟨"http".toList, none, 80, "HTTP".toList⟩, none, none⟩,
      ⟨⟨"https".toList, none, 80, "HTTPS".toList⟩, none, none⟩]⟩
  cluster := ⟨fun _ _ => .error .notFound, .ok []⟩
  bind := fun _ => .ok ()
  patch := .ok ()

end GatewayReconciler

end Rauta
