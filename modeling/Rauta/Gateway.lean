import Rauta.EndpointSlices
import Rauta.ListenerManager

/-!
# The Gateway reconciler

`GatewayReconciler::reconcile` is called with every new version of a Gateway. If the Gateway is of
our class, it registers each HTTP or HTTPS listener of the version with the listener manager; if
not, it forgets the Gateway. Nothing is ever unregistered, so the manager keeps what earlier
versions asked for.

The module says exactly what a call leaves behind (`holds_registerAll`), and from it when the
manager holds the references of the version just reconciled and no others: if it held nothing else
for the Gateway before (`Fits`), and each port takes the protocol asked for.
-/

namespace Rauta

open Transition

/-! ## Gateways -/

/-- A listener of a Gateway, as far as the reconciler reads it. -/
structure GatewayListener where
  name : Str
  hostname : Option Str
  port : Int32
  protocol : Str

/-- `Gateway`: its metadata and the two fields of its spec that the reconciler reads. -/
structure Gateway where
  metadata : ObjectMeta
  gatewayClassName : Str
  listeners : List GatewayListener

/-- A listener to be opened, and who asks for it. -/
abbrev ListenerRequest := ListenerConfig × GatewayRef

/-- The protocols that are supported, by the text of the spec. -/
def Protocol.ofText (text : Str) : Option Protocol :=
  if text = "HTTP".toList then some .http
  else if text = "HTTPS".toList then some .https
  else none

/-- The Gateway that a reference belongs to. -/
def GatewayRef.key (g : GatewayRef) : Str × Str := (g.gatewayNamespace, g.name)

namespace Gateway

/-- The key of a Gateway: `namespace()`, with the reconciler's default, and `name_any()`. -/
def key (gateway : Gateway) : Str × Str :=
  (gateway.metadata.metaNamespace.getD "default".toList,
    (gateway.metadata.name.or gateway.metadata.generateName).getD [])

/-- The arguments of `register_gateway` for a listener; none for an unsupported protocol. -/
def request (gateway : Gateway) (listener : GatewayListener) : Option ListenerRequest :=
  (Protocol.ofText listener.protocol).map fun protocol =>
    (⟨asU16 listener.port, protocol⟩,
      ⟨gateway.key.1, gateway.key.2, listener.name, listener.hostname⟩)

/-- The listeners that a version of the Gateway asks for. -/
def requests (gateway : Gateway) : List ListenerRequest :=
  gateway.listeners.filterMap gateway.request

theorem key_of_mem_requests {gateway : Gateway} {r : ListenerRequest}
    (h : r ∈ gateway.requests) : r.2.key = gateway.key := by
  obtain ⟨listener, -, hr⟩ := List.mem_filterMap.mp h
  obtain ⟨protocol, -, rfl⟩ := Option.map_eq_some_iff.mp hr
  rfl

end Gateway

/-! ## The reconciler -/

/-- What `reconcile` returns: the two actions, or the error of the status update. -/
inductive ReconcileResult where
  | awaitChange
  | requeue (seconds : Nat)
  | statusError (error : Str)

/-- `GatewayReconciler`, without its Kubernetes client. -/
structure GatewayReconciler where
  gatewayClassName : Str
  listenerManager : ListenerManager
  gatewayIndex : Finset (Str × Str)

/-- The loop over the listeners; a registration that fails is logged and skipped. -/
def Gateway.configureListeners (gateway : Gateway) (bind : ListenerConfig → Except Str Unit) :
    ListenerManager → List GatewayListener → ListenerManager
  | m, [] => m
  | m, listener :: listeners =>
    match gateway.request listener with
    | none => gateway.configureListeners bind m listeners
    | some (config, gatewayRef) =>
      gateway.configureListeners bind (m.registerGateway (bind config) config gatewayRef).2
        listeners

namespace GatewayReconciler

/-- `reconcile`, given what `bind` answers for each address and what the status update returns. -/
def reconcile (r : GatewayReconciler) (bind : ListenerConfig → Except Str Unit)
    (status : Except Str Unit) (gateway : Gateway) : ReconcileResult × GatewayReconciler :=
  if gateway.gatewayClassName ≠ r.gatewayClassName then
    -- the index forgets the Gateway, the listener manager is not told
    (.awaitChange, { r with gatewayIndex := r.gatewayIndex.erase gateway.key })
  else
    let r :=
      { r with
        gatewayIndex := insert gateway.key r.gatewayIndex
        listenerManager :=
          gateway.configureListeners bind r.listenerManager gateway.listeners }
    match status with
    | .ok () => (.requeue 300, r)
    | .error e => (.statusError e, r)

/-- What the version asks of this reconciler: nothing if the class is not ours. -/
def wanted (r : GatewayReconciler) (gateway : Gateway) : List ListenerRequest :=
  if gateway.gatewayClassName ≠ r.gatewayClassName then [] else gateway.requests

end GatewayReconciler

/-! ## Registering a list -/

namespace ListenerManager

/-- Register one after the other; those that fail are skipped. -/
def registerWith (bind : ListenerConfig → Except Str Unit) (m : ListenerManager)
    (wanted : List ListenerRequest) : ListenerManager :=
  wanted.foldl (fun m r => (m.registerGateway (bind r.1) r.1 r.2).2) m

/-- The same, with every `bind` succeeding. -/
def registerAll (m : ListenerManager) (wanted : List ListenerRequest) : ListenerManager :=
  m.registerWith (fun _ => .ok ()) wanted

/-- A listener of the protocol can be opened. -/
def CanOpen (m : ListenerManager) (protocol : Protocol) : Prop :=
  protocol = .https → m.tlsAcceptor = true

instance (m : ListenerManager) (protocol : Protocol) : Decidable (m.CanOpen protocol) :=
  inferInstanceAs (Decidable (_ → _))

/-- The protocol of the listener on a port. -/
def protocolAt (m : ListenerManager) (port : UInt16) : Option Protocol :=
  (m.listeners.lookup port).map (·.config.protocol)

/-- The protocol that a port will have: the one it has, or that of the first registration that can
open it. -/
def boundProtocol (m : ListenerManager) (wanted : List ListenerRequest) (port : UInt16) :
    Option Protocol :=
  (m.protocolAt port).or
    ((wanted.find? fun r => r.1.port = port ∧ m.CanOpen r.1.protocol).map (·.1.protocol))

variable {m : ListenerManager} {config : ListenerConfig} {gateway g : GatewayRef} {p : UInt16}
  {protocol : Protocol} {wanted : List ListenerRequest}

theorem spawnListener_ok :
    m.spawnListener (.ok ()) config = .ok () ↔ m.CanOpen config.protocol := by
  unfold spawnListener CanOpen
  split
  · next h => simp [h]
  · next h =>
      simp only [Except.mapError, true_iff]
      intro hs
      simpa [hs] using h

theorem protocolAt_of_holds (h : m.Holds p g protocol) : m.protocolAt p = some protocol := by
  obtain ⟨listener, hlookup, -, rfl⟩ := h
  simp [protocolAt, hlookup]

theorem registerGateway_tlsAcceptor (bind : Except Str Unit) :
    (m.registerGateway bind config gateway).2.tlsAcceptor = m.tlsAcceptor := by
  rcases m.registerGateway_cases bind config gateway with
    ⟨e, hr, -⟩ | ⟨listener, -, -, hr⟩ | ⟨-, -, hr⟩ <;> rw [hr] <;> rfl

/-- A registration opens the port of its configuration if it can and no one has. -/
theorem protocolAt_registerGateway :
    (m.registerGateway (.ok ()) config gateway).2.protocolAt p =
      (m.protocolAt p).or
        (if config.port = p ∧ m.CanOpen config.protocol then some config.protocol else none) := by
  rcases m.registerGateway_cases (.ok ()) config gateway with
    ⟨e, hr, ⟨listener, hlookup, -⟩ | ⟨hlookup, hspawn⟩⟩ |
      ⟨listener, hlookup, hsame, hr⟩ | ⟨hlookup, hspawn, hr⟩
  · rw [hr]
    by_cases hp : config.port = p
    · subst hp
      simp [protocolAt, hlookup]
    · simp [hp]
  · have hcannot : ¬ m.CanOpen config.protocol := by
      intro hcan
      rw [spawnListener_ok.mpr hcan] at hspawn
      cases hspawn
    rw [hr]
    simp [hcannot]
  · rw [hr]
    by_cases hp : config.port = p
    · subst hp
      simp [protocolAt, put, hlookup]
    · simp [protocolAt, put, hp, AList.lookup_insert_ne (Ne.symm hp)]
  · have hcan : m.CanOpen config.protocol := spawnListener_ok.mp hspawn
    rw [hr]
    by_cases hp : config.port = p
    · subst hp
      simp [protocolAt, put, hlookup, hcan]
    · simp [protocolAt, put, hp, AList.lookup_insert_ne (Ne.symm hp)]

/-- What is held after a registration, whether it fails or not. -/
theorem holds_registerGateway_iff :
    (m.registerGateway (.ok ()) config gateway).2.Holds p g protocol ↔
      m.Holds p g protocol ∨
        ((⟨p, protocol⟩, g) : ListenerRequest) = (config, gateway) ∧
          (m.registerGateway (.ok ()) config gateway).2.protocolAt p = some protocol := by
  cases hresult : (m.registerGateway (.ok ()) config gateway).1 with
  | ok _ =>
      constructor
      · intro h
        rcases (holds_registerGateway hresult).mp h with ⟨rfl, rfl, rfl⟩ | hold
        · exact .inr ⟨rfl, protocolAt_of_holds h⟩
        · exact .inl hold
      · rintro (hold | ⟨hsame, -⟩)
        · exact (holds_registerGateway hresult).mpr (.inr hold)
        · cases hsame
          exact (holds_registerGateway hresult).mpr (.inl ⟨rfl, rfl, rfl⟩)
  | error e =>
      rcases m.registerGateway_cases (.ok ()) config gateway with
        ⟨e, hr, hwhy⟩ | ⟨_, -, -, hr⟩ | ⟨-, -, hr⟩
      · rw [hr]
        refine ⟨.inl, ?_⟩
        rintro (hold | ⟨hsame, hat⟩)
        · exact hold
        · -- the port has another protocol, or none
          cases hsame
          rcases hwhy with ⟨listener, hlookup, hne⟩ | ⟨hlookup, -⟩
          · exact absurd (by simpa [protocolAt, hlookup] using hat) hne
          · simp [protocolAt, hlookup] at hat
      · simp [hr] at hresult
      · simp [hr] at hresult

theorem boundProtocol_cons :
    m.boundProtocol ((config, gateway) :: wanted) p =
      (m.registerGateway (.ok ()) config gateway).2.boundProtocol wanted p := by
  have htls : ∀ protocol, (m.registerGateway (.ok ()) config gateway).2.CanOpen protocol ↔
      m.CanOpen protocol := by
    intro protocol
    simp only [CanOpen, registerGateway_tlsAcceptor]
  simp only [boundProtocol, protocolAt_registerGateway, List.find?_cons, htls]
  by_cases hopen : config.port = p ∧ m.CanOpen config.protocol
  · simp [hopen]
  · simp [hopen]

theorem canOpen_of_boundProtocol (hclosed : m.protocolAt p = none)
    (h : m.boundProtocol wanted p = some protocol) : m.CanOpen protocol := by
  rw [boundProtocol, hclosed, Option.none_or] at h
  obtain ⟨r, hr, rfl⟩ := Option.map_eq_some_iff.mp h
  have := List.find?_some hr
  simp only [Bool.decide_and, Bool.and_eq_true, decide_eq_true_eq] at this
  exact this.2

/-- The first registration of a list gets its port if the list does. -/
theorem protocolAt_registerGateway_iff :
    (m.registerGateway (.ok ()) ⟨p, protocol⟩ gateway).2.protocolAt p = some protocol ↔
      (m.registerGateway (.ok ()) ⟨p, protocol⟩ gateway).2.boundProtocol wanted p =
        some protocol := by
  constructor
  · intro h
    simp [boundProtocol, h]
  · intro h
    cases hat : (m.registerGateway (.ok ()) ⟨p, protocol⟩ gateway).2.protocolAt p with
    | some protocol' => simpa [boundProtocol, hat] using h
    | none =>
        -- the list opens the port for this protocol, so this registration has
        have hcan := canOpen_of_boundProtocol hat h
        rw [CanOpen, registerGateway_tlsAcceptor] at hcan
        rw [protocolAt_registerGateway, if_pos ⟨rfl, hcan⟩] at hat
        simp at hat

/-- **What registering a list leaves behind**: what was held, and those whose port has got their
protocol. -/
theorem holds_registerAll :
    (m.registerAll wanted).Holds p g protocol ↔
      m.Holds p g protocol ∨
        (⟨p, protocol⟩, g) ∈ wanted ∧ m.boundProtocol wanted p = some protocol := by
  induction wanted generalizing m with
  | nil => simp [registerAll, registerWith]
  | cons r wanted ih =>
      obtain ⟨config, gateway⟩ := r
      show ((m.registerGateway (.ok ()) config gateway).2.registerAll wanted).Holds _ _ _ ↔ _
      rw [ih, holds_registerGateway_iff, boundProtocol_cons, List.mem_cons]
      have hfirst : (((⟨p, protocol⟩, g) : ListenerRequest) = (config, gateway) →
          ((m.registerGateway (.ok ()) config gateway).2.protocolAt p = some protocol ↔
            (m.registerGateway (.ok ()) config gateway).2.boundProtocol wanted p =
              some protocol)) := by
        intro hsame
        cases hsame
        exact protocolAt_registerGateway_iff
      tauto

/-- A reference is held on a port. -/
def Held (m : ListenerManager) (port : UInt16) (gateway : GatewayRef) : Prop :=
  ∃ protocol, m.Holds port gateway protocol

/-- A reference is asked for on a port. -/
def Asked (wanted : List ListenerRequest) (port : UInt16) (gateway : GatewayRef) : Prop :=
  ∃ protocol, (⟨port, protocol⟩, gateway) ∈ wanted

/-- For a Gateway the manager holds what is asked for and nothing else. -/
def Tracks (m : ListenerManager) (key : Str × Str) (wanted : List ListenerRequest) : Prop :=
  ∀ port g, g.key = key → (m.Held port g ↔ Asked wanted port g)

/-- The version can be reached by registering alone: for the Gateway nothing is held that is not
asked for any more, and whatever is asked for is held or gets its port. -/
structure Fits (m : ListenerManager) (key : Str × Str) (wanted : List ListenerRequest) : Prop where
  kept : ∀ port g, g.key = key → m.Held port g → Asked wanted port g
  served : ∀ port g, Asked wanted port g → m.Held port g ∨
    ∃ protocol, (⟨port, protocol⟩, g) ∈ wanted ∧ m.boundProtocol wanted port = some protocol

theorem held_registerAll {port : UInt16} :
    (m.registerAll wanted).Held port g ↔ m.Held port g ∨
      ∃ protocol, (⟨port, protocol⟩, g) ∈ wanted ∧ m.boundProtocol wanted port = some protocol := by
  simp only [Held, holds_registerAll, exists_or]

/-- Registering a version makes the manager track it exactly if the version fits. -/
theorem tracks_registerAll_iff {key : Str × Str} (hkey : ∀ r ∈ wanted, r.2.key = key) :
    (m.registerAll wanted).Tracks key wanted ↔ m.Fits key wanted := by
  constructor
  · intro h
    refine ⟨fun port g hg hheld => ?_, fun port g hasked => ?_⟩
    · exact (h port g hg).mp (held_registerAll.mpr (.inl hheld))
    · obtain ⟨protocol, hmem⟩ := hasked
      exact held_registerAll.mp ((h port g (hkey _ hmem)).mpr ⟨protocol, hmem⟩)
  · intro h port g hg
    rw [held_registerAll]
    constructor
    · rintro (hheld | ⟨protocol, hmem, -⟩)
      · exact h.kept port g hg hheld
      · exact ⟨protocol, hmem⟩
    · exact h.served port g

/-- Other Gateways do not notice. -/
theorem tracks_registerAll_of_ne {key key' : Str × Str} {wanted' : List ListenerRequest}
    (hkey : ∀ r ∈ wanted, r.2.key = key) (hne : key' ≠ key) (h : m.Tracks key' wanted') :
    (m.registerAll wanted).Tracks key' wanted' := by
  intro port g hg
  rw [held_registerAll, ← h port g hg, or_iff_left]
  rintro ⟨protocol, hmem, -⟩
  exact hne (hg.symm.trans (hkey _ hmem))

theorem tidy_registerAll (h : m.Tidy) : (m.registerAll wanted).Tidy := by
  induction wanted generalizing m with
  | nil => exact h
  | cons r wanted ih => exact ih (tidy_registerGateway h)

end ListenerManager

/-! ## Runs -/

/-- The loop registers the requests of the version, whatever `bind` answers. -/
theorem Gateway.configureListeners_eq (gateway : Gateway) (bind : ListenerConfig → Except Str Unit)
    (m : ListenerManager) (listeners : List GatewayListener) :
    gateway.configureListeners bind m listeners =
      m.registerWith bind (listeners.filterMap gateway.request) := by
  induction listeners generalizing m with
  | nil => rfl
  | cons listener listeners ih =>
      rw [configureListeners, List.filterMap_cons]
      cases gateway.request listener with
      | none => exact ih m
      | some r => exact ih _

namespace GatewayReconciler

/-- A reconciler that has not seen a Gateway yet. -/
def new (gatewayClassName : Str) (tls : Bool) : GatewayReconciler :=
  ⟨gatewayClassName, .new tls, ∅⟩

theorem key_of_mem_wanted {r : GatewayReconciler} {gateway : Gateway} {request : ListenerRequest}
    (h : request ∈ r.wanted gateway) : request.2.key = gateway.key := by
  unfold wanted at h
  split at h
  · cases h
  · exact gateway.key_of_mem_requests h

/-- A call registers what the version asks for and leaves the rest of the manager alone. -/
theorem listenerManager_reconcile (r : GatewayReconciler) (status : Except Str Unit)
    (gateway : Gateway) :
    (r.reconcile (fun _ => .ok ()) status gateway).2.listenerManager =
      r.listenerManager.registerAll (r.wanted gateway) := by
  unfold reconcile wanted
  split
  · rfl
  · rw [Gateway.configureListeners_eq]
    cases status <;> rfl

end GatewayReconciler

/-- The call of `reconcile` for a version of a Gateway. -/
structure ReconcileCall where
  gateway : Gateway
  status : Except Str Unit

/-- The reconciler under any calls, every `bind` succeeding, with what the last version of each
Gateway asked for. -/
def gatewaySystem : System (GatewayReconciler × (Str × Str → List ListenerRequest)) ReconcileCall :=
  (⟨fun r call => some (r.reconcile (fun _ => .ok ()) call.status call.gateway).2⟩ :
    System GatewayReconciler ReconcileCall).observed
      fun r call _ latest => Function.update latest call.gateway.key (r.wanted call.gateway)

/-- The version of the call can be reached by registering alone. -/
def VersionFits (s : GatewayReconciler × (Str × Str → List ListenerRequest))
    (call : ReconcileCall) : Prop :=
  s.1.listenerManager.Fits call.gateway.key (s.1.wanted call.gateway)

namespace GatewayReconciler

open ListenerManager

/-- The manager holds for each Gateway what its last version asked for. -/
structure Tracking (s : GatewayReconciler × (Str × Str → List ListenerRequest)) : Prop where
  tidy : s.1.listenerManager.Tidy
  tracks : ∀ key, s.1.listenerManager.Tracks key (s.2 key)

theorem tracking {className : Str} {tls : Bool}
    {s : GatewayReconciler × (Str × Str → List ListenerRequest)}
    (h : gatewaySystem.Reach VersionFits (new className tls, fun _ => []) s) : Tracking s := by
  refine h.invariant ?_ ?_
  · refine ⟨tidy_new tls, fun key port g _ => ?_⟩
    exact iff_of_false (fun ⟨_, hholds⟩ => not_holds_new tls hholds) (by simp [Asked])
  · rintro ⟨r, latest⟩ call s' ⟨htidy, htracks⟩ hfits hstep
    cases hstep
    refine ⟨?_, fun key => ?_⟩
    · show (r.reconcile _ _ _).2.listenerManager.Tidy
      rw [listenerManager_reconcile]
      exact tidy_registerAll htidy
    · show (r.reconcile _ _ _).2.listenerManager.Tracks key
        (Function.update latest call.gateway.key (r.wanted call.gateway) key)
      rw [listenerManager_reconcile]
      by_cases hkey : key = call.gateway.key
      · subst hkey
        rw [Function.update_self]
        exact (tracks_registerAll_iff fun _ => key_of_mem_wanted).mpr hfits
      · rw [Function.update_of_ne hkey]
        exact tracks_registerAll_of_ne (fun _ => key_of_mem_wanted) hkey (htracks key)

/-- **The manager tracks the Gateways.** In every run whose versions fit, the manager holds for each
Gateway what its last version asked for, and a port is open exactly if one of them asked for it.
And a version that does not fit is not tracked after its call. -/
theorem tracks_of_versionFits {className : Str} {tls : Bool} {r : GatewayReconciler}
    {latest : Str × Str → List ListenerRequest}
    (h : gatewaySystem.Reach VersionFits (new className tls, fun _ => []) (r, latest)) :
    (∀ key, r.listenerManager.Tracks key (latest key)) ∧
    (∀ port, (r.listenerManager.listeners.lookup port).isSome ↔
      ∃ key g, g.key = key ∧ Asked (latest key) port g) ∧
    (∀ call, (r.reconcile (fun _ => .ok ()) call.status call.gateway).2.listenerManager.Tracks
      call.gateway.key (r.wanted call.gateway) ↔ VersionFits (r, latest) call) := by
  obtain ⟨htidy, htracks⟩ := tracking h
  refine ⟨htracks, fun port => ?_, fun call => ?_⟩
  · constructor
    · intro hopen
      obtain ⟨listener, hlookup⟩ := Option.isSome_iff_exists.mp hopen
      obtain ⟨g, hg⟩ := (htidy port listener hlookup).2
      have hheld : r.listenerManager.Held port g := ⟨_, listener, hlookup, hg, rfl⟩
      exact ⟨g.key, g, rfl, (htracks g.key port g rfl).mp hheld⟩
    · rintro ⟨key, g, hg, hasked⟩
      obtain ⟨-, listener, hlookup, -⟩ := (htracks key port g hg).mpr hasked
      simp [hlookup]
  · rw [listenerManager_reconcile]
    exact tracks_registerAll_iff fun _ => key_of_mem_wanted

/-- A Gateway of our class with one HTTP listener. -/
def web (port : Int32) : Gateway :=
  ⟨⟨some "web".toList, none, none, none⟩, "rauta".toList,
    [⟨"http".toList, none, port, "HTTP".toList⟩]⟩

theorem requests_web (port : Int32) :
    (web port).requests = [(⟨asU16 port, .http⟩, httpListener "web".toList)] := rfl

theorem versionFits_web (port : Int32) :
    VersionFits (new "rauta".toList false, fun _ => []) ⟨web port, .ok ()⟩ := by
  refine ⟨fun p g _ ⟨_, hholds⟩ => absurd hholds (not_holds_new false), ?_⟩
  show ∀ p g, Asked (web port).requests p g → _ ∨ ∃ protocol, (⟨p, protocol⟩, g) ∈
    (web port).requests ∧ (ListenerManager.new false).boundProtocol (web port).requests p =
      some protocol
  rw [requests_web]
  rintro p g ⟨protocol, hmem⟩
  cases List.mem_singleton.mp hmem
  exact .inr ⟨.http, hmem, by simp [boundProtocol, protocolAt, ListenerManager.new, CanOpen]⟩

/-- Its next version, with a second listener. -/
def webBoth : Gateway :=
  ⟨⟨some "web".toList, none, none, none⟩, "rauta".toList,
    [⟨"http".toList, none, 80, "HTTP".toList⟩, ⟨"alt".toList, none, 8080, "HTTP".toList⟩]⟩

theorem versionFits_webBoth {r : GatewayReconciler} {latest : Str × Str → List ListenerRequest}
    (hrun : gatewaySystem.exec (new "rauta".toList false, fun _ => []) [⟨web 80, .ok ()⟩] =
      some (r, latest))
    (htracks : r.listenerManager.Tracks (web 80).key (web 80).requests) :
    VersionFits (r, latest) ⟨webBoth, .ok ()⟩ := by
  cases hrun
  refine ⟨fun port g hg hheld => ?_, fun port g hasked => ?_⟩
  · obtain ⟨protocol, hmem⟩ := (htracks port g hg).mp hheld
    exact ⟨protocol, List.mem_of_mem_head? (congrArg some (List.mem_singleton.mp hmem).symm)⟩
  · obtain ⟨protocol, hmem⟩ := hasked
    refine .inr ⟨protocol, hmem, ?_⟩
    rcases List.mem_pair.mp hmem with heq | heq
    · cases heq
      decide
    · cases heq
      decide

/-- A new Gateway is tracked, and so is its next version. -/
theorem tracks_of_versionFits_web :
    ∃ r latest, gatewaySystem.exec (new "rauta".toList false, fun _ => [])
        [⟨web 80, .ok ()⟩, ⟨webBoth, .ok ()⟩] = some (r, latest) ∧
      r.listenerManager.Tracks webBoth.key webBoth.requests ∧
      (r.listenerManager.listeners.lookup 8080).isSome := by
  have hfirst := tracks_of_versionFits (.tail .refl (versionFits_web 80) rfl)
  have hfits := versionFits_webBoth rfl (hfirst.1 (web 80).key)
  obtain ⟨htracks, hopen, -⟩ := tracks_of_versionFits (.tail (.tail .refl (versionFits_web 80) rfl)
    hfits rfl)
  have hasked : Asked webBoth.requests 8080 ⟨"default".toList, "web".toList, "alt".toList, none⟩ :=
    ⟨.http, List.mem_of_getElem? (i := 1) rfl⟩
  exact ⟨_, _, rfl, htracks webBoth.key, (hopen 8080).mpr ⟨webBoth.key, _, rfl, hasked⟩⟩

/-- **A listener that is moved leaves its old port behind.** -/
theorem exists_not_tracks :
    ¬ ∀ className tls r latest,
      gatewaySystem.Reach System.Anything (new className tls, fun _ => []) (r, latest) →
        ∀ call : ReconcileCall,
          (r.reconcile (fun _ => .ok ()) call.status call.gateway).2.listenerManager.Tracks
            call.gateway.key (r.wanted call.gateway) := by
  intro h
  obtain ⟨r, latest, hrun, hwanted, hafter⟩ : ∃ r latest,
      gatewaySystem.exec (new "rauta".toList false, fun _ => []) [⟨web 80, .ok ()⟩] =
        some (r, latest) ∧
      r.wanted (web 8080) = (web 8080).requests ∧
      (((r.reconcile (fun _ => .ok ()) (.ok ()) (web 8080)).2.listenerManager.listeners.lookup
        80).map (·.gateways)) = some {httpListener "web".toList} :=
    ⟨_, _, rfl, rfl, by decide⟩
  obtain ⟨listener, hlookup, hg⟩ := Option.map_eq_some_iff.mp hafter
  have htracks := h _ _ r latest (.of_exec hrun) ⟨web 8080, .ok ()⟩ 80
    (httpListener "web".toList) rfl
  obtain ⟨protocol, hmem⟩ := htracks.mp ⟨_, listener, hlookup, by simp [hg], rfl⟩
  rw [hwanted] at hmem
  have hport : (80 : UInt16) = 8080 :=
    congrArg (fun request : ListenerRequest => request.1.port) (List.mem_singleton.mp hmem)
  exact absurd hport (by decide)

end GatewayReconciler

end Rauta
