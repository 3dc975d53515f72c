import Mathlib.Data.Finset.Basic
import Mathlib.Data.List.AList
import Rauta.Common
import Rauta.Lib.History
import Rauta.Lib.Transition

/-!
# The listener manager

`ListenerManager` opens one TCP listener per port and counts who uses it: a Gateway registers for a
port, several Gateways share a listener, and the listener is shut down with its last Gateway.

Every call holds the write lock of the map from beginning to end, so a call is one step. What the
operating system decides, the outcome of a `bind`, is an argument of the call. The running tasks are
not part of the state: a task lives as long as the entry that holds its cancel channel.

The invariant is stated against the calls themselves. `RegisteredSince` reads off the history which
references ought to be there, without looking at the map, and `Counted` says that the map agrees
with it.
-/

namespace Rauta

open History Transition

/-- `Protocol`: the protocol of a listener. -/
inductive Protocol where
  | http
  | https
deriving DecidableEq

/-- The `{:?}` text of a protocol. -/
def Protocol.debug : Protocol → Str
  | .http => "HTTP".toList
  | .https => "HTTPS".toList

/-- `GatewayRef`: a listener of a Gateway. -/
structure GatewayRef where
  gatewayNamespace : Str
  name : Str
  listenerName : Str
  hostname : Option Str
deriving DecidableEq

/-- `GatewayRef::id`; it leaves the hostname out. -/
def GatewayRef.id (g : GatewayRef) : Str :=
  g.gatewayNamespace ++ '/' :: g.name ++ '/' :: g.listenerName

/-- `ListenerConfig`. -/
structure ListenerConfig where
  port : UInt16
  protocol : Protocol
deriving DecidableEq

/-- `ListenerConfig::bind_addr`. -/
def ListenerConfig.bindAddr (config : ListenerConfig) : Str :=
  "0.0.0.0:".toList ++ decimal config.port.toNat

/-- `ActiveListener`, without the handles of its task. -/
structure ActiveListener where
  config : ListenerConfig
  gateways : Finset GatewayRef

/-- `ListenerManager`: the open listeners, and whether there is a TLS acceptor. -/
structure ListenerManager where
  listeners : AList fun _ : UInt16 => ActiveListener
  tlsAcceptor : Bool

namespace ListenerManager

/-- `ListenerManager::new` and `ListenerManager::with_tls`. -/
def new (tlsAcceptor : Bool) : ListenerManager := ⟨∅, tlsAcceptor⟩

/-! ## The calls -/

/-- `spawn_listener`, given what `TcpListener::bind` answers. -/
def spawnListener (m : ListenerManager) (bind : Except Str Unit) (config : ListenerConfig) :
    Except Str Unit :=
  if config.protocol = .https ∧ m.tlsAcceptor = false then
    .error "HTTPS listener requires TLS configuration. Use ListenerManager::with_tls()".toList
  else
    bind.mapError fun e => "Failed to bind to ".toList ++ config.bindAddr ++ ": ".toList ++ e

/-- The error of a second protocol on a port. -/
def protocolConflict (bound : Protocol) (config : ListenerConfig) : Str :=
  "Port ".toList ++ decimal config.port.toNat ++ " already bound with protocol ".toList ++
    bound.debug ++ ", cannot bind with ".toList ++ config.protocol.debug

/-- Write the entry of a port. -/
def put (m : ListenerManager) (port : UInt16) (listener : ActiveListener) : ListenerManager :=
  { m with listeners := m.listeners.insert port listener }

/-- `register_gateway`. -/
def registerGateway (m : ListenerManager) (bind : Except Str Unit) (config : ListenerConfig)
    (gateway : GatewayRef) : Except Str Unit × ListenerManager :=
  match m.listeners.lookup config.port with
  | some listener =>
    if listener.config.protocol ≠ config.protocol then
      (.error (protocolConflict listener.config.protocol config), m)
    else
      (.ok (), m.put config.port { listener with gateways := insert gateway listener.gateways })
  | none =>
    match m.spawnListener bind config with
    | .error e => (.error e, m)
    | .ok () => (.ok (), m.put config.port ⟨config, {gateway}⟩)

/-- `unregister_gateway`. -/
def unregisterGateway (m : ListenerManager) (port : UInt16) (gateway : GatewayRef) :
    Except Str Unit × ListenerManager :=
  match m.listeners.lookup port with
  | some listener =>
    if gateway ∉ listener.gateways then
      (.error ("Gateway ".toList ++ gateway.id ++ " not registered on port ".toList ++
        decimal port.toNat), m)
    else if listener.gateways.erase gateway = ∅ then
      (.ok (), { m with listeners := m.listeners.erase port })
    else
      (.ok (), m.put port { listener with gateways := listener.gateways.erase gateway })
  | none => (.error ("No listener on port ".toList ++ decimal port.toNat), m)

/-- `shutdown`. -/
def shutdown (m : ListenerManager) : Except Str Unit × ListenerManager :=
  (.ok (), { m with listeners := ∅ })

/-- A reference is held on a port, by a listener of the protocol. -/
def Holds (m : ListenerManager) (port : UInt16) (gateway : GatewayRef) (protocol : Protocol) :
    Prop :=
  ∃ listener, m.listeners.lookup port = some listener ∧ gateway ∈ listener.gateways ∧
    listener.config.protocol = protocol

/-- What the map has to look like on its own: an entry stands under the port of its configuration
and has someone who uses it. -/
def Tidy (m : ListenerManager) : Prop :=
  ∀ port listener, m.listeners.lookup port = some listener →
    listener.config.port = port ∧ listener.gateways.Nonempty

variable {m : ListenerManager} {bind : Except Str Unit} {config : ListenerConfig}
  {gateway g : GatewayRef} {port p : UInt16} {protocol : Protocol} {e : Str}

theorem tidy_new (tls : Bool) : (new tls).Tidy := by
  intro port listener h
  simp [new] at h

theorem not_holds_new (tls : Bool) : ¬ (new tls).Holds port g protocol := by
  rintro ⟨listener, h, -⟩
  simp [new] at h

/-- Writing one entry, and what the manager holds then. -/
theorem holds_put {listener : ActiveListener} :
    (m.put port listener).Holds p g protocol ↔
      if p = port then g ∈ listener.gateways ∧ listener.config.protocol = protocol
      else m.Holds p g protocol := by
  split
  · next h =>
      subst h
      simp [Holds, put]
  · next h => simp [Holds, put, AList.lookup_insert_ne h]

theorem tidy_put {listener : ActiveListener} (h : m.Tidy) (hport : listener.config.port = port)
    (hused : listener.gateways.Nonempty) :
    (m.put port listener).Tidy := by
  intro p l hl
  by_cases hp : p = port
  · subst hp
    rw [put, AList.lookup_insert] at hl
    cases hl
    exact ⟨hport, hused⟩
  · rw [put, AList.lookup_insert_ne hp] at hl
    exact h p l hl

/-! ## What a call does -/

/-- A registration fails and changes nothing, joins the listener of its port, or opens one. -/
theorem registerGateway_cases (m : ListenerManager) (bind : Except Str Unit)
    (config : ListenerConfig) (gateway : GatewayRef) :
    (∃ e, m.registerGateway bind config gateway = (.error e, m) ∧
      ((∃ listener, m.listeners.lookup config.port = some listener ∧
        listener.config.protocol ≠ config.protocol) ∨
      (m.listeners.lookup config.port = none ∧ m.spawnListener bind config = .error e))) ∨
    (∃ listener, m.listeners.lookup config.port = some listener ∧
      listener.config.protocol = config.protocol ∧
      m.registerGateway bind config gateway =
        (.ok (), m.put config.port
          { listener with gateways := insert gateway listener.gateways })) ∨
    (m.listeners.lookup config.port = none ∧ m.spawnListener bind config = .ok () ∧
      m.registerGateway bind config gateway =
        (.ok (), m.put config.port ⟨config, {gateway}⟩)) := by
  unfold registerGateway
  cases hlookup : m.listeners.lookup config.port with
  | some listener =>
      by_cases hsame : listener.config.protocol = config.protocol
      · exact .inr (.inl ⟨listener, rfl, hsame, if_neg (not_not.mpr hsame)⟩)
      · exact .inl ⟨_, if_pos hsame, .inl ⟨listener, rfl, hsame⟩⟩
  | none =>
      cases hspawn : m.spawnListener bind config with
      | error e => exact .inl ⟨e, rfl, .inr ⟨rfl, rfl⟩⟩
      | ok _ => exact .inr (.inr ⟨rfl, rfl, rfl⟩)

/-- A deregistration fails and changes nothing, closes the listener, or leaves it to the others. -/
theorem unregisterGateway_cases (m : ListenerManager) (port : UInt16) (gateway : GatewayRef) :
    (∃ e, m.unregisterGateway port gateway = (.error e, m)) ∨
    (∃ listener, m.listeners.lookup port = some listener ∧
      listener.gateways.erase gateway = ∅ ∧
      m.unregisterGateway port gateway =
        (.ok (), { m with listeners := m.listeners.erase port })) ∨
    (∃ listener, m.listeners.lookup port = some listener ∧
      (listener.gateways.erase gateway).Nonempty ∧
      m.unregisterGateway port gateway =
        (.ok (), m.put port { listener with gateways := listener.gateways.erase gateway })) := by
  unfold unregisterGateway
  cases hlookup : m.listeners.lookup port with
  | none => exact .inl ⟨_, rfl⟩
  | some listener =>
      by_cases hin : gateway ∈ listener.gateways
      · by_cases hlast : listener.gateways.erase gateway = ∅
        · exact .inr (.inl ⟨listener, rfl, hlast, by simp [hin, hlast]⟩)
        · refine .inr (.inr ⟨listener, rfl, Finset.nonempty_iff_ne_empty.mpr hlast, ?_⟩)
          simp [hin, hlast]
      · exact .inl ⟨_, if_pos hin⟩

/-- A registration that succeeds adds its reference and nothing else. -/
theorem holds_registerGateway (h : (m.registerGateway bind config gateway).1 = .ok ()) :
    (m.registerGateway bind config gateway).2.Holds p g protocol ↔
      (p = config.port ∧ g = gateway ∧ protocol = config.protocol) ∨ m.Holds p g protocol := by
  rcases m.registerGateway_cases bind config gateway with
    ⟨e, hr, -⟩ | ⟨listener, hlookup, hsame, hr⟩ | ⟨hlookup, -, hr⟩
  · rw [hr] at h
    cases h
  · rw [hr, holds_put]
    split
    · next hp =>
        subst hp
        simp only [Holds, hlookup, Option.some.injEq, exists_eq_left', Finset.mem_insert, hsame]
        grind
    · next hp => simp [hp]
  · rw [hr, holds_put]
    split
    · next hp =>
        subst hp
        -- the port was not open, so nothing was held on it
        have hnone : ¬ m.Holds config.port g protocol := by
          rintro ⟨listener, hl, -⟩
          rw [hlookup] at hl
          cases hl
        simp only [Finset.mem_singleton, hnone, or_false, true_and, eq_comm]
    · next hp => simp [hp]

/-- A deregistration that succeeds removes its reference and nothing else; a listener that goes with
it had no other. -/
theorem holds_unregisterGateway (h : (m.unregisterGateway port gateway).1 = .ok ()) :
    (m.unregisterGateway port gateway).2.Holds p g protocol ↔
      m.Holds p g protocol ∧ ¬ (p = port ∧ g = gateway) := by
  rcases m.unregisterGateway_cases port gateway with
    ⟨e, hr⟩ | ⟨listener, hlookup, hlast, hr⟩ | ⟨listener, hlookup, -, hr⟩
  · rw [hr] at h
    cases h
  · rw [hr]
    by_cases hp : p = port
    · subst hp
      have honly : g ∈ listener.gateways → g = gateway := by
        intro hg
        by_contra hne
        have : g ∈ listener.gateways.erase gateway := Finset.mem_erase.mpr ⟨hne, hg⟩
        simp [hlast] at this
      simp only [Holds, AList.lookup_erase, hlookup, reduceCtorEq, false_and, exists_false,
        Option.some.injEq, exists_eq_left', true_and, false_iff]
      tauto
    · simp [Holds, AList.lookup_erase_ne hp, hp]
  · rw [hr, holds_put]
    split
    · next hp =>
        subst hp
        simp only [Holds, hlookup, Option.some.injEq, exists_eq_left', Finset.mem_erase, true_and]
        tauto
    · next hp => simp [hp]

theorem tidy_registerGateway (h : m.Tidy) : (m.registerGateway bind config gateway).2.Tidy := by
  rcases m.registerGateway_cases bind config gateway with
    ⟨e, hr, -⟩ | ⟨listener, hlookup, -, hr⟩ | ⟨-, -, hr⟩
  · rw [hr]
    exact h
  · rw [hr]
    exact tidy_put h (h _ _ hlookup).1 ⟨gateway, Finset.mem_insert_self _ _⟩
  · rw [hr]
    exact tidy_put h rfl ⟨gateway, Finset.mem_singleton_self _⟩

theorem tidy_unregisterGateway (h : m.Tidy) : (m.unregisterGateway port gateway).2.Tidy := by
  rcases m.unregisterGateway_cases port gateway with
    ⟨e, hr⟩ | ⟨listener, hlookup, -, hr⟩ | ⟨listener, hlookup, hused, hr⟩
  · rw [hr]
    exact h
  · rw [hr]
    intro p l hl
    by_cases hp : p = port
    · subst hp
      simp at hl
    · exact h p l (by rwa [AList.lookup_erase_ne hp] at hl)
  · rw [hr]
    exact tidy_put h (h _ _ hlookup).1 hused

end ListenerManager

/-! ## Runs -/

/-- A call of the manager; a registration comes with the outcome of the `bind` it may make. -/
inductive ListenerCall where
  | register (bind : Except Str Unit) (config : ListenerConfig) (gateway : GatewayRef)
  | unregister (port : UInt16) (gateway : GatewayRef)
  | shutdown

/-- What a call returns, and the manager after it. -/
def ListenerManager.call (m : ListenerManager) : ListenerCall → Except Str Unit × ListenerManager
  | .register bind config gateway => m.registerGateway bind config gateway
  | .unregister port gateway => m.unregisterGateway port gateway
  | .shutdown => m.shutdown

/-- A call that was made, with what it returned. -/
abbrev ListenerRecord := ListenerCall × Except Str Unit

/-- The manager under any calls, with the calls made so far. -/
def listenerSystem : System (ListenerManager × List ListenerRecord) ListenerCall :=
  (⟨fun m call => some (m.call call).2⟩ : System ListenerManager ListenerCall).observed
    fun m call _ calls => calls ++ [(call, (m.call call).1)]

/-- The reference was successfully registered on the port, for the protocol. -/
def Registers (port : UInt16) (gateway : GatewayRef) (protocol : Protocol) (r : ListenerRecord) :
    Prop :=
  (∃ bind, r.1 = .register bind ⟨port, protocol⟩ gateway) ∧ r.2 = .ok ()

/-- The reference was successfully unregistered from the port, or the manager shut down. -/
def Releases (port : UInt16) (gateway : GatewayRef) (r : ListenerRecord) : Prop :=
  (r.1 = .unregister port gateway ∧ r.2 = .ok ()) ∨ r.1 = .shutdown

/-- By the calls made, the reference ought to be on the port. -/
def RegisteredSince (calls : List ListenerRecord) (port : UInt16) (gateway : GatewayRef)
    (protocol : Protocol) : Prop :=
  Since (Registers port gateway protocol) (Releases port gateway) calls

namespace ListenerManager

variable {m : ListenerManager} {port : UInt16} {g : GatewayRef} {protocol : Protocol}

theorem call_error {call : ListenerCall} {e : Str} (h : (m.call call).1 = .error e) :
    (m.call call).2 = m := by
  cases call with
  | register bind config gateway =>
      rcases m.registerGateway_cases bind config gateway with
        ⟨e, hr, -⟩ | ⟨_, _, _, hr⟩ | ⟨_, _, hr⟩ <;> simp_all [call]
  | unregister port gateway =>
      rcases m.unregisterGateway_cases port gateway with
        ⟨e, hr⟩ | ⟨_, _, _, hr⟩ | ⟨_, _, _, hr⟩ <;> simp_all [call]
  | shutdown => cases h

theorem tidy_call (h : m.Tidy) (call : ListenerCall) : (m.call call).2.Tidy := by
  cases call with
  | register bind config gateway => exact tidy_registerGateway h
  | unregister port gateway => exact tidy_unregisterGateway h
  | shutdown => exact tidy_new m.tlsAcceptor

/-- What a call does to a reference: the equation that `Since` has for its record. -/
theorem holds_call (call : ListenerCall) :
    (m.call call).2.Holds port g protocol ↔
      Registers port g protocol (call, (m.call call).1) ∨
        m.Holds port g protocol ∧ ¬ Releases port g (call, (m.call call).1) := by
  cases hresult : (m.call call).1 with
  | error e =>
      -- a failed call changes nothing, and its record neither registers nor releases
      rw [call_error hresult]
      cases call with
      | shutdown => cases hresult
      | register _ _ _ => simp [Registers, Releases]
      | unregister _ _ => simp [Registers, Releases]
  | ok _ =>
      cases call with
      | register bind config gateway =>
          obtain ⟨configPort, configProtocol⟩ := config
          show (m.registerGateway _ _ _).2.Holds _ _ _ ↔ _
          rw [holds_registerGateway hresult]
          simp only [Registers, Releases, ListenerCall.register.injEq, ListenerConfig.mk.injEq]
          grind
      | unregister p gateway =>
          show (m.unregisterGateway _ _).2.Holds _ _ _ ↔ _
          rw [holds_unregisterGateway hresult]
          simp only [Registers, Releases, ListenerCall.unregister.injEq]
          grind
      | shutdown =>
          have hnone : ¬ (m.call .shutdown).2.Holds port g protocol := not_holds_new m.tlsAcceptor
          simpa [Registers, Releases] using hnone

/-- The manager holds the references that the calls have registered and not released since, each on
a listener of the protocol it was registered with. -/
structure Counted (s : ListenerManager × List ListenerRecord) : Prop where
  tidy : s.1.Tidy
  holds_iff : ∀ port g protocol, s.1.Holds port g protocol ↔ RegisteredSince s.2 port g protocol

theorem counted {tls : Bool} {s : ListenerManager × List ListenerRecord}
    (h : listenerSystem.Reach System.Anything (new tls, []) s) : Counted s := by
  refine h.invariant ?_ ?_
  · refine ⟨tidy_new tls, fun port g protocol => ?_⟩
    exact iff_of_false (not_holds_new tls) not_since_nil
  · rintro ⟨m, calls⟩ call s' ⟨htidy, hholds⟩ - hstep
    cases hstep
    refine ⟨tidy_call htidy call, fun port g protocol => ?_⟩
    show (m.call call).2.Holds port g protocol ↔
      Since _ _ (calls ++ [(call, (m.call call).1)])
    rw [since_concat, holds_call, hholds port g protocol]
    rfl

/-- The listener `http` of the Gateway with the name. -/
def httpListener (name : Str) : GatewayRef := ⟨"default".toList, name, "http".toList, none⟩

/-- Two Gateways share port 80, a third is refused for its protocol, and the first one leaves. -/
def sharedPort : List ListenerCall :=
  [.register (.ok ()) ⟨80, .http⟩ (httpListener "a".toList),
   .register (.ok ()) ⟨80, .http⟩ (httpListener "b".toList),
   .register (.ok ()) ⟨80, .https⟩ (httpListener "c".toList),
   .unregister 80 (httpListener "a".toList)]

end ListenerManager

end Rauta
