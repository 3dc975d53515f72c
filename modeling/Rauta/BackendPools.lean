import Mathlib.Data.List.AList
import Rauta.Http2Pool

/-!
# The connection pools of a worker

`BackendConnectionPools` keeps one `Http2Pool` per backend. A pool remembers the backend it was made
for and connects to that backend's socket address, whoever asks for the pool later.

The key of the map is made of the sixteen bytes of the address and the port. An IPv4 address
occupies the first four bytes, so an IPv6 address can have the same bytes, and the two backends are
then given the same pool.
-/

namespace Rauta

/-- `SocketAddr`. -/
inductive SocketAddr where
  | v4 (a b c d : UInt8) (port : UInt16)
  | v6 (octets : Vector UInt8 16) (port : UInt16)
  deriving DecidableEq

/-- `Backend::to_socket_addr`. -/
def Backend.toSocketAddr (b : Backend) : SocketAddr :=
  if b.isIpv6 then .v6 b.ip b.port else .v4 b.ip[0] b.ip[1] b.ip[2] b.ip[3] b.port

/-- `BackendKey`. -/
structure BackendKey where
  ip : Vector UInt8 16
  port : UInt16
  deriving DecidableEq

/-- `BackendKey::from`. -/
def Backend.key (b : Backend) : BackendKey := ⟨b.ip, b.port⟩

/-- Of the backends with one key, the address tells the family and nothing more. -/
theorem Backend.toSocketAddr_eq_iff {b b' : Backend} (hkey : b.key = b'.key) :
    b.toSocketAddr = b'.toSocketAddr ↔ b.isIpv6 = b'.isIpv6 := by
  obtain ⟨ip, port, weight, isIpv6⟩ := b
  obtain ⟨ip', port', weight', isIpv6'⟩ := b'
  cases hkey
  cases isIpv6 <;> cases isIpv6' <;> simp [toSocketAddr]

/-- An `Http2Pool` with its `backend` field. -/
structure BackendPool where
  backend : Backend
  pool : Http2Pool

/-- `BackendConnectionPools`. -/
structure BackendConnectionPools where
  pools : AList fun _ : BackendKey => BackendPool

namespace BackendConnectionPools

/-- `BackendConnectionPools::new`. -/
def new : BackendConnectionPools := ⟨∅⟩

/-- Write the pool of a key. -/
def put (s : BackendConnectionPools) (key : BackendKey) (pool : BackendPool) :
    BackendConnectionPools :=
  ⟨s.pools.insert key pool⟩

/-- `get_or_create_pool`: the pool, and the map with it. -/
def getOrCreatePool (s : BackendConnectionPools) (now : Nat) (backend : Backend) :
    BackendPool × BackendConnectionPools :=
  match s.pools.lookup backend.key with
  | some pool => (pool, s)
  | none => (⟨backend, .new now⟩, s.put backend.key ⟨backend, .new now⟩)

/-- A call of `get_or_create_pool`, with its time. -/
structure PoolCall where
  now : Nat
  backend : Backend

/-- The pools after some calls. -/
def after (s : BackendConnectionPools) (calls : List PoolCall) : BackendConnectionPools :=
  calls.foldl (fun s call => (s.getOrCreatePool call.now call.backend).2) s

variable {s : BackendConnectionPools}

/-- The backend of a pool is that of the first call for its key. -/
theorem backend_after (calls : List PoolCall) (key : BackendKey) :
    ((s.after calls).pools.lookup key).map (·.backend) =
      ((s.pools.lookup key).map (·.backend)).or
        ((calls.find? fun call => call.backend.key = key).map (·.backend)) := by
  induction calls generalizing s with
  | nil => simp [after]
  | cons call calls ih =>
      show ((after (s.getOrCreatePool call.now call.backend).2 calls).pools.lookup key).map _ = _
      rw [ih]
      unfold getOrCreatePool
      cases hlookup : s.pools.lookup call.backend.key with
      | some pool =>
          by_cases hkey : call.backend.key = key
          · subst hkey
            simp [hlookup]
          · simp [hkey]
      | none =>
          by_cases hkey : call.backend.key = key
          · subst hkey
            simp [put, hlookup]
          · simp [put, hkey, AList.lookup_insert_ne (Ne.symm hkey)]

/-- The backend of the pool that a call returns: that of an earlier call for the key, or its own. -/
theorem exists_backend_getOrCreatePool (calls : List PoolCall) (call : PoolCall) :
    ∃ first, (first ∈ calls ∨ first = call) ∧ first.backend.key = call.backend.key ∧
      ((new.after calls).getOrCreatePool call.now call.backend).1.backend = first.backend := by
  have hbackend := backend_after (s := new) calls call.backend.key
  unfold getOrCreatePool
  cases hlookup : (new.after calls).pools.lookup call.backend.key with
  | none => exact ⟨call, .inr rfl, rfl, rfl⟩
  | some pool =>
      rw [hlookup] at hbackend
      have hfirst : (calls.find? fun c => c.backend.key = call.backend.key).map (·.backend) =
          some pool.backend := by
        simpa [new] using hbackend.symm
      obtain ⟨first, hfind, hfirst⟩ := Option.map_eq_some_iff.mp hfirst
      have hkey := List.find?_some hfind
      exact ⟨first, .inl (List.mem_of_find?_eq_some hfind), by simpa using hkey, hfirst.symm⟩

/-- Every call is given a pool that connects to its backend, and backends that share a pool have the
same address. -/
def OwnPools (calls : List PoolCall) : Prop :=
  (∀ before call after, calls = before ++ call :: after →
    ((new.after before).getOrCreatePool call.now call.backend).1.backend.toSocketAddr =
      call.backend.toSocketAddr) ∧
  (∀ call ∈ calls, ∀ call' ∈ calls, call.backend.key = call'.backend.key →
    call.backend.toSocketAddr = call'.backend.toSocketAddr)

/-- **One backend, one pool**, exactly as long as no IPv4 and IPv6 backends with the same bytes and
the same port are asked for. -/
theorem ownPools_iff (calls : List PoolCall) :
    OwnPools calls ↔ ∀ call ∈ calls, ∀ call' ∈ calls,
      call.backend.ip = call'.backend.ip → call.backend.port = call'.backend.port →
        call.backend.isIpv6 = call'.backend.isIpv6 := by
  constructor
  · rintro ⟨-, hshare⟩ call hcall call' hcall' hip hport
    have hkey : call.backend.key = call'.backend.key := by simp [Backend.key, hip, hport]
    exact (Backend.toSocketAddr_eq_iff hkey).mp (hshare call hcall call' hcall' hkey)
  · intro hfamily
    -- with one family the key determines the address, for any two calls of the run
    have hshare : ∀ call ∈ calls, ∀ call' ∈ calls, call.backend.key = call'.backend.key →
        call.backend.toSocketAddr = call'.backend.toSocketAddr := by
      intro call hcall call' hcall' hkey
      obtain ⟨hip, hport⟩ := BackendKey.mk.inj hkey
      exact (Backend.toSocketAddr_eq_iff hkey).mpr (hfamily call hcall call' hcall' hip hport)
    refine ⟨?_, hshare⟩
    rintro before call after rfl
    obtain ⟨first, hfirst, hkey, hbackend⟩ := exists_backend_getOrCreatePool before call
    rw [hbackend]
    refine hshare first ?_ call (by simp) hkey
    rcases hfirst with hfirst | rfl
    · simp [hfirst]
    · simp

/-- The bytes of 10.0.1.1 as the IPv6 address a00:101::. -/
def sameBytes : Vector UInt8 16 := #v[10, 0, 1, 1, 0, 0, 0, 0, 0, 0, 0, 0, 0, 0, 0, 0]

/-- **Two backends, one pool**: an IPv6 backend is given the pool of an IPv4 one. -/
theorem exists_not_ownPools : ¬ ∀ calls, OwnPools calls := by
  intro h
  have hown := (h [⟨0, .fromIpv4 10 0 1 1 8080 100⟩, ⟨0, .fromIpv6 sameBytes 8080 100⟩]).1
    [⟨0, .fromIpv4 10 0 1 1 8080 100⟩] ⟨0, .fromIpv6 sameBytes 8080 100⟩ [] rfl
  exact absurd hown (by decide)

end BackendConnectionPools

end Rauta
