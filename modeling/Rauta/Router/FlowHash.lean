import Mathlib.Data.Set.Card
import Rauta.Lib.Bits
import Rauta.Lib.Residues
import Rauta.Router.Basic

/-!
# Where clients come in

`compute_flow_hash` mixes the address and the port of a client into the hash of the path, and the
remainder modulo the table size is the slot at which the selection starts. For an IPv4 client the
address and the port are the upper and lower bits of a 48-bit number (`sourceWord`), and exclusive
or with the path hash permutes these numbers within a block of consecutive ones
(`exists_computeFlowHash_iff`). So the flow hashes of all clients for one path are such a block,
each once: there is a client for every slot, and all slots have the same number of clients up to
one.
-/

namespace Rauta

/-- What an IPv4 client adds to the path hash. -/
def sourceWord (addr : UInt32) (port : UInt16) : Nat := addr.toNat * 2 ^ 16 + port.toNat

theorem sourceWord_lt (addr : UInt32) (port : UInt16) : sourceWord addr port < 2 ^ 48 := by
  have haddr := addr.toNat_lt
  have hport := port.toNat_lt
  unfold sourceWord
  omega

theorem sourceWord_inj {addr addr' : UInt32} {port port' : UInt16}
    (h : sourceWord addr port = sourceWord addr' port') : addr = addr' ∧ port = port' := by
  have hport := port.toNat_lt
  have hport' := port'.toNat_lt
  unfold sourceWord at h
  constructor
  · apply UInt32.toNat_inj.mp
    omega
  · apply UInt16.toNat_inj.mp
    omega

/-- Every 48-bit number comes from a client. -/
theorem exists_sourceWord {x : Nat} (hx : x < 2 ^ 48) : ∃ addr port, sourceWord addr port = x := by
  have haddr : x / 2 ^ 16 < 2 ^ 32 := by omega
  have hport : x % 2 ^ 16 < 2 ^ 16 := Nat.mod_lt _ (by decide)
  refine ⟨.ofNat (x / 2 ^ 16), .ofNat (x % 2 ^ 16), ?_⟩
  have h₁ : (UInt32.ofNat (x / 2 ^ 16)).toNat = x / 2 ^ 16 := UInt32.toNat_ofNat_of_lt haddr
  have h₂ : (UInt16.ofNat (x % 2 ^ 16)).toNat = x % 2 ^ 16 := UInt16.toNat_ofNat_of_lt hport
  rw [sourceWord, h₁, h₂, Nat.div_add_mod']

theorem computeFlowHash_v4 (ph : Nat) (addr : UInt32) (port : UInt16) :
    computeFlowHash ph (some (.v4 addr)) (some port) = ph ^^^ sourceWord addr port := by
  have haddr := addr.toNat_lt
  have hlt : addr.toNat * 2 ^ 16 < 2 ^ 64 := by omega
  show ph ^^^ ((addr.toNat <<< 16) % 2 ^ 64 ||| port.toNat) = _
  rw [Nat.shiftLeft_eq, Nat.mod_eq_of_lt hlt, ← Nat.shiftLeft_eq, Bits.shiftLeft_or _ port.toNat_lt]
  rfl

/-- The first of the flow hashes of a path. -/
def flowBase (ph : Nat) : Nat := ph / 2 ^ 48 * 2 ^ 48

/-- The flow hashes of the clients of a path are a block of consecutive numbers. -/
theorem exists_computeFlowHash_iff {ph v : Nat} :
    (∃ addr port, computeFlowHash ph (some (.v4 addr)) (some port) = v) ↔
      flowBase ph ≤ v ∧ v < flowBase ph + 2 ^ 48 := by
  have hlow : ph % 2 ^ 48 < 2 ^ 48 := Nat.mod_lt _ (by decide)
  constructor
  · rintro ⟨addr, port, rfl⟩
    have hword := sourceWord_lt addr port
    have hxor := Nat.xor_lt_two_pow hlow hword
    rw [computeFlowHash_v4, Bits.xor_of_lt ph hword, ← flowBase]
    exact ⟨Nat.le_add_right _ _, Nat.add_lt_add_left hxor _⟩
  · rintro ⟨hle, hlt⟩
    -- the client whose word is the difference of the low parts
    have hrest : v - flowBase ph < 2 ^ 48 := by omega
    obtain ⟨addr, port, hword⟩ := exists_sourceWord (Nat.xor_lt_two_pow hlow hrest)
    refine ⟨addr, port, ?_⟩
    rw [computeFlowHash_v4, Bits.xor_of_lt ph (sourceWord_lt addr port), hword, ← Nat.xor_assoc,
      Nat.xor_self, Nat.zero_xor, ← flowBase, Nat.add_sub_cancel' hle]

/-- Different clients have different flow hashes. -/
theorem computeFlowHash_inj {ph : Nat} {addr addr' : UInt32} {port port' : UInt16}
    (h : computeFlowHash ph (some (.v4 addr)) (some port) =
      computeFlowHash ph (some (.v4 addr')) (some port')) : addr = addr' ∧ port = port' := by
  rw [computeFlowHash_v4, computeFlowHash_v4] at h
  exact sourceWord_inj (Nat.xor_right_injective h)

/-- The IPv4 clients that come in at a slot. -/
def clientsAt (ph c : Nat) : Set (UInt32 × UInt16) :=
  {client | computeFlowHash ph (some (.v4 client.1)) (some client.2) % compactMaglevSize = c}

/-- **Clients are spread evenly**: of the clients of a path, as many come in at each slot, up to
one. -/
theorem ncard_clientsAt (ph : Nat) {c : Nat} (hc : c < compactMaglevSize) :
    (clientsAt ph c).ncard = 2 ^ 48 / compactMaglevSize ∨
      (clientsAt ph c).ncard = 2 ^ 48 ⌈/⌉ compactMaglevSize := by
  let hash (client : UInt32 × UInt16) : Nat :=
    computeFlowHash ph (some (.v4 client.1)) (some client.2)
  have hinj : Function.Injective hash := by
    rintro ⟨addr, port⟩ ⟨addr', port'⟩ h
    obtain ⟨rfl, rfl⟩ := computeFlowHash_inj h
    rfl
  have himage : hash '' clientsAt ph c =
      ↑{v ∈ Finset.Ico (flowBase ph) (flowBase ph + 2 ^ 48) | v % compactMaglevSize = c} := by
    ext v
    simp only [Finset.coe_filter, Finset.mem_Ico, Set.mem_ofPred_eq, ← exists_computeFlowHash_iff]
    constructor
    · rintro ⟨client, hclient, rfl⟩
      exact ⟨⟨client.1, client.2, rfl⟩, hclient⟩
    · rintro ⟨⟨addr, port, rfl⟩, hv⟩
      exact ⟨(addr, port), hv, rfl⟩
  rw [← Set.ncard_image_of_injective _ hinj, himage, Set.ncard_coe_finset]
  exact Residues.card_Ico_filter_mod hc _ _

/-- The clients of `/api` at the first slot. -/
theorem ncard_clientsAt_api : (clientsAt (pathHash "/api".toList) 0).ncard = 68669181925 ∨
    (clientsAt (pathHash "/api".toList) 0).ncard = 68669181926 :=
  ncard_clientsAt (pathHash "/api".toList) (by decide)

/-- **A client for every slot**. -/
theorem exists_flow {ph : Nat} (hph : ph < 2 ^ 64) (k : Nat) : ∃ addr port,
    computeFlowHash ph (some (.v4 addr)) (some port) % 2 ^ 64 % compactMaglevSize =
      k % compactMaglevSize := by
  obtain ⟨d, hd, hmod⟩ : ∃ d < compactMaglevSize, (flowBase ph + d) % compactMaglevSize =
      k % compactMaglevSize := by
    unfold compactMaglevSize
    refine ⟨(k % 4099 + 4099 - flowBase ph % 4099) % 4099, ?_, ?_⟩ <;> omega
  have hd' : d < 2 ^ 48 := hd.trans (by decide)
  obtain ⟨addr, port, hflow⟩ := exists_computeFlowHash_iff.mpr
    ⟨Nat.le_add_right (flowBase ph) d, Nat.add_lt_add_left hd' _⟩
  have hlt : flowBase ph + d < 2 ^ 64 := by
    unfold flowBase
    omega
  exact ⟨addr, port, by rw [hflow, Nat.mod_eq_of_lt hlt, hmod]⟩

end Rauta
