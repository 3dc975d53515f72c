import Rauta.HttpRoute.Quota
import Rauta.Lib.Rounding
import Rauta.Lib.RoundRobin

/-!
# Who gets the traffic

The list that `reconcile` hands to the router decides how the traffic of a rule is split. Two things
are expected of it.

A service of weight zero should get nothing. But every service has at least one replica, so it takes
part in the first round, and it is without effect only if the list is full before its turn
(`unchanged_of_zerosLate`, `zerosLate_of_unchanged`).

Every other service should get its share of the 31 entries, give or take one. Up to the slots, it
does. But the slots are rounded up to a multiple of the pods, and what is too much for one service
is cut off at the end of the list, where it may be another's. The services take turns, so their
entries are found by counting what lies before each of them (`le_entries_iff`). Nothing is lost if
the pods divide the slots (`entries_eq_slots`).
-/

namespace Rauta

open LargestRemainder RoundRobin Rounding

/-! ## Services without weight -/

section Weightless

variable {round : ℚ → ℚ} {services : List ResolvedService}

/-- The services of a weight other than zero. -/
def weighted (services : List ResolvedService) : List ResolvedService :=
  services.filter fun s => s.weight ≠ 0

/-- Removing the services of weight zero does not change the list. -/
def Unchanged (round : ℚ → ℚ) (services : List ResolvedService) : Prop :=
  weightedBackends round services (totalWeight services) =
    weightedBackends round (weighted services) (totalWeight (weighted services))

/-- A service of weight zero comes after 31 endpoints. -/
def ZerosLate (services : List ResolvedService) : Prop :=
  ∀ (j : Nat) (s : ResolvedService), services[j]? = some s → s.weight = 0 →
    maxMaglevBackends ≤ (endpoints (services.take j)).length

theorem weightSum_weighted (services : List ResolvedService) :
    weightSum (weighted services) = weightSum services := by
  induction services with
  | nil => rfl
  | cons s services ih =>
      rw [weighted] at ih ⊢
      by_cases hzero : s.weight = 0
      · rw [List.filter_cons_of_neg (by simp [hzero]), ih, weightSum_cons, hzero, Int32.toInt_zero,
          zero_add]
      · rw [List.filter_cons_of_pos (by simp [hzero]), weightSum_cons, ih, weightSum_cons]

theorem totalWeight_weighted (services : List ResolvedService) :
    totalWeight (weighted services) = totalWeight services := by
  rw [← Int32.toInt_inj, toInt_totalWeight, toInt_totalWeight, weightSum_weighted]

/-- Only endpoints of the services are listed. -/
theorem mem_endpoints_of_mem {total : Int32} {b : Backend}
    (h : b ∈ weightedBackends round services total) : b ∈ endpoints services := by
  unfold weightedBackends at h
  split at h
  · obtain ⟨i, -, hround⟩ := List.mem_flatMap.mp (List.mem_of_mem_take h)
    obtain ⟨target, htarget, hb⟩ := List.mem_flatMap.mp hround
    have hfst : target.1 ∈ (serviceTargets round services total).map Prod.fst :=
      List.mem_map_of_mem htarget
    rw [map_fst_serviceTargets] at hfst
    obtain ⟨s, hs, heq⟩ := List.mem_map.mp hfst
    refine List.mem_flatMap.mpr ⟨s, hs, heq ▸ ?_⟩
    have hb : b ∈ if i < target.2 then target.1 else [] := hb
    split at hb
    · exact hb
    · cases hb
  · cases h

/-- What comes after 31 endpoints does not matter. -/
theorem weightedBackends_append {front back : List ResolvedService} {total : Int32}
    (hpos : 0 < total) (hfull : maxMaglevBackends ≤ (endpoints front).length) :
    weightedBackends round (front ++ back) total = (endpoints front).take maxMaglevBackends := by
  obtain ⟨s, hs⟩ : ∃ s, s ∈ front := by
    refine List.exists_mem_of_ne_nil _ fun hnil => ?_
    rw [hnil] at hfull
    cases hfull
  obtain ⟨rest, hrest⟩ := exists_interleave_eq round (List.mem_append_left back hs) total
  have happend : endpoints (front ++ back) = endpoints front ++ endpoints back :=
    List.flatMap_append
  rw [weightedBackends, if_pos hpos, hrest, happend, List.append_assoc,
    List.take_append_of_le_length hfull]

/-- A service of weight zero that comes late has no effect. -/
theorem unchanged_of_zerosLate (h : 0 < totalWeight services → ZerosLate services) :
    Unchanged round services := by
  rw [Unchanged, totalWeight_weighted]
  by_cases hpos : 0 < totalWeight services
  · cases hfind : services.find? (fun s => s.weight = 0) with
    | none =>
        have hall : weighted services = services := by
          refine List.filter_eq_self.mpr fun s hs => ?_
          have hne := List.find?_eq_none.mp hfind s hs
          simpa using hne
        rw [hall]
    | some z =>
        -- the list is full before the first service of weight zero
        obtain ⟨hzero, front, back, rfl, hfront⟩ := List.find?_eq_some_iff_append.mp hfind
        have hfull : maxMaglevBackends ≤ (endpoints front).length := by
          have hlate := h hpos front.length z (by simp) (by simpa using hzero)
          rwa [List.take_left] at hlate
        have hweighted : weighted (front ++ z :: back) = front ++ weighted (z :: back) := by
          rw [weighted, List.filter_append, List.filter_eq_self.mpr, weighted]
          intro s hs
          simpa using hfront s hs
        rw [hweighted, weightedBackends_append hpos hfull, weightedBackends_append hpos hfull]
  · rw [weightedBackends, if_neg hpos, weightedBackends, if_neg hpos]

/-- A service of weight zero that comes early is listed, and if its endpoints are its own, then the
list is another one without it. -/
theorem zerosLate_of_unchanged (hbackends : ∀ s ∈ services, s.backends ≠ [])
    (hown : ∀ s ∈ services, s.weight = 0 → ∀ t ∈ services, t.weight ≠ 0 →
      s.backends.Disjoint t.backends)
    (h : Unchanged round services) (hpos : 0 < totalWeight services) : ZerosLate services := by
  intro j s hs hzero
  by_contra hlt
  have hmem : s ∈ services := List.mem_of_getElem? hs
  obtain ⟨b, bs, hb⟩ := List.exists_cons_of_ne_nil (hbackends s hmem)
  have hb' : b ∈ s.backends := by
    rw [hb]
    exact List.mem_cons_self
  have htake : b ∈ (endpoints services).take maxMaglevBackends := by
    obtain ⟨hj, hget⟩ := List.getElem?_eq_some_iff.mp hs
    have hsplit : endpoints services = endpoints (services.take j) ++
        b :: (bs ++ endpoints (services.drop (j + 1))) := by
      conv_lhs => rw [← List.take_append_drop j services, List.drop_eq_getElem_cons hj, hget]
      rw [endpoints, List.flatMap_append, List.flatMap_cons, hb]
      rfl
    obtain ⟨d, hd⟩ := Nat.exists_eq_add_of_lt (not_le.mp hlt)
    rw [hsplit, hd, Nat.add_assoc, List.take_length_add_append, List.take_succ_cons]
    exact List.mem_append_right _ List.mem_cons_self
  have hlisted : b ∈ weightedBackends round services (totalWeight services) :=
    (mem_weightedBackends_iff hmem hb').mpr ⟨hpos, htake⟩
  rw [h] at hlisted
  obtain ⟨t, ht, hbt⟩ := List.mem_flatMap.mp (mem_endpoints_of_mem hlisted)
  obtain ⟨ht, hne⟩ := List.mem_filter.mp ht
  exact hown s hmem hzero t ht (by simpa using hne) hb' hbt

/-- The weights of the services, and their numbers of endpoints. -/
def shape (services : List ResolvedService) : List (Int32 × Nat) :=
  services.map fun s => (s.weight, s.backends.length)

theorem totalWeight_eq_foldl_shape (services : List ResolvedService) :
    totalWeight services = (shape services).foldl (fun sum e => sum + e.1) 0 := by
  rw [totalWeight, shape, List.foldl_map]

theorem zerosLate_iff_shape : ZerosLate services ↔ ∀ (j : Nat) (e : Int32 × Nat),
    (shape services)[j]? = some e → e.1 = 0 →
      maxMaglevBackends ≤ (((shape services).take j).map Prod.snd).sum := by
  have hlength : ∀ j, (endpoints (services.take j)).length =
      (((shape services).take j).map Prod.snd).sum := by
    intro j
    rw [endpoints, List.length_flatMap, shape, ← List.map_take, List.map_map]
    rfl
  constructor
  · intro h j e he hzero
    rw [shape, List.getElem?_map, Option.map_eq_some_iff] at he
    obtain ⟨s, hs, rfl⟩ := he
    rw [← hlength]
    exact h j s hs hzero
  · intro h j s hs hzero
    rw [hlength]
    refine h j (s.weight, s.backends.length) ?_ hzero
    rw [shape, List.getElem?_map, hs, Option.map_some]

/-- The services with endpoints that tell only whether they have a weight. -/
def marked (services : List ResolvedService) : List ResolvedService :=
  services.map fun s =>
    ⟨List.replicate s.backends.length
      (.fromIpv4 10 0 (if s.weight = 0 then 2 else 1) 1 8080 100), s.weight⟩

theorem shape_marked (services : List ResolvedService) :
    shape (marked services) = shape services := by
  rw [shape, marked, List.map_map, shape]
  refine List.map_congr_left fun s _ => ?_
  simp

theorem marked_backends_ne_nil (hbackends : ∀ s ∈ services, s.backends ≠ []) :
    ∀ s ∈ marked services, s.backends ≠ [] := by
  intro s hs
  obtain ⟨t, ht, rfl⟩ := List.mem_map.mp hs
  simpa using hbackends t ht

theorem marked_disjoint : ∀ s ∈ marked services, s.weight = 0 →
    ∀ t ∈ marked services, t.weight ≠ 0 → s.backends.Disjoint t.backends := by
  intro s hs hzero t ht hne b hb hb'
  obtain ⟨s, -, rfl⟩ := List.mem_map.mp hs
  obtain ⟨t, -, rfl⟩ := List.mem_map.mp ht
  have hb := List.eq_of_mem_replicate hb
  have hb' := List.eq_of_mem_replicate hb'
  rw [if_pos hzero] at hb
  rw [if_neg hne, hb] at hb'
  exact absurd hb' (by decide)

/-- **When services of weight zero have no effect**, whatever the endpoints are: if each of them
comes after 31 endpoints, or there is no list at all because the total is not positive. -/
theorem unchanged_iff_zerosLate (hbackends : ∀ s ∈ services, s.backends ≠ []) :
    (∀ services', shape services' = shape services → Unchanged round services') ↔
      (0 < totalWeight services → ZerosLate services) := by
  constructor
  · intro h hpos
    rw [zerosLate_iff_shape, ← shape_marked, ← zerosLate_iff_shape]
    refine zerosLate_of_unchanged (marked_backends_ne_nil hbackends) marked_disjoint
      (h _ (shape_marked services)) ?_
    rwa [totalWeight_eq_foldl_shape, shape_marked, ← totalWeight_eq_foldl_shape]
  · intro h services' hshape
    refine unchanged_of_zerosLate fun hpos => ?_
    rw [zerosLate_iff_shape, hshape, ← zerosLate_iff_shape]
    refine h ?_
    rwa [totalWeight_eq_foldl_shape, ← hshape, ← totalWeight_eq_foldl_shape]

/-- A service of 31 pods, and one of weight zero. -/
def manyAndZero : List ResolvedService :=
  [⟨(List.range 31).map fun i => .fromIpv4 10 0 1 (.ofNat i) 8080 100, 1⟩,
    ⟨[.fromIpv4 10 0 2 1 8080 100], 0⟩]

theorem unchanged_iff_zerosLate_full : 0 < totalWeight manyAndZero ∧ Unchanged id manyAndZero := by
  refine ⟨by decide +kernel, (unchanged_iff_zerosLate (by decide +kernel)).mpr ?_ _ rfl⟩
  intro _ j s hs hzero
  match j with
  | 0 =>
      cases hs
      exact absurd hzero (by decide)
  | 1 => decide +kernel
  | j + 2 => cases hs

/-- A service of weight one, and one of weight zero. -/
def oneAndZero : List ResolvedService :=
  [⟨[.fromIpv4 10 0 1 1 8080 100], 1⟩, ⟨[.fromIpv4 10 0 2 1 8080 100], 0⟩]

/-- **A service of weight zero that gets traffic**: it has a place in the list, the second one. -/
theorem exists_changed_list : ¬ ∀ round : ℚ → ℚ, IsBinary64 round →
    ∀ services : List ResolvedService,
      (∀ s ∈ services, 0 ≤ s.weight.toInt ∧ s.backends ≠ []) → 0 < weightSum services →
      Unchanged round services := by
  intro h
  have hunchanged := h id isRounding_id oneAndZero (by decide) (by decide)
  have hlate := zerosLate_of_unchanged (by decide) (@marked_disjoint oneAndZero) hunchanged
    (by decide) 1 _ rfl rfl
  exact absurd hlate (by decide)

end Weightless

/-! ## The shares of the services -/

section Shares

variable {round : ℚ → ℚ} {services : List ResolvedService}

/-- What the largest-remainder step gives to the services. -/
def slotAllocations (round : ℚ → ℚ) (services : List ResolvedService) : List SlotAllocation :=
  distributeRemaining (services.map (floorAllocation round (totalWeight services)))

/-- The share of a service in the 31 entries. -/
def share (services : List ResolvedService) (s : ResolvedService) : ℚ :=
  maxMaglevBackends * s.weight.toInt / weightSum services

/-- The entries of the list, each with the index of the service it stands for. -/
def ownedBackends (round : ℚ → ℚ) (services : List ResolvedService) : List (Nat × Backend) :=
  if 0 < totalWeight services then
    (interleaved (owned (serviceTargets round services (totalWeight services)))).take
      maxMaglevBackends
  else []

/-- The indices apart, it is the list that `reconcile` builds. -/
theorem map_snd_ownedBackends : (ownedBackends round services).map Prod.snd =
    weightedBackends round services (totalWeight services) := by
  unfold ownedBackends weightedBackends
  split
  · rw [List.map_take, map_snd_interleaved, interleave_eq]
  · rfl

/-- How many entries stand for a service. -/
def entries (round : ℚ → ℚ) (services : List ResolvedService) (i : Nat) : Nat :=
  ((ownedBackends round services).map Prod.fst).count i

/-- The number of pods of a service, and the number of rounds it takes part in: its slots over its
pods, rounded up. -/
def SlotAllocation.turns (a : SlotAllocation) : Nat × Nat :=
  (a.backends.length, (a.slots + a.backends.length - 1) / a.backends.length)

/-- There are 31 places, but none if the total is not positive. -/
def places (services : List ResolvedService) : Nat :=
  if 0 < totalWeight services then maxMaglevBackends else 0

/-- The `m`-th entry of a service has a place. -/
abbrev HasPlace (round : ℚ → ℚ) (services : List ResolvedService) (i m : Nat) : Prop :=
  Placed (places services) ((slotAllocations round services).map SlotAllocation.turns) i m

/-! ### The number of rounds -/

/-- A service keeps its backends in the second step, and gets one slot more at most. -/
theorem exists_of_mem_distributeRemaining {allocations : List SlotAllocation} {a : SlotAllocation}
    (h : a ∈ distributeRemaining allocations) :
    ∃ a₀ ∈ allocations, a.backends = a₀.backends ∧ a.slots ≤ a₀.slots + 1 := by
  obtain ⟨e, he, rfl⟩ := List.mem_map.mp h
  refine ⟨e.1, List.fst_mem_of_mem_zipIdx he, ?_⟩
  show (if _ then _ else _ : SlotAllocation).backends = _ ∧
    (if _ then _ else _ : SlotAllocation).slots ≤ _
  split
  · exact ⟨rfl, Nat.le_refl _⟩
  · exact ⟨rfl, Nat.le_succ _⟩

/-- However the quotients are rounded, the slots stay far below what a double can count. -/
theorem floorAllocation_slots_le (hround : IsBinary64 round) {total : Int32} (hpos : 0 < total)
    (s : ResolvedService) : (floorAllocation round total s).slots ≤ 2 ^ 36 := by
  have hweight : s.weight.toInt ≤ 2 ^ 31 := by
    have hlt := s.weight.toInt_lt
    omega
  have htotal : 1 ≤ total.toInt := by
    have hlt := Int32.lt_iff_toInt_lt.mp hpos
    rw [Int32.toInt_zero] at hlt
    omega
  have htotal' : (1 : ℚ) ≤ total.toInt := by exact_mod_cast htotal
  have hquotient : (s.weight.toInt / total.toInt : ℚ) ≤ ((2 ^ 31 : ℤ) : ℚ) := by
    rw [div_le_iff₀ (by linarith)]
    have hweight' : (s.weight.toInt : ℚ) ≤ 2 ^ 31 := by exact_mod_cast hweight
    push_cast
    nlinarith
  have hfirst := hround.le_of_le (representable_intCast (by norm_num)) hquotient
  have hexact : exactSlots round s.weight total ≤ ((2 ^ 36 : ℤ) : ℚ) := by
    refine hround.le_of_le (representable_intCast (by norm_num)) ?_
    have hmax : (maxMaglevBackends : ℚ) = 31 := by norm_num [maxMaglevBackends]
    rw [hmax]
    push_cast at hfirst ⊢
    linarith
  refine Nat.floor_le_of_le (hexact.trans ?_)
  norm_num

/-- The number of rounds is exact: the slots over the pods, rounded up. -/
theorem map_size_serviceTargets (hround : IsBinary64 round) (hpos : 0 < totalWeight services)
    (hbackends : ∀ s ∈ services, s.backends ≠ [])
    (hendpoints : (endpoints services).length ≤ maxMaglevBackends)
    (hslots : ∀ a ∈ slotAllocations round services, 0 < a.slots) :
    (serviceTargets round services (totalWeight services)).map size =
      (slotAllocations round services).map SlotAllocation.turns := by
  rw [serviceTargets, List.map_map, slotAllocations]
  refine List.map_congr_left fun a ha => ?_
  have hslot := hslots a ha
  obtain ⟨a₀, ha₀, hsame, hle⟩ := exists_of_mem_distributeRemaining ha
  obtain ⟨s, hs, rfl⟩ := List.mem_map.mp ha₀
  have hbound := floorAllocation_slots_le hround hpos s
  have hpods : 0 < a.backends.length := by
    rw [hsame]
    exact List.length_pos_of_ne_nil (hbackends s hs)
  have hpods' : a.backends.length ≤ 2 ^ 5 := by
    rw [hsame]
    have hmem : s.backends.length ≤ (endpoints services).length := by
      rw [endpoints, List.length_flatMap]
      exact List.le_sum_of_mem (List.mem_map_of_mem hs)
    exact hmem.trans (hendpoints.trans (by decide))
  show (a.backends.length, replicasPerPod round a) = _
  rw [replicasPerPod, hround.ceil_natCast_div hslot hpods hpods' (by decide) (by omega),
    SlotAllocation.turns, Nat.max_eq_left]
  exact Nat.div_pos (by omega) hpods

/-! ### The entries of a service -/

/-- A natural number is within one of a share if it is between its roundings, give or take one. -/
theorem abs_sub_le_one_iff {n : Nat} {q : ℚ} (hq : 0 ≤ q) :
    |(n : ℚ) - q| ≤ 1 ↔ ⌈q⌉₊ ≤ n + 1 ∧ ¬ ⌊q⌋₊ + 2 ≤ n := by
  have hfloor : ¬ ⌊q⌋₊ + 2 ≤ n ↔ (n : ℚ) ≤ q + 1 := by
    rw [← Nat.le_floor_iff (by linarith), Nat.floor_add_one hq]
    omega
  rw [hfloor, Nat.ceil_le, abs_le, Nat.cast_succ]
  constructor <;> rintro ⟨h₁, h₂⟩ <;> constructor <;> linarith

theorem share_nonneg (hweights : ∀ s ∈ services, 0 ≤ s.weight.toInt) {s : ResolvedService}
    (hs : s ∈ services) : 0 ≤ share services s := by
  have hweight : (0 : ℚ) ≤ s.weight.toInt := Int.cast_nonneg (hweights s hs)
  have hsum : 0 ≤ weightSum services := by
    refine List.sum_nonneg fun w hw => ?_
    obtain ⟨t, ht, rfl⟩ := List.mem_map.mp hw
    exact hweights t ht
  have hsum' : (0 : ℚ) ≤ weightSum services := Int.cast_nonneg hsum
  unfold share
  positivity

theorem length_slotAllocations : (slotAllocations round services).length = services.length := by
  simp [slotAllocations, distributeRemaining]

section Entries

variable (hround : IsBinary64 round) (hbackends : ∀ s ∈ services, s.backends ≠ [])
  (hendpoints : (endpoints services).length ≤ maxMaglevBackends)

include hround hbackends hendpoints

/-- The entries are those of a row that is cut. -/
theorem entries_eq_count (hpos : 0 < totalWeight services)
    (hslots : ∀ a ∈ slotAllocations round services, 0 < a.slots) (i : Nat) :
    entries round services i = ((interleaved (indices 0
      ((slotAllocations round services).map SlotAllocation.turns))).take
        maxMaglevBackends).count i := by
  rw [entries, ownedBackends, if_pos hpos, List.map_take, map_fst_interleaved,
    map_size_serviceTargets hround hpos hbackends hendpoints hslots]

/-- A service has `m` entries if the `m`-th has a place. -/
theorem le_entries_iff
    (hslots : 0 < totalWeight services → ∀ a ∈ slotAllocations round services, 0 < a.slots)
    {i m : Nat} (hi : i < services.length) (hm : 0 < m) :
    m ≤ entries round services i ↔ HasPlace round services i m := by
  by_cases hpos : 0 < totalWeight services
  · rw [entries_eq_count hround hbackends hendpoints hpos (hslots hpos), HasPlace, places,
      if_pos hpos]
    refine le_count_take_iff hm ?_
    rwa [List.length_map, length_slotAllocations]
  · rw [entries, ownedBackends, if_neg hpos, HasPlace, places, if_neg hpos, List.map_nil,
      List.count_nil]
    constructor
    · intro hle
      omega
    · rintro ⟨size, -, -, hlt⟩
      cases hlt

/-- If the pods of each service divide its slots, then nothing is cut off, and the service has as
many entries as it has slots. -/
theorem entries_eq_slots (hpos : 0 < totalWeight services)
    (hslots : ∀ a ∈ slotAllocations round services, 0 < a.slots)
    (hsum : ((slotAllocations round services).map SlotAllocation.slots).sum = maxMaglevBackends)
    (hdvd : ∀ a ∈ slotAllocations round services, a.backends.length ∣ a.slots)
    {i : Nat} {a : SlotAllocation} (ha : (slotAllocations round services)[i]? = some a) :
    entries round services i = a.slots := by
  have hturns : ∀ a ∈ slotAllocations round services, a.turns.1 * a.turns.2 = a.slots := by
    intro a ha
    obtain ⟨k, hk⟩ := hdvd a ha
    have hpods : 0 < a.backends.length := by
      refine Nat.pos_of_mul_pos_right (b := k) ?_
      rw [← hk]
      exact hslots a ha
    show a.backends.length * ((a.slots + a.backends.length - 1) / a.backends.length) = a.slots
    rw [hk, Nat.add_sub_assoc hpods, Nat.mul_add_div hpods, Nat.div_eq_of_lt (by omega),
      Nat.add_zero]
  have hlength : (interleaved (indices 0
      ((slotAllocations round services).map SlotAllocation.turns))).length = maxMaglevBackends := by
    rw [length_interleaved, map_size_indices, List.map_map, ← hsum]
    exact congrArg List.sum (List.map_congr_left hturns)
  have hsize : ((slotAllocations round services).map SlotAllocation.turns)[i]? =
      some (a.turns.1, a.turns.2) := by
    rw [List.getElem?_map, ha, Option.map_some]
  rw [entries_eq_count hround hbackends hendpoints hpos hslots,
    List.take_of_length_le hlength.le, count_interleaved hsize]
  exact hturns a (List.mem_of_getElem? ha)

end Entries

/-- **When the split follows the weights**: the entries of every service are within one of its
share if the last entry it needs for that has a place, and the first one too many has none. -/
theorem split_within_one_iff (hround : IsBinary64 round)
    (hservices : ∀ s ∈ services, 0 < s.weight.toInt ∧ s.backends ≠ [])
    (hendpoints : (endpoints services).length ≤ maxMaglevBackends)
    (hslots : 0 < totalWeight services → ∀ a ∈ slotAllocations round services, 0 < a.slots) :
    (∀ (i : Nat) (s : ResolvedService), services[i]? = some s →
      |(entries round services i : ℚ) - share services s| ≤ 1) ↔
    ∀ (i : Nat) (s : ResolvedService), services[i]? = some s →
      (⌈share services s⌉₊ ≤ 1 ∨ HasPlace round services i (⌈share services s⌉₊ - 1)) ∧
      ¬ HasPlace round services i (⌊share services s⌋₊ + 2) := by
  refine forall₃_congr fun i s hs => ?_
  obtain ⟨hi, -⟩ := List.getElem?_eq_some_iff.mp hs
  have hentries : ∀ m, 0 < m → (m ≤ entries round services i ↔ HasPlace round services i m) :=
    fun m => le_entries_iff hround (fun s hs => (hservices s hs).2) hendpoints hslots hi
  have hshare := share_nonneg (fun s hs => (hservices s hs).1.le) (List.mem_of_getElem? hs)
  rw [abs_sub_le_one_iff hshare, ← hentries _ (Nat.succ_pos _)]
  refine and_congr_left fun _ => ?_
  by_cases hone : ⌈share services s⌉₊ ≤ 1
  · simp only [hone, true_or, iff_true]
    omega
  · rw [← hentries _ (by omega), or_iff_right hone]
    omega

/-- In exact arithmetic, and without overflow, it is enough that the pods of each service divide its
slots, for instance that there is only one of them. -/
theorem split_within_one_of_dvd (hservices : ∀ s ∈ services, 0 < s.weight.toInt ∧ s.backends ≠ [])
    (hendpoints : (endpoints services).length ≤ maxMaglevBackends)
    (hslots : ∀ a ∈ slotAllocations id services, 0 < a.slots) (hpos : 0 < weightSum services)
    (hfits : weightSum services < 2 ^ 31)
    (hdvd : ∀ a ∈ slotAllocations id services, a.backends.length ∣ a.slots)
    {i : Nat} {s : ResolvedService} (hs : services[i]? = some s) :
    |(entries id services i : ℚ) - share services s| ≤ 1 := by
  have hweights : ∀ s ∈ services, 0 ≤ s.weight.toInt := fun s hs => (hservices s hs).1.le
  have hbackends : ∀ s ∈ services, s.backends ≠ [] := fun s hs => (hservices s hs).2
  have htotal : 0 < totalWeight services := by
    rw [Int32.lt_iff_toInt_lt, toInt_totalWeight_of_lt hpos hfits]
    exact hpos
  have hentries : entries id services i = seats (favoured services (totalWeight services))
      (exactSlots id s.weight (totalWeight services)) i :=
    entries_eq_slots isRounding_id hbackends hendpoints htotal hslots
      (sum_slots_distributeRemaining hweights hpos hfits) hdvd
      (distributeRemaining_getElem? hweights hpos hfits hs)
  have hquota := seats_favoured_eq hweights hpos hfits hs
  rw [← share, ← hentries] at hquota
  rw [abs_sub_le_one_iff (share_nonneg hweights (List.mem_of_getElem? hs))]
  have hle : ⌈share services s⌉₊ ≤ ⌊share services s⌋₊ + 1 := Nat.ceil_le_floor_add_one _
  have hfloor := Nat.floor_le_ceil (share services s)
  omega

end Shares

/-! ### Two services of the same weight -/

section Even

variable (bs cs : List Backend)

/-- Two services of the same weight. -/
def evenServices : List ResolvedService := [⟨bs, 1⟩, ⟨cs, 1⟩]

/-- The first one gets the odd slot. -/
theorem slotAllocations_evenServices :
    slotAllocations id (evenServices bs cs) = [⟨bs, 16, 1 / 2⟩, ⟨cs, 15, 1 / 2⟩] := by
  have hfloor : ∀ backends : List Backend,
      floorAllocation id 2 ⟨backends, 1⟩ = ⟨backends, 15, 1 / 2⟩ := by
    intro backends
    have hexact : exactSlots id 1 2 = 31 / 2 := by decide +kernel
    have hslots : ⌊(31 / 2 : ℚ)⌋₊ = 15 := by decide +kernel
    simp only [floorAllocation, hexact, hslots, id]
    norm_num
  have hsorted : indexedRemainders [⟨bs, 15, 1 / 2⟩, ⟨cs, 15, 1 / 2⟩] =
      [(0, 1 / 2), (1, 1 / 2)] := by
    refine List.mergeSort_of_pairwise ?_
    simp
  have hremaining : remainingSlots [⟨bs, 15, 1 / 2⟩, ⟨cs, 15, 1 / 2⟩] = 1 := by
    simp [remainingSlots, maxMaglevBackends]
  show distributeRemaining [floorAllocation id 2 ⟨bs, 1⟩, floorAllocation id 2 ⟨cs, 1⟩] = _
  rw [hfloor, hfloor, distributeRemaining, hsorted, hremaining]
  simp

variable {bs cs}

theorem places_evenServices : places (evenServices bs cs) = 31 := rfl

theorem share_evenServices (i : Nat) {s : ResolvedService}
    (hs : (evenServices bs cs)[i]? = some s) :
    share (evenServices bs cs) s = 31 / 2 := by
  have hweight : s.weight = 1 := by
    have hmem := List.mem_of_getElem? hs
    simp only [evenServices, List.mem_cons, List.not_mem_nil, or_false] at hmem
    rcases hmem with rfl | rfl <;> rfl
  have hone : Int32.toInt 1 = 1 := rfl
  have hsum : weightSum (evenServices bs cs) = 2 := rfl
  rw [share, hweight, hone, hsum]
  norm_num [maxMaglevBackends]

theorem slots_evenServices_pos : ∀ a ∈ slotAllocations id (evenServices bs cs), 0 < a.slots := by
  rw [slotAllocations_evenServices]
  simp

theorem hasPlace_evenServices_iff {i m : Nat} : HasPlace id (evenServices bs cs) i m ↔
    Placed 31 [(bs.length, (16 + bs.length - 1) / bs.length),
      (cs.length, (15 + cs.length - 1) / cs.length)] i m := by
  rw [HasPlace, slotAllocations_evenServices, places_evenServices]
  rfl

end Even

/-- Two services of one pod. -/
def oneAndOne : List ResolvedService :=
  evenServices [.fromIpv4 10 0 1 1 8080 100] [.fromIpv4 10 0 2 1 8080 100]

theorem split_within_one_iff_single : |(entries id oneAndOne 0 : ℚ) - 31 / 2| ≤ 1 ∧
    |(entries id oneAndOne 1 : ℚ) - 31 / 2| ≤ 1 := by
  have hwithin : ∀ (i : Nat) (s : ResolvedService), oneAndOne[i]? = some s →
      |(entries id oneAndOne i : ℚ) - share oneAndOne s| ≤ 1 := by
    refine (split_within_one_iff isRounding_id (by decide) (by decide)
      (fun _ => slots_evenServices_pos)).mpr ?_
    intro i s hs
    have hceil : ⌈(31 / 2 : ℚ)⌉₊ = 16 := by decide +kernel
    have hfloor : ⌊(31 / 2 : ℚ)⌋₊ = 15 := by decide +kernel
    rw [share_evenServices i hs, hceil, hfloor, hasPlace_evenServices_iff,
      hasPlace_evenServices_iff]
    match i with
    | 0 => decide
    | 1 => decide
    | i + 2 => cases hs
  constructor
  · rw [← share_evenServices 0 rfl]
    exact hwithin 0 _ rfl
  · rw [← share_evenServices 1 rfl]
    exact hwithin 1 _ rfl

/-- A service of one pod, and one of ten. -/
def oneAndTen : List ResolvedService :=
  evenServices [.fromIpv4 10 0 1 1 8080 100]
    ((List.range 10).map fun i => .fromIpv4 10 0 2 (.ofNat i) 8080 100)

/-- **A split that does not follow the weights**: one pod and ten pods, of the same weight. There
are 16 rounds for the one and two for the ten, but the list is cut when the one has had eleven. -/
theorem exists_split_off : ¬ ∀ round : ℚ → ℚ, IsBinary64 round →
    ∀ services : List ResolvedService,
      (∀ s ∈ services, 0 < s.weight.toInt ∧ s.backends ≠ []) →
      (endpoints services).length ≤ maxMaglevBackends →
      (∀ a ∈ slotAllocations round services, 0 < a.slots) →
      ∀ (i : Nat) (s : ResolvedService), services[i]? = some s →
        |(entries round services i : ℚ) - share services s| ≤ 1 := by
  intro h
  have hten : ∀ s ∈ oneAndTen, 0 < s.weight.toInt ∧ s.backends ≠ [] := by decide +kernel
  have hwithin := h id isRounding_id oneAndTen hten (by decide +kernel) slots_evenServices_pos 0 _
    rfl
  have hceil : ⌈(31 / 2 : ℚ)⌉₊ = 16 := by decide +kernel
  have hshare : share oneAndTen ⟨[.fromIpv4 10 0 1 1 8080 100], 1⟩ = 31 / 2 :=
    share_evenServices 0 rfl
  rw [hshare, abs_sub_le_one_iff (by norm_num), hceil] at hwithin
  have hplace : HasPlace id oneAndTen 0 15 :=
    (le_entries_iff isRounding_id (fun s hs => (hten s hs).2) (by decide +kernel)
      (fun _ => slots_evenServices_pos) (by decide) (by decide)).mp
      (Nat.le_of_succ_le_succ hwithin.1)
  rw [oneAndTen, hasPlace_evenServices_iff] at hplace
  exact absurd hplace (by decide +kernel)

end Rauta
