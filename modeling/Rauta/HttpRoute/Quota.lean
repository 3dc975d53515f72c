import Rauta.HttpRoute.Weights
import Rauta.Lib.LargestRemainder

/-!
# How the slots are shared out

Two results about the second pass of `reconcile` over the services of a rule.

In exact arithmetic, its first two steps are an apportionment by largest remainder
(`distributeRemaining_eq`), so that every slot is given away and no service is off its share by one.

The list that comes out in the end is another matter. A round appends whole endpoint lists, and the
list is cut after 31 entries, which may well be in the middle of the first round. All that counts is
whether a service has an endpoint among the first 31 of all of them (`mem_weightedBackends_iff`).
-/

namespace Rauta

open LargestRemainder

/-- The sum of the weights. -/
def weightSum (services : List ResolvedService) : ℤ := (services.map fun s => s.weight.toInt).sum

theorem weightSum_cons (s : ResolvedService) (services : List ResolvedService) :
    weightSum (s :: services) = s.weight.toInt + weightSum services := by
  rw [weightSum, List.map_cons, List.sum_cons, weightSum]

theorem toInt_totalWeight (services : List ResolvedService) :
    (totalWeight services).toInt = (weightSum services).bmod (2 ^ 32) := by
  have hfold : ∀ (services : List ResolvedService) (sum : Int32),
      (services.foldl (fun sum s => sum + s.weight) sum).toInt =
        (sum.toInt + weightSum services).bmod (2 ^ 32) := by
    intro services
    induction services with
    | nil =>
        intro sum
        simp [weightSum]
    | cons s services ih =>
        intro sum
        rw [List.foldl_cons, ih, Int32.toInt_add, Int.bmod_add_bmod]
        rw [weightSum_cons, add_assoc]
  rw [totalWeight, hfold, Int32.toInt_zero, zero_add]

/-! ## The quotas -/

/-- The exact slots of the services. -/
def quotas (services : List ResolvedService) (totalWeight : Int32) : List ℚ :=
  services.map fun s => exactSlots id s.weight totalWeight

section Allocations

variable {services : List ResolvedService} {totalWeight : Int32}

/-- The first step takes floors. -/
theorem sum_slots_floorAllocation :
    ((services.map (floorAllocation id totalWeight)).map SlotAllocation.slots).sum =
      floors (quotas services totalWeight) := by
  rw [floors, quotas, List.map_map, List.map_map]
  rfl

/-- The sorted remainders are a ranking. -/
theorem ranked_indexedRemainders : Ranked (quotas services totalWeight)
    (indexedRemainders (services.map (floorAllocation id totalWeight))) where
  perm := by
    refine (List.mergeSort_perm _ _).trans ?_
    rw [quotas, List.zipIdx_map, List.zipIdx_map, List.map_map, List.map_map]
    exact .refl _
  sorted := by
    have htrans : ∀ a b c : Nat × ℚ, decide (b.2 ≤ a.2) = true → decide (c.2 ≤ b.2) = true →
        decide (c.2 ≤ a.2) = true := by
      intro a b c hab hbc
      exact decide_eq_true ((of_decide_eq_true hbc).trans (of_decide_eq_true hab))
    have htotal : ∀ a b : Nat × ℚ, (decide (b.2 ≤ a.2) || decide (a.2 ≤ b.2)) = true := by
      intro a b
      simpa using le_total b.2 a.2
    exact (List.pairwise_mergeSort htrans htotal _).imp of_decide_eq_true

/-- Nothing wraps if the floors are within the total. -/
theorem remainingSlots_eq (hle : floors (quotas services totalWeight) ≤ maxMaglevBackends) :
    remainingSlots (services.map (floorAllocation id totalWeight)) =
      maxMaglevBackends - floors (quotas services totalWeight) := by
  unfold maxMaglevBackends at hle
  simp only [remainingSlots, sum_slots_floorAllocation, maxMaglevBackends]
  omega

/-- The services that get one of the remaining slots. -/
def favoured (services : List ResolvedService) (totalWeight : Int32) : List Nat :=
  winners (indexedRemainders (services.map (floorAllocation id totalWeight)))
    (maxMaglevBackends - floors (quotas services totalWeight))

/-- The second step gives one more slot to each of them. -/
theorem distributeRemaining_eq (hle : floors (quotas services totalWeight) ≤ maxMaglevBackends) :
    distributeRemaining (services.map (floorAllocation id totalWeight)) =
      services.zipIdx.map fun (s, i) =>
        { floorAllocation id totalWeight s with
          slots :=
            seats (favoured services totalWeight) (exactSlots id s.weight totalWeight) i } := by
  simp only [distributeRemaining, ← List.take_eq_take_min, remainingSlots_eq hle, List.zipIdx_map,
    List.map_map]
  refine List.map_congr_left fun e _ => ?_
  show (if e.2 ∈ favoured services totalWeight then _ else _) = _
  split
  · next hmem => simp only [seats, hmem, ↓reduceIte]; rfl
  · next hmem => simp only [seats, hmem, ↓reduceIte, Nat.add_zero]; rfl

end Allocations

/-! ## The quota rule -/

section Rule

variable {services : List ResolvedService}

/-- A sum that fits is the total. -/
theorem toInt_totalWeight_of_lt (hpos : 0 < weightSum services)
    (hfits : weightSum services < 2 ^ 31) :
    (totalWeight services).toInt = weightSum services := by
  rw [toInt_totalWeight]
  exact Int.bmod_eq_of_le (by omega) (by omega)

/-- The quotas are the shares of 31. -/
theorem exactSlots_totalWeight (hpos : 0 < weightSum services)
    (hfits : weightSum services < 2 ^ 31) (weight : Int32) :
    exactSlots id weight (totalWeight services) =
      maxMaglevBackends * weight.toInt / weightSum services := by
  rw [exactSlots, toInt_totalWeight_of_lt hpos hfits, id, id]
  ring

variable (hweights : ∀ s ∈ services, 0 ≤ s.weight.toInt) (hpos : 0 < weightSum services)
  (hfits : weightSum services < 2 ^ 31)

include hpos hfits in
theorem sum_quotas : (quotas services (totalWeight services)).sum = maxMaglevBackends := by
  have hne : (weightSum services : ℚ) ≠ 0 := Int.cast_ne_zero.mpr hpos.ne'
  have hsum : ∀ l : List ResolvedService, (quotas l (totalWeight services)).sum =
      maxMaglevBackends * weightSum l / weightSum services := by
    intro l
    induction l with
    | nil => simp [quotas, weightSum]
    | cons s l ih =>
        rw [quotas] at ih ⊢
        rw [List.map_cons, List.sum_cons, ih, exactSlots_totalWeight hpos hfits, weightSum_cons,
          Int.cast_add]
        ring
  rw [hsum, mul_div_assoc, div_self hne, mul_one]

include hweights hpos hfits in
theorem quotas_nonneg : ∀ q ∈ quotas services (totalWeight services), 0 ≤ q := by
  intro q hq
  obtain ⟨s, hs, rfl⟩ := List.mem_map.mp hq
  rw [exactSlots_totalWeight hpos hfits]
  have hweight : (0 : ℚ) ≤ s.weight.toInt := Int.cast_nonneg (hweights s hs)
  have htotal : (0 : ℚ) ≤ weightSum services := Int.cast_nonneg hpos.le
  positivity

include hweights hpos hfits in
theorem floors_quotas_le : floors (quotas services (totalWeight services)) ≤ maxMaglevBackends :=
  floors_le (quotas_nonneg hweights hpos hfits) (sum_quotas hpos hfits)

include hweights hpos hfits in
/-- All slots are given away. -/
theorem sum_slots_distributeRemaining :
    ((distributeRemaining (services.map (floorAllocation id (totalWeight services)))).map
      SlotAllocation.slots).sum = maxMaglevBackends := by
  rw [distributeRemaining_eq (floors_quotas_le hweights hpos hfits),
    ← sum_apportion ranked_indexedRemainders (quotas_nonneg hweights hpos hfits)
      (sum_quotas hpos hfits), apportion]
  conv_rhs => rw [quotas, List.zipIdx_map, List.map_map]
  rw [List.map_map]
  rfl

include hweights hpos hfits in
/-- A service gets its share, rounded down or up. -/
theorem seats_favoured_eq {i : Nat} {s : ResolvedService} (hs : services[i]? = some s) :
    seats (favoured services (totalWeight services))
        (exactSlots id s.weight (totalWeight services)) i =
      ⌊(maxMaglevBackends * s.weight.toInt / weightSum services : ℚ)⌋₊ ∨
    seats (favoured services (totalWeight services))
        (exactSlots id s.weight (totalWeight services)) i =
      ⌈(maxMaglevBackends * s.weight.toInt / weightSum services : ℚ)⌉₊ := by
  have hq : (quotas services (totalWeight services))[i]? =
      some (exactSlots id s.weight (totalWeight services)) := by
    rw [quotas, List.getElem?_map, hs, Option.map_some]
  rw [← exactSlots_totalWeight hpos hfits]
  exact seats_eq ranked_indexedRemainders (quotas_nonneg hweights hpos hfits)
    (sum_quotas hpos hfits) hq

include hweights hpos hfits in
/-- What the second step gives to a service. -/
theorem distributeRemaining_getElem? {i : Nat} {s : ResolvedService}
    (hs : services[i]? = some s) :
    (distributeRemaining (services.map (floorAllocation id (totalWeight services))))[i]? =
      some { floorAllocation id (totalWeight services) s with
        slots := seats (favoured services (totalWeight services))
          (exactSlots id s.weight (totalWeight services)) i } := by
  rw [distributeRemaining_eq (floors_quotas_le hweights hpos hfits), List.getElem?_map,
    List.getElem?_zipIdx, hs, Option.map_some, Option.map_some, Nat.zero_add]

include hweights hpos hfits in
/-- **The quota rule**: the slots add up to 31, the subtraction does not wrap, every service gets
its share rounded down or up, and one of weight zero gets nothing. -/
theorem slots_quota :
    remainingSlots (services.map (floorAllocation id (totalWeight services))) +
      ((services.map (floorAllocation id (totalWeight services))).map SlotAllocation.slots).sum =
        maxMaglevBackends ∧
    ((distributeRemaining (services.map (floorAllocation id (totalWeight services)))).map
      SlotAllocation.slots).sum = maxMaglevBackends ∧
    ∀ (i : Nat) (s : ResolvedService), services[i]? = some s → ∃ a : SlotAllocation,
      (distributeRemaining (services.map (floorAllocation id (totalWeight services))))[i]? =
        some a ∧
      (a.slots = ⌊(maxMaglevBackends * s.weight.toInt / weightSum services : ℚ)⌋₊ ∨
        a.slots = ⌈(maxMaglevBackends * s.weight.toInt / weightSum services : ℚ)⌉₊) ∧
      (s.weight = 0 → a.slots = 0) := by
  refine ⟨?_, sum_slots_distributeRemaining hweights hpos hfits, ?_⟩
  · have hle := floors_quotas_le hweights hpos hfits
    rw [remainingSlots_eq hle, sum_slots_floorAllocation, Nat.sub_add_cancel hle]
  · intro i s hs
    refine ⟨_, distributeRemaining_getElem? hweights hpos hfits hs,
      seats_favoured_eq hweights hpos hfits hs, ?_⟩
    intro hzero
    have hexact : exactSlots id s.weight (totalWeight services) = 0 := by
      rw [exactSlots_totalWeight hpos hfits, hzero]
      simp
    have hq : (quotas services (totalWeight services))[i]? = some 0 := by
      rw [quotas, List.getElem?_map, hs, Option.map_some, hexact]
    -- no remainder, no extra slot
    have hnot : i ∉ favoured services (totalWeight services) := by
      intro hi
      have hremainder := remainder_pos_of_mem_winners ranked_indexedRemainders
        (quotas_nonneg hweights hpos hfits) (sum_quotas hpos hfits) hi hq
      simp [remainder] at hremainder
    simp [hexact, seats, hnot]

/-- Three services, one of them without weight. -/
def threeServices : List ResolvedService :=
  [⟨[.fromIpv4 10 0 1 1 8080 100], 1⟩, ⟨[.fromIpv4 10 0 2 1 8080 100], 0⟩,
    ⟨[.fromIpv4 10 0 3 1 8080 100], 2⟩]

theorem slots_quota_threeServices : weightSum threeServices = 3 ∧
    ((distributeRemaining (threeServices.map (floorAllocation id (totalWeight threeServices)))).map
      SlotAllocation.slots).sum = maxMaglevBackends :=
  ⟨by decide, (slots_quota (by decide) (by decide) (by decide)).2.1⟩

end Rule

/-! ## What is cut off -/

section Truncation

variable {round : ℚ → ℚ} {services : List ResolvedService}

/-- All endpoints of the services, in order. -/
def endpoints (services : List ResolvedService) : List Backend :=
  services.flatMap ResolvedService.backends

/-- The first round has them all. -/
theorem replicaRound_zero (total : Int32) :
    replicaRound (serviceTargets round services total) 0 = endpoints services := by
  have hfirst : replicaRound (serviceTargets round services total) 0 =
      (serviceTargets round services total).flatMap Prod.fst := by
    refine List.flatMap_congr fun target htarget => ?_
    exact if_pos (replicas_pos htarget)
  rw [hfirst, endpoints, List.flatMap_def, List.flatMap_def, map_fst_serviceTargets]

variable (round) in
/-- The interleaving begins with the first round, if there is a service. -/
theorem exists_interleave_eq {s : ResolvedService} (hs : s ∈ services) (total : Int32) :
    ∃ rest, interleave (serviceTargets round services total) = endpoints services ++ rest := by
  have hmem : s.backends ∈ (serviceTargets round services total).map Prod.fst := by
    rw [map_fst_serviceTargets]
    exact List.mem_map_of_mem hs
  obtain ⟨target, htarget, -⟩ := List.mem_map.mp hmem
  obtain ⟨rest, hrest⟩ := RoundRobin.exists_rounds_append
    (Nat.lt_of_lt_of_le (replicas_pos htarget) (RoundRobin.le_lastRound htarget))
  refine ⟨rest, hrest.trans ?_⟩
  rw [RoundRobin.rounds_succ, ← replicaRound_zero total]
  rfl

/-- Cutting off what was appended does not matter to what is a part of the beginning. -/
theorem mem_take_append_iff {l rest : List Backend} {n : Nat} {b : Backend} (hb : b ∈ l) :
    b ∈ (l ++ rest).take n ↔ b ∈ l.take n := by
  by_cases hn : n ≤ l.length
  · rw [List.take_append_of_le_length hn]
  · have hall : l.take n = l := List.take_of_length_le (by omega)
    rw [List.take_append, hall, List.mem_append]
    exact or_iff_left_of_imp fun _ => hb

theorem mem_weightedBackends_iff {s : ResolvedService} (hs : s ∈ services) {b : Backend}
    (hb : b ∈ s.backends) : b ∈ weightedBackends round services (totalWeight services) ↔
      0 < totalWeight services ∧ b ∈ (endpoints services).take maxMaglevBackends := by
  have hendpoint : b ∈ endpoints services := List.mem_flatMap.mpr ⟨s, hs, hb⟩
  obtain ⟨rest, hrest⟩ := exists_interleave_eq round hs (totalWeight services)
  unfold weightedBackends
  split
  · next hpos => rw [hrest, mem_take_append_iff hendpoint, and_iff_right hpos]
  · next hpos => simp [hpos]

/-- **Which services are served**: those with an endpoint among the first 31 of all, as long as the
total weight has not wrapped to something that is not positive. -/
theorem served_iff :
    (∀ s ∈ services, ∃ b ∈ s.backends, b ∈ weightedBackends round services (totalWeight services)) ↔
      ∀ s ∈ services, 0 < totalWeight services ∧
        ∃ b ∈ s.backends, b ∈ (endpoints services).take maxMaglevBackends := by
  refine forall₂_congr fun s hs => ?_
  constructor
  · rintro ⟨b, hb, hmem⟩
    obtain ⟨hpos, htake⟩ := (mem_weightedBackends_iff hs hb).mp hmem
    exact ⟨hpos, b, hb, htake⟩
  · rintro ⟨hpos, b, hb, htake⟩
    exact ⟨b, hb, (mem_weightedBackends_iff hs hb).mpr ⟨hpos, htake⟩⟩

/-- A service of 31 pods and one of a single pod, of the same weight. -/
def manyAndOne : List ResolvedService :=
  [⟨(List.range 31).map fun i => .fromIpv4 10 0 1 (.ofNat i) 8080 100, 1⟩,
    ⟨[.fromIpv4 10 0 2 1 8080 100], 1⟩]

/-- **A service that is cut off**: half of the traffic is for it, and it has no place in the
list. -/
theorem exists_service_cut_off :
    ¬ ∀ (round : ℚ → ℚ) (services : List ResolvedService), services.length ≤ 31 →
      (∀ s ∈ services, 0 < s.weight ∧ s.backends ≠ []) →
      ∀ s ∈ services, ∃ b ∈ s.backends,
        b ∈ weightedBackends round services (totalWeight services) := by
  intro h
  have hlast : ⟨[.fromIpv4 10 0 2 1 8080 100], 1⟩ ∈ manyAndOne := by simp [manyAndOne]
  obtain ⟨b, hb, hmem⟩ := h id manyAndOne (by decide) (by decide +kernel) _ hlast
  obtain ⟨-, htake⟩ := (mem_weightedBackends_iff hlast hb).mp hmem
  rw [List.mem_singleton] at hb
  subst hb
  exact absurd htake (by decide +kernel)

end Truncation

end Rauta
