import Mathlib.Data.Rat.Floor
import Rauta.Common
import Rauta.Lib.RoundRobin

/-!
# The weighted backend list of a rule

Between resolving its services and adding its routes, `reconcile` turns the services of a rule and
their weights into one list of at most 31 backends: it shares 31 slots out by largest remainder,
makes replicas per pod of them, and interleaves the services round by round.

Weights are `i32`, and the quotas are computed in `f64`: every operation returns its exact result,
rounded (`round`). What the list looks like depends on the rounding; that it has a backend exactly
if the total weight is positive does not (`weightedBackends_eq_nil_iff`).
-/

namespace Rauta

/-- `MAX_MAGLEV_BACKENDS` of the reconciler. -/
def maxMaglevBackends : Nat := 31

/-- A service that resolved to backends, and its weight. -/
structure ResolvedService where
  backends : List Backend
  weight : Int32

/-- `total_weight`, as `reconcile` adds it up: it wraps. -/
def totalWeight (services : List ResolvedService) : Int32 :=
  services.foldl (fun sum s => sum + s.weight) 0

/-- An element of `slot_allocations`. -/
structure SlotAllocation where
  backends : List Backend
  slots : Nat
  remainder : ℚ

section

variable (round : ℚ → ℚ)

/-- `exact_slots`. -/
def exactSlots (weight totalWeight : Int32) : ℚ :=
  round (round (weight.toInt / totalWeight.toInt) * maxMaglevBackends)

/-- Step 1 for a service. The cast makes zero of a negative number of slots. -/
def floorAllocation (totalWeight : Int32) (service : ResolvedService) : SlotAllocation :=
  let exact := exactSlots round service.weight totalWeight
  ⟨service.backends, ⌊exact⌋₊, round (exact - ⌊exact⌋₊)⟩

/-- `remaining_slots`: a wrapping subtraction. -/
def remainingSlots (allocations : List SlotAllocation) : Nat :=
  let allocatedSlots := (allocations.map SlotAllocation.slots).sum % 2 ^ 64
  (maxMaglevBackends + 2 ^ 64 - allocatedSlots) % 2 ^ 64

/-- `indexed_remainders`, sorted: the largest remainder first, ties in the given order. -/
def indexedRemainders (allocations : List SlotAllocation) : List (Nat × ℚ) :=
  (allocations.zipIdx.map fun (a, idx) => (idx, a.remainder)).mergeSort fun a b => b.2 ≤ a.2

/-- Step 2: one more slot for the services with the largest remainders. -/
def distributeRemaining (allocations : List SlotAllocation) : List SlotAllocation :=
  let sorted := indexedRemainders allocations
  let chosen := (sorted.take (min (remainingSlots allocations) sorted.length)).map Prod.fst
  allocations.zipIdx.map fun (a, idx) =>
    if idx ∈ chosen then { a with slots := a.slots + 1 } else a

/-- `replicas_per_pod`: at least one. -/
def replicasPerPod (a : SlotAllocation) : Nat := max ⌈round (a.slots / a.backends.length)⌉₊ 1

/-- `service_targets`: the backends of each service, and how often they are repeated. -/
def serviceTargets (services : List ResolvedService) (totalWeight : Int32) :
    List (List Backend × Nat) :=
  (distributeRemaining (services.map (floorAllocation round totalWeight))).map fun a =>
    (a.backends, replicasPerPod round a)

/-- One round of the interleaving. -/
def replicaRound (targets : List (List Backend × Nat)) (i : Nat) : List Backend :=
  targets.flatMap fun (backends, replicas) => if i < replicas then backends else []

/-- Step 3: the services, interleaved round by round. -/
def interleave (targets : List (List Backend × Nat)) : List Backend :=
  let maxReplicas := (targets.map Prod.snd).max?.getD 0
  (List.range maxReplicas).flatMap (replicaRound targets)

/-- The second pass over the services of a rule. -/
def weightedBackends (services : List ResolvedService) (totalWeight : Int32) : List Backend :=
  if 0 < totalWeight then
    (interleave (serviceTargets round services totalWeight)).take maxMaglevBackends
  else []

end

variable {round : ℚ → ℚ} {services : List ResolvedService} {totalWeight : Int32}

theorem length_weightedBackends_le : (weightedBackends round services totalWeight).length ≤
    maxMaglevBackends := by
  unfold weightedBackends
  split
  · exact List.length_take_le _ _
  · exact Nat.zero_le _

/-! ## When the list is empty -/

/-- The targets have the services' backends, in order. -/
theorem map_fst_serviceTargets : (serviceTargets round services totalWeight).map Prod.fst =
    services.map ResolvedService.backends := by
  have hfst : ∀ allocations : List SlotAllocation,
      (distributeRemaining allocations).map SlotAllocation.backends =
        allocations.map SlotAllocation.backends := by
    intro allocations
    simp only [distributeRemaining, List.map_map]
    conv_rhs => rw [← List.zipIdx_map_fst 0 allocations, List.map_map]
    refine List.map_congr_left fun e _ => ?_
    simp only [Function.comp_apply]
    split <;> rfl
  simp only [serviceTargets, List.map_map, Function.comp_def]
  rw [hfst, List.map_map]
  rfl

theorem replicas_pos {target : List Backend × Nat}
    (h : target ∈ serviceTargets round services totalWeight) : 0 < target.2 := by
  obtain ⟨a, -, rfl⟩ := List.mem_map.mp h
  exact Nat.le_max_right _ _

/-- The services take turns. -/
theorem interleave_eq (targets : List (List Backend × Nat)) :
    interleave targets = RoundRobin.interleaved targets := rfl

/-- The first round has every service. -/
theorem subset_interleave {targets : List (List Backend × Nat)} {target : List Backend × Nat}
    (h : target ∈ targets) (hpos : 0 < target.2) : target.1 ⊆ interleave targets := by
  intro b hb
  have hmax := Nat.lt_of_lt_of_le hpos (RoundRobin.le_lastRound h)
  refine List.mem_flatMap.mpr ⟨0, List.mem_range.mpr hmax, List.mem_flatMap.mpr ⟨target, h, ?_⟩⟩
  show b ∈ if 0 < target.2 then target.1 else []
  rwa [if_pos hpos]

/-- **A rule has backends exactly if its total weight is positive**, whatever the rounding: every
service gets at least one replica, and there is one. -/
theorem weightedBackends_eq_nil_iff (hbackends : ∀ s ∈ services, s.backends ≠ [])
    (htotal : 0 < totalWeight → services ≠ []) :
    weightedBackends round services totalWeight = [] ↔ ¬ 0 < totalWeight := by
  unfold weightedBackends
  split
  · next hpos =>
    simp only [hpos, not_true_eq_false, iff_false]
    obtain ⟨s, hs⟩ := List.exists_mem_of_ne_nil _ (htotal hpos)
    have hmem : s.backends ∈ (serviceTargets round services totalWeight).map Prod.fst := by
      rw [map_fst_serviceTargets]
      exact List.mem_map_of_mem hs
    obtain ⟨target, htarget, hfst⟩ := List.mem_map.mp hmem
    obtain ⟨b, hb⟩ := List.exists_mem_of_ne_nil _ (hbackends s hs)
    have hin : b ∈ interleave (serviceTargets round services totalWeight) :=
      subset_interleave htarget (replicas_pos htarget) (hfst ▸ hb)
    rw [List.take_eq_nil_iff]
    rintro (hzero | hnil)
    · cases hzero
    · rw [hnil] at hin
      cases hin
  · next hpos => simp [hpos]

end Rauta
