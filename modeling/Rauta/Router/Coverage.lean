import Rauta.Maglev.ClosedForm
import Rauta.Router.Agreement

/-!
# What the selection loop can miss

The loop of `select_backend` looks at `10 * n` slots of the table, where `n` is the number of
backends, from the slot of the flow on. It returns a backend that passes its test exactly if such a
backend has one of those slots (`selectByMask_isSome_iff`). A backend of small weight may have none:
then the loop returns nothing although the backend is eligible, as with two backends of weights 90
and 10.
-/

namespace Rauta

namespace Route

variable {route : Route} {eligible : Backend → Bool} {flowHash : Nat}

/-- The backend that has the slot of an attempt, told from the hashes. -/
def slotOwner (backends : List Backend) (flowHash attempt : Nat) : Option Backend :=
  (nearest (compactContenders backends) ((flowHash + attempt) % 2 ^ 64 % compactMaglevSize)).bind
    fun i => backends[i]?

/-- A backend that passes the test has a slot within the attempts. -/
def InReach (backends : List Backend) (eligible : Backend → Bool) (flowHash : Nat) : Prop :=
  ∃ attempt < backends.length * 10, ∃ b ∈ slotOwner backends flowHash attempt, eligible b

section

variable (hne : route.backends ≠ [])
  (htable : maglevBuildCompactTable route.backends = some route.maglevTable)

include hne htable

/-- What an attempt looks at. -/
theorem getElem?_probe (attempt : Nat) :
    route.backends[route.probe flowHash attempt]? =
      slotOwner route.backends flowHash attempt := by
  have hlength := (maglevBuildCompactTable_lt hne htable).1
  have hlt : (flowHash + attempt) % 2 ^ 64 % compactMaglevSize < compactMaglevSize :=
    Nat.mod_lt _ (by decide)
  have hentry := (closedForm_maglevBuildCompactTable hne htable).entry_eq_nearest
    compactMaglevSize_prime hlt
  have hnil : route.maglevTable ≠ [] := List.ne_nil_of_length_pos (by rw [hlength]; decide)
  have hget := hlt.trans_eq hlength.symm
  rw [slotOwner, ← hentry, List.getElem?_eq_getElem hget, Option.bind_some, probe,
    maglevLookupCompact, if_neg hnil, List.getD_eq_getElem _ _ hget]

theorem selectByMask_isSome_iff :
    (route.selectByMask eligible flowHash).isSome ↔ InReach route.backends eligible flowHash := by
  have hfew := length_le_of_maglevBuildCompactTable htable
  rw [selectByMask_eq_find? (probesInRange hne htable) hfew, List.find?_isSome]
  simp only [candidates, attempts, List.mem_filterMap, List.mem_range, getElem?_probe hne htable,
    InReach]
  constructor
  · rintro ⟨b, ⟨attempt, hlt, hb⟩, hpass⟩
    exact ⟨attempt, hlt, b, hb, hpass⟩
  · rintro ⟨attempt, hlt, b, hb, hpass⟩
    exact ⟨b, ⟨attempt, hlt, hb⟩, hpass⟩

end

theorem selectByMask_mem {b : Backend} (h : route.selectByMask eligible flowHash = some b) :
    b ∈ route.backends ∧ eligible b := by
  obtain ⟨hpass, flowKey, hget⟩ := selectByMask_some h
  exact ⟨List.mem_of_getElem? hget, hpass⟩

end Route

/-- Passively healthy, actively healthy and not draining. -/
def Router.Sound (s : Router) (b : Backend) : Prop :=
  s.health.isHealthyPassive b ∧ s.healthChecker.isHealthy b ∧ s.health.isDraining b = false

theorem Router.sound_iff {s : Router} {b : Backend} : s.Sound b ↔ s.eligible b := by
  simp only [Sound, eligible, Bool.and_eq_true, Bool.not_eq_true', and_assoc]

/-- **What selection finds.** A backend that is returned has the three properties, and one is
returned whenever there is one, exactly if one is in reach whenever there is one. -/
theorem selection_complete_iff {route : Route} (hne : route.backends ≠ [])
    (htable : maglevBuildCompactTable route.backends = some route.maglevTable) (s : Router)
    (flowHash : Nat) :
    (∀ b, route.selectByMask s.eligible flowHash = some b → b ∈ route.backends ∧ s.Sound b) ∧
      (((route.selectByMask s.eligible flowHash).isSome ↔ ∃ b ∈ route.backends, s.Sound b) ↔
        ((∃ b ∈ route.backends, s.Sound b) →
          Route.InReach route.backends s.eligible flowHash)) := by
  have hsound : ∀ b, route.selectByMask s.eligible flowHash = some b →
      b ∈ route.backends ∧ s.Sound b := by
    intro b hb
    obtain ⟨hmem, hpass⟩ := Route.selectByMask_mem hb
    exact ⟨hmem, Router.sound_iff.mpr hpass⟩
  refine ⟨hsound, ?_⟩
  rw [← Route.selectByMask_isSome_iff hne htable]
  constructor
  · exact Iff.mpr
  · intro hfinds
    refine ⟨fun hsome => ?_, hfinds⟩
    obtain ⟨b, hb⟩ := Option.isSome_iff_exists.mp hsome
    exact ⟨b, hsound b hb⟩

/-- Nine permutations of one backend and one of another. -/
def weightedPair : List Backend := [.fromIpv4 10 0 1 1 8080 90, .fromIpv4 10 0 1 2 8080 10]

/-- The first of the two is draining. -/
def drainingFirst : Router :=
  { Router.new with health := HealthData.new.drainBackend (.fromIpv4 10 0 1 1 8080 90) 0 30 }

theorem compactContenders_weightedPair : compactContenders weightedPair =
    [(0, ⟨957, 3452, by decide, by decide, by decide⟩),
      (0, ⟨3827, 3099, by decide, by decide, by decide⟩),
      (0, ⟨367, 488, by decide, by decide, by decide⟩),
      (0, ⟨3865, 2145, by decide, by decide, by decide⟩),
      (0, ⟨3275, 3138, by decide, by decide, by decide⟩),
      (0, ⟨249, 2915, by decide, by decide, by decide⟩),
      (0, ⟨160, 3498, by decide, by decide, by decide⟩),
      (0, ⟨2719, 2827, by decide, by decide, by decide⟩),
      (0, ⟨963, 1826, by decide, by decide, by decide⟩),
      (1, ⟨3880, 3260, by decide, by decide, by decide⟩)] := by
  decide +kernel

/-- The twenty slots from 1627 on belong to the first backend. -/
theorem slotOwner_weightedPair {attempt : Nat} (h : attempt < 20) :
    Route.slotOwner weightedPair 1627 attempt = some (.fromIpv4 10 0 1 1 8080 90) := by
  have hall : ∀ attempt < 20, Route.slotOwner weightedPair 1627 attempt =
      some (.fromIpv4 10 0 1 1 8080 90) := by
    simp only [Route.slotOwner, compactContenders_weightedPair]
    decide +kernel
  exact hall attempt h

/-- The route of the two, with its table. -/
theorem exists_weightedRoute : ∃ route : Route, route.backends = weightedPair ∧
    maglevBuildCompactTable route.backends = some route.maglevTable := by
  obtain ⟨table, htable⟩ := exists_maglevBuildCompactTable
    (show weightedPair.length ≤ maxBackends by decide)
  exact ⟨.basic "/api".toList weightedPair table, rfl, htable⟩

/-- While both are up, a flow that starts there is served by the first. -/
theorem selection_weightedPair : ∃ route : Route, route.backends = weightedPair ∧
    maglevBuildCompactTable route.backends = some route.maglevTable ∧
    (route.selectByMask Router.new.eligible 1627).isSome := by
  obtain ⟨route, hbackends, htable⟩ := exists_weightedRoute
  obtain ⟨-, hiff⟩ := selection_complete_iff (by rw [hbackends]; decide) htable Router.new 1627
  rw [hbackends] at hiff
  refine ⟨route, hbackends, htable, (hiff.mpr fun _ => ?_).mpr ?_⟩
  · exact ⟨0, by decide, _, slotOwner_weightedPair (by decide), by decide⟩
  · exact ⟨.fromIpv4 10 0 1 1 8080 90, by decide, Router.sound_iff.mpr (by decide)⟩

/-- Once the first is draining, the flow finds nothing, although the second is up. -/
theorem two_backends_missed : ∃ route : Route, route.backends = weightedPair ∧
    maglevBuildCompactTable route.backends = some route.maglevTable ∧
    (∃ b ∈ route.backends, drainingFirst.Sound b) ∧
    route.selectByMask drainingFirst.eligible 1627 = none := by
  obtain ⟨route, hbackends, htable⟩ := exists_weightedRoute
  refine ⟨route, hbackends, htable, ?_, ?_⟩
  · rw [hbackends]
    exact ⟨.fromIpv4 10 0 1 2 8080 10, by decide, Router.sound_iff.mpr (by decide)⟩
  · rw [← Option.not_isSome_iff_eq_none, Route.selectByMask_isSome_iff (by rw [hbackends]; decide)
      htable, hbackends]
    rintro ⟨attempt, hlt, b, hb, hpass⟩
    rw [slotOwner_weightedPair hlt, Option.mem_some_iff] at hb
    subst hb
    revert hpass
    decide

end Rauta
