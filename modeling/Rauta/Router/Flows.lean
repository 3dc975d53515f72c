import Rauta.Router.Coverage

/-!
# Which flows move

When a backend is drained or ejected, the flows that it served have to go elsewhere; all the others
should stay where they are. They do: as long as the loop of `select_backend` has not found anything,
a smaller set of eligible backends makes no difference to it, so the two runs go through the same
attempts with the same mask up to the one that succeeds (`maskLoop_of_subset`). Nothing about the
table is used, nor that the mask has a bit for every backend.
-/

namespace Rauta

namespace Route

variable {route : Route} {eligible eligible' : Backend → Bool} {flowHash : Nat} {x : Backend}

/-- The run with fewer eligible backends is in step with the other one, up to the backend that is
found. -/
theorem maskLoop_of_subset (hsub : ∀ b, eligible' b → eligible b) (hx : eligible' x)
    {attempts : List Nat} {triedMask triedCount : Nat}
    (h : route.maskLoop eligible flowHash attempts triedMask triedCount = some x) :
    route.maskLoop eligible' flowHash attempts triedMask triedCount = some x := by
  induction attempts generalizing triedMask triedCount with
  | nil => cases h
  | cons attempt rest ih =>
      simp only [maskLoop] at h ⊢
      by_cases htried : triedMask &&& 1 <<< (route.probe flowHash attempt &&& 31) ≠ 0
      · rw [if_pos htried] at h ⊢
        exact ih h
      · rw [if_neg htried] at h ⊢
        cases hget : route.backends[route.probe flowHash attempt]? with
        | none =>
            rw [hget] at h
            cases h
        | some b =>
            simp only [hget] at h ⊢
            cases he : eligible b with
            | true =>
                rw [he] at h
                cases h
                rw [if_pos hx]
            | false =>
                -- what fails the larger set fails the smaller one
                have he' : eligible' b = false := by
                  rw [← Bool.not_eq_true]
                  intro hb
                  rw [hsub b hb] at he
                  cases he
                simp only [he, he', Bool.false_eq_true, ↓reduceIte] at h ⊢
                split at h
                · cases h
                · next hmore =>
                  rw [if_neg hmore]
                  exact ih h

end Route

namespace Router

/-- One backend is no longer eligible, and nothing changes for the others. -/
structure Leaves (b : Backend) (s s' : Router) : Prop where
  gone : s'.eligible b = false
  others : ∀ c, c ≠ b → s'.eligible c = s.eligible c

variable {s : Router} {b : Backend}

/-- A drained backend leaves. -/
theorem leaves_drainBackend (now drainTimeout : Nat) :
    Leaves b s (s.drainBackend b now drainTimeout) where
  gone := by simp [eligible, drainBackend, HealthData.isDraining_drainBackend]
  others c hc := by
    simp only [eligible, drainBackend, HealthData.isDraining_drainBackend, hc, decide_false,
      Bool.false_or]
    rfl

/-- A backend that is ejected by one of its responses leaves. -/
theorem leaves_recordBackendResponse {statusCode : Nat}
    (h : (s.recordBackendResponse b statusCode).health.isHealthyPassive b = false) :
    Leaves b s (s.recordBackendResponse b statusCode) where
  gone := by simp [eligible, h]
  others c hc := by
    have hpassive := s.health.isHealthyPassive_recordBackendResponse_of_ne statusCode hc
    simp only [eligible, recordBackendResponse, hpassive]
    rfl

theorem Leaves.eligible_of_eligible {s' : Router} (h : Leaves b s s') (c : Backend)
    (hc : s'.eligible c) : s.eligible c := by
  have hne : c ≠ b := by
    rintro rfl
    rw [h.gone] at hc
    cases hc
  rwa [← h.others c hne]

end Router

/-- **Flows stay put.** A flow that was served by a backend which is still eligible stays there,
whichever other backends have gone; so when one backend leaves, only its own flows move. -/
theorem flows_stay (route : Route) (flowHash : Nat) :
    (∀ (eligible eligible' : Backend → Bool) (x : Backend), (∀ b, eligible' b → eligible b) →
      route.selectByMask eligible flowHash = some x → eligible' x →
      route.selectByMask eligible' flowHash = some x) ∧
    ∀ (s s' : Router) (b x : Backend), Router.Leaves b s s' →
      route.selectByMask s.eligible flowHash = some x → x ≠ b →
      route.selectByMask s'.eligible flowHash = some x := by
  refine ⟨fun eligible eligible' x hsub h hx => Route.maskLoop_of_subset hsub hx h, ?_⟩
  intro s s' b x hleaves h hne
  have hx : s'.eligible x = true := by
    rw [hleaves.others x hne]
    exact (Route.selectByMask_mem h).2
  exact Route.maskLoop_of_subset hleaves.eligible_of_eligible hx h

/-- A flow stays where it is when all the other backends have gone. -/
theorem flows_stay_alone : ∃ route : Route, route.backends = weightedPair ∧
    maglevBuildCompactTable route.backends = some route.maglevTable ∧
    ∃ x, route.selectByMask Router.new.eligible 1627 = some x ∧
      route.selectByMask (fun b => b = x) 1627 = some x := by
  obtain ⟨route, hbackends, htable⟩ := exists_weightedRoute
  have hne : route.backends ≠ [] := by
    rw [hbackends]
    decide
  have hreach : Route.InReach route.backends Router.new.eligible 1627 := by
    rw [hbackends]
    exact ⟨0, by decide, _, slotOwner_weightedPair (by decide), by decide⟩
  obtain ⟨x, hx⟩ :=
    Option.isSome_iff_exists.mp ((Route.selectByMask_isSome_iff hne htable).mpr hreach)
  refine ⟨route, hbackends, htable, x, hx, ?_⟩
  apply (flows_stay route 1627).1 Router.new.eligible _ x _ hx (decide_eq_true rfl)
  intro b hb
  rw [of_decide_eq_true hb]
  exact (Route.selectByMask_mem hx).2

end Rauta
