import Rauta.CircuitBreaker.Sequential
import Rauta.CircuitBreaker.Timestamp

/-!
# Admissions in Half-Open

The packed word counts the requests that Half-Open has let through, next to the successes. Every
compare-exchange writes both counters, from a word that was loaded before. A history variable counts
the admissions independently of the word: those compare-exchanges by which an `allow_request` call
returns true, since the breaker went to Half-Open (`countAdmissions`). Whatever the interleaving,
the word agrees with it, and it does not exceed the limit (`CountInvariant`).
-/

namespace Rauta

open Interleaving Transition

/-- The call is about to exchange the word. -/
def BreakerPc.exchanging : BreakerPc → Bool
  | .exchange .. => true
  | _ => false

/-- By the step, an `allow_request` call returns true from a compare-exchange. -/
def Admits (c : Config BreakerShared BreakerCall) (label : Label Bool Nat)
    (c' : Config BreakerShared BreakerCall) : Bool :=
  match label with
  | .env _ => false
  | .thread i _ =>
    (c.threads[i]?.any fun t => t.op = .allowRequest && t.pc.exchanging) &&
      c'.threads[i]?.any fun t => t.pc = .done .allowed

/-- Half-Open starts to count anew, and goes on as long as it lasts. -/
def tally (sh sh' : BreakerShared) (admits : Bool) (admissions : Nat) : Nat :=
  if sh'.state = .halfOpen then
    (if sh.state = .halfOpen then admissions else 0) + (if admits then 1 else 0)
  else 0

/-- The admissions since the breaker went to Half-Open; zero if it is not. -/
def countAdmissions (c : Config BreakerShared BreakerCall) (label : Label Bool Nat)
    (c' : Config BreakerShared BreakerCall) (admissions : Nat) : Nat :=
  tally c.shared c'.shared (Admits c label c') admissions

/-- A pool of calls on a breaker, with the number of admissions. -/
def countingSystem (b : CircuitBreaker) :
    System (Config BreakerShared BreakerCall × Nat) (Label Bool Nat) :=
  (breakerMachine b).system.observed countAdmissions

section Count

variable {b : CircuitBreaker} {sh sh' : BreakerShared} {t t' : BreakerCall}
  {pre post : List BreakerCall} {spurious : Bool}

/-- Whether the step of a call admits is seen from the call alone. -/
theorem admits_iff : Admits ⟨sh, pre ++ t :: post⟩ (.thread pre.length spurious)
    ⟨sh', pre ++ t' :: post⟩ ↔
      t.op = .allowRequest ∧ t.pc.exchanging ∧ t'.pc = .done .allowed := by
  simp [Admits, and_assoc]

/-- In Half-Open the word holds the number of admissions, which is within the limit. -/
def HalfOpenAccounted (b : CircuitBreaker) (sh : BreakerShared) (admissions : Nat) : Prop :=
  sh.state = .halfOpen →
    unpackHalfOpenReqs sh.packed = admissions ∧ admissions ≤ b.halfOpenMaxRequests

variable {admits : Bool} {admissions : Nat}

/-- A step that leaves the word alone, or the clock. -/
theorem HalfOpenAccounted.keep (h : HalfOpenAccounted b sh admissions)
    (hpacked : sh'.packed = sh.packed) (hadmits : admits = false) :
    HalfOpenAccounted b sh' (tally sh sh' admits admissions) := by
  have hstate : sh'.state = sh.state := by rw [BreakerShared.state, hpacked, BreakerShared.state]
  intro hhalf
  rw [hpacked, tally, if_pos hhalf, if_pos (hstate ▸ hhalf), hadmits]
  exact h (hstate ▸ hhalf)

/-- An exchange that leads to another state. -/
theorem HalfOpenAccounted.leave (hstate : unpackStateField sh'.packed ≠ stateHalfOpen) :
    HalfOpenAccounted b sh' admissions :=
  fun hhalf => absurd (state_eq_halfOpen_iff.mp hhalf) hstate

/-- **Every exchange keeps the account**: an admission adds one to both counts, a success carries
over the counter as it is, and everything else leaves Half-Open. -/
theorem HalfOpenAccounted.exchange (hmin : 1 ≤ b.halfOpenMaxRequests)
    (hmax : b.halfOpenMaxRequests < 2 ^ 16)
    (h : HalfOpenAccounted b sh admissions) {op : BreakerOp} {word readingUs : Nat} {clears : Bool}
    (hexchange : b.Exchange op sh.packed word clears)
    (hadmits : admits = decide (op = .allowRequest)) :
    HalfOpenAccounted b (sh.swap readingUs word)
      (tally sh (sh.swap readingUs word) admits admissions) := by
  subst hadmits
  cases hexchange with
  | probe hopen =>
      intro hhalf
      have hold : sh.state ≠ .halfOpen := by
        rw [ne_eq, state_eq_halfOpen_iff, hopen]
        decide
      rw [BreakerShared.swap_packed, tally, if_pos hhalf, if_neg hold]
      exact ⟨unpackHalfOpenReqs_packState _ _ _ (by decide), hmin⟩
  | accept hstate hfew =>
      intro hhalf
      have hold := state_eq_halfOpen_iff.mpr hstate
      obtain ⟨hreqs, -⟩ := h hold
      rw [BreakerShared.swap_packed, tally, if_pos hhalf, if_pos hold,
        unpackHalfOpenReqs_packState _ _ _ (by decide), Nat.mod_eq_of_lt (by omega), hreqs]
      exact ⟨rfl, hreqs ▸ hfew⟩
  | succeed hstate _ =>
      intro hhalf
      have hold := state_eq_halfOpen_iff.mpr hstate
      rw [BreakerShared.swap_packed, tally, if_pos hhalf, if_pos hold,
        unpackHalfOpenReqs_packState _ _ _ (by decide),
        Nat.mod_eq_of_lt (unpackHalfOpenReqs_lt _)]
      exact h hold
  | reset _ | close _ _ | trip _ _ | fail _ _ | reopen _ =>
      apply HalfOpenAccounted.leave
      rw [BreakerShared.swap_packed, unpackStateField_packState _ _ _ (by decide)]
      decide

/-- A step of a call. -/
theorem HalfOpenAccounted.step (hmin : 1 ≤ b.halfOpenMaxRequests)
    (hmax : b.halfOpenMaxRequests < 2 ^ 16)
    (h : HalfOpenAccounted b sh admissions) (hstep : BreakerStep b sh t sh' t') (ht : t.Planned b)
    (hadmits : admits ↔ t.op = .allowRequest ∧ t.pc.exchanging ∧ t'.pc = .done .allowed) :
    HalfOpenAccounted b sh' (tally sh sh' admits admissions) := by
  have hnot : t.pc.exchanging = false → admits = false := by
    intro hpc
    rw [Bool.eq_false_iff, ne_eq, hadmits, hpc]
    simp
  cases hstep with
  | @swap word clears hpc =>
      have hexchange := ht.exchange hpc
      apply h.exchange hmin hmax hexchange
      rw [Bool.eq_iff_iff, hadmits, decide_eq_true_iff]
      refine ⟨And.left, fun hop => ⟨hop, by rw [hpc]; rfl, ?_⟩⟩
      cases clears with
      | false => simp [hop, BreakerOp.result]
      | true =>
          rw [hexchange.of_clears] at hop
          cases hop
  | retry hpc =>
      apply h.keep rfl
      rw [Bool.eq_false_iff, ne_eq, hadmits]
      simp
  | enter hpc _ | read hpc _ | store hpc | load hpc | loadFailure hpc | elapsed hpc _ | reject hpc
  | clear hpc => exact h.keep rfl (hnot (by rw [hpc]; rfl))

/-- The invariant of a pool with its count. -/
structure CountInvariant (b : CircuitBreaker) (x : Config BreakerShared BreakerCall × Nat) :
    Prop where
  planned : ∀ t ∈ x.1.threads, t.Planned b
  accounted : HalfOpenAccounted b x.1.shared x.2

theorem CountInvariant.step (hmin : 1 ≤ b.halfOpenMaxRequests)
    (hmax : b.halfOpenMaxRequests < 2 ^ 16) {x x' : Config BreakerShared BreakerCall × Nat}
    (h : CountInvariant b x) {label : Label Bool Nat}
    (hstep : (countingSystem b).step x label = some x') : CountInvariant b x' := by
  obtain ⟨c, n⟩ := x
  obtain ⟨c', hc', rfl⟩ := Option.map_eq_some_iff.mp hstep
  cases label with
  | env ns =>
      cases hc'
      exact ⟨h.planned, h.accounted.keep rfl rfl⟩
  | thread i spurious =>
      obtain ⟨pre, t, post, sh', t', hsplit, rfl, hthread, rfl⟩ := Machine.thread_cases hc'
      obtain ⟨sh, calls⟩ := c
      subst hsplit
      obtain ⟨ht, hothers⟩ := forall_mem_middle.mp h.planned
      have hstep := breakerStep_cases hthread
      exact ⟨forall_mem_middle.mpr ⟨hstep.planned ht, hothers⟩,
        h.accounted.step hmin hmax hstep ht admits_iff⟩

end Count

section Runs

variable {failureThreshold timeout : Nat} {ops : List BreakerOp}
  {c : Config BreakerShared BreakerCall} {admissions : Nat}

theorem countInvariant_of_reach
    (h : (countingSystem (.new failureThreshold timeout)).Reach System.Anything
      (⟨.initial, ops.map .new⟩, 0) (c, admissions)) :
    CountInvariant (.new failureThreshold timeout) (c, admissions) := by
  refine h.invariant ⟨?_, ?_⟩ ?_
  · intro t ht
    obtain ⟨op, -, rfl⟩ := List.mem_map.mp ht
    trivial
  · intro hhalf
    cases BreakerShared.initial_state.symm.trans hhalf
  · intro x label x' hx _ hstep
    exact hx.step (by simp [CircuitBreaker.new]) (by simp [CircuitBreaker.new]) hstep

/-- **Half-Open admits at most three**: in every interleaving of any number of calls, as long as the
breaker is Half-Open, the word holds the number of admissions since it went there, and that is at
most the limit. -/
theorem admissions_le
    (h : (countingSystem (.new failureThreshold timeout)).Reach System.Anything
      (⟨.initial, ops.map .new⟩, 0) (c, admissions))
    (hhalf : c.shared.state = .halfOpen) :
    admissions ≤ (CircuitBreaker.new failureThreshold timeout).halfOpenMaxRequests ∧
      unpackHalfOpenReqs c.shared.packed = admissions := by
  obtain ⟨hreqs, hle⟩ := (countInvariant_of_reach h).accounted hhalf
  exact ⟨hle, hreqs⟩

/-- A failure opens the breaker, and after the timeout a request is let through. Another one loads
the word, but a success is counted first, so that its compare-exchange fails once. -/
def racing : List (Label Bool Nat) :=
  steps 0 4 ++ [.env 2000] ++ steps 1 5 ++ steps 2 2 ++ steps 3 3 ++ steps 2 3

/-- Two admissions are counted. -/
theorem admissions_le_racing : ∃ c, (countingSystem (.new 1 1000)).exec
      (⟨.initial,
        [.new .recordFailure, .new .allowRequest, .new .allowRequest, .new .recordSuccess]⟩, 0)
      racing = some (c, 2) ∧ unpackHalfOpenReqs c.shared.packed = 2 := by
  have hrun : ((countingSystem (.new 1 1000)).exec
      (⟨.initial, [.recordFailure, .allowRequest, .allowRequest, .recordSuccess].map .new⟩, 0)
      racing).any (fun x => x.2 = 2 ∧ x.1.shared.state = .halfOpen) = true := by decide +kernel
  obtain ⟨⟨c, n⟩, hc, hend⟩ := (Option.any_eq_true ..).mp hrun
  obtain ⟨rfl, hhalf⟩ := of_decide_eq_true hend
  exact ⟨c, hc, (admissions_le (System.Reach.of_exec hc) hhalf).2⟩

end Runs

end Rauta
