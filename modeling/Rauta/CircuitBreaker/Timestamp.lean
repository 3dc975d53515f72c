import Rauta.CircuitBreaker.Basic

/-!
# The timestamp of an open breaker

State and timestamp are two atomics. `record_failure` stores the timestamp first and exchanges the
state then; a closing `record_success` exchanges the state first and clears the timestamp then. Two
things depend on how such calls interleave.

* An open breaker leaves Open only if its timestamp is not zero. It is not, while no clearing store
  hits an open breaker or a failure that is still being recorded (`ClearsInTime`, `TimestampKept`).
* An open breaker should stay open for the whole timeout. It does, while timestamps are stored in
  the order of their clock readings, and no compare-exchange acts on a timestamp of an earlier
  period (`KeepsOrder`, `PeriodKept`).

Nothing in the code makes either condition hold, and each section ends with a schedule that breaks
it.
-/

namespace Rauta

open Interleaving Transition

variable {b : CircuitBreaker} {sh sh' : BreakerShared} {t t' : BreakerCall}

/-- The call is where its function can be, and its clock reading is from the past. -/
structure BreakerCall.Sane (b : CircuitBreaker) (now : Nat) (t : BreakerCall) : Prop where
  planned : t.Planned b
  read : t.readingUs ≤ now / 1000

theorem BreakerCall.Sane.later {now now' : Nat} (h : t.Sane b now) (hle : now ≤ now') :
    t.Sane b now' :=
  ⟨h.planned, h.read.trans (Nat.div_le_div_right hle)⟩

theorem BreakerStep.sane (h : BreakerStep b sh t sh' t') (ht : t.Sane b sh.now) :
    t'.Sane b sh'.now := by
  refine ⟨h.planned ht.planned, ?_⟩
  rw [h.now_eq]
  cases h with
  | read _ _ => exact Nat.le_refl _
  | _ => exact ht.read

theorem BreakerStep.sane_all {pre post : List BreakerCall} (h : BreakerStep b sh t sh' t')
    (hsane : ∀ u ∈ pre ++ t :: post, u.Sane b sh.now) :
    ∀ u ∈ pre ++ t' :: post, u.Sane b sh'.now := by
  obtain ⟨ht, hothers⟩ := forall_mem_middle.mp hsane
  refine forall_mem_middle.mpr ⟨h.sane ht, ?_⟩
  rw [h.now_eq]
  exact hothers

/-- The call is in its loop. -/
def BreakerPc.looping : BreakerPc → Bool
  | .load | .exchange .. => true
  | _ => false

/-- The call has stored its timestamp, and has yet to record the failure. -/
def BreakerCall.Stamped (t : BreakerCall) : Prop := t.op = .recordFailure ∧ t.pc.looping

instance (t : BreakerCall) : Decidable t.Stamped := inferInstanceAs (Decidable (_ ∧ _))

/-- A call gets there by storing the timestamp. -/
theorem BreakerStep.stamped (h : BreakerStep b sh t sh' t') (ht : t.Planned b) (hs : t'.Stamped) :
    t.Stamped ∨ (t.pc = .store ∧
      sh' = { sh with lastFailureUs := elapsedUs t.readingUs, storedUs := t.readingUs }) := by
  obtain ⟨hop', hloop⟩ := hs
  have hop : t.op = .recordFailure := h.op_eq.symm.trans hop'
  cases h with
  | enter hpc hne => exact absurd hop hne
  | store hpc => exact Or.inr ⟨hpc, rfl⟩
  | load hpc | retry hpc | swap hpc => exact Or.inl ⟨hop, by rw [hpc]; rfl⟩
  | elapsed hpc _ =>
      unfold BreakerCall.Planned at ht
      rw [hpc, hop] at ht
      cases ht.1
  | read _ _ | loadFailure _ | reject _ | clear _ => cases hloop

theorem BreakerStep.readingUs_eq (h : BreakerStep b sh t sh' t') (hs : t'.Stamped) :
    t'.readingUs = t.readingUs := by
  cases h with
  | read _ _ => cases hs.2
  | _ => rfl

/-! ## Open with a timestamp -/

/-- A clearing store finds the breaker not open, and no failure being recorded. -/
def ClearsInTime (c : Config BreakerShared BreakerCall) : Label Bool Nat → Prop
  | .env _ => True
  | .thread i _ => ∀ t ∈ c.threads[i]?, t.pc = .clear →
      unpackStateField c.shared.packed ≠ stateOpen ∧ ∀ u ∈ c.threads, ¬ u.Stamped

instance (c : Config BreakerShared BreakerCall) :
    (l : Label Bool Nat) → Decidable (ClearsInTime c l)
  | .env _ => inferInstanceAs (Decidable True)
  | .thread i _ => inferInstanceAs (Decidable (∀ t ∈ c.threads[i]?, _))

/-- What is kept while the clock fits in 64 bits. -/
structure TimestampKept (b : CircuitBreaker) (sh : BreakerShared) (calls : List BreakerCall) :
    Prop where
  sane : ∀ t ∈ calls, t.Sane b sh.now
  opened : unpackStateField sh.packed = stateOpen → sh.lastFailureUs ≠ 0
  stamped : ∀ t ∈ calls, t.Stamped → sh.lastFailureUs ≠ 0

theorem TimestampKept.init (b : CircuitBreaker) (ops : List BreakerOp) :
    TimestampKept b .initial (ops.map .new) := by
  refine ⟨?_, ?_, ?_⟩
  · intro t ht
    obtain ⟨op, -, rfl⟩ := List.mem_map.mp ht
    exact ⟨trivial, Nat.zero_le _⟩
  · intro hopen
    rw [BreakerShared.initial, unpackStateField_packState _ _ _ (by decide)] at hopen
    cases hopen
  · intro t ht hs
    obtain ⟨op, -, rfl⟩ := List.mem_map.mp ht
    cases hs.2

theorem TimestampKept.tick {calls : List BreakerCall} (h : TimestampKept b sh calls) (ns : Nat) :
    TimestampKept b { sh with now := sh.now + ns } calls :=
  ⟨fun t ht => (h.sane t ht).later (Nat.le_add_right _ _), h.opened, h.stamped⟩

theorem TimestampKept.step {pre post : List BreakerCall} {spurious : Bool}
    (h : TimestampKept b sh (pre ++ t :: post)) (hearly : sh.Early)
    (hok : ClearsInTime ⟨sh, pre ++ t :: post⟩ (.thread pre.length spurious))
    (hstep : BreakerStep b sh t sh' t') : TimestampKept b sh' (pre ++ t' :: post) := by
  have hsane := (forall_mem_middle.mp h.sane).1
  have hsane' := hstep.sane_all h.sane
  obtain ⟨hstamped, hstampedOthers⟩ := forall_mem_middle.mp h.stamped
  have helapsed : elapsedUs t.readingUs ≠ 0 := by
    rw [elapsedUs_of_lt ((Nat.add_le_add_right hsane.read 1).trans_lt hearly)]
    exact Nat.succ_ne_zero _
  have hnew : t'.Stamped → t.Stamped ∨ sh'.lastFailureUs ≠ 0 := by
    intro hs
    rcases hstep.stamped hsane.planned hs with hs | ⟨-, rfl⟩
    · exact Or.inl hs
    · exact Or.inr helapsed
  cases hstep with
  | store hpc => exact ⟨hsane', fun _ => helapsed, fun _ _ _ => helapsed⟩
  | swap hpc =>
      have hexchange := hsane.planned.exchange hpc
      refine ⟨hsane', ?_, forall_mem_middle.mpr ⟨?_, ?_⟩⟩
      · intro hopen
        rw [BreakerShared.swap_packed] at hopen
        rw [BreakerShared.swap_lastFailureUs]
        exact hstamped ⟨(hexchange.opening hopen).1, by rw [hpc]; rfl⟩
      · intro hs
        rcases hnew hs with hs | hne
        · rw [BreakerShared.swap_lastFailureUs]
          exact hstamped hs
        · exact hne
      · rw [BreakerShared.swap_lastFailureUs]
        exact hstampedOthers
  | clear hpc =>
      obtain ⟨hclosed, hnone⟩ := hok t (by simp) hpc
      refine ⟨hsane', fun hopen => absurd hopen hclosed, forall_mem_middle.mpr ⟨?_, ?_⟩⟩
      · intro hs
        cases hs.2
      · intro u hu hs
        exact absurd hs ((forall_mem_middle.mp hnone).2 u hu)
  | enter _ _ | read _ _ | load _ | loadFailure _ | elapsed _ _ | reject _ | retry _ =>
      exact ⟨hsane', h.opened,
        forall_mem_middle.mpr ⟨fun hs => (hnew hs).elim hstamped id, hstampedOthers⟩⟩

/-- **An open breaker knows when it failed**, and so can leave Open, in every run whose clearing
stores come in time. -/
theorem lastFailureUs_ne_zero {ops : List BreakerOp} {c : Config BreakerShared BreakerCall}
    (h : (breakerMachine b).system.Reach ClearsInTime ⟨.initial, ops.map .new⟩ c)
    (hearly : c.shared.Early) (hopen : unpackStateField c.shared.packed = stateOpen) :
    c.shared.lastFailureUs ≠ 0 ∧ ∃ later, b.shouldAttemptReset c.shared.lastFailureUs later := by
  have hinv : TimestampKept b c.shared c.threads := by
    refine breakerMachine_invariant (TimestampKept.init b ops) ?_ ?_ h hearly
    · intro sh calls ns hs
      exact hs.tick ns
    · intro sh pre t post spurious sh' t' hs hearly hok hstep
      exact hs.step hearly hok hstep
  exact ⟨hinv.opened hopen, b.exists_shouldAttemptReset_iff.mpr (hinv.opened hopen)⟩

/-- The breaker that callers make: five failures, thirty seconds. -/
def CircuitBreaker.standard : CircuitBreaker := .new 5 30000000000

/-- Steps of one call in a row. -/
def steps (i n : Nat) : List (Label Bool Nat) := List.replicate n (.thread i false)

/-- Five failures, in the first five calls. -/
def fiveFailures : List (Label Bool Nat) := (List.range 5).flatMap fun i => steps i 4

/-- Five failures; after the timeout three requests and their successes; five more failures. -/
def cycleOps : List BreakerOp :=
  List.replicate 5 .recordFailure ++ List.replicate 3 .allowRequest ++
    List.replicate 3 .recordSuccess ++ List.replicate 5 .recordFailure

/-- The breaker opens, becomes half-open, and closes; the third success has yet to clear the
timestamp. -/
def closing : List (Label Bool Nat) :=
  fiveFailures ++ [.env 30000000000] ++ steps 5 5 ++ steps 6 3 ++
    steps 7 3 ++ steps 8 3 ++ steps 9 3 ++ steps 10 3

/-- The last five failures. -/
def reopening : List (Label Bool Nat) := (List.range 5).flatMap fun i => steps (11 + i) 4

/-- The timestamp is cleared before the breaker opens again. -/
theorem lastFailureUs_ne_zero_cycle : ∃ c,
    (breakerMachine .standard).system.Reach ClearsInTime ⟨.initial, cycleOps.map .new⟩ c ∧
    unpackStateField c.shared.packed = stateOpen ∧ c.shared.lastFailureUs ≠ 0 := by
  have hrun : (((breakerMachine .standard).system.restrict ClearsInTime).exec
      ⟨.initial, cycleOps.map .new⟩ (closing ++ steps 10 1 ++ reopening)).any (fun c =>
        c.shared.Early ∧ unpackStateField c.shared.packed = stateOpen) := by
    decide +kernel
  obtain ⟨c, hc, hend⟩ := (Option.any_eq_true ..).mp hrun
  obtain ⟨hearly, hopen⟩ := of_decide_eq_true hend
  have hreach := System.Reach.of_exec_restrict hc
  exact ⟨c, hreach, hopen, (lastFailureUs_ne_zero hreach hearly hopen).1⟩

/-- The call has not begun, or has returned. -/
def BreakerPc.idle : BreakerPc → Bool
  | .start | .done _ => true
  | _ => false

/-- **Open without a timestamp**: the timestamp is cleared when the breaker is open again, and all
calls have returned. -/
theorem exists_open_without_timestamp :
    ¬ ∀ (b : CircuitBreaker) (ops : List BreakerOp) (c : Config BreakerShared BreakerCall),
      (breakerMachine b).system.Reach System.Anything ⟨.initial, ops.map .new⟩ c →
      c.shared.Early → (∀ t ∈ c.threads, t.pc.idle) →
      unpackStateField c.shared.packed = stateOpen → c.shared.lastFailureUs ≠ 0 := by
  intro h
  have hrun : ((breakerMachine .standard).system.exec ⟨.initial, cycleOps.map .new⟩
      (closing ++ reopening ++ steps 10 1)).any (fun c =>
        c.shared.Early ∧ (∀ t ∈ c.threads, t.pc.idle) ∧
        unpackStateField c.shared.packed = stateOpen ∧ c.shared.lastFailureUs = 0) := by
    decide +kernel
  obtain ⟨c, hc, hend⟩ := (Option.any_eq_true ..).mp hrun
  obtain ⟨hearly, hidle, hopen, hzero⟩ := of_decide_eq_true hend
  exact h .standard cycleOps c (.of_exec hc) hearly hidle hopen hzero

/-! ## Open for the whole timeout -/

/-- Timestamps are stored in the order of their clock readings, and a breaker leaves Open only on a
timestamp that was loaded since it opened. -/
def KeepsOrder (c : Config BreakerShared BreakerCall) : Label Bool Nat → Prop
  | .env _ => True
  | .thread i spurious => ∀ t ∈ c.threads[i]?,
      (t.pc = .store → c.shared.storedUs ≤ t.readingUs) ∧
      (t.pc = .exchange c.shared.packed CircuitBreaker.probing false → spurious = false →
        unpackStateField c.shared.packed = stateOpen → t.epoch = c.shared.opens)

instance (c : Config BreakerShared BreakerCall) : (l : Label Bool Nat) → Decidable (KeepsOrder c l)
  | .env _ => inferInstanceAs (Decidable True)
  | .thread i _ => inferInstanceAs (Decidable (∀ t ∈ c.threads[i]?, _))

/-- What a call of `allow_request` knows about the period in which it loaded the timestamp. -/
def BreakerPc.Checked (b : CircuitBreaker) (sh : BreakerShared) : BreakerPc → Prop
  | .readClock _ lastFailureUs => lastFailureUs ≠ 0 → sh.openedUs + 1 ≤ lastFailureUs
  | .exchange current _ _ =>
    unpackStateField current = stateOpen → sh.openedUs * 1000 + b.timeout ≤ sh.now
  | _ => True

/-- What is kept while the clock fits in 64 bits. -/
structure PeriodKept (b : CircuitBreaker) (sh : BreakerShared) (calls : List BreakerCall) :
    Prop where
  sane : ∀ t ∈ calls, t.Sane b sh.now
  stored : sh.lastFailureUs ≠ 0 → sh.lastFailureUs = sh.storedUs + 1
  opened : sh.openedUs ≤ sh.storedUs
  stamped : ∀ t ∈ calls, t.Stamped → t.readingUs ≤ sh.storedUs
  epoch : ∀ t ∈ calls, t.epoch ≤ sh.opens
  checked : ∀ t ∈ calls, t.epoch = sh.opens → t.pc.Checked b sh

theorem PeriodKept.init (b : CircuitBreaker) (ops : List BreakerOp) :
    PeriodKept b .initial (ops.map .new) := by
  refine ⟨?_, fun hne => absurd rfl hne, Nat.le_refl _, ?_, ?_, ?_⟩ <;> intro t ht <;>
    obtain ⟨op, -, rfl⟩ := List.mem_map.mp ht
  · exact ⟨trivial, Nat.zero_le _⟩
  · exact fun _ => Nat.le_refl _
  · exact Nat.le_refl _
  · exact fun _ => trivial

theorem BreakerPc.Checked.later {pc : BreakerPc} (h : pc.Checked b sh) (ns : Nat) :
    pc.Checked b { sh with now := sh.now + ns } := by
  cases pc with
  | readClock current lastFailureUs => exact h
  | exchange current word clears => exact fun hopen => (h hopen).trans (Nat.le_add_right _ _)
  | _ => trivial

/-- A word that was just loaded is exchanged only in another state than Open. -/
theorem BreakerPc.checked_next (b : CircuitBreaker) (sh : BreakerShared) (op : BreakerOp)
    (current : Nat) : (b.next current op).Checked b sh := by
  have hnext := b.next_cases op current
  generalize b.next current op = pc at hnext
  cases hnext with
  | done _ => trivial
  | wait _ _ => trivial
  | exchange _ hstate => exact fun hopen => absurd hopen hstate

theorem PeriodKept.tick {calls : List BreakerCall} (h : PeriodKept b sh calls) (ns : Nat) :
    PeriodKept b { sh with now := sh.now + ns } calls :=
  ⟨fun t ht => (h.sane t ht).later (Nat.le_add_right _ _), h.stored, h.opened, h.stamped, h.epoch,
    fun t ht hepoch => (h.checked t ht hepoch).later ns⟩

/-- A step that opens nothing keeps what the other calls know. -/
theorem PeriodKept.replace {pre post : List BreakerCall} (h : PeriodKept b sh (pre ++ t :: post))
    (hsane' : ∀ u ∈ pre ++ t' :: post, u.Sane b sh'.now)
    (hperiod : sh'.openedUs = sh.openedUs ∧ sh'.opens = sh.opens ∧ sh'.now = sh.now)
    (hle : sh.storedUs ≤ sh'.storedUs)
    (hstored' : sh'.lastFailureUs ≠ 0 → sh'.lastFailureUs = sh'.storedUs + 1)
    (hstamped' : t'.Stamped → t'.readingUs ≤ sh'.storedUs) (hepoch' : t'.epoch ≤ sh.opens)
    (hchecked' : t'.epoch = sh.opens → t'.pc.Checked b sh) :
    PeriodKept b sh' (pre ++ t' :: post) := by
  obtain ⟨hopened, hopens, hnow⟩ := hperiod
  have hcongr : ∀ pc : BreakerPc, pc.Checked b sh' ↔ pc.Checked b sh := by
    intro pc
    cases pc <;> simp only [BreakerPc.Checked, hopened, hnow]
  refine ⟨hsane', hstored', hopened ▸ h.opened.trans hle, ?_, ?_, ?_⟩
  · exact forall_mem_middle.mpr
      ⟨hstamped', fun u hu hs => ((forall_mem_middle.mp h.stamped).2 u hu hs).trans hle⟩
  · rw [hopens]
    exact forall_mem_middle.mpr ⟨hepoch', (forall_mem_middle.mp h.epoch).2⟩
  · simp only [hcongr, hopens]
    exact forall_mem_middle.mpr ⟨hchecked', (forall_mem_middle.mp h.checked).2⟩

theorem PeriodKept.step {pre post : List BreakerCall} {spurious : Bool}
    (h : PeriodKept b sh (pre ++ t :: post)) (hearly : sh.Early)
    (hok : KeepsOrder ⟨sh, pre ++ t :: post⟩ (.thread pre.length spurious))
    (hstep : BreakerStep b sh t sh' t') : PeriodKept b sh' (pre ++ t' :: post) := by
  have hsane := (forall_mem_middle.mp h.sane).1
  have hsane' := hstep.sane_all h.sane
  obtain ⟨hstamped, hstampedOthers⟩ := forall_mem_middle.mp h.stamped
  obtain ⟨hepoch, hepochOthers⟩ := forall_mem_middle.mp h.epoch
  have hchecked := (forall_mem_middle.mp h.checked).1
  have hread : t'.Stamped → sh.storedUs ≤ sh'.storedUs → t'.readingUs ≤ sh'.storedUs := by
    intro hs hle
    rw [hstep.readingUs_eq hs]
    rcases hstep.stamped hsane.planned hs with hs | ⟨-, rfl⟩
    · exact (hstamped hs).trans hle
    · exact Nat.le_refl _
  -- a step of the call alone
  have hquiet : sh' = sh → t'.epoch ≤ sh.opens → (t'.epoch = sh.opens → t'.pc.Checked b sh) →
      PeriodKept b sh' (pre ++ t' :: post) := by
    rintro rfl hepoch' hchecked'
    exact h.replace hsane' ⟨rfl, rfl, rfl⟩ (Nat.le_refl _) h.stored
      (fun hs => hread hs (Nat.le_refl _)) hepoch' hchecked'
  cases hstep with
  | enter _ _ | read _ _ | reject _ | retry _ => exact hquiet rfl hepoch fun _ => trivial
  | load _ => exact hquiet rfl hepoch fun _ => BreakerPc.checked_next b sh t.op sh.packed
  | loadFailure hpc =>
      refine hquiet rfl (Nat.le_refl _) fun _ hne => ?_
      have := h.stored hne
      have := h.opened
      omega
  | elapsed hpc hreset =>
      refine hquiet rfl hepoch fun hcurrent _ => ?_
      obtain ⟨hne, hle⟩ := CircuitBreaker.le_of_shouldAttemptReset hreset
      rw [hpc] at hchecked
      have : sh.openedUs + 1 ≤ _ := hchecked hcurrent hne
      have : sh.openedUs * 1000 ≤ (_ - 1) * 1000 :=
        Nat.mul_le_mul_right _ (Nat.le_sub_of_add_le this)
      exact (Nat.add_le_add_right this _).trans hle
  | store hpc =>
      have horder : sh.storedUs ≤ t.readingUs := (hok t (by simp)).1 hpc
      refine h.replace hsane' ⟨rfl, rfl, rfl⟩ horder (fun _ => ?_) (fun hs => hread hs horder)
        hepoch fun _ => trivial
      exact elapsedUs_of_lt ((Nat.add_le_add_right hsane.read 1).trans_lt hearly)
  | clear hpc =>
      exact h.replace hsane' ⟨rfl, rfl, rfl⟩ (Nat.le_refl _) (fun hne => absurd rfl hne)
        (fun hs => hread hs (Nat.le_refl _)) hepoch fun _ => trivial
  | @swap word clears hpc =>
      have hexchange := hsane.planned.exchange hpc
      have hdone : ∀ sh, (if clears then BreakerPc.clear else .done t.op.result).Checked b sh := by
        intro sh
        split <;> trivial
      by_cases hopening : Opening sh.packed word
      · -- a new period: no timestamp of an earlier one counts
        have hop := (hexchange.opening hopening.2).1
        have hswap : sh.swap t.readingUs word =
            { sh with packed := word, opens := sh.opens + 1, openedUs := t.readingUs } :=
          if_pos hopening
        rw [hswap] at hsane' hread ⊢
        refine ⟨hsane', h.stored, hstamped ⟨hop, by rw [hpc]; rfl⟩, ?_, ?_, ?_⟩
        · exact forall_mem_middle.mpr ⟨fun hs => hread hs (Nat.le_refl _), hstampedOthers⟩
        · exact forall_mem_middle.mpr ⟨hepoch.trans (Nat.le_succ _),
            fun u hu => (hepochOthers u hu).trans (Nat.le_succ _)⟩
        · refine forall_mem_middle.mpr ⟨fun _ => hdone _, fun u hu hu' => ?_⟩
          exact absurd (hu'.symm.trans_le (hepochOthers u hu)) (Nat.not_succ_le_self _)
      · have hswap : sh.swap t.readingUs word = { sh with packed := word } := if_neg hopening
        rw [hswap] at hsane' hread ⊢
        exact h.replace hsane' ⟨rfl, rfl, rfl⟩ (Nat.le_refl _) h.stored
          (fun hs => hread hs (Nat.le_refl _)) hepoch fun _ => hdone _

/-- **Open for the whole timeout**: in every run that keeps the order, the breaker goes from Open to
Half-Open no earlier than the timeout after the clock reading of the call that opened it last. -/
theorem open_for_timeout {ops : List BreakerOp} {c c' : Config BreakerShared BreakerCall}
    {label : Label Bool Nat}
    (h : (breakerMachine b).system.Reach KeepsOrder ⟨.initial, ops.map .new⟩ c)
    (hearly : c.shared.Early) (hok : KeepsOrder c label)
    (hstep : (breakerMachine b).system.step c label = some c')
    (hopen : unpackStateField c.shared.packed = stateOpen)
    (hhalf : unpackStateField c'.shared.packed = stateHalfOpen) :
    c.shared.openedUs * 1000 + b.timeout ≤ c.shared.now := by
  have hinv : PeriodKept b c.shared c.threads := by
    refine breakerMachine_invariant (PeriodKept.init b ops) ?_ ?_ h hearly
    · intro sh calls ns hs
      exact hs.tick ns
    · intro sh pre t post spurious sh' t' hs hearly hok hstep
      exact hs.step hearly hok hstep
  have hchanged : c'.shared.packed ≠ c.shared.packed := by
    intro heq
    rw [heq, hopen] at hhalf
    cases hhalf
  cases label with
  | env ns =>
      cases hstep
      exact absurd rfl hchanged
  | thread i spurious =>
      obtain ⟨pre, t, post, sh', t', hsplit, rfl, hthread, rfl⟩ := Machine.thread_cases hstep
      obtain ⟨sh, calls⟩ := c
      subst hsplit
      have hspurious : spurious = false := by
        by_contra hs
        rw [eq_true_of_ne_false hs] at hthread
        exact hchanged (breakerStep_spurious hthread)
      cases breakerStep_cases hthread with
      | swap hpc =>
          have hexchange := (hinv.sane t (by simp)).planned.exchange hpc
          obtain ⟨rfl, rfl⟩ := hexchange.of_open hopen
          have hepoch : t.epoch = sh.opens := (hok t (by simp)).2 hpc hspurious hopen
          have hchecked := hinv.checked t (by simp) hepoch
          rw [hpc] at hchecked
          exact hchecked hopen
      | _ => exact absurd rfl hchanged

/-- Five failures and a request. -/
def probeOps : List BreakerOp := List.replicate 5 .recordFailure ++ [.allowRequest]

/-- A request after the timeout. -/
theorem open_for_timeout_probe : ∃ c c', (breakerMachine .standard).system.Reach KeepsOrder
      ⟨.initial, probeOps.map .new⟩ c ∧
    (breakerMachine .standard).system.step c (.thread 5 false) = some c' ∧
    unpackStateField c'.shared.packed = stateHalfOpen ∧
    c.shared.openedUs * 1000 + 30000000000 ≤ c.shared.now := by
  have hrun : (((breakerMachine .standard).system.restrict KeepsOrder).exec
      ⟨.initial, probeOps.map .new⟩
      (fiveFailures ++ [.env 30000000000] ++ steps 5 4)).any (fun c =>
        c.shared.Early ∧ KeepsOrder c (.thread 5 false) ∧
        unpackStateField c.shared.packed = stateOpen ∧
        ((breakerMachine .standard).system.step c (.thread 5 false)).any fun c' =>
          unpackStateField c'.shared.packed = stateHalfOpen) := by
    decide +kernel
  obtain ⟨c, hc, hend⟩ := (Option.any_eq_true ..).mp hrun
  obtain ⟨hearly, hok, hopen, hstep⟩ := of_decide_eq_true hend
  obtain ⟨c', hc', hhalf⟩ := (Option.any_eq_true ..).mp hstep
  have hreach := System.Reach.of_exec_restrict hc
  exact ⟨c, c', hreach, hc', of_decide_eq_true hhalf,
    open_for_timeout hreach hearly hok hc' hopen (of_decide_eq_true hhalf)⟩

/-- Five failures; two rounds of a request and a failure, with another request between them. -/
def staleOps : List BreakerOp :=
  List.replicate 5 .recordFailure ++
    [.allowRequest, .recordFailure, .allowRequest, .allowRequest, .recordFailure]

/-- The request in between finds the timeout of its period elapsed, and waits. Meanwhile the breaker
goes through Half-Open to Open, and back to the same word. -/
def stale : List (Label Bool Nat) :=
  fiveFailures ++ [.env 30000000000] ++ steps 5 5 ++ steps 6 4 ++
    [.env 30000000000] ++ steps 7 4 ++ steps 8 5 ++ steps 9 4

/-- **A probe that comes too early**: a new period of thirty seconds ends at once, because its word
is that of the period before. -/
theorem exists_early_probe :
    ¬ ∀ (b : CircuitBreaker) (ops : List BreakerOp) (c c' : Config BreakerShared BreakerCall)
      (label : Label Bool Nat),
      (breakerMachine b).system.Reach System.Anything ⟨.initial, ops.map .new⟩ c → c.shared.Early →
      (breakerMachine b).system.step c label = some c' →
      unpackStateField c.shared.packed = stateOpen →
      unpackStateField c'.shared.packed = stateHalfOpen →
      c.shared.openedUs * 1000 + b.timeout ≤ c.shared.now := by
  intro h
  have hrun : ((breakerMachine .standard).system.exec ⟨.initial, staleOps.map .new⟩ stale).any
      (fun c => c.shared.Early ∧ unpackStateField c.shared.packed = stateOpen ∧
      c.shared.now < c.shared.openedUs * 1000 + 30000000000 ∧
      ((breakerMachine .standard).system.step c (.thread 7 false)).any fun c' =>
        unpackStateField c'.shared.packed = stateHalfOpen) := by
    decide +kernel
  obtain ⟨c, hc, hend⟩ := (Option.any_eq_true ..).mp hrun
  obtain ⟨hearly, hopen, hlt, hstep⟩ := of_decide_eq_true hend
  obtain ⟨c', hc', hhalf⟩ := (Option.any_eq_true ..).mp hstep
  have hle := h .standard staleOps c c' _ (.of_exec hc) hearly hc' hopen (of_decide_eq_true hhalf)
  exact absurd hlt (Nat.not_lt_of_le hle)

end Rauta
