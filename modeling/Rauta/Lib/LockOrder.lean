import Mathlib.Algebra.Order.BigOperators.Group.List
import Mathlib.Algebra.Order.Ring.Nat
import Rauta.Lib.Interaction

/-!
# Locks that are taken in order

Programs of `Lib/Interaction` whose calls take and release locks, each lock for reading by many or
for writing by one. A writer queues first, and readers are not let in while it waits: a thread that
reads twice can be caught between itself and a writer.

The locks have ranks. A program is `Orderly` if it releases its locks in the reverse order, takes
none below one that it holds, and ends without any. `progress` is the reason to write programs that
way: whatever a pool of them does, it never gets stuck.
-/

namespace LockOrder

open Interaction Interleaving Transition

variable {L : Type}

/-- What a thread has of a lock. -/
inductive Hold where
  | reading
  | writing
  | queued
  deriving DecidableEq

/-- What a program can do. Which way it goes on can depend on anything. -/
inductive LockCall (L : Type) where
  | read (lock : L)
  | queue (lock : L)
  | write (lock : L)
  | release (lock : L) (hold : Hold)
  | choose

/-- The calls and their answers. -/
abbrev locks (L : Type) : Signature where
  Call := LockCall L
  Answer
    | .choose => Bool
    | _ => Unit

/-- How many threads have what of a lock. -/
abbrev LockTable (L : Type) := L × Hold → Nat

section Service

variable [DecidableEq L]

/-- One more. -/
def LockTable.add (s : LockTable L) (x : L × Hold) : LockTable L := Function.update s x (s x + 1)

/-- One less. -/
def LockTable.remove (s : LockTable L) (x : L × Hold) : LockTable L := Function.update s x (s x - 1)

/-- What the calls do. A call that has to wait has no answer. -/
def lockService (L : Type) [DecidableEq L] : Service (locks L) (LockTable L) Bool Empty where
  respond s call choice :=
    match call with
    | .read lock =>
      if s (lock, .writing) = 0 ∧ s (lock, .queued) = 0 then some (s.add (lock, .reading), ())
      else none
    | .queue lock => some (s.add (lock, .queued), ())
    | .write lock =>
      if s (lock, .reading) = 0 ∧ s (lock, .writing) = 0 then
        some ((s.remove (lock, .queued)).add (lock, .writing), ())
      else none
    | .release lock hold => some (s.remove (lock, hold), ())
    | .choose => some (s, choice)
  awaits _ := false
  env _ e := e.elim

end Service

/-! ## Programs -/

section Programs

variable {α : Type}

/-- Go one way or the other. -/
def choose : Prog (locks L) Bool := Prog.ask (S := locks L) .choose

/-- Something that is done with the lock held for reading. -/
def reading (lock : L) (body : Prog (locks L) α) : Prog (locks L) α :=
  .call (.read lock) fun _ => body >>= fun a => .call (.release lock .reading) fun _ => .done a

/-- Something that is done with the lock held for writing. A mutex is a lock for writers only. -/
def writing (lock : L) (body : Prog (locks L) α) : Prog (locks L) α :=
  .call (.queue lock) fun _ => .call (.write lock) fun _ =>
    body >>= fun a => .call (.release lock .writing) fun _ => .done a

/-- Something that is done several times. -/
def times : Nat → Prog (locks L) Unit → Prog (locks L) Unit
  | 0, _ => pure ()
  | n + 1, body => body >>= fun _ => times n body

end Programs

/-! ## The order -/

/-- A thread in the queue of a lock only waits. -/
def NotQueued : List (L × Hold) → Bool
  | (_, .queued) :: _ => false
  | _ => true

section Order

variable [DecidableEq L] (rank : L → Nat)

/-- The lock is above all that the thread has. -/
def Above (lock : L) (stack : List (L × Hold)) : Bool :=
  NotQueued stack && stack.all fun x => rank x.1 < rank lock

/-- What a thread has after a call, the latest first; nothing if the call is out of order. -/
def watch (stack : Option (List (L × Hold))) (e : Event (locks L)) : Option (List (L × Hold)) :=
  stack.bind fun stack =>
    match e.call with
    | .read lock => if Above rank lock stack then some ((lock, .reading) :: stack) else none
    | .queue lock => if Above rank lock stack then some ((lock, .queued) :: stack) else none
    | .write lock =>
      if stack.head? = some (lock, .queued) then some ((lock, .writing) :: stack.tail) else none
    | .release lock hold =>
      if stack.head? = some (lock, hold) ∧ hold ≠ .queued then some stack.tail else none
    | .choose => if NotQueued stack then some stack else none

/-- From what it has on, the program keeps to the order whichever way it goes, and in the end it has
the same again. -/
def Scoped {α : Type} (stack : List (L × Hold)) (p : Prog (locks L) α) : Prop :=
  p.Keeps (watch rank) (· ≠ none) (fun _ after => after = some stack) (some stack)

/-- **The program keeps to the order.** -/
abbrev Orderly {α : Type} (p : Prog (locks L) α) : Prop := Scoped rank [] p

variable {rank} {s s' : LockTable L} {stack stack' : List (L × Hold)} {call : LockCall L}
  {answer : (locks L).Answer call} {x y : L × Hold}

/-! ### Rules -/

section Rules

variable {α β : Type} {p : Prog (locks L) α} {f : α → Prog (locks L) β} {lock : L}

theorem scoped_pure (a : α) : Scoped rank stack (pure a) := ⟨Option.some_ne_none _, rfl⟩

theorem Scoped.bind (hp : Scoped rank stack p) (hf : ∀ a, Scoped rank stack (f a)) :
    Scoped rank stack (p >>= f) := by
  refine Prog.Keeps.bind hp ?_
  rintro a _ - rfl
  exact hf a

theorem Scoped.ite {q : Prog (locks L) α} {b : Bool} (hp : Scoped rank stack p)
    (hq : Scoped rank stack q) : Scoped rank stack (if b then p else q) := by
  cases b with
  | true => exact hp
  | false => exact hq

theorem scoped_choose (h : NotQueued stack = true) : Scoped rank stack choose := by
  have hwatch : ∀ answer, watch rank (some stack) ⟨.choose, answer⟩ = some stack :=
    fun _ => if_pos h
  refine ⟨Option.some_ne_none _, fun answer => ?_⟩
  rw [hwatch]
  exact ⟨Option.some_ne_none _, rfl⟩

/-- **A lock is taken above all others, and released when the body is through.** -/
theorem scoped_reading (h : Above rank lock stack = true)
    (hbody : Scoped rank ((lock, .reading) :: stack) p) : Scoped rank stack (reading lock p) := by
  have htake : watch rank (some stack) ⟨.read lock, ()⟩ = some ((lock, .reading) :: stack) :=
    if_pos h
  have hrelease : watch rank (some ((lock, .reading) :: stack)) ⟨.release lock .reading, ()⟩ =
      some stack := if_pos ⟨rfl, by simp⟩
  refine ⟨Option.some_ne_none _, fun _ => ?_⟩
  rw [htake]
  refine Prog.Keeps.bind hbody ?_
  rintro a _ - rfl
  refine ⟨Option.some_ne_none _, fun _ => ?_⟩
  rw [hrelease]
  exact ⟨Option.some_ne_none _, rfl⟩

theorem scoped_writing (h : Above rank lock stack = true)
    (hbody : Scoped rank ((lock, .writing) :: stack) p) : Scoped rank stack (writing lock p) := by
  have hqueue : watch rank (some stack) ⟨.queue lock, ()⟩ = some ((lock, .queued) :: stack) :=
    if_pos h
  have htake : watch rank (some ((lock, .queued) :: stack)) ⟨.write lock, ()⟩ =
      some ((lock, .writing) :: stack) := if_pos rfl
  have hrelease : watch rank (some ((lock, .writing) :: stack)) ⟨.release lock .writing, ()⟩ =
      some stack := if_pos ⟨rfl, by simp⟩
  refine ⟨Option.some_ne_none _, fun _ => ?_⟩
  rw [hqueue]
  refine ⟨Option.some_ne_none _, fun _ => ?_⟩
  rw [htake]
  refine Prog.Keeps.bind hbody ?_
  rintro a _ - rfl
  refine ⟨Option.some_ne_none _, fun _ => ?_⟩
  rw [hrelease]
  exact ⟨Option.some_ne_none _, rfl⟩

theorem scoped_times {p : Prog (locks L) Unit} (h : Scoped rank stack p) (n : Nat) :
    Scoped rank stack (times n p) := by
  induction n with
  | zero => exact scoped_pure ()
  | succ n ih => exact h.bind fun _ => ih

end Rules

/-! ### What is held -/

theorem add_apply : s.add y x = s x + if y = x then 1 else 0 := by
  by_cases h : y = x
  · subst h
    simp [LockTable.add]
  · simp [LockTable.add, h, Function.update_of_ne (Ne.symm h)]

theorem remove_apply : s.remove y x = s x - if y = x then 1 else 0 := by
  by_cases h : y = x
  · subst h
    simp [LockTable.remove]
  · simp [LockTable.remove, h, Function.update_of_ne (Ne.symm h)]

theorem count_cons_eq : (y :: stack).count x = stack.count x + if y = x then 1 else 0 := by
  rw [List.count_cons]
  simp only [beq_iff_eq]

/-- **The table counts what the threads have.** -/
theorem count_respond {choice : Bool}
    (hrespond : (lockService L).respond s call choice = some (s', answer))
    (hwatch : watch rank (some stack) ⟨call, answer⟩ = some stack')
    (hx : stack.count x ≤ s x) : s' x + stack.count x = s x + stack'.count x := by
  cases call with
  | read lock =>
    obtain ⟨-, hs⟩ := Option.ite_none_right_eq_some.mp hrespond
    obtain ⟨-, hstack⟩ := Option.ite_none_right_eq_some.mp hwatch
    cases hs
    cases hstack
    rw [add_apply, count_cons_eq]
    omega
  | queue lock =>
    obtain ⟨-, hstack⟩ := Option.ite_none_right_eq_some.mp hwatch
    cases hrespond
    cases hstack
    rw [add_apply, count_cons_eq]
    omega
  | write lock =>
    obtain ⟨-, hs⟩ := Option.ite_none_right_eq_some.mp hrespond
    obtain ⟨hhead, hstack⟩ := Option.ite_none_right_eq_some.mp hwatch
    obtain ⟨rest, rfl⟩ := List.head?_eq_some_iff.mp hhead
    cases hs
    cases hstack
    rw [count_cons_eq] at hx
    rw [add_apply, remove_apply, count_cons_eq, List.tail_cons, count_cons_eq]
    omega
  | release lock hold =>
    obtain ⟨⟨hhead, -⟩, hstack⟩ := Option.ite_none_right_eq_some.mp hwatch
    obtain ⟨rest, rfl⟩ := List.head?_eq_some_iff.mp hhead
    cases hrespond
    cases hstack
    rw [count_cons_eq] at hx
    rw [remove_apply, count_cons_eq, List.tail_cons]
    omega
  | choose =>
    obtain ⟨-, hstack⟩ := Option.ite_none_right_eq_some.mp hwatch
    cases hrespond
    cases hstack
    rfl

/-! ### Ranks -/

/-- What a thread has stands in order. -/
def Ordered (rank : L → Nat) (stack : List (L × Hold)) : Prop :=
  stack.Pairwise fun x y => rank y.1 < rank x.1

omit [DecidableEq L] in
theorem above_iff {lock : L} :
    Above rank lock stack = true ↔
      NotQueued stack = true ∧ ∀ x ∈ stack, rank x.1 < rank lock := by
  simp [Above]

theorem ordered_watch {e : Event (locks L)} (hstack : Ordered rank stack)
    (h : watch rank (some stack) e = some stack') : Ordered rank stack' := by
  obtain ⟨call, answer⟩ := e
  cases call with
  | read lock =>
    obtain ⟨habove, heq⟩ := Option.ite_none_right_eq_some.mp h
    cases heq
    exact List.pairwise_cons.mpr ⟨(above_iff.mp habove).2, hstack⟩
  | queue lock =>
    obtain ⟨habove, heq⟩ := Option.ite_none_right_eq_some.mp h
    cases heq
    exact List.pairwise_cons.mpr ⟨(above_iff.mp habove).2, hstack⟩
  | write lock =>
    obtain ⟨hhead, heq⟩ := Option.ite_none_right_eq_some.mp h
    obtain ⟨rest, rfl⟩ := List.head?_eq_some_iff.mp hhead
    cases heq
    exact List.pairwise_cons.mpr (List.pairwise_cons.mp hstack)
  | release lock hold =>
    obtain ⟨⟨hhead, -⟩, heq⟩ := Option.ite_none_right_eq_some.mp h
    cases heq
    exact hstack.tail
  | choose =>
    obtain ⟨-, heq⟩ := Option.ite_none_right_eq_some.mp h
    cases heq
    exact hstack

/-- A breach of the order is never made good. -/
theorem exists_of_watch {before : Option (List (L × Hold))} {e : Event (locks L)}
    (h : watch rank before e = some stack') :
    ∃ stack, before = some stack ∧ watch rank (some stack) e = some stack' := by
  obtain ⟨stack, rfl, -⟩ := Option.bind_eq_some_iff.mp h
  exact ⟨stack, rfl, h⟩

theorem ordered_foldl {es : List (Event (locks L))}
    (h : es.foldl (watch rank) (some []) = some stack) : Ordered rank stack := by
  induction es using List.reverseRecOn generalizing stack with
  | nil =>
    cases h
    exact List.Pairwise.nil
  | append_singleton es e ih =>
    rw [List.foldl_append, List.foldl_cons, List.foldl_nil] at h
    obtain ⟨before, hbefore, hwatch⟩ := exists_of_watch h
    exact ordered_watch (ih hbefore) hwatch

/-! ## Pools -/

/-- What a thread of the pool has. -/
def stackOf (rank : L → Nat) {α : Type} (t : Task (locks L) α) : Option (List (L × Hold)) :=
  t.trail.foldl (watch rank) (some [])

/-- How much a thread has of something. -/
def has (rank : L → Nat) {α : Type} (x : L × Hold) (t : Task (locks L) α) : Nat :=
  ((stackOf rank t).getD []).count x

section Pool

variable {α : Type} {programs : List (Prog (locks L) α)}
  {ok : Config (Logged (locks L) (LockTable L)) (Task (locks L) α) →
    Label (Option Bool) Empty → Prop}
  {c : Config (Logged (locks L) (LockTable L)) (Task (locks L) α)}
  {t : Task (locks L) α}

/-- Every thread of the pool keeps to the order. -/
theorem exists_stack (hprograms : ∀ p ∈ programs, Orderly rank p)
    (h : ((lockService L).machine α).system.Reach ok (Task.pool (fun _ => 0) programs) c)
    (ht : t ∈ c.threads) :
    ∃ stack p, stackOf rank t = some stack ∧ Ordered rank stack ∧ t.rest = some p ∧
      p.Keeps (watch rank) (· ≠ none) (fun _ stack => stack = some []) (some stack) := by
  obtain ⟨p, hp, hrest | ⟨-, _, _, -, hawaits⟩⟩ := Service.keeps_of_reach hprograms h ht
  · obtain ⟨stack, hstack⟩ := Option.ne_none_iff_exists'.mp hp.now
    refine ⟨stack, p, hstack, ordered_foldl hstack, hrest, ?_⟩
    rw [← hstack]
    exact hp
  · cases hawaits

/-- A step changes the table by what it changes of the thread. -/
theorem count_step {sh sh' : Logged (locks L) (LockTable L)} {t' : Task (locks L) α}
    {a : Option Bool} (hstep : (lockService L).step sh t a = some (sh', t'))
    (hstack : stackOf rank t' = some stack') (hx : has rank x t ≤ sh.state x) :
    sh'.state x + has rank x t = sh.state x + has rank x t' := by
  obtain ⟨call, next, -, ⟨choice, s', answer, -, hrespond, rfl, rfl⟩ | ⟨-, hawaits, -, -⟩⟩ :=
    Service.step_cases hstep
  · have hwatch : watch rank (stackOf rank t) ⟨call, answer⟩ = some stack' := by
      rw [← hstack, stackOf, stackOf, List.foldl_append, List.foldl_cons, List.foldl_nil]
    obtain ⟨stack, hbefore, hwatch⟩ := exists_of_watch hwatch
    rw [has, hbefore] at hx ⊢
    rw [has, hstack]
    exact count_respond hrespond hwatch hx
  · cases hawaits

/-- The table counts what the threads of the pool have. -/
theorem table_eq_sum (hprograms : ∀ p ∈ programs, Orderly rank p)
    (h : ((lockService L).machine α).system.Reach ok (Task.pool (fun _ => 0) programs) c)
    (x : L × Hold) : c.shared.state x = (c.threads.map (has rank x)).sum := by
  induction h with
  | refl =>
    have hnew : ∀ p : Prog (locks L) α, has rank x (.new p) = 0 := fun _ => rfl
    simp [Task.pool, List.map_map, Function.comp_def, hnew]
  | @tail c c' label hreach hok hstep ih =>
    cases label with
    | env e => exact e.elim
    | thread i a =>
      obtain ⟨pre, t, post, sh', t', hsplit, rfl, hthread, rfl⟩ := Machine.thread_cases hstep
      have hmem : t' ∈ pre ++ t' :: post := List.mem_append_right _ List.mem_cons_self
      obtain ⟨stack, -, hstack, -⟩ := exists_stack hprograms (hreach.tail hok hstep) hmem
      rw [hsplit, sum_map_middle] at ih
      have hcount := count_step hthread hstack (x := x) (by omega)
      rw [sum_map_middle]
      change sh'.state x = _
      omega

/-- Whatever the table counts, some thread has. -/
theorem exists_has (hprograms : ∀ p ∈ programs, Orderly rank p)
    (h : ((lockService L).machine α).system.Reach ok (Task.pool (fun _ => 0) programs) c)
    (hx : c.shared.state x ≠ 0) :
    ∃ t ∈ c.threads, ∃ stack, stackOf rank t = some stack ∧ x ∈ stack := by
  by_contra hno
  refine hx ((table_eq_sum hprograms h x).trans (List.sum_eq_zero ?_))
  intro n hn
  obtain ⟨t, ht, rfl⟩ := List.mem_map.mp hn
  obtain ⟨stack, -, hstack, -⟩ := exists_stack hprograms h ht
  rw [has, hstack]
  exact List.count_eq_zero.mpr fun hmem => hno ⟨t, ht, stack, hstack, hmem⟩

/-! ### Waiting -/

/-- **Why a call has to wait.** -/
theorem awaited_of_respond_eq_none (h : ∀ choice, (lockService L).respond s call choice = none) :
    ∃ lock, (call = .read lock ∧ (s (lock, .writing) ≠ 0 ∨ s (lock, .queued) ≠ 0)) ∨
      (call = .write lock ∧ (s (lock, .reading) ≠ 0 ∨ s (lock, .writing) ≠ 0)) := by
  have hfalse := h false
  cases call with
  | read lock =>
    refine ⟨lock, Or.inl ⟨rfl, ?_⟩⟩
    by_contra hno
    rw [not_or, not_not, not_not] at hno
    have hgranted : (lockService L).respond s (.read lock) false = some _ := if_pos hno
    rw [hgranted] at hfalse
    cases hfalse
  | write lock =>
    refine ⟨lock, Or.inr ⟨rfl, ?_⟩⟩
    by_contra hno
    rw [not_or, not_not, not_not] at hno
    have hgranted : (lockService L).respond s (.write lock) false = some _ := if_pos hno
    rw [hgranted] at hfalse
    cases hfalse
  | queue lock => cases hfalse
  | release lock hold => cases hfalse
  | choose => cases hfalse

/-- The thread waits for the lock. -/
def Waits (s : LockTable L) (t : Task (locks L) α) (lock : L) : Prop :=
  ∃ call next, t.rest = some (.call call next) ∧
    ((call = .read lock ∧ (s (lock, .writing) ≠ 0 ∨ s (lock, .queued) ≠ 0)) ∨
      (call = .write lock ∧ (s (lock, .reading) ≠ 0 ∨ s (lock, .writing) ≠ 0)))

/-- What a thread has is below the lock that it waits for, but for its place in the queue. -/
theorem rank_lt_of_waits (hprograms : ∀ p ∈ programs, Orderly rank p)
    (h : ((lockService L).machine α).system.Reach ok (Task.pool (fun _ => 0) programs) c)
    (ht : t ∈ c.threads) (hstack : stackOf rank t = some stack) (hx : x ∈ stack) {lock : L}
    (hwaits : Waits c.shared.state t lock) :
    rank x.1 < rank lock ∨ x = (lock, .queued) ∧
      (c.shared.state (lock, .reading) ≠ 0 ∨ c.shared.state (lock, .writing) ≠ 0) := by
  obtain ⟨stack', p, hstack', hordered, hrest, hkeeps⟩ := exists_stack hprograms h ht
  obtain rfl : stack' = stack := Option.some.inj (hstack'.symm.trans hstack)
  obtain ⟨call, next, hcall, hwhy⟩ := hwaits
  obtain rfl : p = .call call next := Option.some.inj (hrest.symm.trans hcall)
  rcases hwhy with ⟨rfl, -⟩ | ⟨rfl, hheld⟩
  · obtain ⟨after, hafter⟩ := Option.ne_none_iff_exists'.mp (hkeeps.2 ()).now
    obtain ⟨habove, -⟩ := Option.ite_none_right_eq_some.mp hafter
    exact Or.inl ((above_iff.mp habove).2 x hx)
  · obtain ⟨after, hafter⟩ := Option.ne_none_iff_exists'.mp (hkeeps.2 ()).now
    obtain ⟨hhead, -⟩ := Option.ite_none_right_eq_some.mp hafter
    obtain ⟨below, rfl⟩ := List.head?_eq_some_iff.mp hhead
    rcases List.mem_cons.mp hx with rfl | hbelow
    · exact Or.inr ⟨rfl, hheld⟩
    · exact Or.inl ((List.pairwise_cons.mp hordered).1 x hbelow)

/-- Nobody can go on. -/
def Stuck (c : Config (Logged (locks L) (LockTable L)) (Task (locks L) α)) : Prop :=
  ∀ label c', ((lockService L).machine α).system.step c label ≠ some c'

/-- In a pool that is stuck, whoever has something left to do waits. -/
theorem Stuck.waits (hstuck : Stuck c) (ht : t ∈ c.threads)
    {next : (locks L).Answer call → Prog (locks L) α} (hrest : t.rest = some (.call call next)) :
    ∃ lock, Waits c.shared.state t lock := by
  have hnone : ∀ choice, (lockService L).respond c.shared.state call choice = none := by
    intro choice
    rw [Option.eq_none_iff_forall_ne_some]
    intro r hr
    obtain ⟨pre, post, hsplit⟩ := List.append_of_mem ht
    obtain ⟨⟨sh', t'⟩, hstep⟩ :
        ∃ r', ((lockService L).machine α).thread c.shared t (some choice) = some r' := by
      simp only [Service.machine, Service.step, hrest, hr, Option.map_some]
      exact ⟨_, rfl⟩
    have hmachine := Machine.step_middle pre post hstep
    rw [← hsplit] at hmachine
    exact hstuck (.thread pre.length (some choice)) ⟨sh', pre ++ t' :: post⟩ hmachine
  obtain ⟨lock, hwhy⟩ := awaited_of_respond_eq_none hnone
  exact ⟨lock, call, next, hrest, hwhy⟩

/-- And so does whoever has something of a lock. -/
theorem Stuck.waits_of_has (hstuck : Stuck c) (hprograms : ∀ p ∈ programs, Orderly rank p)
    (h : ((lockService L).machine α).system.Reach ok (Task.pool (fun _ => 0) programs) c)
    (ht : t ∈ c.threads) (hstack : stackOf rank t = some stack) (hx : x ∈ stack) :
    ∃ lock, Waits c.shared.state t lock := by
  obtain ⟨stack', p, hstack', -, hrest, hkeeps⟩ := exists_stack hprograms h ht
  obtain rfl : stack' = stack := Option.some.inj (hstack'.symm.trans hstack)
  cases p with
  | done a =>
    cases hkeeps.2
    cases hx
  | call call next => exact hstuck.waits ht hrest

/-- **Whoever waits, waits for someone who waits for a higher lock.** -/
theorem Stuck.climb (hstuck : Stuck c) (hprograms : ∀ p ∈ programs, Orderly rank p)
    (h : ((lockService L).machine α).system.Reach ok (Task.pool (fun _ => 0) programs) c)
    {lock : L} (hwaits : Waits c.shared.state t lock) :
    ∃ t' ∈ c.threads, ∃ lock', Waits c.shared.state t' lock' ∧ rank lock < rank lock' := by
  have hheld : ∀ hold, hold ≠ .queued → c.shared.state (lock, hold) ≠ 0 →
      ∃ t' ∈ c.threads, ∃ lock', Waits c.shared.state t' lock' ∧ rank lock < rank lock' := by
    intro hold hhold hsome
    obtain ⟨t', ht', stack, hstack, hmem⟩ := exists_has hprograms h hsome
    obtain ⟨lock', hwaits'⟩ := hstuck.waits_of_has hprograms h ht' hstack hmem
    rcases rank_lt_of_waits hprograms h ht' hstack hmem hwaits' with hlt | ⟨heq, -⟩
    · exact ⟨t', ht', lock', hwaits', hlt⟩
    · cases heq
      exact absurd rfl hhold
  obtain ⟨call, next, -, ⟨-, hwriting | hqueued⟩ | ⟨-, hreading | hwriting⟩⟩ := hwaits
  · exact hheld .writing (by simp) hwriting
  · -- the writer in the queue waits for a higher lock, or for those who have this one
    obtain ⟨t', ht', stack, hstack, hmem⟩ := exists_has hprograms h hqueued
    obtain ⟨lock', hwaits'⟩ := hstuck.waits_of_has hprograms h ht' hstack hmem
    rcases rank_lt_of_waits hprograms h ht' hstack hmem hwaits' with
      hlt | ⟨heq, hreading | hwriting⟩
    · exact ⟨t', ht', lock', hwaits', hlt⟩
    · cases heq
      exact hheld .reading (by simp) hreading
    · cases heq
      exact hheld .writing (by simp) hwriting
  · exact hheld .reading (by simp) hreading
  · exact hheld .writing (by simp) hwriting

/-- The rank of the lock that a thread waits for. -/
def awaitedRank (rank : L → Nat) (t : Task (locks L) α) : Nat :=
  match t.rest with
  | some (.call (.read lock) _) => rank lock
  | some (.call (.write lock) _) => rank lock
  | _ => 0

omit [DecidableEq L] in
theorem awaitedRank_eq {lock : L} (h : Waits s t lock) : awaitedRank rank t = rank lock := by
  obtain ⟨call, next, hrest, ⟨rfl, -⟩ | ⟨rfl, -⟩⟩ := h <;> simp [awaitedRank, hrest]

/-- **A pool never gets stuck**: as long as a thread is not done, some thread can go on. -/
theorem progress (hprograms : ∀ p ∈ programs, Orderly rank p)
    (h : ((lockService L).machine α).system.Reach ok (Task.pool (fun _ => 0) programs) c) :
    (∀ t ∈ c.threads, ∃ a, t.rest = some (.done a)) ∨
      ∃ label c', ((lockService L).machine α).system.step c label = some c' := by
  by_contra hnot
  obtain ⟨hundone, hblocked⟩ := not_or.mp hnot
  have hstuck : Stuck c := fun label c' hstep => hblocked ⟨label, c', hstep⟩
  -- there are threads that wait for ever higher locks, but only finitely many threads
  have hclimb : ∀ n, ∃ t ∈ c.threads, ∃ lock, Waits c.shared.state t lock ∧ n ≤ rank lock := by
    intro n
    induction n with
    | zero =>
      obtain ⟨t, ht⟩ := not_forall.mp hundone
      obtain ⟨hmem, hrest⟩ := Classical.not_imp.mp ht
      obtain ⟨_, p, -, -, hp, -⟩ := exists_stack hprograms h hmem
      cases p with
      | done a => exact absurd ⟨a, hp⟩ hrest
      | call call next =>
        obtain ⟨lock, hwaits⟩ := hstuck.waits hmem hp
        exact ⟨t, hmem, lock, hwaits, Nat.zero_le _⟩
    | succ n ih =>
      obtain ⟨t, -, lock, hwaits, hle⟩ := ih
      obtain ⟨t', ht', lock', hwaits', hlt⟩ := hstuck.climb hprograms h hwaits
      exact ⟨t', ht', lock', hwaits', by omega⟩
  obtain ⟨t, ht, lock, hwaits, hle⟩ := hclimb ((c.threads.map (awaitedRank rank)).sum + 1)
  have hbound : awaitedRank rank t ≤ (c.threads.map (awaitedRank rank)).sum :=
    List.single_le_sum (fun _ _ => Nat.zero_le _) _ (List.mem_map_of_mem ht)
  rw [awaitedRank_eq hwaits] at hbound
  omega

/-! ### Running to the end -/

/-- How many calls a program makes at most. -/
def size : Prog (locks L) α → Nat
  | .done _ => 0
  | .call .choose next => max (size (next true)) (size (next false)) + 1
  | .call (.read _) next => size (next ()) + 1
  | .call (.queue _) next => size (next ()) + 1
  | .call (.write _) next => size (next ()) + 1
  | .call (.release _ _) next => size (next ()) + 1

omit [DecidableEq L] in
theorem size_lt (next : (locks L).Answer call → Prog (locks L) α) (answer : (locks L).Answer call) :
    size (next answer) < size (.call call next) := by
  cases call with
  | choose =>
    rw [size, Nat.lt_succ_iff]
    cases (show Bool from answer) with
    | true => exact Nat.le_max_left _ _
    | false => exact Nat.le_max_right _ _
  | read lock => exact Nat.lt_succ_self _
  | queue lock => exact Nat.lt_succ_self _
  | write lock => exact Nat.lt_succ_self _
  | release lock hold => exact Nat.lt_succ_self _

/-- How many calls a thread has left at most. -/
def sizeLeft (t : Task (locks L) α) : Nat := (t.rest.map size).getD 0

theorem sizeLeft_step {sh sh' : Logged (locks L) (LockTable L)} {t' : Task (locks L) α}
    {a : Option Bool} (h : (lockService L).step sh t a = some (sh', t')) :
    sizeLeft t' < sizeLeft t := by
  obtain ⟨call, next, hrest, ⟨_, _, answer, -, -, -, rfl⟩ | ⟨-, hawaits, -⟩⟩ :=
    Service.step_cases h
  · simp only [sizeLeft, hrest, Option.map_some, Option.getD_some]
    exact size_lt next answer
  · cases hawaits

/-- **Every pool can run to the end**, wherever it has got to. -/
theorem completes (hprograms : ∀ p ∈ programs, Orderly rank p)
    (h : ((lockService L).machine α).system.Reach System.Anything
      (Task.pool (fun _ => 0) programs) c) :
    ∃ c', ((lockService L).machine α).system.Reach System.Anything c c' ∧
      ∀ t ∈ c'.threads, ∃ a, t.rest = some (.done a) := by
  induction hn : (c.threads.map sizeLeft).sum using Nat.strong_induction_on generalizing c with
  | _ n ih =>
    rcases progress hprograms h with hdone | ⟨label, c', hstep⟩
    · exact ⟨c, .refl, hdone⟩
    · have hless : (c'.threads.map sizeLeft).sum < n := by
        cases label with
        | env e => exact e.elim
        | thread i a =>
          obtain ⟨pre, t, post, sh', t', hsplit, rfl, hthread, rfl⟩ := Machine.thread_cases hstep
          have ht := sizeLeft_step hthread
          rw [hsplit, sum_map_middle] at hn
          rw [sum_map_middle]
          omega
      obtain ⟨c'', hrun, hdone⟩ := ih _ hless (h.tail trivial hstep) rfl
      exact ⟨c'', (System.Reach.refl.tail trivial hstep).trans hrun, hdone⟩

end Pool

end Order

end LockOrder
