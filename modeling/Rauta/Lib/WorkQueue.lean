import Mathlib.Logic.Function.Basic

/-!
# The work queue of a controller

A controller calls its reconciler for the key of an object when the key is due. The watch makes a
key due by delivering a version of the object. After a call it is the call's own answer that
decides: the key is due again after a delay, or it is *idle*, and only another delivery ends that.

An object that is deleted is not delivered: it is gone from the store, and a call that is due for it
is dropped.
-/

namespace WorkQueue

/-- What a call asks for. -/
inductive Action where
  | awaitChange
  | requeue (delay : Nat)

/-- The objects that the watch has delivered, and when each key is due. -/
structure Queue (κ ω : Type) where
  store : κ → Option ω
  due : κ → Option Nat

namespace Queue

variable {κ ω : Type}

/-- Nothing was delivered yet. -/
def empty : Queue κ ω := ⟨fun _ => none, fun _ => none⟩

/-- No call is going to be made for the key. -/
def Idle (q : Queue κ ω) (key : κ) : Prop := q.due key = none

/-- A call for the key is due. -/
def Ready (q : Queue κ ω) (now : Nat) (key : κ) : Prop := ∃ time ∈ q.due key, time ≤ now

instance (q : Queue κ ω) (now : Nat) (key : κ) : Decidable (q.Ready now key) :=
  inferInstanceAs (Decidable (∃ time ∈ q.due key, time ≤ now))

theorem Ready.not_idle {q : Queue κ ω} {now : Nat} {key : κ} (h : q.Ready now key) :
    ¬ q.Idle key := by
  intro hidle
  obtain ⟨time, htime, -⟩ := h
  rw [hidle] at htime
  cases htime

variable [DecidableEq κ]

/-- The watch delivers a version: the key is due now, if it was not before. -/
def deliver (q : Queue κ ω) (now : Nat) (key : κ) (object : ω) : Queue κ ω where
  store := Function.update q.store key (some object)
  due := Function.update q.due key (some (((q.due key).map (min now)).getD now))

/-- The watch reports a deletion. -/
def delete (q : Queue κ ω) (key : κ) : Queue κ ω :=
  { q with store := Function.update q.store key none }

/-- A call for the key has returned. -/
def settle (q : Queue κ ω) (now : Nat) (key : κ) : Action → Queue κ ω
  | .awaitChange => { q with due := Function.update q.due key none }
  | .requeue delay => { q with due := Function.update q.due key (some (now + delay)) }

variable (q : Queue κ ω) (now : Nat) (key key' : κ) (object : ω) (action : Action)

@[simp] theorem store_settle : (q.settle now key action).store = q.store := by
  cases action <;> rfl

theorem not_idle_deliver : ¬ (q.deliver now key object).Idle key := by
  simp [Idle, deliver]

/-- A call leaves its key idle exactly if it asks for nothing. -/
theorem idle_settle_self : (q.settle now key action).Idle key ↔ action = .awaitChange := by
  cases action <;> simp [Idle, settle]

variable {key key'}

theorem store_deliver_of_ne (h : key' ≠ key) :
    (q.deliver now key object).store key' = q.store key' :=
  Function.update_of_ne h ..

theorem idle_deliver_of_ne (h : key' ≠ key) :
    (q.deliver now key object).Idle key' ↔ q.Idle key' := by
  simp [Idle, deliver, Function.update_of_ne h]

theorem idle_settle_of_ne (h : key' ≠ key) :
    (q.settle now key action).Idle key' ↔ q.Idle key' := by
  cases action <;> simp [Idle, settle, Function.update_of_ne h]

end Queue

end WorkQueue
