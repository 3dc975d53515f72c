import Rauta.Common
import Rauta.Lib.Interleaving

/-!
# Graceful shutdown

`serve_with_shutdown` runs two tasks over a counter of open connections. The acceptor counts a
connection and spawns its task, which counts itself out when it is over. The drainer waits for the
signal and then looks at the counter every 100 ms, for 30 s at most; when it sees none left it
notifies the acceptor, which returns. With that the process ends, and so do the connections that are
still served.

The acceptor does not stop accepting when the signal comes. It may count a connection after the
drainer has looked for the last time, so "none left" is about the connections that were counted by
then, and no others (`Graceful`).
-/

namespace Rauta

open Interleaving Transition

/-- `drain_timeout`, in nanoseconds. -/
def drainTimeout : Nat := 30 * 10 ^ 9

/-- Between two looks at the counter, in nanoseconds. -/
def drainInterval : Nat := 100 * 10 ^ 6

/-- The loop of `serve_with_shutdown`: at the `select!`, between `accept` and `fetch_add`, or
returned. -/
inductive Acceptor where
  | selecting
  | counting
  | returned (result : Except Str Unit)

/-- The drain task: waiting for the signal; about to load the counter, to check the time, or to
sleep on, since `start`; out of the loop, and after `notify_one`. -/
inductive Drainer where
  | waiting
  | loading (start : Nat)
  | checking (start : Nat)
  | sleeping (start wake : Nat)
  | finished (start : Nat) (timedOut : Bool)
  | notified (start : Nat) (timedOut : Bool)
  deriving DecidableEq

/-- What the tasks share, with the two tasks themselves. `permit` is the stored permit of the
`Notify`. -/
structure Server where
  now : Nat
  activeConnections : Nat
  permit : Bool
  acceptor : Acceptor
  drainer : Drainer

/-- A client: not accepted, accepted but not counted, served, over but not counted out, and counted
out. A connection is late if it was counted after the drainer had left its loop. -/
inductive Connection where
  | connecting
  | accepted
  | serving (late : Bool)
  | ended
  | released
  deriving DecidableEq

/-- A step on behalf of a connection. -/
inductive ConnectionStep where
  | accept
  | count
  | serveEnds
  | release

/-- A step of the clock, of the drainer or of the acceptor. -/
inductive ServerStep where
  | tick (duration : Nat)
  | signal
  | drain
  | stop
  | acceptFails (error : Str)

namespace Drainer

/-- The drainer has left its loop. -/
def isOut : Drainer → Bool
  | .finished _ _ | .notified _ _ => true
  | _ => false

end Drainer

namespace Server

/-- `fetch_add(1)` of an `AtomicUsize`. -/
def countIn (s : Server) : Server :=
  { s with activeConnections := (s.activeConnections + 1) % 2 ^ 64 }

/-- `fetch_sub(1)`, which wraps around. -/
def countOut (s : Server) : Server :=
  { s with activeConnections := (s.activeConnections + 2 ^ 64 - 1) % 2 ^ 64 }

/-- One step of the drain task. -/
def drain (s : Server) : Server :=
  match s.drainer with
  | .waiting => s
  | .loading start =>
    { s with drainer := if s.activeConnections > 0 then .checking start else .finished start false }
  | .checking start =>
    { s with
      drainer :=
        if s.now - start > drainTimeout then .finished start true
        else .sleeping start (s.now + drainInterval) }
  | .sleeping start wake => if wake ≤ s.now then { s with drainer := .loading start } else s
  | .finished start timedOut => { s with permit := true, drainer := .notified start timedOut }
  | .notified _ _ => s

/-- The steps that no connection takes; one that is not enabled changes nothing. -/
def step (s : Server) : ServerStep → Server
  | .tick duration => { s with now := s.now + duration }
  | .signal =>
    match s.drainer with
    | .waiting => { s with drainer := .loading s.now }
    | _ => s
  | .drain => s.drain
  | .stop =>
    match s.acceptor, s.permit with
    | .selecting, true => { s with permit := false, acceptor := .returned (.ok ()) }
    | _, _ => s
  | .acceptFails e =>
    match s.acceptor with
    | .selecting =>
      { s with acceptor := .returned (.error ("Failed to accept connection: ".toList ++ e)) }
    | _ => s

end Server

/-- The steps on behalf of a connection. -/
def connectionStep (s : Server) : Connection → ConnectionStep → Option (Server × Connection)
  | .connecting, .accept =>
    match s.acceptor with
    | .selecting => some ({ s with acceptor := .counting }, .accepted)
    | _ => none
  | .accepted, .count =>
    match s.acceptor with
    | .counting => some ({ s.countIn with acceptor := .selecting }, .serving s.drainer.isOut)
    | _ => none
  | .serving _, .serveEnds => some (s, .ended)
  | .ended, .release => some (s.countOut, .released)
  | _, _ => none

/-- The server and its clients. -/
def shutdownMachine : Machine Server Connection ConnectionStep ServerStep where
  thread := connectionStep
  env := Server.step

/-- The server at its start, with the clients that are going to connect. -/
def shutdownStart (clients : Nat) : Config Server Connection :=
  ⟨⟨0, 0, false, .selecting, .waiting⟩, List.replicate clients .connecting⟩

/-! ## What the tasks can do -/

/-- The share of a connection in the counter. -/
def Connection.counted : Connection → Nat
  | .serving _ | .ended => 1
  | _ => 0

theorem sum_counted_le (ts : List Connection) : (ts.map Connection.counted).sum ≤ ts.length := by
  induction ts with
  | nil => exact Nat.le_refl 0
  | cons t ts ih =>
      have ht : t.counted ≤ 1 := by cases t <;> simp [Connection.counted]
      simp only [List.map_cons, List.sum_cons, List.length_cons]
      omega

/-- What is known of the drainer at any time: it does not sleep past the timeout, it gives up
only after the timeout, and otherwise leaves no connection behind that was counted before. -/
def Drainer.Sound (now : Nat) (ts : List Connection) : Drainer → Prop
  | .waiting => True
  | .loading start => start ≤ now
  | .checking start => start ≤ now
  | .sleeping start wake => start ≤ now ∧ wake ≤ start + drainTimeout + drainInterval
  | .finished start true | .notified start true => start + drainTimeout < now
  | .finished start false | .notified start false => start ≤ now ∧ .serving false ∉ ts

/-- The drainer has notified the acceptor. -/
def Drainer.HasNotified : Drainer → Prop
  | .notified _ _ => True
  | _ => False

/-- The invariant: the counter is exact, the drainer is sound, and the acceptor only stops when it
is told to. -/
structure Graceful (s : Server) (ts : List Connection) : Prop where
  few : ts.length < 2 ^ 64
  exact : s.activeConnections = (ts.map Connection.counted).sum
  drainer : s.drainer.Sound s.now ts
  permit : s.permit = true → s.drainer.HasNotified
  returned : s.acceptor = .returned (.ok ()) → s.drainer.HasNotified

variable {s : Server} {ts pre post : List Connection} {l l' : Connection}

namespace Drainer.Sound

variable {d : Drainer} {now now' : Nat}

/-- Time may pass. -/
theorem mono (h : d.Sound now ts) (hnow : now ≤ now') : d.Sound now' ts := by
  cases d with
  | waiting => trivial
  | loading start => exact Nat.le_trans h hnow
  | checking start => exact Nat.le_trans h hnow
  | sleeping start wake => exact ⟨Nat.le_trans h.1 hnow, h.2⟩
  | finished start timedOut =>
      cases timedOut with
      | true => exact Nat.lt_of_lt_of_le h hnow
      | false => exact ⟨Nat.le_trans h.1 hnow, h.2⟩
  | notified start timedOut =>
      cases timedOut with
      | true => exact Nat.lt_of_lt_of_le h hnow
      | false => exact ⟨Nat.le_trans h.1 hnow, h.2⟩

/-- A connection may move, if it is not counted in without being late. -/
theorem replace (h : d.Sound now (pre ++ l :: post)) (hlate : d.isOut → l' ≠ .serving false) :
    d.Sound now (pre ++ l' :: post) := by
  have hnone : d.isOut → .serving false ∉ pre ++ l :: post →
      .serving false ∉ pre ++ l' :: post := by
    intro hout hnone
    simp only [List.mem_append, List.mem_cons, not_or] at hnone ⊢
    exact ⟨hnone.1, (hlate hout).symm, hnone.2.2⟩
  cases d with
  | waiting => trivial
  | loading start => exact h
  | checking start => exact h
  | sleeping start wake => exact h
  | finished start timedOut =>
      cases timedOut with
      | true => exact h
      | false => exact ⟨h.1, hnone rfl h.2⟩
  | notified start timedOut =>
      cases timedOut with
      | true => exact h
      | false => exact ⟨h.1, hnone rfl h.2⟩

end Drainer.Sound

namespace Graceful

/-- If the counter is zero, nobody is served. -/
theorem not_serving_of_zero (h : Graceful s ts) (hzero : s.activeConnections = 0) (late : Bool) :
    .serving late ∉ ts := by
  intro hmem
  obtain ⟨pre, post, rfl⟩ := List.append_of_mem hmem
  have hexact := h.exact
  rw [sum_map_middle, hzero] at hexact
  simp only [Connection.counted] at hexact
  omega

/-- While the drainer is in its loop, it may go on as it likes. -/
theorem withDrainer {d : Drainer} (h : Graceful s ts) (hloop : ¬ s.drainer.HasNotified)
    (hd : d.Sound s.now ts) : Graceful { s with drainer := d } ts :=
  ⟨h.few, h.exact, hd, fun hpermit => absurd (h.permit hpermit) hloop,
    fun hreturned => absurd (h.returned hreturned) hloop⟩

/-- The drain task keeps the invariant. At its last look it has nobody to wait for. -/
theorem drain (h : Graceful s ts) : Graceful s.drain ts := by
  have hsound := h.drainer
  unfold Server.drain
  cases hd : s.drainer with
  | waiting => exact h
  | loading start =>
      rw [hd] at hsound
      refine h.withDrainer (by simp [hd, Drainer.HasNotified]) ?_
      split
      · exact hsound
      · exact ⟨hsound, h.not_serving_of_zero (by omega) false⟩
  | checking start =>
      rw [hd] at hsound
      have hstart : start ≤ s.now := hsound
      refine h.withDrainer (by simp [hd, Drainer.HasNotified]) ?_
      split
      · show start + drainTimeout < s.now
        omega
      · exact ⟨hstart, by omega⟩
  | sleeping start wake =>
      rw [hd] at hsound
      show Graceful (if wake ≤ s.now then { s with drainer := .loading start } else s) ts
      split
      · exact h.withDrainer (by simp [hd, Drainer.HasNotified]) hsound.1
      · exact h
  | finished start timedOut =>
      rw [hd] at hsound
      refine ⟨h.few, h.exact, ?_, fun _ => trivial, fun _ => trivial⟩
      cases timedOut with
      | true => exact hsound
      | false => exact hsound
  | notified start timedOut => exact h

/-- So do the other steps that no connection takes. -/
theorem step (h : Graceful s ts) (a : ServerStep) : Graceful (s.step a) ts := by
  cases a with
  | tick duration =>
      exact ⟨h.few, h.exact, h.drainer.mono (Nat.le_add_right ..), h.permit, h.returned⟩
  | signal =>
      simp only [Server.step]
      split
      · next hd =>
          refine h.withDrainer (by simp [hd, Drainer.HasNotified]) ?_
          exact Nat.le_refl s.now
      · exact h
  | drain => exact h.drain
  | stop =>
      simp only [Server.step]
      split
      · next hpermit => exact ⟨h.few, h.exact, h.drainer, nofun, fun _ => h.permit hpermit⟩
      · exact h
  | acceptFails e =>
      simp only [Server.step]
      split
      · exact ⟨h.few, h.exact, h.drainer, h.permit, nofun⟩
      · exact h

/-- So do the steps of a connection. -/
theorem connectionStep {a : ConnectionStep} {s' : Server} (h : Graceful s (pre ++ l :: post))
    (hstep : connectionStep s l a = some (s', l')) : Graceful s' (pre ++ l' :: post) := by
  have hfew : (pre ++ l' :: post).length < 2 ^ 64 := by simpa using h.few
  have hexact := h.exact
  have hrest := sum_counted_le (pre ++ post)
  have hlength := h.few
  simp only [List.length_append, List.length_cons] at hrest hlength
  rw [sum_map_middle] at hexact
  unfold Rauta.connectionStep at hstep
  split at hstep
  · split at hstep
    · cases hstep
      refine ⟨hfew, ?_, h.drainer.replace (fun _ => nofun), h.permit, nofun⟩
      rw [sum_map_middle]
      exact hexact
    · cases hstep
  · split at hstep
    · cases hstep
      refine ⟨hfew, ?_, ?_, h.permit, nofun⟩
      · rw [sum_map_middle]
        simp only [Connection.counted] at hexact ⊢
        show (s.activeConnections + 1) % 2 ^ 64 = _
        omega
      · refine h.drainer.replace ?_
        intro hout
        simp [hout]
    · cases hstep
  · cases hstep
    refine ⟨hfew, ?_, h.drainer.replace (fun _ => nofun), h.permit, h.returned⟩
    rw [sum_map_middle]
    exact hexact
  · cases hstep
    have hdrainer : s.drainer.Sound s.now (pre ++ .released :: post) :=
      h.drainer.replace (fun _ => nofun)
    unfold Server.countOut
    refine ⟨hfew, ?_, hdrainer, h.permit, h.returned⟩
    rw [sum_map_middle]
    simp only [Connection.counted] at hexact ⊢
    omega
  · cases hstep

end Graceful

/-! ## The whole shutdown -/

theorem graceful_of_reach {clients : Nat} {c : Config Server Connection} (hfew : clients < 2 ^ 64)
    (h : shutdownMachine.system.Reach System.Anything (shutdownStart clients) c) :
    Graceful c.shared c.threads := by
  refine Machine.invariant ?_ ?_ ?_ h
  · refine ⟨by simpa [shutdownStart] using hfew, ?_, trivial, nofun, nofun⟩
    simp [shutdownStart, Connection.counted]
  · intro s ts a hs _
    exact hs.step a
  · intro s pre l post a s' l' hs _ hstep
    exact hs.connectionStep hstep

end Rauta
