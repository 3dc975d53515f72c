import Mathlib.Algebra.Ring.Nat
import Mathlib.Logic.Relation
import Rauta.Common
import Rauta.Lib.Transition

/-!
# The HTTP/2 connection pool

An `Http2Pool` holds the connections to one backend. `get_connection` hands out one that is ready,
and connects if there is none and the pool is below its limit; `prewarm` connects as often as the
limit says. Five failures in a row halve the limit, ten close the pool for a while.

Between the calls the backend may close connections. A closed connection is never ready again
(`Http2Connection.isReady`), but nothing in the pool looks at this: a connection leaves the pool
when its state is `Failed`, and no code sets that state (`AllActive`). So a closed connection keeps
its place for ever, which is what `Capacity` relies on and what `DeadFit` has to ask about.

Times are in nanoseconds. The counters that only feed metrics are left out.
-/

namespace Rauta

open Transition

/-! ## Data -/

/-- `ConnectionState`. -/
inductive ConnectionState where
  | active
  | draining
  | failed
  deriving DecidableEq

/-- `HealthState`. -/
inductive HealthState where
  | healthy
  | degraded
  | unhealthy
  deriving DecidableEq

/-- `PoolError`. -/
inductive PoolError where
  | circuitBreakerOpen
  | connectionFailed (message : Str)
  | handshakeFailed (message : Str)
  | noCapacity
  | queueTimeout
  deriving DecidableEq

/-- `Http2Connection`; of its sender we keep whether the connection is still open. -/
structure Http2Connection where
  isOpen : Bool
  state : ConnectionState
  deriving DecidableEq

/-- `sender.is_ready()`: false for a closed connection, up to the peer for an open one. -/
def Http2Connection.isReady (c : Http2Connection) (peerReady : Bool) : Bool := c.isOpen && peerReady

/-- `Http2Pool`. -/
structure Http2Pool where
  connections : List Http2Connection
  maxConnections : Nat
  nextConnIndex : Nat
  healthState : HealthState
  consecutiveFailures : Nat
  lastSuccess : Nat
  deriving DecidableEq

/-- How an attempt to connect can fail. -/
inductive ConnectError where
  | timedOut
  | refused (message : Str)
  | handshake (message : Str)

/-- What becomes of an attempt to connect, and how long it takes. -/
structure Attempt where
  error : Option ConnectError
  took : Nat

/-- The error that `create_connection` makes of a failed attempt. -/
def ConnectError.toPoolError : ConnectError → PoolError
  | .timedOut => .connectionFailed "Connection timeout after 5s".toList
  | .refused message => .connectionFailed message
  | .handshake message => .handshakeFailed message

namespace Http2Pool

/-! ## The operations -/

/-- `Http2Pool::new`. -/
def new (now : Nat) : Http2Pool := ⟨[], 8, 0, .healthy, 0, now⟩

/-- `record_success`. -/
def recordSuccess (p : Http2Pool) (now : Nat) : Http2Pool :=
  { p with
    consecutiveFailures := 0
    lastSuccess := now
    healthState := if p.healthState = .degraded then .healthy else p.healthState }

/-- The first threshold of `record_failure`: a healthy pool is degraded and its limit halved. -/
def degrade (p : Http2Pool) : Http2Pool :=
  if p.consecutiveFailures ≥ 5 ∧ p.healthState = .healthy then
    -- the lower bound comes before the division, so a limit of one becomes zero
    { p with healthState := .degraded, maxConnections := max p.maxConnections 1 / 2 }
  else p

/-- The second threshold of `record_failure`. -/
def shut (p : Http2Pool) : Http2Pool :=
  if p.consecutiveFailures ≥ 10 then { p with healthState := .unhealthy } else p

/-- `record_failure`. -/
def recordFailure (p : Http2Pool) : Http2Pool :=
  { p with consecutiveFailures := (p.consecutiveFailures + 1) % 2 ^ 32 }.degrade.shut

/-- `create_connection`, for an attempt that ends now. -/
def createConnection (p : Http2Pool) (now : Nat) (attempt : Attempt) :
    Except PoolError Http2Connection × Http2Pool :=
  match attempt.error with
  | some e => (.error e.toPoolError, p.recordFailure)
  | none => (.ok ⟨true, .active⟩, p.recordSuccess now)

/-- `connections.push`. -/
def push (p : Http2Pool) (c : Http2Connection) : Http2Pool :=
  { p with connections := p.connections ++ [c] }

/-- The loop of `prewarm`: `count` rounds are left, and this is round `i`. -/
def prewarmLoop (attempts : Nat → Attempt) : (count i : Nat) → Http2Pool → (now : Nat) →
    Http2Pool × Nat
  | 0, _, p, now => (p, now)
  | count + 1, i, p, now =>
    let later := now + (attempts i).took
    match p.createConnection later (attempts i) with
    | (.ok c, p) => prewarmLoop attempts count (i + 1) (p.push c) later
    | (.error _, p) => (p, later)

/-- `prewarm`. The limit is read once, before the loop. -/
def prewarm (p : Http2Pool) (now : Nat) (attempts : Nat → Attempt) : Http2Pool × Nat :=
  prewarmLoop attempts p.maxConnections 0 p now

/-- The thirty seconds after which a closed pool is tried again. -/
def recoveryTimeout : Nat := 30000000000

/-- Step 1 of `get_connection`: the circuit breaker. -/
def recover (p : Http2Pool) (now : Nat) : Except PoolError Http2Pool :=
  if p.healthState = .unhealthy then
    if now - p.lastSuccess > recoveryTimeout then
      .ok { p with healthState := .degraded, consecutiveFailures := 0 }
    else .error .circuitBreakerOpen
  else .ok p

/-- Step 2: drop the failed connections. -/
def removeFailed (p : Http2Pool) : Http2Pool :=
  { p with connections := p.connections.filter fun c => c.state ≠ .failed }

/-- Step 3: the first connection that is ready, in round-robin order. -/
def nextReady (p : Http2Pool) (peerReady : Nat → Bool) : Option Nat :=
  ((List.range p.connections.length).map fun i =>
    (p.nextConnIndex + i) % p.connections.length).find? fun idx =>
      p.connections[idx]?.any fun c => c.state = .active && c.isReady (peerReady idx)

/-- `get_connection`. The result is the index of the connection whose sender is handed out. -/
def getConnection (p : Http2Pool) (now : Nat) (peerReady : Nat → Bool) (attempt : Attempt) :
    Except PoolError Nat × Http2Pool :=
  match p.recover now with
  | .error e => (.error e, p)
  | .ok p =>
    let p := p.removeFailed
    match p.nextReady peerReady with
    | some idx => (.ok idx, { p with nextConnIndex := (idx + 1) % p.connections.length })
    | none =>
      if p.connections.length < p.maxConnections then
        match p.createConnection (now + attempt.took) attempt with
        | (.error e, p) => (.error e, p)
        | (.ok c, p) => (.ok p.connections.length, p.push c)
      else (.error .noCapacity, p)

/-- The backend closes a connection. -/
def close (p : Http2Pool) (idx : Nat) : Http2Pool :=
  { p with connections := p.connections.modify idx fun c => { c with isOpen := false } }

/-- The connections that are still open. -/
def openConnections (p : Http2Pool) : Nat := p.connections.countP (·.isOpen)

/-- The connections that the backend has closed. -/
def deadConnections (p : Http2Pool) : Nat := p.connections.countP fun c => !c.isOpen

end Http2Pool

/-! ## Runs -/

/-- What happens to a pool. -/
inductive PoolEvent where
  | getConnection (peerReady : Nat → Bool) (attempt : Attempt)
  | prewarm (attempts : Nat → Attempt)
  | close (idx : Nat)
  | tick (ns : Nat)

/-- A pool and the clock. -/
structure ClockedPool where
  pool : Http2Pool
  now : Nat

/-- A new pool. -/
def ClockedPool.new : ClockedPool := ⟨.new 0, 0⟩

/-- One event. Connections that the backend closes while a call is waiting are closed before or
after it: a call that waits no longer looks at the connections it has. -/
def ClockedPool.event (s : ClockedPool) : PoolEvent → ClockedPool
  | .getConnection peerReady attempt =>
    ⟨(s.pool.getConnection s.now peerReady attempt).2, s.now + attempt.took⟩
  | .prewarm attempts => ⟨(s.pool.prewarm s.now attempts).1, (s.pool.prewarm s.now attempts).2⟩
  | .close idx => { s with pool := s.pool.close idx }
  | .tick ns => { s with now := s.now + ns }

/-- Events, one after the other. -/
def poolSystem : System ClockedPool PoolEvent := ⟨fun s e => some (s.event e)⟩

/-! ## What can happen to a pool -/

namespace Http2Pool

/-- The changes that the operations are made of. A failed attempt is recorded only in pools that
satisfy `Guard`. -/
inductive Change (Guard : Http2Pool → Prop) (p : Http2Pool) : Http2Pool → Prop
  | recover : p.healthState = .unhealthy →
      Change Guard p { p with healthState := .degraded, consecutiveFailures := 0 }
  | rotate (idx : Nat) : Change Guard p { p with nextConnIndex := idx }
  | connect (now : Nat) : Change Guard p ((p.recordSuccess now).push ⟨true, .active⟩)
  | fail : Guard p → Change Guard p p.recordFailure

/-- Changes, one after the other. -/
abbrev Changes (Guard : Http2Pool → Prop) : Http2Pool → Http2Pool → Prop :=
  Relation.ReflTransGen (Change Guard)

theorem Changes.invariant {Guard Inv : Http2Pool → Prop} {p p' : Http2Pool}
    (h : Changes Guard p p') (hp : Inv p) (hstep : ∀ p p', Inv p → Change Guard p p' → Inv p') :
    Inv p' := by
  induction h with
  | refl => exact hp
  | tail _ hchange ih => exact hstep _ _ ih hchange

/-- All connections are in the state in which they were made. -/
def AllActive (p : Http2Pool) : Prop := ∀ c ∈ p.connections, c.state = .active

variable {p p' : Http2Pool} {now : Nat} {peerReady : Nat → Bool} {attempt : Attempt}
  {Guard : Http2Pool → Prop}

/-- There is nothing to clean up. -/
theorem AllActive.removeFailed (h : p.AllActive) : p.removeFailed = p := by
  have hall : p.connections.filter (fun c => c.state ≠ .failed) = p.connections := by
    rw [List.filter_eq_self]
    intro c hc
    simp [h c hc]
  rw [Http2Pool.removeFailed, hall]

theorem recover_eq_ok (h : p.recover now = .ok p') : p' = p ∨ (p.healthState = .unhealthy ∧
    p' = { p with healthState := .degraded, consecutiveFailures := 0 }) := by
  unfold recover at h
  split at h
  · next hshut =>
    split at h
    · cases h
      exact Or.inr ⟨hshut, rfl⟩
    · cases h
  · cases h
    exact Or.inl rfl

theorem Changes.of_recover (h : p.recover now = .ok p') : Changes Guard p p' := by
  rcases recover_eq_ok h with rfl | ⟨hshut, rfl⟩
  · exact .refl
  · exact .single (.recover hshut)

theorem AllActive.recover (hp : p.AllActive) (h : p.recover now = .ok p') : p'.AllActive := by
  rcases recover_eq_ok h with rfl | ⟨-, rfl⟩
  · exact hp
  · exact hp

/-- `get_connection` records a failure only below the limit. -/
theorem getConnection_changes (hp : p.AllActive)
    (hguard : ∀ q : Http2Pool, q.connections.length < q.maxConnections → Guard q) :
    Changes Guard p (p.getConnection now peerReady attempt).2 := by
  unfold getConnection
  split
  · exact .refl
  · next q hrecover =>
    refine (Changes.of_recover hrecover).trans ?_
    simp only [(hp.recover hrecover).removeFailed]
    split
    · exact .single (.rotate _)
    · split
      · next hroom =>
        unfold createConnection
        cases attempt.error with
        | some e => exact .single (.fail (hguard q hroom))
        | none => exact .single (.connect _)
      · exact .refl

/-- `prewarm` records a failure in its first round, or right after a success. -/
theorem prewarmLoop_changes (attempts : Nat → Attempt)
    (hguard : ∀ q : Http2Pool, q.consecutiveFailures = 0 → Guard q) {count i : Nat}
    (hp : Guard p) : Changes Guard p (prewarmLoop attempts count i p now).1 := by
  induction count generalizing i p now with
  | zero => exact .refl
  | succ count ih =>
      simp only [prewarmLoop, createConnection]
      cases (attempts i).error with
      | some e => exact .single (.fail hp)
      | none =>
          have hconnect : Change Guard p ((p.recordSuccess (now + (attempts i).took)).push _) :=
            .connect _
          exact .head hconnect (ih (hguard _ rfl))

/-- No operation sets another state. -/
theorem AllActive.change (hp : p.AllActive) (h : Change Guard p p') : p'.AllActive := by
  cases h with
  | recover _ => exact hp
  | rotate idx => exact hp
  | connect now =>
      intro c hc
      rcases List.mem_append.mp hc with hc | hc
      · exact hp c hc
      · rw [List.mem_singleton.mp hc]
  | fail _ =>
      have hconnections : p.recordFailure.connections = p.connections := by
        unfold recordFailure shut degrade
        split <;> split <;> rfl
      intro c hc
      rw [hconnections] at hc
      exact hp c hc

theorem AllActive.of_new (now : Nat) : (new now).AllActive := by
  intro c hc
  cases hc

theorem AllActive.close (hp : p.AllActive) (idx : Nat) : (p.close idx).AllActive := by
  intro c hc
  obtain ⟨i, hi, rfl⟩ := List.getElem_of_mem hc
  have hi' : i < p.connections.length := by simpa [Http2Pool.close] using hi
  have := hp _ (List.getElem_mem hi')
  simp only [Http2Pool.close, List.getElem_modify]
  split
  · exact this
  · exact this

/-- **What an event does to the pool**: some changes, or a connection is closed. -/
theorem event_cases (Guard : Http2Pool → Prop) {s : ClockedPool} (e : PoolEvent)
    (hs : s.pool.AllActive)
    (hbelow : ∀ q : Http2Pool, q.connections.length < q.maxConnections → Guard q)
    (hafter : ∀ q : Http2Pool, q.consecutiveFailures = 0 → Guard q)
    (hprewarm : ∀ attempts, e = .prewarm attempts → Guard s.pool) :
    Changes Guard s.pool (s.event e).pool ∨ ∃ idx, (s.event e).pool = s.pool.close idx := by
  cases e with
  | getConnection peerReady attempt => exact Or.inl (getConnection_changes hs hbelow)
  | prewarm attempts => exact Or.inl (prewarmLoop_changes attempts hafter (hprewarm attempts rfl))
  | close idx => exact Or.inr ⟨idx, rfl⟩
  | tick ns => exact Or.inl .refl

theorem allActive_of_reach {s : ClockedPool} (h : poolSystem.Reach System.Anything .new s) :
    s.pool.AllActive := by
  induction h with
  | refl => exact .of_new 0
  | @tail s s' e _ _ hstep hs =>
      cases hstep
      rcases event_cases (fun _ => True) e hs (fun _ _ => trivial) (fun _ _ => trivial)
        (fun _ _ => trivial) with hchanges | ⟨idx, heq⟩
      · exact hchanges.invariant hs fun _ _ => AllActive.change
      · rw [heq]
        exact hs.close idx

/-! ## Closed connections -/

theorem openConnections_add_deadConnections (p : Http2Pool) :
    p.openConnections + p.deadConnections = p.connections.length := by
  have := List.length_eq_countP_add_countP (l := p.connections) (·.isOpen)
  simp only [Bool.not_eq_true, Bool.decide_eq_false] at this
  exact this.symm

/-- When a pool whose connections are all active reports that it has no capacity. -/
theorem getConnection_noCapacity_iff (hp : p.AllActive) :
    (p.getConnection now peerReady attempt).1 = .error .noCapacity ↔
      (∃ q, p.recover now = .ok q) ∧ p.nextReady peerReady = none ∧
        p.maxConnections ≤ p.connections.length := by
  have hkept : ∀ q, p.recover now = .ok q → q.nextReady peerReady = p.nextReady peerReady ∧
      q.connections = p.connections ∧ q.maxConnections = p.maxConnections := by
    intro q hq
    rcases recover_eq_ok hq with rfl | ⟨-, rfl⟩
    · exact ⟨rfl, rfl, rfl⟩
    · exact ⟨rfl, rfl, rfl⟩
  unfold getConnection
  cases hq : p.recover now with
  | error e =>
      have hne : e ≠ .noCapacity := by
        unfold recover at hq
        split at hq
        · split at hq
          · cases hq
          · cases hq
            simp
        · cases hq
      simp [hne]
  | ok q =>
      obtain ⟨hready, hconnections, hmax⟩ := hkept q hq
      simp only [(hp.recover hq).removeFailed, hready, hconnections, hmax, Except.ok.injEq,
        exists_eq', true_and]
      cases p.nextReady peerReady with
      | some idx => simp
      | none =>
          simp only [true_and]
          split
          · next hroom =>
            unfold createConnection
            cases attempt.error with
            | some e => cases e <;> simp [ConnectError.toPoolError, hroom]
            | none => simp [hroom]
          · next hfull => simp [Nat.le_of_not_lt hfull]

/-- Peers that are never ready. -/
theorem nextReady_never (p : Http2Pool) : p.nextReady (fun _ => false) = none := by
  unfold nextReady
  rw [List.find?_eq_none]
  intro idx _
  cases p.connections[idx]? <;> simp [Http2Connection.isReady]

/-- After a long enough wait the circuit breaker lets a call through. -/
theorem exists_recover (p : Http2Pool) (now : Nat) :
    ∃ delay q, p.recover (now + delay) = .ok q := by
  refine ⟨p.lastSuccess + recoveryTimeout + 1, ?_⟩
  unfold recover
  split
  · rw [if_pos (by omega)]
    exact ⟨_, rfl⟩
  · exact ⟨_, rfl⟩

/-- The pool is below its limit, or holds no more closed connections than it has connections beyond
the limit. -/
def DeadFit (p : Http2Pool) : Prop :=
  p.connections.length < p.maxConnections ∨
    p.deadConnections + p.maxConnections ≤ p.connections.length

/-- **Closed connections take up room** exactly where they do not fit: in the states of all runs,
the pool reports that it has no capacity only with enough open connections if and only if the closed
ones fit beside them. -/
theorem noCapacity_only_if_open_iff {s : ClockedPool}
    (h : poolSystem.Reach System.Anything .new s) :
    (∀ delay peerReady attempt,
      (s.pool.getConnection (s.now + delay) peerReady attempt).1 = .error .noCapacity →
        s.pool.maxConnections ≤ s.pool.openConnections) ↔ s.pool.DeadFit := by
  have hactive := allActive_of_reach h
  have hcount := openConnections_add_deadConnections s.pool
  constructor
  · intro hclaim
    by_cases hroom : s.pool.connections.length < s.pool.maxConnections
    · exact Or.inl hroom
    · right
      obtain ⟨delay, hrecover⟩ := exists_recover s.pool s.now
      have := hclaim delay (fun _ => false) ⟨none, 0⟩ ((getConnection_noCapacity_iff hactive).mpr
        ⟨hrecover, nextReady_never s.pool, Nat.le_of_not_lt hroom⟩)
      omega
  · intro hfit delay peerReady attempt hnone
    obtain ⟨-, -, hfull⟩ := (getConnection_noCapacity_iff hactive).mp hnone
    unfold DeadFit at hfit
    omega

/-- A pool after a successful `prewarm`. -/
def prewarmed : ClockedPool := ClockedPool.new.event (.prewarm fun _ => ⟨none, 0⟩)

/-- It has eight open connections. -/
theorem noCapacity_only_if_open_prewarmed :
    prewarmed.pool.connections.length = 8 ∧ ∀ delay peerReady attempt,
      (prewarmed.pool.getConnection (prewarmed.now + delay) peerReady attempt).1 =
        .error .noCapacity →
      prewarmed.pool.maxConnections ≤ prewarmed.pool.openConnections :=
  ⟨by decide,
    (noCapacity_only_if_open_iff (System.Reach.refl.tail trivial rfl)).mpr (Or.inr (by decide))⟩

/-- Eight connections are made and closed. -/
def deadPool : List PoolEvent :=
  .prewarm (fun _ => ⟨none, 0⟩) :: (List.range 8).map .close

/-- **A pool full of closed connections**: none of the eight is open, and the pool has no room for
another one. -/
theorem exists_noCapacity_none_open :
    ¬ ∀ s, poolSystem.Reach System.Anything .new s → ∀ peerReady attempt,
      (s.pool.getConnection s.now peerReady attempt).1 = .error .noCapacity →
        s.pool.maxConnections ≤ s.pool.openConnections := by
  intro h
  have hrun : poolSystem.exec .new deadPool = some (deadPool.foldl ClockedPool.event .new) := rfl
  have := h _ (.of_exec hrun) (fun _ => true) ⟨none, 0⟩ (by decide)
  exact absurd this (by decide)

/-! ## The limit

The limit is halved when a healthy pool degrades, and a degraded pool becomes healthy again with a
new connection, which stays in the pool. So the limit falls while the pool fills, and the two meet
before the limit is gone, unless `prewarm` goes on connecting beyond the limit. -/

/-- `prewarm` is called on a pool that is empty or below its limit. -/
def PrewarmsBelowLimit (s : ClockedPool) : PoolEvent → Prop
  | .prewarm _ =>
    s.pool.connections = [] ∨ s.pool.connections.length < s.pool.maxConnections
  | _ => True

instance (s : ClockedPool) : (e : PoolEvent) → Decidable (PrewarmsBelowLimit s e)
  | .prewarm _ => inferInstanceAs (Decidable (_ ∨ _))
  | .getConnection _ _ | .close _ | .tick _ => isTrue trivial

/-- How far the limit has fallen, and how many connections that has taken. -/
structure Capacity (p : Http2Pool) : Prop where
  limit : p.maxConnections = 8 ∨ p.maxConnections = 4 ∨ p.maxConnections = 2
  once : p.maxConnections = 4 → p.healthState = .healthy → 1 ≤ p.connections.length
  twice : p.maxConnections = 2 → 1 ≤ p.connections.length
  recovered : p.maxConnections = 2 → p.healthState = .healthy → 2 ≤ p.connections.length

/-- Where a failure may be recorded. -/
def MayFail (p : Http2Pool) : Prop :=
  p.connections.length < p.maxConnections ∨ p.consecutiveFailures = 0

/-- What a failure does: fewer than five in a row leave limit and health as they are, and only a
healthy pool loses half of its limit. -/
theorem recordFailure_cases (p : Http2Pool) :
    p.recordFailure.connections = p.connections ∧
    ((p.recordFailure.maxConnections = p.maxConnections ∧
      (p.recordFailure.healthState = .healthy → p.healthState = .healthy)) ∨
    (p.healthState = .healthy ∧ p.consecutiveFailures ≠ 0 ∧
      p.recordFailure.maxConnections = max p.maxConnections 1 / 2 ∧
      p.recordFailure.healthState ≠ .healthy)) := by
  unfold recordFailure degrade
  split
  · next hdegrade =>
    obtain ⟨hfive, hhealthy⟩ := hdegrade
    have hne : p.consecutiveFailures ≠ 0 := by
      intro hzero
      simp [hzero] at hfive
    refine ⟨?_, Or.inr ⟨hhealthy, hne, ?_, ?_⟩⟩ <;> (unfold shut; split <;> simp)
  · refine ⟨?_, Or.inl ⟨?_, ?_⟩⟩ <;> (unfold shut; split <;> simp)

theorem Capacity.recordFailure (hp : p.Capacity) (hmay : p.MayFail) : p.recordFailure.Capacity := by
  obtain ⟨hconnections, hcases⟩ := recordFailure_cases p
  have hlimit := hp.limit
  rcases hcases with ⟨hmax, hhealth⟩ | ⟨hhealthy, hcount, hmax, hhealth⟩
  · constructor
    · rwa [hmax]
    · intro h hh
      rw [hconnections]
      exact hp.once (hmax ▸ h) (hhealth hh)
    · intro h
      rw [hconnections]
      exact hp.twice (hmax ▸ h)
    · intro h hh
      rw [hconnections]
      exact hp.recovered (hmax ▸ h) (hhealth hh)
  · -- the limit is halved: at two, the pool is full
    have hroom := hmay.resolve_right hcount
    have hfull : p.maxConnections ≠ 2 := by
      intro h
      have := hp.recovered h hhealthy
      omega
    constructor
    · omega
    · intro _ hh
      exact absurd hh hhealth
    · intro h
      rw [hconnections]
      exact hp.once (by omega) hhealthy
    · intro _ hh
      exact absurd hh hhealth

theorem Capacity.change (hp : p.Capacity) (h : Change MayFail p p') : p'.Capacity := by
  cases h with
  | recover _ =>
      refine ⟨hp.limit, ?_, hp.twice, ?_⟩
      · rintro - ⟨⟩
      · rintro - ⟨⟩
  | rotate idx => exact ⟨hp.limit, hp.once, hp.twice, hp.recovered⟩
  | connect now =>
      have hlen : ((p.recordSuccess now).push ⟨true, .active⟩).connections.length =
          p.connections.length + 1 := List.length_append
      refine ⟨hp.limit, ?_, ?_, ?_⟩
      · intro _ _
        omega
      · intro _
        omega
      · intro h _
        have := hp.twice h
        omega
  | fail hmay => exact hp.recordFailure hmay

theorem Capacity.close (hp : p.Capacity) (idx : Nat) : (p.close idx).Capacity := by
  have hlen : (p.close idx).connections.length = p.connections.length := List.length_modify ..
  constructor
  · exact hp.limit
  · rw [hlen]
    exact hp.once
  · rw [hlen]
    exact hp.twice
  · rw [hlen]
    exact hp.recovered

/-- An empty pool is below its limit. -/
theorem Capacity.mayFail_of_empty (hp : p.Capacity) (hempty : p.connections = []) : p.MayFail := by
  left
  have := hp.limit
  rw [hempty, List.length_nil]
  omega

/-- What `prewarm` finds where it may be called. -/
theorem Capacity.mayFail {s : ClockedPool} (hs : s.pool.Capacity) {attempts : Nat → Attempt}
    (hok : PrewarmsBelowLimit s (.prewarm attempts)) : s.pool.MayFail := by
  rcases hok with hempty | hroom
  · exact hs.mayFail_of_empty hempty
  · exact Or.inl hroom

theorem Capacity.of_new (now : Nat) : (new now).Capacity := by
  refine ⟨Or.inl rfl, ?_, ?_, ?_⟩
  · rintro ⟨⟩
  · rintro ⟨⟩
  · rintro ⟨⟩

/-- The invariant of the runs. -/
theorem capacity_of_reach {s : ClockedPool}
    (h : poolSystem.Reach PrewarmsBelowLimit .new s) : s.pool.Capacity := by
  induction h with
  | refl => exact .of_new 0
  | @tail s s' e hreach hok hstep hs =>
      cases hstep
      have hactive := allActive_of_reach (hreach.mono fun _ _ _ => trivial)
      rcases event_cases MayFail e hactive (fun _ => Or.inl) (fun _ => Or.inr)
        (fun attempts he => hs.mayFail (he ▸ hok)) with hchanges | ⟨idx, heq⟩
      · exact hchanges.invariant hs fun _ _ => Capacity.change
      · rw [heq]
        exact hs.close idx

/-- The answer of a call that attempts to connect. -/
def answer (p : Http2Pool) (attempt : Attempt) : Except PoolError Nat :=
  match attempt.error with
  | some e => .error e.toPoolError
  | none => .ok p.connections.length

/-- An empty pool that is not closed and has a limit attempts to connect. -/
theorem getConnection_of_empty (hopen : p.healthState ≠ .unhealthy) (hempty : p.connections = [])
    (hlimit : 1 ≤ p.maxConnections) :
    (p.getConnection now peerReady attempt).1 = p.answer attempt := by
  have hrecover : p.recover now = .ok p := by simp [recover, hopen]
  have hactive : p.AllActive := by
    intro c hc
    rw [hempty] at hc
    cases hc
  have hnone : p.nextReady peerReady = none := by simp [nextReady, hempty]
  have hroom : p.connections.length < p.maxConnections := by
    rw [hempty]
    exact hlimit
  simp only [getConnection, hrecover, hactive.removeFailed, hnone, hroom, if_true, answer,
    createConnection]
  cases attempt.error <;> rfl

/-- **The limit stays**: as long as `prewarm` is called below the limit only, the limit is never
zero, and an empty pool that is not closed attempts to connect. -/
theorem limit_pos_of_prewarmsBelowLimit {s : ClockedPool}
    (h : poolSystem.Reach PrewarmsBelowLimit .new s) :
    1 ≤ s.pool.maxConnections ∧
      (s.pool.healthState ≠ .unhealthy → s.pool.connections = [] → ∀ peerReady attempt,
        (s.pool.getConnection s.now peerReady attempt).1 = s.pool.answer attempt) := by
  have hlimit : 1 ≤ s.pool.maxConnections := by
    have := (capacity_of_reach h).limit
    omega
  refine ⟨hlimit, ?_⟩
  intro hopen hempty peerReady attempt
  exact getConnection_of_empty hopen hempty hlimit

/-- An attempt that is refused. -/
def refusal : Attempt := ⟨some (.refused "Connection refused".toList), 0⟩

/-- Five refusals, and a connection. -/
def relapse (event : Attempt → PoolEvent) : List PoolEvent :=
  List.replicate 5 (event refusal) ++ [event ⟨none, 0⟩]

/-- Two relapses by way of `get_connection`. -/
theorem limit_pos_of_prewarmsBelowLimit_relapse :
    1 ≤ ((relapse (.getConnection fun _ => false) ++ relapse (.getConnection fun _ => false)).foldl
      ClockedPool.event .new).pool.maxConnections := by
  have hrun : (poolSystem.restrict PrewarmsBelowLimit).exec .new
      (relapse (.getConnection fun _ => false) ++ relapse (.getConnection fun _ => false)) =
      some ((relapse (.getConnection fun _ => false) ++
        relapse (.getConnection fun _ => false)).foldl ClockedPool.event .new) := rfl
  exact (limit_pos_of_prewarmsBelowLimit (.of_exec_restrict hrun)).1

/-- Four relapses by way of `prewarm`. -/
def relapses : List PoolEvent :=
  (List.replicate 4 (relapse fun attempt => .prewarm fun _ => attempt)).flatten

/-- **A pool without a limit to reach**: after four relapses the limit is zero. -/
theorem exists_limit_zero :
    ¬ ∀ s, poolSystem.Reach System.Anything .new s → 1 ≤ s.pool.maxConnections := by
  intro h
  have hrun : poolSystem.exec .new relapses = some (relapses.foldl ClockedPool.event .new) := rfl
  exact absurd (h _ (.of_exec hrun)) (by decide)

end Http2Pool

end Rauta
