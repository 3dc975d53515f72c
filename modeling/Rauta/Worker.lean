import Rauta.BackendPools

/-!
# The circuit breaker of a worker's pools

`Worker::get_backend_connection` is the way from a request to a connection: it prewarms the pool of
the backend if the pool has no connection, and then asks the pool for one. A pool that has become
unhealthy is meant to answer `CircuitBreakerOpen` for thirty seconds without connecting.

Two things stand in the way. The thirty seconds are counted from the last success, which may have
been long before the pool became unhealthy; and the prewarming does not look at the breaker. So the
module counts the connection attempts of a call, keeps the time at which the pool last became
unhealthy as a history variable, and says what a call has to find so that it is blocked.
-/

namespace Rauta

open Transition

/-! ## Counting attempts -/

namespace Http2Pool

/-- The attempts that the loop of `prewarm` makes: it ends with the first that fails. -/
def prewarmRounds (attempts : Nat → Attempt) : (count i : Nat) → Nat
  | 0, _ => 0
  | count + 1, i =>
    match (attempts i).error with
    | some _ => 1
    | none => 1 + prewarmRounds attempts count (i + 1)

/-- Whether `get_connection` attempts to connect. -/
def connects (p : Http2Pool) (now : Nat) (peerReady : Nat → Bool) : Bool :=
  match p.recover now with
  | .error _ => false
  | .ok p =>
    (p.removeFailed.nextReady peerReady).isNone &&
      p.removeFailed.connections.length < p.removeFailed.maxConnections

end Http2Pool

/-! ## The call -/

/-- What happens outside while a call runs: the attempts of `prewarm`, the connections whose peer is
ready, and the attempt of `get_connection`. -/
structure CallScript where
  prewarm : Nat → Attempt
  peerReady : Nat → Bool
  connect : Attempt

/-- `prewarm_pool`: how many attempts it makes, the pools after it, and when it ends. -/
def BackendConnectionPools.prewarmPool (s : BackendConnectionPools) (now : Nat) (backend : Backend)
    (attempts : Nat → Attempt) : Nat × BackendConnectionPools × Nat :=
  match s.pools.lookup backend.key with
  | some entry =>
    if entry.pool.connections = [] then
      let (pool, later) := entry.pool.prewarm now attempts
      (Http2Pool.prewarmRounds attempts entry.pool.maxConnections 0,
        s.put backend.key { entry with pool := pool }, later)
    else (0, s, now)
  | none => (0, s, now)

/-- A worker's pools, with the clock. -/
structure Worker where
  pools : BackendConnectionPools
  now : Nat

/-- What a call returns, how many attempts to connect it made, and the worker after it. -/
structure CallOutcome where
  result : Except PoolError Nat
  attempts : Nat
  worker : Worker

namespace Worker

/-- A worker that has not been called yet. -/
def new : Worker := ⟨.new, 0⟩

/-- `get_backend_connection`, under the worker's lock. -/
def getBackendConnection (w : Worker) (backend : Backend) (script : CallScript) : CallOutcome :=
  -- before anyone looks at the breaker
  let (rounds, pools, now) := w.pools.prewarmPool w.now backend script.prewarm
  let (entry, pools) := pools.getOrCreatePool now backend
  let (result, pool) := entry.pool.getConnection now script.peerReady script.connect
  let connects := entry.pool.connects now script.peerReady
  { result := result
    attempts := rounds + connects.toNat
    worker :=
      ⟨pools.put backend.key { entry with pool := pool },
        if connects then now + script.connect.took else now⟩ }

/-- The pool of a backend. -/
def pool (w : Worker) (backend : Backend) : Option Http2Pool :=
  (w.pools.pools.lookup backend.key).map (·.pool)

/-- The pool on which the call of `get_connection` is made, and when. -/
def ready (w : Worker) (backend : Backend) (script : CallScript) : Http2Pool × Nat :=
  match w.pool backend with
  | none => (.new w.now, w.now)
  | some p => if p.connections = [] then p.prewarm w.now script.prewarm else (p, w.now)

/-- The attempts made before that. -/
def prewarmAttempts (w : Worker) (backend : Backend) (script : CallScript) : Nat :=
  match w.pool backend with
  | none => 0
  | some p =>
    if p.connections = [] then Http2Pool.prewarmRounds script.prewarm p.maxConnections 0 else 0

variable (w : Worker) (backend : Backend) (script : CallScript)

/-- **The call, seen from the pool**: `get_connection` on the pool that is ready then. -/
theorem getBackendConnection_eq :
    (w.getBackendConnection backend script).result =
      ((w.ready backend script).1.getConnection (w.ready backend script).2 script.peerReady
        script.connect).1 ∧
    (w.getBackendConnection backend script).attempts = w.prewarmAttempts backend script +
      ((w.ready backend script).1.connects (w.ready backend script).2 script.peerReady).toNat ∧
    (w.getBackendConnection backend script).worker.pool backend =
      some ((w.ready backend script).1.getConnection (w.ready backend script).2 script.peerReady
        script.connect).2 ∧
    (w.getBackendConnection backend script).worker.now =
      if (w.ready backend script).1.connects (w.ready backend script).2 script.peerReady then
        (w.ready backend script).2 + script.connect.took
      else (w.ready backend script).2 := by
  unfold getBackendConnection ready prewarmAttempts pool BackendConnectionPools.prewarmPool
    BackendConnectionPools.getOrCreatePool
  cases hlookup : w.pools.pools.lookup backend.key with
  | none => simp [hlookup, BackendConnectionPools.put]
  | some entry =>
      by_cases hempty : entry.pool.connections = []
      · simp [hempty, BackendConnectionPools.put]
      · simp [hempty, hlookup, BackendConnectionPools.put]

/-- The pool is unhealthy. -/
def IsShut : Prop := ∃ p, w.pool backend = some p ∧ p.healthState = .unhealthy

instance : Decidable (w.IsShut backend) :=
  decidable_of_iff ((w.pool backend).any fun p => p.healthState = .unhealthy) (by
    cases h : w.pool backend <;> simp [IsShut, h])

/-- The call is turned away by the breaker, and nothing is connected. -/
def Blocked : Prop :=
  (w.getBackendConnection backend script).result = .error .circuitBreakerOpen ∧
    (w.getBackendConnection backend script).attempts = 0

end Worker

/-! ## Runs -/

/-- What happens to the pool of a backend. -/
inductive WorkerEvent where
  | call (script : CallScript)
  | close (idx : Nat)
  | tick (ns : Nat)

namespace Worker

/-- One event. -/
def event (backend : Backend) (w : Worker) : WorkerEvent → Worker
  | .call script => (w.getBackendConnection backend script).worker
  | .close idx =>
    match w.pools.pools.lookup backend.key with
    | some entry =>
      { w with pools := w.pools.put backend.key { entry with pool := entry.pool.close idx } }
    | none => w
  | .tick ns => { w with now := w.now + ns }

/-- When the pool last became unhealthy. In a call this can happen twice over: in `prewarm`, and at
the end. -/
def opening (backend : Backend) (w : Worker) (e : WorkerEvent) (w' : Worker)
    (openedAt : Option Nat) : Option Nat :=
  match e with
  | .call script =>
    let ready := w.ready backend script
    if ready.1.healthState = .unhealthy then
      if w.IsShut backend then openedAt else some ready.2
    else if w'.IsShut backend then some w'.now
    else openedAt
  | _ => openedAt

end Worker

/-- A worker that is called for one backend, with the time at which the pool last became
unhealthy. -/
def workerSystem (backend : Backend) : System (Worker × Option Nat) WorkerEvent :=
  (⟨fun w e => some (w.event backend e)⟩ : System Worker WorkerEvent).observed
    (Worker.opening backend)

/-- No more than thirty seconds have passed since the pool became unhealthy. -/
def InWindow (s : Worker × Option Nat) : Prop :=
  ∃ openedAt, s.2 = some openedAt ∧ s.1.now ≤ openedAt + Http2Pool.recoveryTimeout

instance (s : Worker × Option Nat) : Decidable (InWindow s) :=
  decidable_of_iff (∃ t ∈ s.2, s.1.now ≤ t + Http2Pool.recoveryTimeout) Iff.rfl

theorem InWindow.earlier {w w' : Worker} {openedAt : Option Nat} (hle : w.now ≤ w'.now)
    (h : InWindow (w', openedAt)) : InWindow (w, openedAt) := by
  obtain ⟨t, ht, hnow⟩ := h
  exact ⟨t, ht, Nat.le_trans hle hnow⟩

/-- The last success is no more than thirty seconds ago. -/
def Http2Pool.Recent (p : Http2Pool) (now : Nat) : Prop := now ≤ p.lastSuccess + recoveryTimeout

instance (p : Http2Pool) (now : Nat) : Decidable (p.Recent now) :=
  inferInstanceAs (Decidable (_ ≤ _))

/-- What a call has to find: while the breaker should be open, a connection in the pool and a recent
success; and at any time a pool without a connection must be two failures away from opening. -/
def Guarded (backend : Backend) (s : Worker × Option Nat) : WorkerEvent → Prop
  | .call _ => ∀ p, s.1.pool backend = some p →
      (InWindow s → p.connections ≠ [] ∧ p.Recent s.1.now) ∧
      (p.connections = [] → p.consecutiveFailures < 9)
  | _ => True

instance (backend : Backend) (s : Worker × Option Nat) :
    (e : WorkerEvent) → Decidable (Guarded backend s e)
  | .call _ => decidable_of_iff (∀ p ∈ s.1.pool backend,
      (InWindow s → p.connections ≠ [] ∧ p.Recent s.1.now) ∧
      (p.connections = [] → p.consecutiveFailures < 9)) Iff.rfl
  | .close _ | .tick _ => isTrue trivial

namespace Http2Pool

variable {p : Http2Pool} {now : Nat} {peerReady : Nat → Bool} {attempt : Attempt}

theorem recover_of_recent (hshut : p.healthState = .unhealthy) (h : p.Recent now) :
    p.recover now = .error .circuitBreakerOpen := by
  have hnot : ¬ now - p.lastSuccess > recoveryTimeout := by
    unfold Recent at h
    omega
  rw [recover, if_pos hshut, if_neg hnot]

/-- A refusal by the breaker is recognised by its error. -/
theorem recover_eq_error {e : PoolError} (h : p.recover now = .error e) :
    p.healthState = .unhealthy ∧ p.Recent now := by
  unfold recover at h
  split at h
  · next hshut =>
      split at h
      · cases h
      · next hnot =>
          refine ⟨hshut, ?_⟩
          unfold Recent
          omega
  · cases h

/-- The breaker's answer is given by the breaker and by nothing else. -/
theorem getConnection_circuitBreakerOpen_iff :
    (p.getConnection now peerReady attempt).1 = .error .circuitBreakerOpen ↔
      p.healthState = .unhealthy ∧ p.Recent now := by
  constructor
  · intro h
    unfold getConnection at h
    cases hrecover : p.recover now with
    | error e => exact recover_eq_error hrecover
    | ok q =>
        rw [hrecover] at h
        simp only at h
        -- past the breaker the errors are those of the attempt and `NoCapacity`
        split at h
        · cases h
        · split at h
          · unfold createConnection at h
            cases hattempt : attempt.error with
            | none => simp [hattempt] at h
            | some e => cases e <;> simp [hattempt, ConnectError.toPoolError] at h
          · simp at h
  · rintro ⟨hshut, hrecent⟩
    rw [getConnection, recover_of_recent hshut hrecent]

/-- A call that the breaker turns away leaves the pool as it is. -/
theorem getConnection_of_recent (hshut : p.healthState = .unhealthy) (h : p.Recent now) :
    p.getConnection now peerReady attempt = (.error .circuitBreakerOpen, p) := by
  simp only [getConnection, recover_of_recent hshut h]

theorem connects_of_recent (hshut : p.healthState = .unhealthy) (h : p.Recent now) :
    p.connects now peerReady = false := by
  simp only [connects, recover_of_recent hshut h]

theorem prewarmRounds_pos (attempts : Nat → Attempt) {count : Nat} (i : Nat) (h : 1 ≤ count) :
    1 ≤ prewarmRounds attempts count i := by
  cases count with
  | zero => omega
  | succ count =>
      unfold prewarmRounds
      split <;> omega

theorem le_prewarmLoop (attempts : Nat → Attempt) (count i : Nat) :
    now ≤ (prewarmLoop attempts count i p now).2 := by
  induction count generalizing i p now with
  | zero => exact Nat.le_refl _
  | succ count ih =>
      simp only [prewarmLoop, createConnection]
      cases (attempts i).error with
      | some e => exact Nat.le_add_right _ _
      | none => exact Nat.le_trans (Nat.le_add_right _ _) (ih _)

/-- Far from the threshold, a failure does not make a pool unhealthy. -/
theorem recordFailure_healthState (hfew : p.consecutiveFailures < 9)
    (h : p.healthState ≠ .unhealthy) : p.recordFailure.healthState ≠ .unhealthy := by
  have hcount : ¬ 10 ≤ (p.consecutiveFailures + 1) % 4294967296 := by omega
  unfold recordFailure degrade
  split
  · simp [shut, hcount]
  · simpa [shut, hcount] using h

/-- Nor does `prewarm`, which ends with the first failure. -/
theorem prewarmLoop_healthState (attempts : Nat → Attempt) (count i : Nat)
    (hfew : p.consecutiveFailures < 9) (h : p.healthState ≠ .unhealthy) :
    (prewarmLoop attempts count i p now).1.healthState ≠ .unhealthy := by
  induction count generalizing i p now with
  | zero => exact h
  | succ count ih =>
      simp only [prewarmLoop, createConnection]
      cases (attempts i).error with
      | some e => exact recordFailure_healthState hfew h
      | none =>
          refine ih _ (Nat.zero_lt_succ _) ?_
          show (if p.healthState = .degraded then HealthState.healthy else p.healthState) ≠ _
          split
          · simp
          · exact h

end Http2Pool

namespace Worker

variable {backend : Backend} {w : Worker} {script : CallScript}

/-- A pool with a connection is not prewarmed. -/
theorem ready_of_connections (script : CallScript) {p : Http2Pool} (hp : w.pool backend = some p)
    (h : p.connections ≠ []) :
    w.ready backend script = (p, w.now) ∧ w.prewarmAttempts backend script = 0 := by
  simp [ready, prewarmAttempts, hp, h]

theorem le_ready : w.now ≤ (w.ready backend script).2 := by
  unfold ready
  split
  · exact Nat.le_refl _
  · split
    · exact Http2Pool.le_prewarmLoop _ _ _
    · exact Nat.le_refl _

/-- Far from the threshold, a pool is not unhealthy when `get_connection` is called unless it was
before. -/
theorem isShut_of_ready
    (hfew : ∀ p, w.pool backend = some p → p.connections = [] → p.consecutiveFailures < 9)
    (h : (w.ready backend script).1.healthState = .unhealthy) : w.IsShut backend := by
  unfold ready at h
  cases hp : w.pool backend with
  | none =>
      rw [hp] at h
      cases h
  | some p =>
      refine ⟨p, hp, ?_⟩
      by_contra hopen
      by_cases hempty : p.connections = []
      · simp only [hp, hempty, if_true] at h
        exact Http2Pool.prewarmLoop_healthState _ _ _ (hfew p hp hempty) hopen h
      · simp only [hp, hempty, if_false] at h
        exact hopen h

/-- A call for an unhealthy pool is blocked exactly if there is a connection in the pool and the
last success is recent. -/
theorem blocked_iff {p : Http2Pool} (hp : w.pool backend = some p) (hlimit : 1 ≤ p.maxConnections)
    (hshut : p.healthState = .unhealthy) :
    w.Blocked backend script ↔ p.connections ≠ [] ∧ p.Recent w.now := by
  obtain ⟨hresult, hattempts, -, -⟩ := w.getBackendConnection_eq backend script
  rw [Blocked, hresult, hattempts]
  by_cases hempty : p.connections = []
  · -- an empty pool is prewarmed, and that is an attempt
    have hrounds : 1 ≤ w.prewarmAttempts backend script := by
      simp only [prewarmAttempts, hp, hempty, if_true]
      exact Http2Pool.prewarmRounds_pos _ _ hlimit
    constructor
    · rintro ⟨-, hnone⟩
      omega
    · rintro ⟨hne, -⟩
      exact absurd hempty hne
  · obtain ⟨hready, hrounds⟩ := ready_of_connections script hp hempty
    rw [hready, hrounds, Http2Pool.getConnection_circuitBreakerOpen_iff]
    constructor
    · rintro ⟨⟨-, hrecent⟩, -⟩
      exact ⟨hempty, hrecent⟩
    · rintro ⟨-, hrecent⟩
      refine ⟨⟨hshut, hrecent⟩, ?_⟩
      rw [Http2Pool.connects_of_recent hshut hrecent]
      rfl

/-- What all pools of a worker have in common. -/
def Sound (backend : Backend) (w : Worker) : Prop :=
  ∀ p, w.pool backend = some p → p.AllActive ∧ p.Capacity

theorem Sound.ready (h : w.Sound backend) (script : CallScript) :
    (w.ready backend script).1.AllActive ∧ (w.ready backend script).1.Capacity := by
  unfold Worker.ready
  cases hp : w.pool backend with
  | none => exact ⟨.of_new w.now, .of_new w.now⟩
  | some p =>
      obtain ⟨hactive, hcapacity⟩ := h p hp
      simp only
      split
      · next hempty =>
          have hchanges :
              Http2Pool.Changes Http2Pool.MayFail p (p.prewarm w.now script.prewarm).1 :=
            Http2Pool.prewarmLoop_changes _ (fun _ => Or.inr) (hcapacity.mayFail_of_empty hempty)
          exact ⟨hchanges.invariant hactive fun _ _ => .change,
            hchanges.invariant hcapacity fun _ _ => .change⟩
      · exact ⟨hactive, hcapacity⟩

theorem Sound.event (h : w.Sound backend) (e : WorkerEvent) :
    (w.event backend e).Sound backend := by
  cases e with
  | tick ns => exact h
  | call script =>
      intro p hp
      obtain ⟨hactive, hcapacity⟩ := h.ready script
      rw [Worker.event, (w.getBackendConnection_eq backend script).2.2.1] at hp
      cases hp
      have hchanges : Http2Pool.Changes Http2Pool.MayFail (w.ready backend script).1
          ((w.ready backend script).1.getConnection (w.ready backend script).2 script.peerReady
            script.connect).2 :=
        Http2Pool.getConnection_changes hactive fun _ => Or.inl
      exact ⟨hchanges.invariant hactive fun _ _ => .change,
        hchanges.invariant hcapacity fun _ _ => .change⟩
  | close idx =>
      intro p hp
      unfold Worker.event at hp
      cases hlookup : w.pools.pools.lookup backend.key with
      | none =>
          simp only [hlookup] at hp
          exact h p hp
      | some entry =>
          have hentry := h entry.pool (by simp [pool, hlookup])
          simp only [hlookup, pool, BackendConnectionPools.put, AList.lookup_insert,
            Option.map_some, Option.some.injEq] at hp
          subst hp
          exact ⟨hentry.1.close idx, hentry.2.close idx⟩

theorem le_now_getBackendConnection :
    w.now ≤ (w.getBackendConnection backend script).worker.now := by
  have hready : w.now ≤ (w.ready backend script).2 := le_ready
  rw [(w.getBackendConnection_eq backend script).2.2.2]
  split
  · omega
  · exact hready

theorem le_now_event (e : WorkerEvent) : w.now ≤ (w.event backend e).now := by
  cases e with
  | call script => exact le_now_getBackendConnection
  | close idx =>
      simp only [event]
      split <;> exact Nat.le_refl _
  | tick ns => exact Nat.le_add_right _ _

theorem IsShut.close (h : w.IsShut backend) (idx : Nat) :
    (w.event backend (.close idx)).IsShut backend := by
  obtain ⟨p, hp, hshut⟩ := h
  obtain ⟨entry, hlookup, rfl⟩ := Option.map_eq_some_iff.mp hp
  exact ⟨entry.pool.close idx,
    by simp [event, hlookup, pool, BackendConnectionPools.put], hshut⟩

/-- The invariant of guarded runs. -/
structure Opened (backend : Backend) (s : Worker × Option Nat) : Prop where
  sound : s.1.Sound backend
  shut : InWindow s → s.1.IsShut backend

/-- A guarded call keeps a pool shut as long as it should be: within the window it changes nothing,
and outside the window it opens a new window only by leaving the pool shut. -/
theorem isShut_of_call {openedAt : Option Nat}
    (hguard : Guarded backend (w, openedAt) (.call script))
    (h : InWindow (w, openedAt) → w.IsShut backend)
    (hwindow : InWindow ((w.getBackendConnection backend script).worker,
      opening backend w (.call script) (w.getBackendConnection backend script).worker openedAt)) :
    (w.getBackendConnection backend script).worker.IsShut backend := by
  by_cases hbefore : InWindow (w, openedAt)
  · -- the call is turned away, and the pool stays as it is
    obtain ⟨p, hp, hshut⟩ := h hbefore
    obtain ⟨hconnections, hrecent⟩ := (hguard p hp).1 hbefore
    have hpool := (w.getBackendConnection_eq backend script).2.2.1
    rw [(ready_of_connections script hp hconnections).1,
      Http2Pool.getConnection_of_recent hshut hrecent] at hpool
    exact ⟨p, hpool, hshut⟩
  · simp only [opening] at hwindow
    split at hwindow
    · next hready =>
        -- `prewarm` cannot have shut the pool, so the window is the old one
        rw [if_pos (isShut_of_ready (fun p hp => (hguard p hp).2) hready)] at hwindow
        exact absurd (hwindow.earlier le_now_getBackendConnection) hbefore
    · split at hwindow
      · next hshut => exact hshut
      · exact absurd (hwindow.earlier le_now_getBackendConnection) hbefore

theorem opened {s : Worker × Option Nat}
    (h : (workerSystem backend).Reach (Guarded backend) (new, none) s) : Opened backend s := by
  refine h.invariant ⟨?_, ?_⟩ ?_
  · intro p hp
    cases hp
  · rintro ⟨t, ht, -⟩
    cases ht
  · rintro ⟨w, openedAt⟩ e s' ⟨hsound, hshut⟩ hguard hstep
    cases hstep
    refine ⟨hsound.event e, ?_⟩
    cases e with
    | call script => exact isShut_of_call hguard hshut
    | close idx =>
        intro hwindow
        exact (hshut (hwindow.earlier (le_now_event (.close idx)))).close idx
    | tick ns =>
        intro hwindow
        exact hshut (hwindow.earlier (le_now_event (.tick ns)))

/-- **The breaker blocks** in every run whose calls find what they have to: as long as the pool
became unhealthy no more than thirty seconds ago, it is unhealthy, and a call is blocked if and only
if there is a connection in the pool and the last success is no more than thirty seconds ago. -/
theorem blocked_iff_of_guarded {s : Worker × Option Nat}
    (h : (workerSystem backend).Reach (Guarded backend) (new, none) s) (hwindow : InWindow s) :
    ∃ p, s.1.pool backend = some p ∧ p.healthState = .unhealthy ∧
      ∀ script, s.1.Blocked backend script ↔ p.connections ≠ [] ∧ p.Recent s.1.now := by
  obtain ⟨hsound, hshut⟩ := opened h
  obtain ⟨p, hp, hunhealthy⟩ := hshut hwindow
  have hlimit : 1 ≤ p.maxConnections := by
    have := (hsound p hp).2.limit
    omega
  exact ⟨p, hp, hunhealthy, fun script => blocked_iff hp hlimit hunhealthy⟩

/-- A call all of whose attempts have the same outcome, with no peer ready. -/
def sameOutcome (attempt : Attempt) : CallScript := ⟨fun _ => attempt, fun _ => false, attempt⟩

/-- One connection is made, and the next ten attempts are refused after the delay. -/
def tenRefusals (delay : Nat) : List WorkerEvent :=
  .call (sameOutcome ⟨none, 0⟩) :: .tick delay ::
    List.replicate 10 (.call (sameOutcome Http2Pool.refusal))

/-- Ten refusals within a second of a success: the breaker blocks. -/
theorem blocked_iff_of_guarded_tenRefusals :
    ∃ s, (workerSystem .sample).exec (new, none) (tenRefusals 1000000000) = some s ∧ InWindow s ∧
      ∀ script, s.1.Blocked .sample script := by
  obtain ⟨s, hguarded, hexec, hwindow, hpool⟩ : ∃ s,
      ((workerSystem .sample).restrict (Guarded .sample)).exec (new, none)
        (tenRefusals 1000000000) = some s ∧
      (workerSystem .sample).exec (new, none) (tenRefusals 1000000000) = some s ∧ InWindow s ∧
      ∀ p ∈ s.1.pool .sample, p.connections ≠ [] ∧ p.Recent s.1.now :=
    ⟨_, rfl, rfl, by decide +kernel, by decide +kernel⟩
  obtain ⟨p, hp, -, hblocked⟩ := blocked_iff_of_guarded (.of_exec_restrict hguarded) hwindow
  exact ⟨s, hexec, hwindow, fun script => (hblocked script).mpr (hpool p hp)⟩

/-- Six calls for a backend that refuses every connection; all but the first one try twice. -/
def neverConnected : List WorkerEvent := List.replicate 6 (.call (sameOutcome Http2Pool.refusal))

/-- **The breaker does not block** a call when the last success was long ago, nor a call for a pool
without a connection. -/
theorem exists_not_blocked :
    (∃ s, (workerSystem .sample).Reach System.Anything (new, none) s ∧ InWindow s ∧
      (∀ p ∈ s.1.pool .sample, p.connections ≠ []) ∧
      ¬ s.1.Blocked .sample (sameOutcome Http2Pool.refusal)) ∧
    (∃ s, (workerSystem .sample).Reach System.Anything (new, none) s ∧ InWindow s ∧
      (∀ p ∈ s.1.pool .sample, p.Recent s.1.now) ∧
      ¬ s.1.Blocked .sample (sameOutcome Http2Pool.refusal)) := by
  constructor
  · have hrun : (workerSystem .sample).exec (new, none) (tenRefusals 31000000000) = some _ := rfl
    refine ⟨_, .of_exec hrun, by decide +kernel, by decide +kernel, fun hblocked => ?_⟩
    exact absurd hblocked.2 (by decide +kernel)
  · have hrun : (workerSystem .sample).exec (new, none) neverConnected = some _ := rfl
    refine ⟨_, .of_exec hrun, by decide +kernel, by decide +kernel, fun hblocked => ?_⟩
    exact absurd hblocked.2 (by decide +kernel)

end Worker

end Rauta
