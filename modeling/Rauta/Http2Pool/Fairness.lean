import Rauta.Http2Pool
import Rauta.Lib.CyclicScan

/-!
# Whose turn it is

`get_connection` scans the connections from `next_conn_index` on, takes the first one that can be
used, and leaves the index behind it. The index may be anything: it is reduced modulo the number of
connections, which may have changed since it was stored.

The connections that can be used form a queue, and a call serves its head (`getConnection_queue`).
While nothing else happens to the pool, as many calls as there are usable connections therefore
serve each of them once, wherever they begin.
-/

namespace Rauta

namespace Http2Pool

/-- The connection at a position can be handed out. -/
def usable (connections : List Http2Connection) (peerReady : Nat → Bool) (idx : Nat) : Bool :=
  connections[idx]?.any fun c => c.state = .active && c.isReady (peerReady idx)

/-- The positions of the connections that can be handed out, once the failed ones are gone. -/
def usablePositions (p : Http2Pool) (peerReady : Nat → Bool) : List Nat :=
  (List.range p.removeFailed.connections.length).filter
    (usable p.removeFailed.connections peerReady)

/-- Calls one after the other, each with its time and what would become of an attempt to connect.
Whether the peers are ready does not change. -/
def getConnections (peerReady : Nat → Bool) :
    Http2Pool → List (Nat × Attempt) → List (Except PoolError Nat)
  | _, [] => []
  | p, call :: calls =>
    (p.getConnection call.1 peerReady call.2).1 ::
      getConnections peerReady (p.getConnection call.1 peerReady call.2).2 calls

/-- The usable positions, in the order in which the next calls serve them. -/
def queue (p : Http2Pool) (peerReady : Nat → Bool) : List Nat :=
  CyclicScan.queue p.removeFailed.connections.length p.nextConnIndex
    (usable p.removeFailed.connections peerReady)

variable {p : Http2Pool} {peerReady : Nat → Bool} {calls : List (Nat × Attempt)} {idx : Nat}
  {served rest : List Nat}

theorem perm_queue : (p.queue peerReady).Perm (p.usablePositions peerReady) :=
  CyclicScan.perm_queue _ _ _

/-- A call serves the head of the queue, which goes to its end; the connections stay. -/
theorem getConnection_queue (hp : p.healthState ≠ .unhealthy)
    (hqueue : p.queue peerReady = idx :: rest) (now : Nat) (attempt : Attempt) :
    ∃ p', p.getConnection now peerReady attempt = (.ok idx, p') ∧ p'.healthState ≠ .unhealthy ∧
      p'.usablePositions peerReady = p.usablePositions peerReady ∧
      p'.queue peerReady = rest ++ [idx] := by
  have hready : p.removeFailed.nextReady peerReady = some idx := by
    show (CyclicScan.order _ _).find? (usable p.removeFailed.connections peerReady) = some idx
    rw [CyclicScan.find?_order]
    exact congrArg List.head? hqueue
  let p' : Http2Pool :=
    { p.removeFailed with nextConnIndex := (idx + 1) % p.removeFailed.connections.length }
  have hconnections : p'.removeFailed.connections = p.removeFailed.connections := by
    simp [p', removeFailed]
  refine ⟨p', ?_, hp, ?_, ?_⟩
  · simp only [getConnection, recover, if_neg hp, hready, p']
  · rw [usablePositions, hconnections, usablePositions]
  · rw [queue, hconnections]
    exact CyclicScan.queue_behind hqueue

/-- The calls serve the queue from its head on. -/
theorem getConnections_queue (hp : p.healthState ≠ .unhealthy)
    (hqueue : p.queue peerReady = served ++ rest) (hcalls : served.length ≤ calls.length) :
    (getConnections peerReady p calls).take served.length = served.map .ok := by
  -- what has been served is kept at the end of the queue
  induction served generalizing p rest calls with
  | nil => simp
  | cons idx served ih =>
      cases calls with
      | nil => simp at hcalls
      | cons call calls =>
          have hhead : p.queue peerReady = idx :: (served ++ rest) := hqueue
          obtain ⟨p', hcall, hp', -, hqueue'⟩ := getConnection_queue hp hhead call.1 call.2
          rw [List.append_assoc] at hqueue'
          have hserved := ih hp' hqueue' (Nat.le_of_succ_le_succ hcalls)
          simp only [getConnections, hcall, List.length_cons, List.take_succ_cons, List.map_cons,
            hserved]

/-- **Round-robin is fair**: of any consecutive calls, as many as there are usable connections,
every one of these is handed out by exactly one. -/
theorem window_perm_usablePositions (hp : p.healthState ≠ .unhealthy) {i : Nat}
    (hcalls : i + (p.usablePositions peerReady).length ≤ calls.length) :
    (((getConnections peerReady p calls).drop i).take (p.usablePositions peerReady).length).Perm
      ((p.usablePositions peerReady).map .ok) := by
  -- over the calls before the window: each leaves a pool with the same usable connections
  induction i generalizing p calls with
  | zero =>
      have hlen : (p.queue peerReady).length ≤ calls.length := by
        rw [perm_queue.length_eq]
        omega
      rw [List.drop_zero, ← perm_queue.length_eq,
        getConnections_queue hp (List.append_nil _).symm hlen]
      exact perm_queue.map _
  | succ i ih =>
      cases calls with
      | nil => simp at hcalls
      | cons call calls =>
          cases hqueue : p.queue peerReady with
          | nil =>
              have hperm : (p.queue peerReady).Perm (p.usablePositions peerReady) := perm_queue
              rw [hqueue] at hperm
              simp [hperm.symm.eq_nil]
          | cons idx rest =>
              obtain ⟨p', hcall, hp', hsame, -⟩ := getConnection_queue hp hqueue call.1 call.2
              rw [← hsame] at hcalls ⊢
              rw [getConnections, hcall, List.drop_succ_cons]
              exact ih hp' (by simp only [List.length_cons] at hcalls; omega)

/-- Five connections, three of them usable, and an index from before some were removed. -/
def gapped : Http2Pool :=
  ⟨[⟨true, .active⟩, ⟨true, .draining⟩, ⟨true, .active⟩, ⟨false, .active⟩, ⟨true, .active⟩],
    8, 7, .degraded, 0, 0⟩

theorem window_perm_gapped :
    gapped.usablePositions (fun _ => true) = [0, 2, 4] ∧
    (((getConnections (fun _ => true) gapped (List.replicate 4 (0, ⟨none, 0⟩))).drop 1).take
      (gapped.usablePositions fun _ => true).length).Perm
        ((gapped.usablePositions fun _ => true).map .ok) :=
  ⟨by decide, window_perm_usablePositions (by decide) (by decide)⟩

end Http2Pool

end Rauta
