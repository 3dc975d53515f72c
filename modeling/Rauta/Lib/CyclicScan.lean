import Mathlib.Data.List.Rotate

/-!
# Cyclic scans

A scan goes round `n` places, from a start onwards, and takes the first one that passes a test. The
next scan starts behind the place that was taken.

The places that pass, in the order of the scan, are a queue (`queue`). A scan takes the head of the
queue, and the next scan finds it at the end (`queue_behind`). So a place has to wait until all
others have been taken.
-/

namespace CyclicScan

variable {n start : Nat}

/-- The places, in the order of a scan. -/
def order (n start : Nat) : List Nat := (List.range n).map fun i => (start + i) % n

theorem order_eq_rotate (n start : Nat) : order n start = (List.range n).rotate start := by
  refine List.ext_getElem (by simp [order]) fun i _ _ => ?_
  simp [order, List.getElem_rotate, Nat.add_comm]

/-- To start later is to rotate. -/
theorem order_add (n start k : Nat) : order n (start + k) = (order n start).rotate k := by
  rw [order_eq_rotate, order_eq_rotate, List.rotate_rotate]

theorem order_mod (n start : Nat) : order n (start % n) = order n start := by
  have hlen : (List.range n).length = n := List.length_range
  rw [order_eq_rotate, order_eq_rotate, ← List.rotate_mod (List.range n) start, hlen]

theorem perm_order (n start : Nat) : (order n start).Perm (List.range n) := by
  rw [order_eq_rotate]
  exact List.rotate_perm _ _

/-- The places that pass the test, in the order of a scan. -/
def queue (n start : Nat) (p : Nat → Bool) : List Nat := (order n start).filter p

variable {p : Nat → Bool} {a : Nat}

theorem perm_queue (n start : Nat) (p : Nat → Bool) :
    (queue n start p).Perm ((List.range n).filter p) :=
  (perm_order n start).filter p

/-- What a scan takes. -/
theorem find?_order : (order n start).find? p = (queue n start p).head? :=
  (List.head?_filter ..).symm

/-- **The place that was taken goes to the end of the queue.** -/
theorem queue_behind {rest : List Nat} (h : queue n start p = a :: rest) :
    queue n ((a + 1) % n) p = rest ++ [a] := by
  have hfound : (order n start).find? p = some a := by rw [find?_order, h, List.head?_cons]
  obtain ⟨ha, before, behind, horder, hbefore⟩ := List.find?_eq_some_iff_append.mp hfound
  have hskipped : before.filter p = [] := by simpa using hbefore
  have hrest : behind.filter p = rest := by
    rw [queue, horder, List.filter_append, hskipped, List.filter_cons_of_pos ha] at h
    exact (List.cons.inj h).2
  -- the place that was taken is the one after those that were skipped
  have hplace : a = (start + before.length) % n := by
    have hlen : before.length < (order n start).length := by rw [horder]; simp
    have hget : (order n start)[before.length] = a := by simp [horder]
    simpa [order] using hget.symm
  have hnext : order n ((a + 1) % n) = behind ++ (before ++ [a]) := by
    have hmod : (a + 1) % n = (start + (before ++ [a]).length) % n := by
      rw [hplace, Nat.mod_add_mod, Nat.add_assoc, List.length_append, List.length_singleton]
    have hsplit : order n start = (before ++ [a]) ++ behind := by simp [horder]
    rw [hmod, order_mod, order_add, hsplit, List.rotate_append_length_eq]
  rw [queue, hnext, List.filter_append, List.filter_append, hskipped, hrest,
    List.filter_cons_of_pos ha]
  rfl

end CyclicScan
