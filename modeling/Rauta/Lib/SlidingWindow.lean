import Mathlib.Data.List.DropRight

/-!
# Sliding windows

The window of size `n` on a growing sequence is its end, `rtake n`. It is kept without the sequence:
a full window loses its oldest entry, and the next one is appended (`slide_rtake`).
-/

namespace SlidingWindow

variable {α β : Type*} {n : Nat}

/-- The window after one more entry. -/
def slide (n : Nat) (window : List α) (a : α) : List α :=
  (if window.length = n then window.tail else window) ++ [a]

theorem length_rtake (l : List α) (n : Nat) : (l.rtake n).length = min n l.length := by
  rw [List.rtake, List.length_drop]
  omega

theorem rtake_map (f : α → β) (l : List α) (n : Nat) : (l.map f).rtake n = (l.rtake n).map f := by
  rw [List.rtake, List.rtake, List.length_map, List.map_drop]

theorem rtake_min_length (l : List α) (n : Nat) : l.rtake (min n l.length) = l.rtake n := by
  rw [List.rtake, List.rtake]
  congr 1
  omega

/-- **One more entry**, at the end of those the window stands for. -/
theorem slide_rtake (hn : 0 < n) (l : List α) (a : α) :
    slide n (l.rtake n) a = (l ++ [a]).rtake n := by
  obtain ⟨m, rfl⟩ := Nat.exists_eq_succ_of_ne_zero hn.ne'
  rw [slide, List.rtake_concat_succ, length_rtake]
  congr 1
  split
  · -- a full window
    rw [List.rtake, List.tail_drop, List.rtake]
    congr 1
    omega
  · rw [List.rtake, List.rtake]
    congr 1
    omega

end SlidingWindow
