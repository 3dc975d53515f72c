import Mathlib.Algebra.Order.BigOperators.Group.List
import Mathlib.Algebra.Order.Floor.Semiring
import Mathlib.Data.List.Nodup
import Mathlib.Tactic.Linarith
import Mathlib.Tactic.Ring

/-!
# Apportionment by largest remainder

A whole number of seats is shared out according to quotas that add up to it. Everyone gets the floor
of their quota, and what is left goes, one seat each, to those with the largest remainders.

All seats are given away (`sum_apportion`), and nobody gets more than their quota rounded up
(`seats_eq`). Both rest on one fact about the remainders, in decreasing order: there are as many
seats left as they add up to, each of them is below one, and so the first ones, one for each seat,
cannot include a zero (`take_pos`).
-/

namespace LargestRemainder

variable {K : Type*} [Field K] [LinearOrder K] [FloorSemiring K]

/-! ## The method -/

/-- What the floor leaves of a quota. -/
def remainder (q : K) : K := q - ⌊q⌋₊

/-- What the floors add up to. -/
def floors (quotas : List K) : Nat := (quotas.map fun q => ⌊q⌋₊).sum

/-- The remainders with their indices, the largest first. -/
structure Ranked (quotas : List K) (ranking : List (Nat × K)) : Prop where
  perm : ranking.Perm (quotas.zipIdx.map fun (q, i) => (i, remainder q))
  sorted : ranking.Pairwise fun a b => b.2 ≤ a.2

/-- Those who get one of the last seats. -/
def winners (ranking : List (Nat × K)) (seats : Nat) : List Nat := (ranking.take seats).map Prod.fst

/-- The seats for a quota. -/
def seats (chosen : List Nat) (q : K) (i : Nat) : Nat := ⌊q⌋₊ + if i ∈ chosen then 1 else 0

/-- The seats for all quotas. -/
def apportion (quotas : List K) (chosen : List Nat) : List Nat :=
  quotas.zipIdx.map fun (q, i) => seats chosen q i

variable {quotas : List K} {ranking : List (Nat × K)} {total : Nat}

namespace Ranked

/-- An entry of the ranking is that of a quota. -/
theorem exists_quota (h : Ranked quotas ranking) {i : Nat} {x : K} (hmem : (i, x) ∈ ranking) :
    ∃ q, quotas[i]? = some q ∧ remainder q = x := by
  obtain ⟨⟨q, j⟩, hq, heq⟩ := List.mem_map.mp (h.perm.mem_iff.mp hmem)
  cases heq
  exact ⟨q, List.mem_zipIdx_iff_getElem?.mp hq, rfl⟩

/-- Every index occurs once. -/
theorem map_fst_perm (h : Ranked quotas ranking) :
    (ranking.map Prod.fst).Perm (List.range quotas.length) := by
  have hindices := h.perm.map Prod.fst
  rw [List.map_map] at hindices
  have hrange : quotas.zipIdx.map (Prod.fst ∘ fun (q, i) => (i, remainder q)) =
      List.range quotas.length := by
    rw [List.range_eq_range', ← List.zipIdx_map_snd 0 quotas]
    rfl
  rwa [hrange] at hindices

theorem map_snd_perm (h : Ranked quotas ranking) :
    (ranking.map Prod.snd).Perm (quotas.map remainder) := by
  have hremainders := h.perm.map Prod.snd
  rw [List.map_map] at hremainders
  have hmap : quotas.zipIdx.map (Prod.snd ∘ fun (q, i) => (i, remainder q)) =
      quotas.map remainder := by
    conv_rhs => rw [← List.zipIdx_map_fst 0 quotas, List.map_map]
    rfl
  rwa [hmap] at hremainders

theorem winners_nodup (h : Ranked quotas ranking) (seats : Nat) :
    (winners ranking seats).Nodup := by
  have hnodup := h.map_fst_perm.nodup_iff.mpr List.nodup_range
  rw [winners, List.map_take]
  exact hnodup.sublist (List.take_sublist _ _)

end Ranked

/-- One seat for each of the chosen. -/
theorem sum_chosen {chosen : List Nat} {n : Nat} (hnodup : chosen.Nodup)
    (hlt : ∀ i ∈ chosen, i < n) :
    ((List.range n).map fun i => if i ∈ chosen then 1 else 0).sum = chosen.length := by
  have hsum : ∀ l : List Nat, (l.map fun i => if i ∈ chosen then 1 else 0).sum =
      (l.filter (· ∈ chosen)).length := by
    intro l
    induction l with
    | nil => rfl
    | cons i l ih =>
        by_cases hi : i ∈ chosen
        · simp [hi, ih, Nat.add_comm]
        · simp [hi, ih]
  have hperm : ((List.range n).filter (· ∈ chosen)).Perm chosen := by
    rw [List.perm_ext_iff_of_nodup (List.nodup_range.filter _) hnodup]
    intro i
    simp only [List.mem_filter, List.mem_range, decide_eq_true_eq, and_iff_right_iff_imp]
    exact hlt i
  rw [hsum, hperm.length_eq]

theorem sum_apportion_of_chosen {chosen : List Nat} (hnodup : chosen.Nodup)
    (hlt : ∀ i ∈ chosen, i < quotas.length) :
    (apportion quotas chosen).sum = floors quotas + chosen.length := by
  have hfloors : (quotas.zipIdx.map fun e => ⌊e.1⌋₊).sum = floors quotas := by
    rw [floors]
    conv_rhs => rw [← List.zipIdx_map_fst 0 quotas, List.map_map]
    rfl
  have hextra : (quotas.zipIdx.map fun e => if e.2 ∈ chosen then 1 else 0).sum = chosen.length := by
    rw [← sum_chosen hnodup hlt, List.range_eq_range', ← List.zipIdx_map_snd 0 quotas, List.map_map]
    rfl
  rw [← hfloors, ← hextra, ← List.sum_map_add]
  rfl

/-! ## Decreasing numbers below one -/

section Ordered

variable [IsStrictOrderedRing K]

omit [FloorSemiring K] in
theorem sum_lt_length {xs : List K} (hne : xs ≠ []) (hlt : ∀ x ∈ xs, x < 1) :
    xs.sum < xs.length := by
  have h := List.sum_lt_sum_of_ne_nil hne id (fun _ => 1) hlt
  simpa using h

omit [FloorSemiring K] in
/-- If they add up to `r`, then the first `r` of them are positive. -/
theorem take_pos {xs : List K} {r : Nat} (hsorted : xs.Pairwise (· ≥ ·)) (hlt : ∀ x ∈ xs, x < 1)
    (hsum : xs.sum = r) : r ≤ xs.length ∧ ∀ x ∈ xs.take r, 0 < x := by
  by_cases hnil : xs.take r = []
  · rcases List.take_eq_nil_iff.mp hnil with rfl | rfl
    · simp
    · have hzero : r = 0 := by simpa using hsum.symm
      simp [hzero]
  · have htake : (xs.take r).sum < r := by
      have hlength : ((xs.take r).length : K) ≤ r :=
        Nat.cast_le.mpr (List.length_take_le r xs)
      exact (sum_lt_length hnil fun x hx => hlt x (List.mem_of_mem_take hx)).trans_le hlength
    -- something is left for the rest, and nothing in front is less than that
    have hdrop : 0 < (xs.drop r).sum := by
      have hsplit := List.sum_take_add_sum_drop xs r
      linarith
    obtain ⟨y, hy, hpos⟩ : ∃ y ∈ xs.drop r, 0 < y := by
      have h := List.exists_lt_of_sum_lt (l := xs.drop r) (fun _ => 0) id (by simpa using hdrop)
      simpa using h
    refine ⟨?_, fun x hx => ?_⟩
    · have hlength := List.length_pos_of_mem hy
      rw [List.length_drop] at hlength
      omega
    · rw [← List.take_append_drop r xs] at hsorted
      exact hpos.trans_le ((List.pairwise_append.mp hsorted).2.2 x hx y hy)

/-! ## Floors and remainders -/

theorem remainder_lt_one (q : K) : remainder q < 1 := by
  have h := Nat.lt_floor_add_one q
  unfold remainder
  linarith

/-- With a remainder, one more than the floor is the ceiling. -/
theorem ceil_of_remainder_pos {q : K} (h : 0 < remainder q) : ⌈q⌉₊ = ⌊q⌋₊ + 1 := by
  have hlt := Nat.lt_floor_add_one q
  unfold remainder at h
  rw [Nat.ceil_eq_iff (Nat.succ_ne_zero _), Nat.succ_sub_one, Nat.cast_succ]
  exact ⟨by linarith, hlt.le⟩

omit [IsStrictOrderedRing K] in
theorem floors_add_sum_remainder (quotas : List K) :
    (floors quotas : K) + (quotas.map remainder).sum = quotas.sum := by
  induction quotas with
  | nil => simp [floors]
  | cons q quotas ih =>
      rw [floors] at ih ⊢
      simp only [List.map_cons, List.sum_cons, Nat.cast_add, ← ih, remainder]
      ring

/-- The floors do not add up to more than there is. -/
theorem floors_le (hnonneg : ∀ q ∈ quotas, 0 ≤ q) (hsum : quotas.sum = total) :
    floors quotas ≤ total := by
  have hremainders : 0 ≤ (quotas.map remainder).sum := by
    apply List.sum_nonneg
    intro x hx
    obtain ⟨q, hq, rfl⟩ := List.mem_map.mp hx
    exact sub_nonneg.mpr (Nat.floor_le (hnonneg q hq))
  have h := floors_add_sum_remainder quotas
  rw [← Nat.cast_le (α := K)]
  linarith

/-! ## The quota rule -/

section Rule

variable (h : Ranked quotas ranking) (hnonneg : ∀ q ∈ quotas, 0 ≤ q) (hsum : quotas.sum = total)

include h hnonneg hsum

/-- As many as there are seats left have a remainder, and they come first. -/
theorem ranking_take_pos : total - floors quotas ≤ ranking.length ∧
    ∀ e ∈ ranking.take (total - floors quotas), 0 < e.2 := by
  have hrest : (ranking.map Prod.snd).sum = ((total - floors quotas : Nat) : K) := by
    rw [h.map_snd_perm.sum_eq, Nat.cast_sub (floors_le hnonneg hsum), ← hsum,
      ← floors_add_sum_remainder quotas]
    ring
  have hbelow : ∀ x ∈ ranking.map Prod.snd, x < 1 := by
    intro x hx
    obtain ⟨q, -, rfl⟩ := List.mem_map.mp (h.map_snd_perm.mem_iff.mp hx)
    exact remainder_lt_one q
  have hsorted : (ranking.map Prod.snd).Pairwise (· ≥ ·) := List.pairwise_map.mpr h.sorted
  obtain ⟨hlength, hpos⟩ := take_pos hsorted hbelow hrest
  refine ⟨by simpa using hlength, fun e he => hpos e.2 ?_⟩
  rw [← List.map_take]
  exact List.mem_map_of_mem he

/-- Who gets a seat more has a remainder. -/
theorem remainder_pos_of_mem_winners {i : Nat} (hi : i ∈ winners ranking (total - floors quotas))
    {q : K} (hq : quotas[i]? = some q) : 0 < remainder q := by
  obtain ⟨e, he, rfl⟩ := List.mem_map.mp hi
  obtain ⟨q', hq', hremainder⟩ := h.exists_quota (List.mem_of_mem_take he)
  obtain rfl : q = q' := Option.some.inj (hq.symm.trans hq')
  rw [hremainder]
  exact (ranking_take_pos h hnonneg hsum).2 e he

/-- **All seats are given away.** -/
theorem sum_apportion :
    (apportion quotas (winners ranking (total - floors quotas))).sum = total := by
  obtain ⟨hlength, -⟩ := ranking_take_pos h hnonneg hsum
  have hle := floors_le hnonneg hsum
  have hlt : ∀ i ∈ winners ranking (total - floors quotas), i < quotas.length := by
    intro i hi
    obtain ⟨e, he, rfl⟩ := List.mem_map.mp hi
    have hmem : e.1 ∈ ranking.map Prod.fst := List.mem_map_of_mem (List.mem_of_mem_take he)
    exact List.mem_range.mp (h.map_fst_perm.mem_iff.mp hmem)
  rw [sum_apportion_of_chosen (h.winners_nodup _) hlt, winners, List.length_map, List.length_take,
    Nat.min_eq_left hlength]
  omega

/-- **The quota rule**: a quota is rounded down or up. -/
theorem seats_eq {i : Nat} {q : K} (hq : quotas[i]? = some q) :
    seats (winners ranking (total - floors quotas)) q i = ⌊q⌋₊ ∨
      seats (winners ranking (total - floors quotas)) q i = ⌈q⌉₊ := by
  by_cases hi : i ∈ winners ranking (total - floors quotas)
  · right
    rw [seats, if_pos hi,
      ceil_of_remainder_pos (remainder_pos_of_mem_winners h hnonneg hsum hi hq)]
  · left
    rw [seats, if_neg hi, Nat.add_zero]

end Rule

end Ordered

end LargestRemainder
