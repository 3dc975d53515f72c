import Mathlib.Algebra.BigOperators.Group.List.Basic
import Mathlib.Data.List.Flatten
import Mathlib.Tactic.Ring

/-!
# Taking turns

Players with items take turns: in each round, every player that still takes part puts down all of
its items, in the order of the players. A player drops out after a number of rounds of its own.

Who puts down the next item depends on the numbers of items and rounds only (`map_fst_interleaved`),
and it can be said in closed form how many items lie before a given item of a player (`ahead`). So
it can be said how many items of each player are left when the row is cut (`le_count_take_iff`).
-/

namespace RoundRobin

section Row

variable {α β : Type*}

/-- One round: the items of those who take part in it. -/
def turn (players : List (List α × Nat)) (k : Nat) : List α :=
  players.flatMap fun player => if k < player.2 then player.1 else []

/-- The first rounds. -/
def rounds (players : List (List α × Nat)) (n : Nat) : List α :=
  (List.range n).flatMap (turn players)

/-- The number of rounds: the largest that a player takes part in. -/
def lastRound (players : List (List α × Nat)) : Nat := (players.map Prod.snd).max?.getD 0

/-- All rounds. -/
def interleaved (players : List (List α × Nat)) : List α := rounds players (lastRound players)

/-- The items, renamed. -/
def rename (f : α → β) (player : List α × Nat) : List β × Nat := (player.1.map f, player.2)

variable {players : List (List α × Nat)}

theorem rounds_succ (n : Nat) : rounds players (n + 1) = rounds players n ++ turn players n := by
  rw [rounds, List.range_succ, List.flatMap_append, List.flatMap_singleton, rounds]

theorem le_lastRound {player : List α × Nat} (h : player ∈ players) :
    player.2 ≤ lastRound players := by
  cases hm : (players.map Prod.snd).max? with
  | none =>
      rw [List.max?_eq_none_iff, List.map_eq_nil_iff] at hm
      rw [hm] at h
      cases h
  | some m =>
      have hle := (List.max?_eq_some_iff.mp hm).2 player.2 (List.mem_map_of_mem h)
      rwa [lastRound, hm, Option.getD_some]

/-- The first rounds are the beginning of the row. -/
theorem exists_rounds_append {n m : Nat} (h : n ≤ m) :
    ∃ rest, rounds players m = rounds players n ++ rest := by
  obtain ⟨d, rfl⟩ := Nat.exists_eq_add_of_le h
  refine ⟨((List.range d).map (n + ·)).flatMap (turn players), ?_⟩
  rw [rounds, List.range_add, List.flatMap_append, rounds]

end Row

/-! ## Whose item it is -/

section Owners

variable {α : Type*}

/-- The items with the index of their player. -/
def owned (players : List (List α × Nat)) : List (List (Nat × α) × Nat) :=
  players.zipIdx.map fun e => rename (Prod.mk e.2) e.1

/-- Players with nothing but their index for an item, as often as they have items. -/
def indices (start : Nat) (sizes : List (Nat × Nat)) : List (List Nat × Nat) :=
  (sizes.zipIdx start).map fun e => (List.replicate e.1.1 e.2, e.1.2)

/-- The number of items of a player, and the number of its rounds. -/
def size (player : List α × Nat) : Nat × Nat := (player.1.length, player.2)

variable {players : List (List α × Nat)}

/-- A row may be renamed player by player. -/
theorem map_interleaved {β γ : Type*} (f : β → γ) {ps : List (List β × Nat)}
    {qs : List (List γ × Nat)} (h : ps.map (rename f) = qs) :
    (interleaved ps).map f = interleaved qs := by
  subst h
  have hturn : ∀ k, (turn ps k).map f = turn (ps.map (rename f)) k := by
    intro k
    rw [turn, turn, List.map_flatMap, List.flatMap_map]
    refine List.flatMap_congr fun player _ => ?_
    show (if k < player.2 then player.1 else []).map f =
      if k < player.2 then player.1.map f else []
    split <;> rfl
  have hlast : lastRound (ps.map (rename f)) = lastRound ps := by
    rw [lastRound, lastRound, List.map_map]
    rfl
  rw [interleaved, interleaved, rounds, rounds, hlast, List.map_flatMap]
  exact List.flatMap_congr fun k _ => hturn k

/-- The owners apart, it is the same row. -/
theorem map_snd_interleaved : (interleaved (owned players)).map Prod.snd = interleaved players := by
  refine map_interleaved Prod.snd ?_
  rw [owned, List.map_map]
  conv_rhs => rw [← List.zipIdx_map_fst 0 players]
  refine List.map_congr_left fun e _ => ?_
  simp [rename, Function.comp_def]

/-- Who puts down the next item depends on the sizes only. -/
theorem map_fst_interleaved : (interleaved (owned players)).map Prod.fst =
    interleaved (indices 0 (players.map size)) := by
  refine map_interleaved Prod.fst ?_
  rw [owned, indices, List.zipIdx_map, List.map_map, List.map_map]
  refine List.map_congr_left fun e _ => ?_
  simp [rename, size, Function.comp_def, List.map_const']

end Owners

/-! ## How far a player gets -/

section Positions

/-- How many items the players put down before a round. -/
def before (sizes : List (Nat × Nat)) (k : Nat) : Nat :=
  (sizes.map fun size => size.1 * min k size.2).sum

/-- How many items lie before the `m`-th item of player `i`, which has `items` for each round. -/
def ahead (sizes : List (Nat × Nat)) (i items m : Nat) : Nat :=
  before (sizes.take i) ((m - 1) / items + 1) + before (sizes.drop i) ((m - 1) / items) +
    (m - 1) % items

/-- The `m`-th item of player `i` is one of the first `places`. -/
def Placed (places : Nat) (sizes : List (Nat × Nat)) (i m : Nat) : Prop :=
  ∃ size ∈ sizes[i]?, m ≤ size.1 * size.2 ∧ ahead sizes i size.1 m < places

instance (places : Nat) (sizes : List (Nat × Nat)) (i m : Nat) :
    Decidable (Placed places sizes i m) :=
  inferInstanceAs (Decidable (∃ size ∈ sizes[i]?, _))

theorem mul_min_succ (items last k : Nat) :
    items * min (k + 1) last = items * min k last + if k < last then items else 0 := by
  split
  · next h => rw [Nat.min_eq_left h, Nat.min_eq_left h.le, Nat.mul_succ]
  · next h => rw [Nat.min_eq_right (by omega), Nat.min_eq_right (by omega), Nat.add_zero]

section Lengths

variable {α : Type*} {players : List (List α × Nat)}

theorem turn_append (ps qs : List (List α × Nat)) (k : Nat) :
    turn (ps ++ qs) k = turn ps k ++ turn qs k := List.flatMap_append

/-- One more round. -/
theorem before_succ (k : Nat) : before (players.map size) (k + 1) =
    before (players.map size) k + (turn players k).length := by
  rw [before, before, turn, List.length_flatMap, List.map_map, List.map_map, ← List.sum_map_add]
  congr 1
  refine List.map_congr_left fun player _ => ?_
  show player.1.length * min (k + 1) player.2 = player.1.length * min k player.2 + _
  rw [mul_min_succ]
  congr 1
  split <;> rfl

@[simp]
theorem before_zero (sizes : List (Nat × Nat)) : before sizes 0 = 0 := by simp [before]

theorem length_rounds (k : Nat) : (rounds players k).length = before (players.map size) k := by
  induction k with
  | zero => simp [rounds]
  | succ k ih => rw [rounds_succ, List.length_append, ih, before_succ]

/-- All items, if nothing is cut off. -/
theorem length_interleaved : (interleaved players).length =
    ((players.map size).map fun size => size.1 * size.2).sum := by
  rw [interleaved, length_rounds, before, List.map_map, List.map_map]
  congr 1
  refine List.map_congr_left fun player hplayer => ?_
  show player.1.length * min (lastRound players) player.2 = player.1.length * player.2
  rw [Nat.min_eq_right (le_lastRound hplayer)]

end Lengths

section Counts

variable {sizes : List (Nat × Nat)} {i items last : Nat}

theorem map_size_indices (start : Nat) : (indices start sizes).map size = sizes := by
  rw [indices, List.map_map]
  conv_rhs => rw [← List.zipIdx_map_fst start sizes]
  refine List.map_congr_left fun e _ => ?_
  simp [size]

theorem mem_turn_indices {start k j : Nat} (h : j ∈ turn (indices start sizes) k) :
    start ≤ j ∧ j < start + sizes.length := by
  obtain ⟨player, hplayer, hj⟩ := List.mem_flatMap.mp h
  obtain ⟨e, he, rfl⟩ := List.mem_map.mp hplayer
  have hindex := List.mem_zipIdx he
  split at hj
  · rw [List.eq_of_mem_replicate hj]
    exact ⟨hindex.1, hindex.2.1⟩
  · cases hj

theorem count_turn_take (k : Nat) : (turn (indices 0 (sizes.take i)) k).count i = 0 := by
  refine List.count_eq_zero.mpr fun h => ?_
  have hlt := (mem_turn_indices h).2
  rw [List.length_take] at hlt
  omega

variable (hsize : sizes[i]? = some (items, last))

include hsize

/-- A player among the others. -/
theorem indices_eq : indices 0 sizes = indices 0 (sizes.take i) ++
    (List.replicate items i, last) :: indices (i + 1) (sizes.drop (i + 1)) := by
  obtain ⟨hlt, hget⟩ := List.getElem?_eq_some_iff.mp hsize
  conv_lhs => rw [← List.take_append_drop i sizes, List.drop_eq_getElem_cons hlt, hget]
  rw [indices, List.zipIdx_append, List.map_append, List.length_take, Nat.min_eq_left hlt.le,
    List.zipIdx_cons, List.map_cons, Nat.zero_add]
  rfl

theorem mem_indices : (List.replicate items i, last) ∈ indices 0 sizes := by
  rw [indices_eq hsize]
  exact List.mem_append_right _ List.mem_cons_self

/-- The turns before a player in a round, its own, and those after it. -/
theorem turn_indices (k : Nat) : turn (indices 0 sizes) k = turn (indices 0 (sizes.take i)) k ++
    ((if k < last then List.replicate items i else []) ++
      turn (indices (i + 1) (sizes.drop (i + 1))) k) := by
  rw [indices_eq hsize, turn_append]
  rfl

theorem count_turn (k : Nat) :
    (turn (indices 0 sizes) k).count i = if k < last then items else 0 := by
  have hafter : (turn (indices (i + 1) (sizes.drop (i + 1))) k).count i = 0 := by
    refine List.count_eq_zero.mpr fun h => ?_
    have hle := (mem_turn_indices h).1
    omega
  rw [turn_indices hsize, List.count_append, List.count_append, count_turn_take, hafter,
    Nat.zero_add, Nat.add_zero]
  split
  · exact List.count_replicate_self
  · rfl

theorem count_rounds (n : Nat) : (rounds (indices 0 sizes) n).count i = items * min n last := by
  induction n with
  | zero => simp [rounds]
  | succ n ih => rw [rounds_succ, List.count_append, ih, count_turn hsize, mul_min_succ]

/-- In the end, a player has put down its items in each of its rounds. -/
theorem count_interleaved : (interleaved (indices 0 sizes)).count i = items * last := by
  rw [interleaved, count_rounds hsize, Nat.min_eq_right (le_lastRound (mem_indices hsize))]

/-- The row, cut before the `m`-th item of a player. -/
theorem exists_interleaved_eq {m : Nat} (hpos : 0 < m) (hm : m ≤ items * last) :
    ∃ front rest, interleaved (indices 0 sizes) = front ++ i :: rest ∧
      front.count i + 1 = m ∧ front.length = ahead sizes i items m := by
  have hitems : 0 < items := Nat.pos_of_mul_pos_right (Nat.lt_of_lt_of_le hpos hm)
  -- `m - 1` items of the player come before: those of `k` rounds, and `j` of the same round
  obtain ⟨k, j, hk, hj, hsum⟩ : ∃ k j, (m - 1) / items = k ∧ (m - 1) % items = j ∧
      items * k + j + 1 = m := by
    refine ⟨_, _, rfl, rfl, ?_⟩
    have hdiv := Nat.div_add_mod (m - 1) items
    omega
  have hjlt : j < items := hj ▸ Nat.mod_lt _ hitems
  have hklt : k < last := by
    refine Nat.lt_of_mul_lt_mul_left (a := items) ?_
    omega
  obtain ⟨rest, hrest⟩ : ∃ rest, rounds (indices 0 sizes) (lastRound (indices 0 sizes)) =
      rounds (indices 0 sizes) (k + 1) ++ rest :=
    exists_rounds_append (Nat.lt_of_lt_of_le hklt (le_lastRound (mem_indices hsize)))
  have hreplicate : List.replicate items i =
      List.replicate j i ++ i :: List.replicate (items - (j + 1)) i := by
    rw [← List.replicate_succ, List.replicate_append_replicate]
    congr 1
    omega
  refine ⟨rounds (indices 0 sizes) k ++ turn (indices 0 (sizes.take i)) k ++ List.replicate j i,
    List.replicate (items - (j + 1)) i ++ turn (indices (i + 1) (sizes.drop (i + 1))) k ++ rest,
    ?_, ?_, ?_⟩
  · rw [interleaved, hrest, rounds_succ, turn_indices hsize, if_pos hklt, hreplicate]
    simp
  · rw [List.count_append, List.count_append, count_rounds hsize, count_turn_take,
      List.count_replicate_self, Nat.min_eq_left hklt.le]
    omega
  · have hbefore : before sizes k = before (sizes.take i) k + before (sizes.drop i) k := by
      rw [before, before, before, ← List.sum_append, ← List.map_append, List.take_append_drop]
    have hround := @before_succ _ (indices 0 (sizes.take i)) k
    rw [map_size_indices] at hround
    rw [List.length_append, List.length_append, length_rounds, map_size_indices, hbefore,
      List.length_replicate, ahead, hk, hj, hround]
    omega

omit hsize in
/-- What is left of a row that is cut has an occurrence if this lies before the cut. -/
theorem succ_le_count_take_iff {front rest : List Nat} {n : Nat} :
    front.count i + 1 ≤ ((front ++ i :: rest).take n).count i ↔ front.length < n := by
  constructor
  · intro h
    by_contra hle
    rw [List.take_append_of_le_length (not_lt.mp hle)] at h
    have hcount := (List.take_sublist n front).count_le i
    omega
  · intro h
    obtain ⟨d, rfl⟩ := Nat.exists_eq_add_of_lt h
    rw [Nat.add_assoc, List.take_length_add_append, List.take_succ_cons, List.count_append,
      List.count_cons_self]
    omega

omit hsize in
/-- **How many items are left** of a player when the row is cut: its `m`-th item is among them if
there is such an item, and fewer than `n` are ahead of it. -/
theorem le_count_take_iff {n m : Nat} (hpos : 0 < m) (hi : i < sizes.length) :
    m ≤ ((interleaved (indices 0 sizes)).take n).count i ↔ Placed n sizes i m := by
  obtain ⟨⟨items, last⟩, hsize⟩ : ∃ size, sizes[i]? = some size :=
    ⟨_, List.getElem?_eq_getElem hi⟩
  have hplaced : Placed n sizes i m ↔ m ≤ items * last ∧ ahead sizes i items m < n := by
    constructor
    · rintro ⟨size, hsize', h⟩
      rw [hsize] at hsize'
      cases hsize'
      exact h
    · exact fun h => ⟨(items, last), hsize, h⟩
  rw [hplaced]
  by_cases hm : m ≤ items * last
  · obtain ⟨front, rest, hrow, hcount, hlength⟩ := exists_interleaved_eq hsize hpos hm
    rw [and_iff_right hm, hrow, ← hlength, ← hcount]
    exact succ_le_count_take_iff
  · have hle := (List.take_sublist n (interleaved (indices 0 sizes))).count_le i
    rw [count_interleaved hsize] at hle
    simp only [hm, false_and, iff_false]
    omega

end Counts

end Positions

end RoundRobin
