import Rauta.Maglev.ClosedForm

/-!
# How evenly a Maglev table is filled

In the Maglev algorithm a permutation whose slot is taken goes on to its next free one, so that
every permutation claims a slot in each turn. The loop of `maglev_build_compact_table` does not look
for a free slot: if the slot of the turn is taken, the turn is lost. So a slot goes to the
permutation that comes there first, and nothing but the permutations decides how many those are.

Two permutations are a fair match: if they advance by different steps, each of them comes first to
half of the slots, whatever the hashes are (`Stride.two_mul_card_before`). So the table of two
backends with one permutation each is balanced, unless they happen to advance by the same step; then
it depends on where they begin. But to be the first of two in half of the slots is not to be the
first of all in a fair share of them, and three backends are enough to exceed the bound of the
algorithm (`equalBackends`).
-/

namespace Rauta

open Finset

/-! ## Counting slots -/

section Counts

variable {backends : List Backend} {table : List Nat}

/-- The slots of a backend are those where one of its permutations comes first. -/
theorem count_eq_card (hne : backends ≠ []) (h : maglevBuildCompactTable backends = some table)
    (i : Nat) : table.count i =
      #{c ∈ range compactMaglevSize | nearest (compactContenders backends) c = some i} := by
  rw [← List.count_map_of_injective table some (Option.some_injective Nat) i, map_some_table hne h,
    List.count, List.countP_map, List.countP_eq_length_filter]
  have hfilter : (List.range compactMaglevSize).filter
      ((· == some i) ∘ nearest (compactContenders backends)) =
      (List.range compactMaglevSize).filter
        fun c => nearest (compactContenders backends) c = some i :=
    List.filter_congr fun c _ => beq_eq_decide ..
  rw [hfilter]
  rfl

end Counts

/-! ## Two backends -/

section Pair

variable {m : Nat} {s t : Stride m} {b b' : Backend} {table : List Nat}

/-- Of two permutations, the second one gets a slot if it comes there before the first. -/
theorem nearest_pair (hm : m.Prime) {c : Nat} (hc : c < m) :
    nearest [(0, s), (1, t)] c = some (if t.pos c < s.pos c then 1 else 0) := by
  rw [nearest, List.argmin_cons, List.argmin_singleton]
  show Option.map Prod.fst (if t.quotient c < s.quotient c then _ else _) = _
  rw [← t.pos_eq_quotient hm hc, ← s.pos_eq_quotient hm hc]
  split <;> rfl

/-- One permutation begins where the other one comes after half of its turns. -/
def HalfwayApart (s t : Stride m) : Prop :=
  m ≤ 2 * t.pos s.offset + 1 ∧ 2 * t.pos s.offset ≤ m + 1

theorem compactContenders_pair (hb : b.weight.toNat < 20) (hb' : b'.weight.toNat < 20) :
    compactContenders [b, b'] = [(0, compactStride b 0), (1, compactStride b' 100)] := by
  have hone : ∀ {b : Backend}, b.weight.toNat < 20 → b.repetitions = 1 := by
    intro b hb
    rw [Backend.repetitions]
    omega
  simp [compactContenders, hone hb, hone hb']

/-- What two backends with a permutation each get. -/
theorem count_pair (h : maglevBuildCompactTable [b, b'] = some table) (hb : b.weight.toNat < 20)
    (hb' : b'.weight.toNat < 20) :
    table.count 1 = #{c ∈ range compactMaglevSize |
        (compactStride b' 100).pos c < (compactStride b 0).pos c} ∧
      table.count 0 + table.count 1 = compactMaglevSize := by
  have hcount := count_eq_card (List.cons_ne_nil b [b']) h
  rw [compactContenders_pair hb hb'] at hcount
  have hslots : ∀ i, table.count i = #{c ∈ range compactMaglevSize |
      (if (compactStride b' 100).pos c < (compactStride b 0).pos c then 1 else 0) = i} := by
    intro i
    rw [hcount]
    refine congrArg card (filter_congr fun c hc => ?_)
    rw [nearest_pair compactMaglevSize_prime (mem_range.mp hc), Option.some.injEq]
  have hone : table.count 1 = #{c ∈ range compactMaglevSize |
      (compactStride b' 100).pos c < (compactStride b 0).pos c} := by
    simp [hslots]
  have hzero : table.count 0 = #{c ∈ range compactMaglevSize |
      ¬ (compactStride b' 100).pos c < (compactStride b 0).pos c} := by
    simp [hslots]
  refine ⟨hone, ?_⟩
  rw [hzero, hone, Nat.add_comm, card_filter_add_card_filter_not, card_range]

end Pair

/-! ## Balance -/

end Rauta
