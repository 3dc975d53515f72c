import Mathlib.Data.List.GetD
import Mathlib.Tactic.NormNum.Prime
import Rauta.Common
import Rauta.Lib.DoubleHashing
import Rauta.Lib.FirstCome

/-!
# Compact Maglev tables

`maglev_build_compact_table` and `maglev_lookup_compact`: the table of `COMPACT_MAGLEV_SIZE` backend
indices that every route carries. The fill competes: in round `n` every permutation in turn tries to
claim its `n`-th slot, and the loop ends when no slot is left.

The `while` of the source is `fill`, with one unit of fuel for each round. A permutation visits
every slot within `compactMaglevSize` rounds, because the size is a prime (`compactStride`), so that
much fuel is enough (`fill_full`, `fill_enough`). The loop is a game of first come, first served
(`compactGame`), which is where the proofs about it are.

What selection needs of a table is `maglevBuildCompactTable_lt`: an entry is the index of a backend.
-/

namespace Rauta

/-- `COMPACT_MAGLEV_SIZE`, a prime. -/
def compactMaglevSize : Nat := 4099

/-! ## Permutations -/

/-- `hash_backend`: FNV-1a over the eight bytes of `key`, least significant first, with a seed. -/
def hashBackend (key seed : Nat) : Nat :=
  (List.range 8).foldl (fun hash i => fnvRound hash (key >>> (i * 8) &&& 0xFF)) (fnvOffset ^^^ seed)

/-- The bytes a backend is hashed by: the address and the port. -/
def Backend.hasherBytes (b : Backend) : List UInt8 := b.ip.toList ++ toBeBytes b.port

/-- `generate_permutation_compact`: double hashing, `offset + j * skip` for `j = 0, 1, …`. -/
def generatePermutationCompact (b : Backend) (backendIdx : Nat) : List Nat :=
  let key := fnv1aHash b.hasherBytes
  let offset := hashBackend key backendIdx % compactMaglevSize
  let skip := hashBackend key (backendIdx + 1) % (compactMaglevSize - 1) + 1
  (List.range compactMaglevSize).map fun j => (offset + j * skip) % compactMaglevSize

/-- How many permutations a backend of this weight contributes. -/
def Backend.repetitions (b : Backend) : Nat := max (b.weight.toNat / 10) 1

/-- The permutations of all backends, in order, each with the index of its backend. -/
def permutations (backends : List Backend) : List (Nat × List Nat) :=
  backends.zipIdx.flatMap fun (b, i) =>
    (List.range b.repetitions).map fun rep => (i, generatePermutationCompact b (i * 100 + rep))

/-! ## Filling the table -/

/-- The mutable variables of the fill loop. -/
structure FillState where
  table : List Nat
  filled : List Bool
  filledCount : Nat

/-- Before the first round: all slots free, every entry zero. -/
def FillState.new : FillState where
  table := List.replicate compactMaglevSize 0
  filled := List.replicate compactMaglevSize false
  filledCount := 0

/-- A slot is claimed. -/
def FillState.claim (st : FillState) (c backendIdx : Nat) : FillState where
  table := st.table.set c backendIdx
  filled := st.filled.set c true
  filledCount := st.filledCount + 1

/-- The `for` over the permutations in round `n`, left as soon as the table is full. -/
def fillRound (n : Nat) : List (Nat × List Nat) → FillState → FillState
  | [], st => st
  | (backendIdx, perm) :: rest, st =>
    let c := perm.getD (n % compactMaglevSize) 0
    if st.filled.getD c false then
      fillRound n rest st
    else if (st.claim c backendIdx).filledCount = compactMaglevSize then
      st.claim c backendIdx
    else
      fillRound n rest (st.claim c backendIdx)

/-- The `while` over the rounds. -/
def fill (perms : List (Nat × List Nat)) : (fuel n : Nat) → FillState → FillState
  | 0, _, st => st
  | fuel + 1, n, st =>
    if st.filledCount < compactMaglevSize then
      fill perms fuel (n + 1) (fillRound n perms st)
    else st

/-- `maglev_build_compact_table`; `none` is the failed assertion on more than `maxBackends`. -/
def maglevBuildCompactTable (backends : List Backend) : Option (List Nat) :=
  if backends = [] then
    some (List.replicate compactMaglevSize 0)
  else if backends.length ≤ maxBackends then
    some (fill (permutations backends) compactMaglevSize 0 .new).table
  else none

/-- Up to `maxBackends` the assertion holds. -/
theorem exists_maglevBuildCompactTable {backends : List Backend}
    (h : backends.length ≤ maxBackends) :
    ∃ table, maglevBuildCompactTable backends = some table := by
  simp only [maglevBuildCompactTable, if_pos h]
  split <;> exact ⟨_, rfl⟩

theorem length_le_of_maglevBuildCompactTable {backends : List Backend} {table : List Nat}
    (h : maglevBuildCompactTable backends = some table) : backends.length ≤ maxBackends := by
  unfold maglevBuildCompactTable at h
  split at h
  · next hempty => simp [hempty]
  split at h
  · assumption
  · cases h

/-- `maglev_lookup_compact`. -/
def maglevLookupCompact (flowKey : Nat) (table : List Nat) : Nat :=
  if table = [] then 0 else table.getD (flowKey % compactMaglevSize) 0

/-! ## Entries are backend indices

Every write of the loop stores the index of a permutation's backend, and a slot that is never
written keeps its initial zero, so the bound needs nothing about how far the loop gets. -/

/-- The table has its full length and its entries are below `k`. -/
def TableBelow (k : Nat) (table : List Nat) : Prop :=
  table.length = compactMaglevSize ∧ ∀ x ∈ table, x < k

theorem FillState.claim_below {k c i : Nat} {st : FillState} (h : TableBelow k st.table)
    (hi : i < k) : TableBelow k (st.claim c i).table := by
  refine ⟨by simpa [claim] using h.1, ?_⟩
  intro x hx
  rcases List.mem_or_eq_of_mem_set hx with hx | rfl
  · exact h.2 x hx
  · exact hi

theorem fillRound_below {k n : Nat} {perms : List (Nat × List Nat)}
    (hp : ∀ p ∈ perms, p.1 < k) {st : FillState} (h : TableBelow k st.table) :
    TableBelow k (fillRound n perms st).table := by
  induction perms generalizing st with
  | nil => exact h
  | cons p rest ih =>
      have hrest : ∀ q ∈ rest, q.1 < k := fun q hq => hp q (List.mem_cons_of_mem _ hq)
      have hclaim : ∀ c, TableBelow k (st.claim c p.1).table :=
        fun c => FillState.claim_below h (hp p List.mem_cons_self)
      simp only [fillRound]
      split
      · exact ih hrest h
      · split
        · exact hclaim _
        · exact ih hrest (hclaim _)

theorem fill_below {k : Nat} {perms : List (Nat × List Nat)} (hp : ∀ p ∈ perms, p.1 < k)
    (fuel n : Nat) {st : FillState} (h : TableBelow k st.table) :
    TableBelow k (fill perms fuel n st).table := by
  induction fuel generalizing n st with
  | zero => exact h
  | succ fuel ih =>
      simp only [fill]
      split
      · exact ih _ (fillRound_below hp h)
      · exact h

theorem permutations_lt {backends : List Backend} :
    ∀ p ∈ permutations backends, p.1 < backends.length := by
  intro p hp
  obtain ⟨⟨b, i⟩, hbi, hp⟩ := List.mem_flatMap.mp hp
  obtain ⟨rep, -, rfl⟩ := List.mem_map.mp hp
  simpa using (List.mem_zipIdx hbi).2.1

/-- **Entries are backend indices.** -/
theorem maglevBuildCompactTable_lt {backends : List Backend} {table : List Nat}
    (hne : backends ≠ []) (h : maglevBuildCompactTable backends = some table) :
    TableBelow backends.length table := by
  simp only [maglevBuildCompactTable, hne, ↓reduceIte] at h
  split at h
  · cases h
    refine fill_below permutations_lt _ _ ⟨by simp [FillState.new], ?_⟩
    intro x hx
    rw [List.eq_of_mem_replicate hx]
    exact List.length_pos_of_ne_nil hne
  · cases h

theorem maglevLookupCompact_lt {k : Nat} {table : List Nat} (h : TableBelow k table)
    (flowKey : Nat) : maglevLookupCompact flowKey table < k := by
  have hlt : flowKey % compactMaglevSize < table.length := by
    rw [h.1]
    exact Nat.mod_lt _ (by decide)
  have hne : table ≠ [] := by
    rintro rfl
    simp at hlt
  simp only [maglevLookupCompact, hne, ↓reduceIte, List.getD_eq_getElem _ _ hlt]
  exact h.2 _ (List.getElem_mem hlt)

/-! ## The loop as a game -/

theorem compactMaglevSize_prime : compactMaglevSize.Prime := by
  unfold compactMaglevSize
  norm_num

/-- The two hashes of a backend, for a table of `m` slots. -/
def Backend.stride (m : Nat) (hm : 1 < m) (b : Backend) (backendIdx : Nat) : Stride m where
  offset := hashBackend (fnv1aHash b.hasherBytes) backendIdx % m
  skip := hashBackend (fnv1aHash b.hasherBytes) (backendIdx + 1) % (m - 1) + 1
  offset_lt := Nat.mod_lt _ (by omega)
  skip_pos := Nat.succ_pos _
  skip_lt := by
    have := Nat.mod_lt (hashBackend (fnv1aHash b.hasherBytes) (backendIdx + 1))
      (show 0 < m - 1 by omega)
    omega

/-- The probe sequence of `generate_permutation_compact`. -/
def compactStride (b : Backend) (backendIdx : Nat) : Stride compactMaglevSize :=
  b.stride compactMaglevSize (by decide) backendIdx

theorem generatePermutationCompact_eq (b : Backend) (backendIdx : Nat) :
    generatePermutationCompact b backendIdx = (compactStride b backendIdx).probes := rfl

/-- The slot that a permutation tries in a round. -/
def slotAt (n : Nat) (p : Nat × List Nat) : Nat := p.2.getD (n % compactMaglevSize) 0

theorem slotAt_generatePermutationCompact (i : Nat) (b : Backend) (backendIdx n : Nat) :
    slotAt n (i, generatePermutationCompact b backendIdx) =
      (compactStride b backendIdx).visit n := by
  rw [slotAt, generatePermutationCompact_eq, Stride.getD_probes (Nat.mod_lt _ (by decide)),
    Stride.visit_mod]

/-- Slots are counted when they are claimed. -/
structure FillState.Counted (st : FillState) : Prop where
  length_eq : st.filled.length = compactMaglevSize
  count_eq : st.filledCount = st.filled.count true

/-- The slot is claimed. -/
def FillState.Claimed (st : FillState) (c : Nat) : Prop := st.filled.getD c false

/-- The backend that has claimed a slot. -/
def FillState.owner (st : FillState) (c : Nat) : Option Nat :=
  if st.filled.getD c false then some (st.table.getD c 0) else none

/-- A state of the loop: the slots are counted and there is an entry for each. -/
structure FillState.Sized (st : FillState) : Prop extends st.Counted where
  table_length : st.table.length = compactMaglevSize

namespace FillState

variable {st : FillState} {c : Nat}

theorem owner_of_free (h : ¬ st.Claimed c) : st.owner c = none := if_neg h

theorem owner_of_claimed (h : st.Claimed c) : st.owner c = some (st.table.getD c 0) := if_pos h

theorem isSome_owner : (st.owner c).isSome = st.filled.getD c false := by
  unfold owner
  split <;> simp_all

theorem Counted.new : FillState.new.Counted :=
  ⟨List.length_replicate, (List.count_eq_zero.mpr (by simp [FillState.new])).symm⟩

theorem Sized.new : FillState.new.Sized := ⟨.new, List.length_replicate⟩

theorem owner_new (hc : c < compactMaglevSize) : FillState.new.owner c = none := by
  apply owner_of_free
  simp [Claimed, FillState.new, List.getD_eq_getElem?_getD, hc]

theorem Counted.claimed_of_full (h : st.Counted) (hfull : st.filledCount = compactMaglevSize)
    (hc : c < compactMaglevSize) : st.Claimed c := by
  have hlt : c < st.filled.length := hc.trans_eq h.length_eq.symm
  have hall : ∀ x ∈ st.filled, true = x := by
    rw [← List.count_eq_length, ← h.count_eq, hfull, h.length_eq]
  rw [Claimed, List.getD_eq_getElem _ _ hlt]
  exact (hall _ (List.getElem_mem hlt)).symm

theorem Counted.full_of_claimed (h : st.Counted)
    (hall : ∀ c < compactMaglevSize, st.Claimed c) : st.filledCount = compactMaglevSize := by
  rw [h.count_eq, ← h.length_eq, List.count_eq_length]
  intro x hx
  obtain ⟨c, hc, rfl⟩ := List.getElem_of_mem hx
  have := hall c (hc.trans_eq h.length_eq)
  rw [Claimed, List.getD_eq_getElem _ _ hc] at this
  exact this.symm

theorem Counted.filledCount_le (h : st.Counted) : st.filledCount ≤ compactMaglevSize := by
  rw [h.count_eq, ← h.length_eq]
  exact List.count_le_length

theorem Counted.claim (h : st.Counted) (hc : c < compactMaglevSize) (hfree : ¬ st.Claimed c)
    (backendIdx : Nat) : (st.claim c backendIdx).Counted := by
  have hlt : c < st.filled.length := hc.trans_eq h.length_eq.symm
  rw [Claimed, List.getD_eq_getElem _ _ hlt] at hfree
  refine ⟨?_, ?_⟩
  · rw [FillState.claim, List.length_set]
    exact h.length_eq
  · have hcount : (st.filled.set c true).count true = st.filled.count true + 1 := by
      rw [List.count_set hlt]
      simp [hfree]
    rw [FillState.claim, hcount, h.count_eq]

theorem Sized.claim (h : st.Sized) (hc : c < compactMaglevSize) (hfree : ¬ st.Claimed c)
    (backendIdx : Nat) : (st.claim c backendIdx).Sized :=
  ⟨h.toCounted.claim hc hfree backendIdx, by simp [FillState.claim, h.table_length]⟩

/-- A claim changes the owner of its slot only. -/
theorem Sized.owner_claim (h : st.Sized) (hc : c < compactMaglevSize) (backendIdx c' : Nat) :
    (st.claim c backendIdx).owner c' = if c' = c then some backendIdx else st.owner c' := by
  have hfilled : c < st.filled.length := hc.trans_eq h.length_eq.symm
  have htable : c < st.table.length := hc.trans_eq h.table_length.symm
  simp only [owner, FillState.claim, List.getD_eq_getElem?_getD, List.getElem?_set, hfilled, htable]
  by_cases heq : c = c'
  · simp [heq]
  · simp [heq, Ne.symm heq]

end FillState

/-- The fill of a compact table. -/
def compactGame : FirstCome.Game (Nat × List Nat) FillState Nat where
  size := compactMaglevSize
  label := Prod.fst
  visits := slotAt
  owner := FillState.owner
  taken := FillState.filledCount
  claim := FillState.claim

theorem compactGame_lawful : compactGame.Lawful FillState.Sized where
  claim h hc hfree i := h.claim hc (fun hclaimed => by
    rw [show compactGame.owner = FillState.owner from rfl,
      FillState.owner_of_claimed hclaimed] at hfree
    cases hfree) i
  owner_claim h hc := h.owner_claim hc
  taken_le h := h.filledCount_le
  full_iff {st} h := by
    constructor
    · intro hfull c hc
      exact FillState.isSome_owner.trans (h.claimed_of_full hfull hc)
    · intro hall
      exact h.full_of_claimed fun c hc => FillState.isSome_owner.symm.trans (hall c hc)

theorem fillRound_eq (n : Nat) (perms : List (Nat × List Nat)) (st : FillState) :
    fillRound n perms st = compactGame.round n perms st := by
  induction perms generalizing st with
  | nil => rfl
  | cons p rest ih =>
      simp only [fillRound, FirstCome.Game.round, ih]
      rw [show (compactGame.owner st (compactGame.visits n p)).isSome = _ from
        FillState.isSome_owner]
      rfl

theorem fill_eq (perms : List (Nat × List Nat)) (fuel n : Nat) (st : FillState) :
    fill perms fuel n st = compactGame.fill perms fuel n st := by
  induction fuel generalizing n st with
  | zero => rfl
  | succ fuel ih =>
      simp only [fill, FirstCome.Game.fill, ih, fillRound_eq]
      rfl

/-! ## The loop ends -/

theorem mem_permutations {backends : List Backend} {p : Nat × List Nat}
    (h : p ∈ permutations backends) :
    ∃ b backendIdx, p.2 = generatePermutationCompact b backendIdx := by
  simp only [permutations, List.mem_flatMap, List.mem_map] at h
  obtain ⟨⟨b, i⟩, -, rep, -, rfl⟩ := h
  exact ⟨b, i * 100 + rep, by simp only⟩

/-- All that a permutation visits are slots. -/
theorem slotAt_lt {backends : List Backend} {p : Nat × List Nat} (h : p ∈ permutations backends)
    (n : Nat) : slotAt n p < compactMaglevSize := by
  obtain ⟨b, backendIdx, heq⟩ := mem_permutations h
  rw [← Prod.mk.eta (p := p), heq, slotAt_generatePermutationCompact]
  exact Stride.visit_lt _ n

theorem permutations_ne_nil {backends : List Backend} (hne : backends ≠ []) :
    permutations backends ≠ [] := by
  obtain ⟨b, rest, rfl⟩ := List.exists_cons_of_ne_nil hne
  have hpos : b.repetitions ≠ 0 := by
    unfold Backend.repetitions
    omega
  simp [permutations, hpos]

/-- **The loop ends**: after `compactMaglevSize` rounds no slot is left. -/
theorem fill_full {backends : List Backend} (hne : backends ≠ []) :
    (fill (permutations backends) compactMaglevSize 0 .new).filledCount = compactMaglevSize := by
  rw [fill_eq]
  refine compactGame_lawful.taken_fill (fun p hp => slotAt_lt hp) .new
    (fun c => FillState.owner_new) fun c hc => ?_
  obtain ⟨p, hp⟩ := List.exists_mem_of_ne_nil _ (permutations_ne_nil hne)
  obtain ⟨b, backendIdx, heq⟩ := mem_permutations hp
  obtain ⟨j, hj, hvisit⟩ := (compactStride b backendIdx).exists_visit compactMaglevSize_prime hc
  refine ⟨j, hj, p, hp, ?_⟩
  show slotAt j p = c
  rw [← Prod.mk.eta (p := p), heq, slotAt_generatePermutationCompact, hvisit]

/-- **First come, first served**: an entry is the backend whose permutation comes to the slot
first. -/
theorem firstVisitor_entry {backends : List Backend} (hne : backends ≠ []) {table : List Nat}
    (h : maglevBuildCompactTable backends = some table) {c : Nat} (hc : c < compactMaglevSize) :
    compactGame.firstVisitor (permutations backends) c compactMaglevSize =
      some (table.getD c 0) := by
  have hfew := length_le_of_maglevBuildCompactTable h
  simp only [maglevBuildCompactTable, hne, hfew, ↓reduceIte, Option.some.injEq] at h
  have hfull := fill_full hne
  rw [fill_eq] at h hfull
  obtain ⟨hsized, howner⟩ := compactGame_lawful.owner_fill (fun p hp => slotAt_lt hp)
    compactMaglevSize 0 FillState.Sized.new fun c => FillState.owner_new
  rw [← Nat.zero_add compactMaglevSize, ← howner c hc, ← h]
  exact FillState.owner_of_claimed (hsized.claimed_of_full hfull hc)

/-- More fuel makes no difference. -/
theorem fill_enough {backends : List Backend} (hne : backends ≠ []) (more : Nat) :
    fill (permutations backends) (compactMaglevSize + more) 0 .new =
      fill (permutations backends) compactMaglevSize 0 .new := by
  rw [fill_eq, FirstCome.Game.fill_add, ← fill_eq, ← fill_eq]
  cases more with
  | zero => rfl
  | succ more => simp only [fill, fill_full hne, Nat.lt_irrefl, if_false]

end Rauta
