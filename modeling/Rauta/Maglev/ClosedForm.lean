import Mathlib.Data.List.MinMax
import Rauta.Maglev

/-!
# Maglev tables in closed form

Both tables of the `common` crate, the compact one of a route and the one of 65537 slots, are filled
by permutations that take turns. Each permutation is a probe sequence of double hashing, so it comes
to a slot in one round only, which is the position of the slot in the sequence. The slot goes to the
permutation with the smallest position, and among those to the first in the list (`Earliest`):
an entry can be told from the hashes, without filling a table.

The loops are games of first come, first served; what is added here is that the first turn at a slot
is the one at its position (`firstVisitor_eq_some_iff_earliest`).
-/

namespace Rauta

open FirstCome

/-! ## The table of 65537 slots -/

/-- `MAGLEV_TABLE_SIZE`, a prime. -/
def maglevTableSize : Nat := 65537

/-- `generate_permutation`. -/
def generatePermutation (b : Backend) (backendIdx : Nat) : List Nat :=
  let key := fnv1aHash b.hasherBytes
  let offset := hashBackend key backendIdx % maglevTableSize
  let skip := hashBackend key (backendIdx + 1) % (maglevTableSize - 1) + 1
  (List.range maglevTableSize).map fun j => (offset + j * skip) % maglevTableSize

/-- One permutation for each backend, with its index as a 32-bit number. -/
def tablePermutations (backends : List Backend) : List (Nat × List Nat) :=
  backends.zipIdx.map fun (b, i) => (i % 2 ^ 32, generatePermutation b (i % 2 ^ 32))

/-- The mutable variables of the fill loop. -/
structure TableState where
  table : List (Option Nat)
  filled : Nat

/-- Before the first round. -/
def TableState.new : TableState := ⟨List.replicate maglevTableSize none, 0⟩

/-- A slot is claimed. -/
def TableState.claim (st : TableState) (c backendIdx : Nat) : TableState where
  table := st.table.set c (some backendIdx)
  filled := st.filled + 1

/-- The `for` over the permutations in round `n`, left as soon as the table is full. -/
def fillTableRound (n : Nat) : List (Nat × List Nat) → TableState → TableState
  | [], st => st
  | (backendIdx, perm) :: rest, st =>
    let c := perm.getD (n % maglevTableSize) 0
    if (st.table.getD c none).isSome then
      fillTableRound n rest st
    else if (st.claim c backendIdx).filled = maglevTableSize then
      st.claim c backendIdx
    else
      fillTableRound n rest (st.claim c backendIdx)

/-- The `while` over the rounds. -/
def fillTable (perms : List (Nat × List Nat)) : (fuel n : Nat) → TableState → TableState
  | 0, _, st => st
  | fuel + 1, n, st =>
    if st.filled < maglevTableSize then
      fillTable perms fuel (n + 1) (fillTableRound n perms st)
    else st

/-- `maglev_build_table`. -/
def maglevBuildTable (backends : List Backend) : List (Option Nat) :=
  if backends = [] then List.replicate maglevTableSize none
  else (fillTable (tablePermutations backends) maglevTableSize 0 .new).table

/-- The loop as a game of first come, first served. -/
def tableGame : Game (Nat × List Nat) TableState Nat where
  size := maglevTableSize
  label := Prod.fst
  visits n p := p.2.getD (n % maglevTableSize) 0
  owner st c := st.table.getD c none
  taken := TableState.filled
  claim := TableState.claim

theorem fillTableRound_eq (n : Nat) (perms : List (Nat × List Nat)) (st : TableState) :
    fillTableRound n perms st = tableGame.round n perms st := by
  induction perms generalizing st with
  | nil => rfl
  | cons p rest ih =>
      simp only [fillTableRound, Game.round, ih]
      rfl

theorem fillTable_eq (perms : List (Nat × List Nat)) (fuel n : Nat) (st : TableState) :
    fillTable perms fuel n st = tableGame.fill perms fuel n st := by
  induction fuel generalizing n st with
  | zero => rfl
  | succ fuel ih =>
      simp only [fillTable, Game.fill, ih, fillTableRound_eq]
      rfl

/-- There is an entry for each slot, and those that are taken are counted. -/
structure TableState.Sized (st : TableState) : Prop where
  length_eq : st.table.length = maglevTableSize
  count_eq : st.filled = st.table.countP Option.isSome

theorem tableGame_lawful : tableGame.Lawful TableState.Sized where
  claim {st c} h hc hfree i := by
    have hlt : c < st.table.length := hc.trans_eq h.length_eq.symm
    have hnone : st.table[c] = none := by
      rw [← List.getD_eq_getElem _ none hlt]
      exact hfree
    refine ⟨(List.length_set ..).trans h.length_eq, ?_⟩
    show st.filled + 1 = (st.table.set c (some i)).countP Option.isSome
    rw [List.countP_set hlt, hnone, h.count_eq]
    simp
  owner_claim {st c} h hc i c' := by
    have hlt : c < st.table.length := hc.trans_eq h.length_eq.symm
    show (st.table.set c (some i)).getD c' none = if c' = c then _ else st.table.getD c' none
    simp only [List.getD_eq_getElem?_getD, List.getElem?_set, hlt]
    by_cases heq : c = c'
    · simp [heq]
    · simp [heq, Ne.symm heq]
  taken_le {st} h := by
    show st.filled ≤ maglevTableSize
    rw [h.count_eq, ← h.length_eq]
    exact List.countP_le_length
  full_iff {st} h := by
    show st.filled = maglevTableSize ↔ ∀ c < maglevTableSize, (st.table.getD c none).isSome
    rw [h.count_eq, ← h.length_eq, List.countP_eq_length]
    constructor
    · intro hall c hc
      rw [List.getD_eq_getElem _ _ hc]
      exact hall _ (List.getElem_mem hc)
    · intro hall x hx
      obtain ⟨c, hc, rfl⟩ := List.getElem_of_mem hx
      rw [← List.getD_eq_getElem _ none hc]
      exact hall c hc

theorem TableState.Sized.new : TableState.new.Sized :=
  ⟨List.length_replicate, (List.countP_eq_zero.mpr (by simp [TableState.new])).symm⟩

theorem maglevTableSize_prime : maglevTableSize.Prime := by
  unfold maglevTableSize
  norm_num

/-! ## The first turn at a slot -/

/-- The probe sequence of `generate_permutation`. -/
def tableStride (b : Backend) (backendIdx : Nat) : Stride maglevTableSize :=
  b.stride maglevTableSize (by decide) backendIdx

/-- The permutations of a compact table, in order: as many for each backend as its weight says, with
the index of the backend. -/
def compactContenders (backends : List Backend) : List (Nat × Stride compactMaglevSize) :=
  backends.zipIdx.flatMap fun (b, i) =>
    (List.range b.repetitions).map fun rep => (i, compactStride b (i * 100 + rep))

/-- The permutations of the table of 65537 slots, in order. -/
def tableContenders (backends : List Backend) : List (Nat × Stride maglevTableSize) :=
  backends.zipIdx.map fun (b, i) => (i, tableStride b i)

/-- The `k`-th contender comes to the slot first: its position of the slot is the smallest, and
among equal ones it is the first in the list. -/
def Earliest {m : Nat} (contenders : List (Nat × Stride m)) (c k : Nat) : Prop :=
  ∃ p ∈ contenders[k]?, ∀ k', ∀ p' ∈ contenders[k']?,
    toLex (p.2.pos c, k) ≤ toLex (p'.2.pos c, k')

theorem Earliest.unique {m c k k' : Nat} {contenders : List (Nat × Stride m)}
    (h : Earliest contenders c k) (h' : Earliest contenders c k') : k = k' := by
  obtain ⟨p, hp, hmin⟩ := h
  obtain ⟨p', hp', hmin'⟩ := h'
  have heq := le_antisymm (hmin k' p' hp') (hmin' k p hp)
  exact (Prod.mk.inj (toLex.injective heq)).2

/-- The backend of the contender that comes to the slot first, by comparing what is left of the
hashes. -/
def nearest {m : Nat} (contenders : List (Nat × Stride m)) (c : Nat) : Option Nat :=
  (contenders.argmin fun p => p.2.quotient c).map Prod.fst

/-- The first of the smallest, by position in the list. -/
theorem argmin_eq_some_getElem {α : Type} {f : α → Nat} {l : List α} {k : Nat} (hk : k < l.length)
    (hmin : ∀ k', (hk' : k' < l.length) → toLex (f l[k], k) ≤ toLex (f l[k'], k')) :
    l.argmin f = some l[k] := by
  classical
  refine List.argmin_eq_some_iff.mpr ⟨List.getElem_mem hk, fun a ha => ?_, fun a ha hle => ?_⟩
  · obtain ⟨k', hk', rfl⟩ := List.getElem_of_mem ha
    exact (Prod.Lex.toLex_le_toLex'.mp (hmin k' hk')).1
  · have hlt : l.idxOf a < l.length := List.idxOf_lt_length_of_mem ha
    obtain ⟨hle', hfirst⟩ := Prod.Lex.toLex_le_toLex'.mp (hmin (l.idxOf a) hlt)
    rw [List.getElem_idxOf hlt] at hle' hfirst
    have hidx : l.idxOf l[k] ≤ k := by
      by_contra hgt
      have hnot := List.not_of_lt_findIdx (p := (· == l[k])) (Nat.lt_of_not_le hgt)
      simp at hnot
    exact hidx.trans (hfirst (le_antisymm hle' hle))

theorem Earliest.nearest_eq {m c k : Nat} {contenders : List (Nat × Stride m)} (hm : m.Prime)
    (hc : c < m) (h : Earliest contenders c k) :
    nearest contenders c = contenders[k]?.map Prod.fst := by
  obtain ⟨p, hp, hmin⟩ := h
  obtain ⟨hk, rfl⟩ := List.getElem?_eq_some_iff.mp hp
  have hquotient : (fun p : Nat × Stride m => p.2.quotient c) = fun p => p.2.pos c :=
    funext fun p => (p.2.pos_eq_quotient hm hc).symm
  rw [nearest, hquotient, argmin_eq_some_getElem hk fun k' hk' =>
    hmin k' _ (List.getElem?_eq_getElem hk'), hp]

section Games

variable {S : Type} {G : Game (Nat × List Nat) S Nat} {m : Nat}
  {contenders : List (Nat × Stride m)} {c : Nat}

/-- A contender as a player of the game. -/
def player (p : Nat × Stride m) : Nat × List Nat := (p.1, p.2.probes)

/-- A probe sequence does not come to a slot before its position. -/
theorem pos_le_of_visit (hm : m.Prime) (hc : c < m) {s : Stride m} {j : Nat}
    (h : s.visit j = c) : s.pos c ≤ j := by
  rw [← s.visit_mod, s.visit_eq_iff hm hc (Nat.mod_lt _ hm.pos)] at h
  rw [← h]
  exact Nat.mod_le j m

/-- **The first turn at a slot** is the smallest position, and the first of the list among equal
ones. -/
theorem firstVisitor_eq_some_iff_earliest (hm : m.Prime) (hlabel : ∀ p, G.label p = p.1)
    (hvisits : ∀ (p : Nat × Stride m) n, G.visits n (player p) = p.2.visit n) (hc : c < m)
    {i : Nat} : G.firstVisitor (contenders.map player) c m = some i ↔
      ∃ k, Earliest contenders c k ∧ contenders[k]?.map Prod.fst = some i := by
  have hget : ∀ k : Nat, (contenders.map player)[k]? = contenders[k]?.map player :=
    fun k => List.getElem?_map
  have hturn : ∀ {j k}, G.Visits (contenders.map player) c j k ↔
      ∃ p ∈ contenders[k]?, p.2.visit j = c := by
    intro j k
    rw [Game.Visits, hget]
    constructor
    · rintro ⟨q, hq, hvisit⟩
      obtain ⟨p, hp, rfl⟩ := Option.map_eq_some_iff.mp hq
      exact ⟨p, hp, (hvisits p j).symm.trans hvisit⟩
    · rintro ⟨p, hp, hvisit⟩
      exact ⟨player p, Option.map_eq_some_iff.mpr ⟨p, hp, rfl⟩, (hvisits p j).trans hvisit⟩
  have hlabels : ∀ k : Nat, (contenders.map player)[k]?.map G.label =
      contenders[k]?.map Prod.fst := by
    intro k
    rw [hget, Option.map_map]
    exact congrArg (Option.map · contenders[k]?) (funext fun p => hlabel (player p))
  simp only [Game.firstVisitor_eq_some_iff, hlabels]
  constructor
  · rintro ⟨j, hj, k, ⟨hfirst, hmin⟩, hi⟩
    obtain ⟨p, hp, hvisit⟩ := hturn.mp hfirst
    obtain rfl := (p.2.visit_eq_iff hm hc hj).mp hvisit
    refine ⟨k, ⟨p, hp, fun k' p' hp' => ?_⟩, hi⟩
    exact hmin _ _ (hturn.mpr ⟨p', hp', p'.2.visit_pos hm hc⟩)
  · rintro ⟨k, ⟨p, hp, hmin⟩, hi⟩
    refine ⟨p.2.pos c, p.2.pos_lt hm hc, k, ⟨hturn.mpr ⟨p, hp, p.2.visit_pos hm hc⟩, ?_⟩, hi⟩
    intro j' k' hvisits'
    obtain ⟨p', hp', hvisit⟩ := hturn.mp hvisits'
    have hle := pos_le_of_visit hm hc hvisit
    exact (hmin k' p' hp').trans (Prod.Lex.toLex_mono ⟨hle, Nat.le_refl k'⟩)

end Games

/-! ## The entries -/

/-- A table of `m` slots in closed form: an entry is the backend of the contender that comes to the
slot first, by the only position of the slot in each probe sequence; no slot is left, and all that
the table holds are indices below `n`. -/
structure ClosedForm {m : Nat} (contenders : List (Nat × Stride m)) (n : Nat)
    (entry : Nat → Option Nat) : Prop where
  entry_eq_iff : ∀ c < m, ∀ i, entry c = some i ↔
    ∃ k, Earliest contenders c k ∧ contenders[k]?.map Prod.fst = some i
  pos_iff : ∀ p ∈ contenders, ∀ c < m, p.2.pos c < m ∧
    ∀ j < m, (p.2.offset + j * p.2.skip) % m = c ↔ j = p.2.pos c
  exists_entry : ∀ c < m, ∃ i < n, entry c = some i

/-- An entry, computed from the hashes. -/
theorem ClosedForm.entry_eq_nearest {m n : Nat} {contenders : List (Nat × Stride m)}
    {entry : Nat → Option Nat} (h : ClosedForm contenders n entry) (hm : m.Prime) {c : Nat}
    (hc : c < m) : entry c = nearest contenders c := by
  obtain ⟨i, -, hi⟩ := h.exists_entry c hc
  obtain ⟨k, hearliest, hk⟩ := (h.entry_eq_iff c hc i).mp hi
  rw [hi, hearliest.nearest_eq hm hc, hk]

section Entries

variable {S : Type} {G : Game (Nat × List Nat) S Nat} {m n : Nat}
  {contenders : List (Nat × Stride m)} {entry : Nat → Option Nat}

/-- What a game comes to, if its places are the slots of a probe sequence. -/
theorem closedForm_of_firstVisitor (hm : m.Prime) (hlabel : ∀ p, G.label p = p.1)
    (hvisits : ∀ (p : Nat × Stride m) n, G.visits n (player p) = p.2.visit n)
    (hne : contenders ≠ []) (hlt : ∀ p ∈ contenders, p.1 < n)
    (hentry : ∀ c < m, entry c = G.firstVisitor (contenders.map player) c m) :
    ClosedForm contenders n entry where
  entry_eq_iff c hc i := by
    rw [hentry c hc, firstVisitor_eq_some_iff_earliest hm hlabel hvisits hc]
  pos_iff p _ c hc := ⟨p.2.pos_lt hm hc, fun j hj => p.2.visit_eq_iff hm hc hj⟩
  exists_entry c hc := by
    obtain ⟨p, hp⟩ := List.exists_mem_of_ne_nil _ hne
    have hsome : (G.firstVisitor (contenders.map player) c m).isSome :=
      Game.firstVisitor_isSome_iff.mpr ⟨p.2.pos c, p.2.pos_lt hm hc, player p,
        List.mem_map_of_mem hp, (hvisits p _).trans (p.2.visit_pos hm hc)⟩
    obtain ⟨i, hi⟩ := Option.isSome_iff_exists.mp hsome
    refine ⟨i, ?_, (hentry c hc).trans hi⟩
    obtain ⟨k, -, hk⟩ := (firstVisitor_eq_some_iff_earliest hm hlabel hvisits hc).mp hi
    obtain ⟨q, hq, rfl⟩ := Option.map_eq_some_iff.mp hk
    exact hlt q (List.mem_of_getElem? hq)

end Entries

/-! ### The compact table -/

theorem permutations_eq (backends : List Backend) :
    permutations backends = (compactContenders backends).map player := by
  rw [permutations, compactContenders, List.map_flatMap]
  refine congrArg (fun f => backends.zipIdx.flatMap f) (funext fun e => ?_)
  rw [List.map_map]
  rfl

theorem compactContenders_ne_nil {backends : List Backend} (hne : backends ≠ []) :
    compactContenders backends ≠ [] := by
  have h := permutations_ne_nil hne
  rw [permutations_eq] at h
  exact fun hnil => h (List.map_eq_nil_iff.mpr hnil)

theorem compactContenders_lt {backends : List Backend} :
    ∀ p ∈ compactContenders backends, p.1 < backends.length := by
  intro p hp
  refine permutations_lt (player p) ?_
  rw [permutations_eq]
  exact List.mem_map_of_mem hp

theorem visits_compactGame (p : Nat × Stride compactMaglevSize) (n : Nat) :
    compactGame.visits n (player p) = p.2.visit n := by
  simp only [compactGame, slotAt, player]
  rw [Stride.getD_probes (Nat.mod_lt _ (by decide)), Stride.visit_mod]

theorem closedForm_maglevBuildCompactTable {backends : List Backend} (hne : backends ≠ [])
    {table : List Nat} (h : maglevBuildCompactTable backends = some table) :
    ClosedForm (compactContenders backends) backends.length (table[·]?) := by
  refine closedForm_of_firstVisitor compactMaglevSize_prime (fun _ => rfl) visits_compactGame
    (compactContenders_ne_nil hne) compactContenders_lt fun c hc => ?_
  have hlt : c < table.length := hc.trans_eq (maglevBuildCompactTable_lt hne h).1.symm
  rw [← permutations_eq, firstVisitor_entry hne h hc, List.getElem?_eq_getElem hlt,
    List.getD_eq_getElem _ _ hlt]

/-- The whole table, computed from the hashes. -/
theorem map_some_table {backends : List Backend} (hne : backends ≠ []) {table : List Nat}
    (h : maglevBuildCompactTable backends = some table) :
    table.map some = (List.range compactMaglevSize).map (nearest (compactContenders backends)) := by
  have hlength := (maglevBuildCompactTable_lt hne h).1
  refine List.ext_getElem (by simp [hlength]) fun c hc _ => ?_
  have hlt : c < table.length := by simpa using hc
  have hentry := (closedForm_maglevBuildCompactTable hne h).entry_eq_nearest
    compactMaglevSize_prime (hlt.trans_eq hlength)
  rw [List.getElem_map, List.getElem_map, List.getElem_range, ← hentry,
    List.getElem?_eq_getElem hlt]

/-! ### The table of 65537 slots -/

theorem tablePermutations_eq {backends : List Backend} (hlen : backends.length < 2 ^ 32) :
    tablePermutations backends = (tableContenders backends).map player := by
  rw [tablePermutations, tableContenders, List.map_map]
  refine List.map_congr_left ?_
  rintro ⟨b, i⟩ hmem
  have hi : i < backends.length := by simpa using (List.mem_zipIdx hmem).2.1
  simp only [Function.comp_apply, Nat.mod_eq_of_lt (hi.trans hlen)]
  rfl

theorem tableContenders_lt {backends : List Backend} :
    ∀ p ∈ tableContenders backends, p.1 < backends.length := by
  intro p hp
  obtain ⟨⟨b, i⟩, hmem, rfl⟩ := List.mem_map.mp hp
  simpa using (List.mem_zipIdx hmem).2.1

theorem tableContenders_ne_nil {backends : List Backend} (hne : backends ≠ []) :
    tableContenders backends ≠ [] := by
  simpa [tableContenders] using hne

theorem visits_tableGame (p : Nat × Stride maglevTableSize) (n : Nat) :
    tableGame.visits n (player p) = p.2.visit n := by
  simp only [tableGame, player]
  rw [Stride.getD_probes (Nat.mod_lt _ (by decide)), Stride.visit_mod]

theorem owner_tableState_new {c : Nat} (hc : c < maglevTableSize) :
    tableGame.owner .new c = none := by
  show (List.replicate maglevTableSize none).getD c none = none
  rw [List.getD_eq_getElem _ _ (by simpa using hc), List.getElem_replicate]

section Table

variable {backends : List Backend}

/-- All that a permutation visits are slots. -/
theorem visits_tableGame_lt (hlen : backends.length < 2 ^ 32) :
    ∀ p ∈ tablePermutations backends, ∀ n, tableGame.visits n p < tableGame.size := by
  intro p hp n
  rw [tablePermutations_eq hlen] at hp
  obtain ⟨q, -, rfl⟩ := List.mem_map.mp hp
  rw [visits_tableGame]
  exact q.2.visit_lt n

/-- The loop ends: after `maglevTableSize` rounds no slot is left. -/
theorem fillTable_full (hne : backends ≠ []) (hlen : backends.length < 2 ^ 32) :
    (fillTable (tablePermutations backends) maglevTableSize 0 .new).filled = maglevTableSize := by
  rw [fillTable_eq]
  refine tableGame_lawful.taken_fill (visits_tableGame_lt hlen) .new
    (fun c => owner_tableState_new) fun c hc => ?_
  obtain ⟨p, hp⟩ := List.exists_mem_of_ne_nil _ (tableContenders_ne_nil hne)
  refine ⟨p.2.pos c, p.2.pos_lt maglevTableSize_prime hc, player p, ?_, ?_⟩
  · rw [tablePermutations_eq hlen]
    exact List.mem_map_of_mem hp
  · exact (visits_tableGame p _).trans (p.2.visit_pos maglevTableSize_prime hc)

theorem closedForm_maglevBuildTable (hne : backends ≠ []) (hlen : backends.length < 2 ^ 32) :
    (maglevBuildTable backends).length = maglevTableSize ∧
      ClosedForm (tableContenders backends) backends.length
        ((maglevBuildTable backends).getD · none) := by
  obtain ⟨hsized, howner⟩ := tableGame_lawful.owner_fill (visits_tableGame_lt hlen)
    maglevTableSize 0 TableState.Sized.new fun c => owner_tableState_new
  have heq : maglevBuildTable backends =
      (tableGame.fill (tablePermutations backends) maglevTableSize 0 .new).table := by
    rw [maglevBuildTable, if_neg hne, fillTable_eq]
  refine ⟨by rw [heq, hsized.length_eq], ?_⟩
  refine closedForm_of_firstVisitor maglevTableSize_prime (fun _ => rfl) visits_tableGame
    (tableContenders_ne_nil hne) tableContenders_lt fun c hc => ?_
  rw [heq, ← tablePermutations_eq hlen, ← Nat.zero_add maglevTableSize]
  exact howner c hc

end Table

/-! ## Both tables -/

/-- **Closed form of the Maglev fill.** The loop of either table ends, with no slot left, and an
entry is the backend of the permutation that comes to the slot first. -/
theorem maglev_closedForm {backends : List Backend} (hne : backends ≠ []) :
    (backends.length ≤ maxBackends → ∃ table, maglevBuildCompactTable backends = some table ∧
      (fill (permutations backends) compactMaglevSize 0 .new).filledCount = compactMaglevSize ∧
      table.length = compactMaglevSize ∧
      ClosedForm (compactContenders backends) backends.length (table[·]?)) ∧
    (backends.length < 2 ^ 32 →
      (fillTable (tablePermutations backends) maglevTableSize 0 .new).filled = maglevTableSize ∧
      (maglevBuildTable backends).length = maglevTableSize ∧
      ClosedForm (tableContenders backends) backends.length
        ((maglevBuildTable backends).getD · none)) := by
  refine ⟨fun hfew => ?_, fun hlen =>
    ⟨fillTable_full hne hlen, closedForm_maglevBuildTable hne hlen⟩⟩
  obtain ⟨table, htable⟩ := exists_maglevBuildCompactTable hfew
  exact ⟨table, htable, fill_full hne, (maglevBuildCompactTable_lt hne htable).1,
    closedForm_maglevBuildCompactTable hne htable⟩

/-- Three backends of one permutation each. -/
def equalBackends : List Backend :=
  [.fromIpv4 10 0 1 1 8080 10, .fromIpv4 10 0 1 2 8080 10, .fromIpv4 10 0 1 3 8080 10]

/-- Their hashes. -/
theorem compactContenders_equalBackends : compactContenders equalBackends =
    [(0, ⟨957, 3452, by decide, by decide, by decide⟩),
      (1, ⟨3880, 3260, by decide, by decide, by decide⟩),
      (2, ⟨2849, 1013, by decide, by decide, by decide⟩)] := by
  decide +kernel

/-- Both tables of three backends; each has the slot where its permutation begins. -/
theorem maglev_closedForm_three : ∃ table, maglevBuildCompactTable equalBackends = some table ∧
    ClosedForm (compactContenders equalBackends) 3 (table[·]?) ∧
    ClosedForm (tableContenders equalBackends) 3
      ((maglevBuildTable equalBackends).getD · none) ∧
    [957, 3880, 2849].map (table[·]?) = [some 0, some 1, some 2] := by
  have hne : equalBackends ≠ [] := by decide
  obtain ⟨hcompact, htable⟩ := maglev_closedForm hne
  obtain ⟨table, hbuild, -, -, hclosed⟩ := hcompact (by decide)
  refine ⟨table, hbuild, hclosed, (htable (by decide)).2.2, ?_⟩
  have hentry : ∀ c < compactMaglevSize, table[c]? = nearest (compactContenders equalBackends) c :=
    fun c hc => hclosed.entry_eq_nearest compactMaglevSize_prime hc
  rw [compactContenders_equalBackends] at hentry
  have hslots : ∀ c ∈ [957, 3880, 2849], c < compactMaglevSize := by decide
  rw [List.map_congr_left fun c hc => hentry c (hslots c hc)]
  decide +kernel

end Rauta
