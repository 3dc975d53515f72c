import Mathlib.Data.List.Nodup
import Rauta.Maglev

/-!
# Removing a backend from a Maglev table

A permutation does not look for a free slot: in round `n` it tries its `n`-th slot, and if that is
taken it waits for the next round. So a slot goes to the backend that reaches it first, in the order
of rounds and, within a round, of the list (`reachedFirst_entry`). Were the permutations of a
backend its own, removing one would leave to all others what they have.

They are not: they are seeded with the position in the list, and a removal shifts all later ones.
The others keep their slots exactly when they still come first (`KeepsFirst`), as they do if the
last backend is removed (`keepsFirst_last`).
-/

namespace Rauta

/-! ## Who reaches a slot first -/

/-- In round `j` a permutation of the `k`-th backend tries slot `c`. -/
def Reaches (backends : List Backend) (k c j : Nat) : Prop :=
  ∃ b ∈ backends[k]?, ∃ rep < b.repetitions,
    (generatePermutationCompact b (k * 100 + rep)).getD j 0 = c

instance (backends : List Backend) (k c j : Nat) : Decidable (Reaches backends k c j) :=
  inferInstanceAs (Decidable (∃ b ∈ backends[k]?, ∃ rep < b.repetitions, _ = _))

theorem Reaches.lt {backends : List Backend} {k c j : Nat} (h : Reaches backends k c j) :
    k < backends.length := by
  obtain ⟨b, hb, -⟩ := h
  exact (List.getElem?_eq_some_iff.mp hb).1

/-- The `k`-th backend reaches slot `c` before all others: no permutation tries it in an earlier
round, and no backend before the `k`-th in the same one. -/
def ReachedFirst (backends : List Backend) (c k : Nat) : Prop :=
  ∃ j < compactMaglevSize, Reaches backends k c j ∧ (∀ j' < j, ∀ m, ¬ Reaches backends m c j') ∧
    ∀ m < k, ¬ Reaches backends m c j

theorem mem_permutations_iff {backends : List Backend} {p : Nat × List Nat} :
    p ∈ permutations backends ↔ ∃ b ∈ backends[p.1]?, ∃ rep < b.repetitions,
      p.2 = generatePermutationCompact b (p.1 * 100 + rep) := by
  simp only [permutations, List.mem_flatMap, List.mem_map, List.mem_range]
  constructor
  · rintro ⟨⟨b, i⟩, hmem, rep, hrep, rfl⟩
    exact ⟨b, List.mem_zipIdx_iff_getElem?.mp hmem, rep, hrep, by simp only⟩
  · rintro ⟨b, hb, rep, hrep, hperm⟩
    exact ⟨(b, p.1), List.mem_zipIdx_iff_getElem?.mpr hb, rep, hrep, by rw [← hperm]⟩

theorem reaches_iff {backends : List Backend} {k c j : Nat} (hj : j < compactMaglevSize) :
    Reaches backends k c j ↔ ∃ p ∈ permutations backends, p.1 = k ∧ slotAt j p = c := by
  simp only [slotAt, Nat.mod_eq_of_lt hj]
  constructor
  · rintro ⟨b, hb, rep, hrep, hslot⟩
    exact ⟨(k, generatePermutationCompact b (k * 100 + rep)),
      mem_permutations_iff.mpr ⟨b, hb, rep, hrep, by simp only⟩, rfl, by simpa only using hslot⟩
  · rintro ⟨p, hp, rfl, hslot⟩
    obtain ⟨b, hb, rep, hrep, hperm⟩ := mem_permutations_iff.mp hp
    exact ⟨b, hb, rep, hrep, hperm ▸ hslot⟩

/-- The permutations come in the order of their backends. -/
theorem permutations_sorted (backends : List Backend) :
    (permutations backends).Pairwise fun p q => p.1 ≤ q.1 := by
  have hidx : backends.zipIdx.Pairwise fun x y => x.2 < y.2 := by
    apply List.Pairwise.of_map Prod.snd (fun _ _ h => h)
    rw [List.zipIdx_map_snd]
    exact List.pairwise_lt_range'
  refine List.pairwise_flatMap.mpr ⟨?_, hidx.imp ?_⟩
  · intro x _
    exact List.pairwise_map.mpr (List.pairwise_of_forall fun _ _ => Nat.le_refl _)
  · intro x y hlt p hp q hq
    obtain ⟨_, -, rfl⟩ := List.mem_map.mp hp
    obtain ⟨_, -, rfl⟩ := List.mem_map.mp hq
    exact hlt.le

theorem reachedFirst_of_firstVisitor {backends : List Backend} {c k : Nat}
    (h : compactGame.firstVisitor (permutations backends) c compactMaglevSize = some k) :
    ReachedFirst backends c k := by
  obtain ⟨j, hj, i, ⟨⟨p, hp, hslot⟩, hfirst⟩, hlabel⟩ :=
    FirstCome.Game.exists_first_of_firstVisitor h
  obtain rfl : p.1 = k := by
    rw [Option.mem_def.mp hp] at hlabel
    exact Option.some.inj hlabel
  -- nobody else has tried the slot in an earlier turn
  have hturn : ∀ j' < compactMaglevSize, ∀ m, Reaches backends m c j' →
      ∃ i', toLex (j, i) ≤ toLex (j', i') ∧ (permutations backends)[i']?.map Prod.fst = some m := by
    intro j' hj' m hreaches
    obtain ⟨q, hq, rfl, hslot'⟩ := (reaches_iff hj').mp hreaches
    obtain ⟨i', hi'⟩ := List.getElem?_of_mem hq
    exact ⟨i', hfirst j' i' ⟨q, hi', hslot'⟩, by rw [hi', Option.map_some]⟩
  refine ⟨j, hj, (reaches_iff hj).mpr ⟨p, List.mem_of_getElem? hp, rfl, hslot⟩, ?_, ?_⟩
  · intro j' hj' m hreaches
    obtain ⟨i', hle, -⟩ := hturn j' (hj'.trans hj) m hreaches
    have := (Prod.Lex.toLex_le_toLex'.mp hle).1
    omega
  · intro m hm hreaches
    obtain ⟨i', hle, hlabel'⟩ := hturn j hj m hreaches
    -- a permutation of an earlier backend stands before this one
    have hi : i ≤ i' := (Prod.Lex.toLex_le_toLex'.mp hle).2 rfl
    obtain ⟨q, hq, rfl⟩ := Option.map_eq_some_iff.mp hlabel'
    have hsorted := permutations_sorted backends
    obtain ⟨hilt, rfl⟩ := List.getElem?_eq_some_iff.mp hp
    obtain ⟨hi'lt, rfl⟩ := List.getElem?_eq_some_iff.mp hq
    rcases Nat.lt_or_eq_of_le hi with hlt | rfl
    · have := List.pairwise_iff_getElem.mp hsorted i i' hilt hi'lt hlt
      omega
    · exact Nat.lt_irrefl _ hm

/-- **First come, first served**: a slot belongs to the backend that reaches it first. -/
theorem reachedFirst_entry {backends : List Backend} (hne : backends ≠ []) {table : List Nat}
    (h : maglevBuildCompactTable backends = some table) {c : Nat} (hc : c < compactMaglevSize) :
    ReachedFirst backends c (table.getD c 0) :=
  reachedFirst_of_firstVisitor (firstVisitor_entry hne h hc)

theorem ReachedFirst.unique {backends : List Backend} {c k k' : Nat}
    (h : ReachedFirst backends c k) (h' : ReachedFirst backends c k') : k = k' := by
  obtain ⟨j, -, hreaches, hearlier, hbefore⟩ := h
  obtain ⟨j', -, hreaches', hearlier', hbefore'⟩ := h'
  obtain rfl : j = j' := by
    rcases Nat.lt_trichotomy j j' with hlt | heq | hlt
    · exact absurd hreaches (hearlier' j hlt k)
    · exact heq
    · exact absurd hreaches' (hearlier j' hlt k')
  rcases Nat.lt_trichotomy k k' with hlt | heq | hlt
  · exact absurd hreaches (hbefore' k hlt)
  · exact heq
  · exact absurd hreaches' (hbefore k' hlt)

/-! ## Removal -/

/-- Removing the `i`-th backend takes no slot from another one. -/
def RemovalSpares (backends : List Backend) (i : Nat) : Prop :=
  ∀ table table', maglevBuildCompactTable backends = some table →
    maglevBuildCompactTable (backends.eraseIdx i) = some table' →
    ∀ c < compactMaglevSize, ∀ b, backends[table.getD c 0]? = some b → backends[i]? ≠ some b →
      (backends.eraseIdx i)[table'.getD c 0]? = some b

/-- Where a backend stands after the `i`-th is removed. -/
def shifted (i k : Nat) : Nat := if k < i then k else k - 1

/-- Every slot that another backend reaches before the `i`-th and all the rest, it also reaches
first with the permutations it has after the removal. -/
def KeepsFirst (backends : List Backend) (i : Nat) : Prop :=
  ∀ c < compactMaglevSize, ∀ k ≠ i, ReachedFirst backends c k →
    ReachedFirst (backends.eraseIdx i) c (shifted i k)

theorem getElem?_shifted {backends : List Backend} {i k : Nat} (h : k ≠ i) :
    (backends.eraseIdx i)[shifted i k]? = backends[k]? := by
  rw [List.getElem?_eraseIdx, shifted]
  by_cases hk : k < i
  · simp [hk]
  · have h₁ : ¬ k - 1 < i := by omega
    have h₂ : k - 1 + 1 = k := by omega
    simp [hk, h₁, h₂]

theorem getD_lt_of_maglevBuildCompactTable {backends : List Backend} {table : List Nat}
    (hne : backends ≠ []) (h : maglevBuildCompactTable backends = some table) {c : Nat}
    (hc : c < compactMaglevSize) : table.getD c 0 < backends.length := by
  obtain ⟨hlen, hbelow⟩ := maglevBuildCompactTable_lt hne h
  rw [List.getD_eq_getElem _ _ (hc.trans_eq hlen.symm)]
  exact hbelow _ (List.getElem_mem _)

section Removal

variable {backends : List Backend} {i : Nat}

/-- A backend that owned a slot and still owns it was, and is, the first to reach it. -/
theorem RemovalSpares.keepsFirst (hfew : backends.length ≤ maxBackends) (hnodup : backends.Nodup)
    (hi : i < backends.length) (hrest : backends.eraseIdx i ≠ []) (h : RemovalSpares backends i) :
    KeepsFirst backends i := by
  have hne : backends ≠ [] := List.ne_nil_of_length_pos (by omega)
  obtain ⟨table, htable⟩ := exists_maglevBuildCompactTable hfew
  obtain ⟨table', htable'⟩ :=
    exists_maglevBuildCompactTable ((List.length_eraseIdx_le backends i).trans hfew)
  intro c hc k hk hfirst
  have hown : table.getD c 0 = k := (reachedFirst_entry hne htable hc).unique hfirst
  have hk' : k < backends.length := hown ▸ getD_lt_of_maglevBuildCompactTable hne htable hc
  have hb : backends[table.getD c 0]? = some backends[k] := by
    rw [hown, List.getElem?_eq_getElem hk']
  have hother : backends[i]? ≠ some backends[k] := by
    rw [List.getElem?_eq_getElem hi]
    intro heq
    exact hk (hnodup.getElem_inj_iff.mp (Option.some.inj heq)).symm
  have heq : (backends.eraseIdx i)[table'.getD c 0]? = (backends.eraseIdx i)[shifted i k]? := by
    rw [h table table' htable htable' c hc _ hb hother, getElem?_shifted hk,
      List.getElem?_eq_getElem hk']
  have hlt := getD_lt_of_maglevBuildCompactTable hrest htable' hc
  rw [← (List.getElem?_inj hlt (hnodup.eraseIdx i)).mp heq]
  exact reachedFirst_entry hrest htable' hc

theorem KeepsFirst.removalSpares (hi : i < backends.length) (hrest : backends.eraseIdx i ≠ [])
    (h : KeepsFirst backends i) : RemovalSpares backends i := by
  have hne : backends ≠ [] := List.ne_nil_of_length_pos (by omega)
  intro table table' htable htable' c hc b hb hother
  have hk : table.getD c 0 ≠ i := by
    intro heq
    rw [heq] at hb
    exact hother hb
  have hfirst := h c hc _ hk (reachedFirst_entry hne htable hc)
  rw [(reachedFirst_entry hrest htable' hc).unique hfirst, getElem?_shifted hk, hb]

/-- **Minimal disruption**: a removal leaves the other backends their slots exactly if each of them
still is the first to reach them, with the seeds of its new position. -/
theorem removalSpares_iff (hfew : backends.length ≤ maxBackends) (hnodup : backends.Nodup)
    (hi : i < backends.length) (hrest : backends.eraseIdx i ≠ []) :
    RemovalSpares backends i ↔ KeepsFirst backends i :=
  ⟨RemovalSpares.keepsFirst hfew hnodup hi hrest, KeepsFirst.removalSpares hi hrest⟩

end Removal

/-- The last backend can go: the others keep their positions, hence their seeds. -/
theorem keepsFirst_last {backends : List Backend} {i : Nat} (h : i + 1 = backends.length) :
    KeepsFirst backends i := by
  have hreaches : ∀ {m c j},
      Reaches (backends.eraseIdx i) m c j ↔ m < i ∧ Reaches backends m c j := by
    intro m c j
    rw [Reaches, Reaches, List.getElem?_eraseIdx]
    by_cases hm : m < i
    · simp [hm]
    · have hnone : backends[m + 1]? = none := List.getElem?_eq_none (by omega)
      simp [hm, hnone]
  intro c hc k hk hfirst
  obtain ⟨j, hj, hown, hearlier, hbefore⟩ := hfirst
  have hlt : k < i := by
    have := hown.lt
    omega
  rw [shifted, if_pos hlt]
  exact ⟨j, hj, hreaches.mpr ⟨hlt, hown⟩, fun j' hj' m hm => hearlier j' hj' m (hreaches.mp hm).2,
    fun m hm hm' => hbefore m hm (hreaches.mp hm').2⟩

/-- The three backends of the repository's own disruption test. -/
def threeBackends : List Backend :=
  [.fromIpv4 10 0 1 1 8080 100, .fromIpv4 10 0 1 2 8080 100, .fromIpv4 10 0 1 3 8080 100]

/-- Removing the last of the three. -/
theorem removalSpares_three : RemovalSpares threeBackends 2 :=
  (removalSpares_iff (by decide) (by decide) (by decide) (by decide)).mpr (keepsFirst_last rfl)

/-- **Removing the second of three** moves slot 3057 from the first to the third, which is seeded as
the second from then on. -/
theorem exists_removal_disturbs :
    ¬ ∀ backends : List Backend, backends.length ≤ maxBackends → backends.Nodup →
      ∀ i < backends.length, backends.eraseIdx i ≠ [] → RemovalSpares backends i := by
  intro h
  have hspares := h threeBackends (by decide) (by decide) 1 (by decide) (by decide)
  -- the first reaches it in round 2; without the second, the third does in round 1
  have hold : ReachedFirst threeBackends 3057 0 := by
    have hearlier : ∀ j < 2, ∀ m < 3, ¬ Reaches threeBackends m 3057 j := by decide +kernel
    exact ⟨2, by decide, by decide +kernel, fun j hj m hm => hearlier j hj m hm.lt hm,
      fun m hm => absurd hm (Nat.not_lt_zero m)⟩
  have hnew : ReachedFirst (threeBackends.eraseIdx 1) 3057 1 := by
    have hearlier : ∀ j < 1, ∀ m < 2, ¬ Reaches (threeBackends.eraseIdx 1) m 3057 j := by
      decide +kernel
    exact ⟨1, by decide, by decide +kernel, fun j hj m hm => hearlier j hj m hm.lt hm,
      by decide +kernel⟩
  have hkeeps := hspares.keepsFirst (by decide) (by decide) (by decide) (by decide)
  cases hnew.unique (hkeeps 3057 (by decide) 0 (by decide) hold)

end Rauta
