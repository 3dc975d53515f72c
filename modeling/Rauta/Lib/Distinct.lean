import Mathlib.Data.List.Dedup
import Mathlib.Data.List.Nodup

/-!
# Loops that collect

A loop that only ever adds to its state is known from what a single item adds (`foldl_iff`).

A special case is a loop that keeps an item when its key has not come up before, with the set of
keys in a variable of its own. `Distinct` is the state of that loop: the set holds the keys of what
was kept, and no key twice.

Two items with one key are one item to the loop, and the first of them wins. Where keys tell the
items apart, nothing is lost (`Distinct.mem_kept_pushAll_iff`).
-/

namespace Collect

variable {α κ : Type}

/-- A loop that only ever adds: what holds at its end held before, or was added by some item. -/
theorem foldl_iff {σ : Type} {step : σ → α → σ} {P : σ → Prop} {Q : α → Prop}
    (hstep : ∀ s a, P (step s a) ↔ P s ∨ Q a) (s : σ) (as : List α) :
    P (as.foldl step s) ↔ P s ∨ ∃ a ∈ as, Q a := by
  induction as generalizing s with
  | nil => simp
  | cons a as ih => rw [List.foldl_cons, ih, hstep, or_assoc, List.exists_mem_cons_iff]

/-- In a loop that numbers the items, an item that does not depend on its number. -/
theorem exists_mem_zipIdx {as : List α} {Q : α → Prop} :
    (∃ e ∈ as.zipIdx, Q e.1) ↔ ∃ a ∈ as, Q a := by
  conv_rhs => rw [← List.zipIdx_map_fst 0 as]
  simp only [List.mem_map, exists_exists_and_eq_and]

/-- The items kept, and the keys seen. -/
structure Distinct (key : α → κ) where
  seen : List κ
  kept : List α
  seen_eq : seen = kept.map key
  nodup : seen.Nodup

namespace Distinct

variable {key : α → κ}

theorem kept_nodup (d : Distinct key) : d.kept.Nodup := by
  have h := d.nodup
  rw [d.seen_eq] at h
  exact h.of_map key

theorem mem_seen (d : Distinct key) {k : κ} : k ∈ d.seen ↔ ∃ a ∈ d.kept, key a = k := by
  rw [d.seen_eq, List.mem_map]

/-- Nothing seen yet. -/
def empty : Distinct key := ⟨[], [], rfl, List.nodup_nil⟩

variable [DecidableEq κ]

/-- Keep an item, unless its key was seen. -/
def push (d : Distinct key) (a : α) : Distinct key :=
  if h : key a ∈ d.seen then d
  else
    { seen := d.seen ++ [key a]
      kept := d.kept ++ [a]
      seen_eq := by simp [d.seen_eq]
      nodup := by rw [← List.concat_eq_append]; exact d.nodup.concat h }

/-- The loop. -/
def pushAll (d : Distinct key) (as : List α) : Distinct key := as.foldl push d

theorem mem_seen_push (d : Distinct key) (a : α) {k : κ} :
    k ∈ (d.push a).seen ↔ k ∈ d.seen ∨ k = key a := by
  unfold push
  split
  · next h => exact ⟨Or.inl, fun hk => hk.elim id fun hk => hk ▸ h⟩
  · simp

theorem mem_of_mem_kept_push {d : Distinct key} {a b : α} (h : b ∈ (d.push a).kept) :
    b ∈ d.kept ∨ b = a := by
  unfold push at h
  split at h
  · exact Or.inl h
  · simpa using h

/-- Every key that came up was seen. -/
theorem mem_seen_pushAll (d : Distinct key) (as : List α) {k : κ} :
    k ∈ (d.pushAll as).seen ↔ k ∈ d.seen ∨ ∃ a ∈ as, key a = k :=
  foldl_iff (P := fun d : Distinct key => k ∈ d.seen) (Q := fun a => key a = k)
    (fun d a => by rw [mem_seen_push, eq_comm (a := k)]) d as

/-- Nothing else was kept. -/
theorem mem_of_mem_kept_pushAll {d : Distinct key} {as : List α} {b : α}
    (h : b ∈ (d.pushAll as).kept) : b ∈ d.kept ∨ b ∈ as := by
  induction as generalizing d with
  | nil => exact Or.inl h
  | cons a as ih =>
      rcases ih h with hb | hb
      · rcases mem_of_mem_kept_push hb with hb | rfl
        · exact Or.inl hb
        · exact Or.inr List.mem_cons_self
      · exact Or.inr (List.mem_cons_of_mem a hb)

/-- **Nothing is lost** where keys tell the items apart. -/
theorem mem_kept_pushAll_iff {as : List α}
    (hkey : ∀ a ∈ as, ∀ b ∈ as, key a = key b → a = b) {a : α} :
    a ∈ ((empty : Distinct key).pushAll as).kept ↔ a ∈ as := by
  constructor
  · intro h
    exact (mem_of_mem_kept_pushAll h).resolve_left List.not_mem_nil
  · intro h
    have hseen : key a ∈ ((empty : Distinct key).pushAll as).seen :=
      (mem_seen_pushAll _ as).mpr (Or.inr ⟨a, h, rfl⟩)
    obtain ⟨b, hb, heq⟩ := (mem_seen _).mp hseen
    have hbas := (mem_of_mem_kept_pushAll hb).resolve_left List.not_mem_nil
    exact hkey b hbas a h heq ▸ hb

/-- As many items are kept as there are keys. -/
theorem length_kept_pushAll (as : List α) :
    ((empty : Distinct key).pushAll as).kept.length = (as.map key).dedup.length := by
  rw [← List.length_map key, ← seen_eq]
  refine List.Perm.length_eq ((List.perm_ext_iff_of_nodup (nodup _) (List.nodup_dedup _)).mpr ?_)
  intro k
  rw [mem_seen_pushAll, List.mem_dedup, List.mem_map]
  exact or_iff_right List.not_mem_nil

/-- Something is kept when there is something. -/
theorem kept_pushAll_eq_nil_iff {as : List α} :
    ((empty : Distinct key).pushAll as).kept = [] ↔ as = [] := by
  constructor
  · intro h
    rw [List.eq_nil_iff_forall_not_mem]
    intro a ha
    have hseen := (mem_seen_pushAll (empty : Distinct key) as).mpr (Or.inr ⟨a, ha, rfl⟩)
    rw [seen_eq, h] at hseen
    cases hseen
  · rintro rfl
    rfl

end Distinct

end Collect
