import Mathlib.Data.List.Induction
import Mathlib.Data.List.Nodup
import Mathlib.Data.List.Pairwise
import Mathlib.Logic.Function.Basic

/-!
# Workers for what is listed

A registry keeps a list of items under each key. Registering a list under a key replaces the one
before, and a worker is started for each item of it; registering the same list again does nothing.
Nothing looks at the workers that run already, and none is ever stopped.

When is there exactly one worker for each item that is listed, and none for the others, all the
time? Exactly if the registrations fit together (`Consistent`): no list repeats an item, lists under
different keys have no item in common, and a list that is not empty is never replaced by another
(`forall_prefix_oneEach_iff`).
-/

namespace Workers

variable {κ β : Type} [DecidableEq κ] [DecidableEq β]

/-- A list of items to be registered under a key. -/
abbrev Registration (κ β : Type) := κ × List β

/-- What is listed under each key, and the items that workers have been started for. -/
structure Pool (κ β : Type) where
  table : κ → List β
  started : List β

namespace Pool

/-- Nothing is listed, and no worker runs. -/
def empty : Pool κ β := ⟨fun _ => [], []⟩

def register (p : Pool κ β) (r : Registration κ β) : Pool κ β :=
  if p.table r.1 = r.2 then p else ⟨Function.update p.table r.1 r.2, p.started ++ r.2⟩

/-- The pool after some registrations. -/
def run (rs : List (Registration κ β)) : Pool κ β := rs.foldl register empty

def Listed (p : Pool κ β) (b : β) : Prop := ∃ k, b ∈ p.table k

/-- One worker for what is listed, and none for anything else. -/
def OneEach (p : Pool κ β) : Prop :=
  ∀ b, (p.Listed b → p.started.count b = 1) ∧ (¬ p.Listed b → p.started.count b = 0)

end Pool

/-- How an earlier registration has to fit a later one. -/
def Compatible (earlier later : Registration κ β) : Prop :=
  if earlier.1 = later.1 then earlier.2 = [] ∨ earlier.2 = later.2
  else earlier.2.Disjoint later.2

/-- The registrations fit together. -/
structure Consistent (rs : List (Registration κ β)) : Prop where
  nodup : ∀ r ∈ rs, r.2.Nodup
  compatible : rs.Pairwise Compatible

variable {rs : List (Registration κ β)} {r r' : Registration κ β} {p : Pool κ β} {b : β} {k k' : κ}

omit [DecidableEq β] in
theorem consistent_nil : Consistent ([] : List (Registration κ β)) := ⟨by simp, .nil⟩

omit [DecidableEq β] in
theorem consistent_concat : Consistent (rs ++ [r]) ↔
    Consistent rs ∧ r.2.Nodup ∧ ∀ r' ∈ rs, Compatible r' r := by
  constructor
  · intro h
    obtain ⟨hbefore, -, hlast⟩ := List.pairwise_append.mp h.compatible
    exact ⟨⟨fun r' hr' => h.nodup r' (List.mem_append_left _ hr'), hbefore⟩,
      h.nodup r (by simp), fun r' hr' => hlast r' hr' r (List.mem_singleton_self r)⟩
  · rintro ⟨hbefore, hnodup, hlast⟩
    refine ⟨fun r' hr' => ?_, List.pairwise_append.mpr ⟨hbefore.compatible, by simp, ?_⟩⟩
    · rcases List.mem_append.mp hr' with hr' | hr'
      · exact hbefore.nodup r' hr'
      · rw [List.mem_singleton.mp hr']
        exact hnodup
    · intro r' hr' x hx
      rw [List.mem_singleton.mp hx]
      exact hlast r' hr'

omit [DecidableEq β] in
/-- Registrations under different keys share nothing, whichever came first. -/
theorem Consistent.disjoint (h : Consistent rs) (hr : r ∈ rs) (hr' : r' ∈ rs) (hne : r.1 ≠ r'.1) :
    r.2.Disjoint r'.2 := by
  have hpairwise : rs.Pairwise fun x y => x.1 ≠ y.1 → x.2.Disjoint y.2 := by
    refine h.compatible.imp fun {x y} hxy hkey => ?_
    rwa [Compatible, if_neg hkey] at hxy
  have : Std.Symm fun x y : Registration κ β => x.1 ≠ y.1 → x.2.Disjoint y.2 :=
    ⟨fun x y hxy hkey b hb hb' => hxy (Ne.symm hkey) hb' hb⟩
  exact hpairwise.forall_of_forall (fun x _ hx => absurd rfl hx) hr hr' hne

/-! ## What the table holds -/

/-- The table after consistent registrations: each key has the list it was last given, and it was
given nothing else before but empty lists. -/
structure Reflects (rs : List (Registration κ β)) (p : Pool κ β) : Prop where
  latest : ∀ r ∈ rs, r.2 = [] ∨ p.table r.1 = r.2
  source : ∀ k, p.table k ≠ [] → (k, p.table k) ∈ rs

theorem table_register (k : κ) :
    (p.register r).table k = if k = r.1 then r.2 else p.table k := by
  unfold Pool.register
  split
  · next hsame =>
    split
    · next hk => rw [hk, hsame]
    · rfl
  · exact Function.update_apply ..

theorem started_register (hnew : p.table r.1 ≠ r.2) :
    (p.register r).started = p.started ++ r.2 := by
  rw [Pool.register, if_neg hnew]

/-- Registering an empty list again changes nothing either. -/
theorem register_eq (h : p.table r.1 = r.2 → r.2 = []) :
    p.register r = ⟨Function.update p.table r.1 r.2, p.started ++ r.2⟩ := by
  unfold Pool.register
  split
  · next hsame =>
    rw [Function.update_eq_self_iff.mpr hsame.symm, h hsame, List.append_nil]
  · rfl

omit [DecidableEq κ] [DecidableEq β] in
theorem reflects_empty : Reflects [] (Pool.empty : Pool κ β) :=
  ⟨by simp, fun _ hne => absurd rfl hne⟩

theorem Reflects.register (h : Reflects rs p) (hr : ∀ r' ∈ rs, Compatible r' r) :
    Reflects (rs ++ [r]) (p.register r) := by
  constructor
  · intro r' hr'
    rw [table_register]
    rcases List.mem_append.mp hr' with hr' | hr'
    · have hcompatible := hr r' hr'
      unfold Compatible at hcompatible
      split at hcompatible
      · next hkey =>
        rw [if_pos hkey]
        exact hcompatible.imp id Eq.symm
      · next hkey =>
        rw [if_neg hkey]
        exact h.latest r' hr'
    · rw [List.mem_singleton.mp hr', if_pos rfl]
      exact Or.inr rfl
  · intro k hne
    rw [table_register] at hne ⊢
    split at hne
    · next hk =>
      subst hk
      simp
    · next hk =>
      rw [if_neg hk]
      exact List.mem_append_left _ (h.source k hne)

omit [DecidableEq κ] [DecidableEq β] in
theorem Reflects.mem_source (h : Reflects rs p) (hb : b ∈ p.table k) : (k, p.table k) ∈ rs :=
  h.source k (List.ne_nil_of_mem hb)

/-! ## One more registration -/

omit [DecidableEq β] in
/-- A list that is registered already fits. -/
theorem compatible_of_registered (hc : Consistent rs) (ht : Reflects rs p)
    (hsame : p.table r.1 = r.2) : r.2.Nodup ∧ ∀ r' ∈ rs, Compatible r' r := by
  have hmem : r.2 ≠ [] → r ∈ rs := by
    intro hne
    have := ht.source r.1 (hsame ▸ hne)
    rwa [hsame] at this
  constructor
  · by_cases hne : r.2 = []
    · exact hne ▸ List.nodup_nil
    · exact hc.nodup r (hmem hne)
  · intro r' hr'
    unfold Compatible
    split
    · next hkey =>
      refine (ht.latest r' hr').imp id fun htable => ?_
      rw [← htable, hkey, hsame]
    · next hkey =>
      by_cases hne : r.2 = []
      · exact hne ▸ List.disjoint_nil_right _
      · exact hc.disjoint hr' (hmem hne) hkey

/-- A new list that fits keeps the balance. -/
theorem oneEach_of_compatible (ht : Reflects rs p) (h1 : p.OneEach) (hnew : p.table r.1 ≠ r.2)
    (hnodup : r.2.Nodup) (hfit : ∀ r' ∈ rs, Compatible r' r) : (p.register r).OneEach := by
  -- what was listed is listed elsewhere, and stays
  have hkept : ∀ k b, b ∈ p.table k → k ≠ r.1 ∧ b ∉ r.2 := by
    intro k b hb
    have hcompatible := hfit _ (ht.mem_source hb)
    unfold Compatible at hcompatible
    split at hcompatible
    · next hkey =>
      rcases hcompatible with hnil | hsame
      · exact absurd hnil (List.ne_nil_of_mem hb)
      · exact absurd (hkey ▸ hsame) hnew
    · next hkey => exact ⟨hkey, fun hb' => hcompatible hb hb'⟩
  have hlisted : ∀ b, (p.register r).Listed b ↔ p.Listed b ∨ b ∈ r.2 := by
    intro b
    constructor
    · rintro ⟨k, hb⟩
      rw [table_register] at hb
      split at hb
      · exact Or.inr hb
      · exact Or.inl ⟨k, hb⟩
    · rintro (⟨k, hb⟩ | hb)
      · refine ⟨k, ?_⟩
        rw [table_register, if_neg (hkept k b hb).1]
        exact hb
      · refine ⟨r.1, ?_⟩
        rw [table_register, if_pos rfl]
        exact hb
  intro b
  rw [hlisted, started_register hnew, List.count_append]
  by_cases hb : b ∈ r.2
  · have hold : ¬ p.Listed b := fun ⟨k, hk⟩ => (hkept k b hk).2 hb
    rw [(h1 b).2 hold, List.count_eq_one_of_mem hnodup hb]
    exact ⟨fun _ => rfl, fun hnot => absurd (Or.inr hb) hnot⟩
  · rw [List.count_eq_zero_of_not_mem hb]
    exact ⟨fun hor => (h1 b).1 (hor.resolve_right hb), fun hnot => (h1 b).2 (hnot ∘ Or.inl)⟩

/-- If the balance is kept, then nothing of a new list was listed before, and it has nothing
twice. -/
theorem fresh_of_oneEach (h1 : p.OneEach) (hnew : p.table r.1 ≠ r.2) (h : (p.register r).OneEach)
    (hb : b ∈ r.2) : ¬ p.Listed b ∧ r.2.count b = 1 := by
  have hone : p.started.count b + r.2.count b = 1 := by
    rw [← List.count_append, ← started_register hnew]
    exact (h b).1 ⟨r.1, by rwa [table_register, if_pos rfl]⟩
  have hpos := List.count_pos_iff.mpr hb
  have hold : ¬ p.Listed b := by
    intro hlisted
    rw [(h1 b).1 hlisted] at hone
    omega
  rw [(h1 b).2 hold] at hone
  exact ⟨hold, by omega⟩

/-- If the balance is kept, then a list that is replaced was empty: otherwise its workers would be
left over. -/
theorem replaced_eq_nil (hc : Consistent rs) (ht : Reflects rs p) (h1 : p.OneEach)
    (hnew : p.table r.1 ≠ r.2) (h : (p.register r).OneEach) (hr' : r' ∈ rs) (hkey : r'.1 = r.1)
    (htable : p.table r'.1 = r'.2) : r'.2 = [] := by
  refine List.eq_nil_iff_forall_not_mem.mpr fun b hb => ?_
  have hlisted : p.Listed b := ⟨r'.1, htable.symm ▸ hb⟩
  have hgone : b ∉ r.2 := fun hb' => (fresh_of_oneEach h1 hnew h hb').1 hlisted
  have hcount : (p.register r).started.count b = 1 := by
    rw [started_register hnew, List.count_append, (h1 b).1 hlisted,
      List.count_eq_zero_of_not_mem hgone]
  obtain ⟨k, hk⟩ : (p.register r).Listed b := by
    by_contra hnot
    rw [(h b).2 hnot] at hcount
    cases hcount
  rw [table_register] at hk
  split at hk
  · exact hgone hk
  · next hne => exact hc.disjoint (ht.mem_source hk) hr' (hkey ▸ hne) hk hb

/-- A new list that keeps the balance fits. -/
theorem compatible_of_oneEach (hc : Consistent rs) (ht : Reflects rs p) (h1 : p.OneEach)
    (hnew : p.table r.1 ≠ r.2) (h : (p.register r).OneEach) :
    r.2.Nodup ∧ ∀ r' ∈ rs, Compatible r' r := by
  refine ⟨List.nodup_iff_count_le_one.mpr fun b => ?_, fun r' hr' => ?_⟩
  · by_cases hb : b ∈ r.2
    · exact Nat.le_of_eq (fresh_of_oneEach h1 hnew h hb).2
    · rw [List.count_eq_zero_of_not_mem hb]
      omega
  · unfold Compatible
    rcases ht.latest r' hr' with hnil | htable
    · rw [hnil]
      split
      · exact Or.inl rfl
      · exact List.disjoint_nil_left _
    · split
      · next hkey => exact Or.inl (replaced_eq_nil hc ht h1 hnew h hr' hkey htable)
      · intro b hb hb'
        exact (fresh_of_oneEach h1 hnew h hb').1 ⟨r'.1, htable.symm ▸ hb⟩

theorem oneEach_register_iff (hc : Consistent rs) (ht : Reflects rs p) (h1 : p.OneEach) :
    (p.register r).OneEach ↔ r.2.Nodup ∧ ∀ r' ∈ rs, Compatible r' r := by
  by_cases hsame : p.table r.1 = r.2
  · have hself : p.register r = p := by rw [Pool.register, if_pos hsame]
    rw [hself]
    exact iff_of_true h1 (compatible_of_registered hc ht hsame)
  · exact ⟨compatible_of_oneEach hc ht h1 hsame,
      fun hfit => oneEach_of_compatible ht h1 hsame hfit.1 hfit.2⟩

/-! ## Whole runs -/

theorem reflects_run (h : Consistent rs) : Reflects rs (Pool.run rs) := by
  induction rs using List.reverseRecOn with
  | nil => exact reflects_empty
  | append_singleton rs r ih =>
      obtain ⟨hbefore, -, hfit⟩ := consistent_concat.mp h
      rw [Pool.run, List.foldl_append]
      exact (ih hbefore).register hfit

/-- **One worker each, all the time**: exactly if the registrations fit together. -/
theorem forall_prefix_oneEach_iff :
    (∀ rs', rs' <+: rs → (Pool.run rs').OneEach) ↔ Consistent rs := by
  induction rs using List.reverseRecOn with
  | nil =>
      refine iff_of_true (fun rs' h => ?_) consistent_nil
      rw [List.prefix_nil.mp h]
      exact fun b => ⟨fun ⟨k, hb⟩ => absurd hb List.not_mem_nil, fun _ => rfl⟩
  | append_singleton rs r ih =>
      have hsplit : (∀ rs', rs' <+: rs ++ [r] → (Pool.run rs').OneEach) ↔
          (∀ rs', rs' <+: rs → (Pool.run rs').OneEach) ∧ ((Pool.run rs).register r).OneEach := by
        have hrun : Pool.run (rs ++ [r]) = (Pool.run rs).register r := by
          rw [Pool.run, List.foldl_append]
          rfl
        constructor
        · intro h
          exact ⟨fun rs' hrs' => h rs' (hrs'.trans (List.prefix_append _ _)),
            hrun ▸ h _ (List.prefix_refl _)⟩
        · rintro ⟨hbefore, hlast⟩ rs' hrs'
          rcases List.prefix_concat_iff.mp hrs' with rfl | hrs'
          · exact hrun ▸ hlast
          · exact hbefore rs' hrs'
      rw [hsplit, ih, consistent_concat]
      refine and_congr_right fun hc => ?_
      exact oneEach_register_iff hc (reflects_run hc) (ih.mpr hc rs (List.prefix_refl _))

end Workers
