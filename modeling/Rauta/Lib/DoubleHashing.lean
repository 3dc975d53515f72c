import Mathlib.Algebra.BigOperators.Intervals
import Mathlib.FieldTheory.Finite.Basic
import Mathlib.Tactic.LinearCombination

/-!
# Double hashing

A probe sequence that starts at one hash of a key and advances by another, modulo the number of
slots. If that number is a prime, the sequence comes to every slot exactly once before it repeats
itself, so it is a permutation of the slots, and every slot has its position in it.

Two such sequences can be compared. How many steps one is ahead of the other depends on the slot, in
a linear way (`lead`). If they advance by different steps, every lead occurs once, and so each of
them comes first to half of the slots (`two_mul_card_before`); if they advance by the same step, the
lead is the same everywhere.
-/

/-- A probe sequence over `m` slots. -/
structure Stride (m : Nat) where
  offset : Nat
  skip : Nat
  offset_lt : offset < m
  skip_pos : 0 < skip
  skip_lt : skip < m
  deriving DecidableEq

namespace Stride

variable {m : Nat} (s : Stride m)

/-- The slot that is probed in a step. -/
def visit (j : Nat) : Nat := (s.offset + j * s.skip) % m

/-- The sequence until it repeats itself. -/
def probes : List Nat := (List.range m).map s.visit

/-- The position of a slot in the sequence. -/
def pos (c : Nat) : Nat := s.probes.idxOf c

/-- The same by division: `skip ^ (m - 2)` is an inverse of `skip`, if `m` is a prime. -/
def quotient (c : Nat) : Nat := (c + m - s.offset) * s.skip ^ (m - 2) % m

theorem visit_lt (j : Nat) : s.visit j < m := Nat.mod_lt _ (Nat.zero_lt_of_lt s.offset_lt)

/-- The sequence repeats itself after `m` steps. -/
theorem visit_mod (j : Nat) : s.visit (j % m) = s.visit j := by
  have h : j % m * s.skip ≡ j * s.skip [MOD m] := (Nat.mod_modEq j m).mul_right _
  exact h.add_left _

variable {s}

theorem getElem_probes {j : Nat} (h : j < s.probes.length) : s.probes[j] = s.visit j := by
  simp [probes]

theorem getD_probes {j : Nat} (hj : j < m) : s.probes.getD j 0 = s.visit j := by
  simp [probes, List.getD_eq_getElem?_getD, hj]

theorem coprime_skip (hm : m.Prime) (s : Stride m) : m.Coprime s.skip :=
  Nat.coprime_of_lt_prime (Nat.pos_iff_ne_zero.mp s.skip_pos) s.skip_lt hm

/-- Every slot is probed. -/
theorem exists_visit (hm : m.Prime) (s : Stride m) {c : Nat} (hc : c < m) :
    ∃ j < m, s.visit j = c := by
  have hoffset := s.offset_lt
  obtain ⟨j, hj, hmod⟩ := Nat.exists_mul_mod_eq_of_coprime (c + m - s.offset)
    (coprime_skip hm s).symm (by omega)
  refine ⟨j, hj, ?_⟩
  rw [visit, Nat.add_mod, Nat.mul_comm, hmod, ← Nat.add_mod, Nat.add_sub_cancel' (by omega),
    Nat.add_mod_right, Nat.mod_eq_of_lt hc]

/-- No slot is probed twice. -/
theorem visit_inj (hm : m.Prime) {j j' : Nat} (hj : j < m) (hj' : j' < m)
    (h : s.visit j = s.visit j') : j = j' := by
  have hmul : j * s.skip ≡ j' * s.skip [MOD m] := Nat.ModEq.add_left_cancel' s.offset h
  have hmod : j ≡ j' [MOD m] := hmul.cancel_right_of_coprime (coprime_skip hm s)
  rwa [Nat.ModEq, Nat.mod_eq_of_lt hj, Nat.mod_eq_of_lt hj'] at hmod

theorem pos_lt (hm : m.Prime) (s : Stride m) {c : Nat} (hc : c < m) : s.pos c < m := by
  obtain ⟨j, hj, hvisit⟩ := exists_visit hm s hc
  have hmem : c ∈ s.probes := List.mem_map.mpr ⟨j, List.mem_range.mpr hj, hvisit⟩
  have hlt : s.pos c < s.probes.length := List.idxOf_lt_length_of_mem hmem
  rwa [probes, List.length_map, List.length_range] at hlt

theorem visit_pos (hm : m.Prime) (s : Stride m) {c : Nat} (hc : c < m) : s.visit (s.pos c) = c := by
  have hlt : s.pos c < s.probes.length := by simpa [probes] using pos_lt hm s hc
  rw [← getElem_probes hlt]
  exact List.getElem_idxOf hlt

/-- **The position of a slot** is the only step in which it is probed. -/
theorem visit_eq_iff (hm : m.Prime) (s : Stride m) {c j : Nat} (hc : c < m) (hj : j < m) :
    s.visit j = c ↔ j = s.pos c := by
  constructor
  · intro h
    exact visit_inj hm hj (pos_lt hm s hc) (h.trans (visit_pos hm s hc).symm)
  · rintro rfl
    exact visit_pos hm s hc

theorem pos_eq_quotient (hm : m.Prime) (s : Stride m) {c : Nat} (hc : c < m) :
    s.pos c = s.quotient c := by
  have hoffset := s.offset_lt
  have htwo := hm.two_le
  refine ((visit_eq_iff hm s hc (Nat.mod_lt _ hm.pos)).mp ?_).symm
  have hinverse : s.skip ^ (m - 2) * s.skip ≡ 1 [MOD m] := by
    have hfermat := Nat.ModEq.pow_totient (coprime_skip hm s).symm
    rwa [Nat.totient_prime hm, show m - 1 = m - 2 + 1 by omega, pow_succ] at hfermat
  have hmul : s.offset + (c + m - s.offset) * s.skip ^ (m - 2) * s.skip ≡ c [MOD m] := by
    calc s.offset + (c + m - s.offset) * s.skip ^ (m - 2) * s.skip
        ≡ s.offset + (c + m - s.offset) * 1 [MOD m] := by
          rw [Nat.mul_assoc]
          exact (hinverse.mul_left _).add_left _
      _ = c + m := by omega
      _ ≡ c [MOD m] := Nat.add_mod_right c m
  rw [visit_mod, visit, hmul, Nat.mod_eq_of_lt hc]

/-! ## Two sequences -/

open Finset

variable {t : Stride m}

/-- The values of a map of the slots that takes none twice add up to the same as the slots. -/
theorem sum_eq_sum_range {f : Nat → Nat} (hf : ∀ c < m, f c < m)
    (hinj : ∀ c < m, ∀ c' < m, f c = f c' → c = c') :
    ∑ c ∈ range m, f c = ∑ c ∈ range m, c := by
  have hinjOn : Set.InjOn f (range m) := fun c hc c' hc' h =>
    hinj c (mem_range.mp hc) c' (mem_range.mp hc') h
  have himage : (range m).image f = range m := by
    refine eq_of_subset_of_card_le ?_ (card_image_of_injOn hinjOn).ge
    intro d hd
    obtain ⟨c, hc, rfl⟩ := mem_image.mp hd
    exact mem_range.mpr (hf c (mem_range.mp hc))
  calc ∑ c ∈ range m, f c = ∑ d ∈ (range m).image f, d := (sum_image (f := id) hinjOn).symm
    _ = ∑ c ∈ range m, c := by rw [himage]

theorem sum_pos (hm : m.Prime) (s : Stride m) : ∑ c ∈ range m, s.pos c = ∑ c ∈ range m, c := by
  refine sum_eq_sum_range (fun c hc => pos_lt hm s hc) fun c hc c' hc' h => ?_
  rw [← visit_pos hm s hc, h, visit_pos hm s hc']

/-- How many steps after `s` the other sequence comes to a slot, if they go round and round. -/
def lead (s t : Stride m) (c : Nat) : Nat := (t.pos c + (m - s.pos c)) % m

/-- The lead is how far ahead `s` is, unless the other sequence has been there before. -/
theorem pos_add_wrap (hm : m.Prime) {c : Nat} (hc : c < m) :
    t.pos c + (if t.pos c < s.pos c then m else 0) = s.pos c + s.lead t c := by
  have hs := pos_lt hm s hc
  have ht := pos_lt hm t hc
  unfold lead
  split
  · rw [Nat.mod_eq_of_lt (by omega)]
    omega
  · rw [show t.pos c + (m - s.pos c) = t.pos c - s.pos c + m by omega, Nat.add_mod_right,
      Nat.mod_eq_of_lt (by omega)]
    omega

/-- **Who comes first** is a matter of the leads. -/
theorem mul_card_before (hm : m.Prime) :
    m * #{c ∈ range m | t.pos c < s.pos c} = ∑ c ∈ range m, s.lead t c := by
  have hsum : ∑ c ∈ range m, (t.pos c + if t.pos c < s.pos c then m else 0) =
      ∑ c ∈ range m, (s.pos c + s.lead t c) :=
    sum_congr rfl fun c hc => pos_add_wrap hm (mem_range.mp hc)
  rw [sum_add_distrib, sum_add_distrib, sum_pos hm, sum_pos hm, Nat.add_left_cancel_iff,
    ← sum_filter, sum_const, smul_eq_mul] at hsum
  rw [Nat.mul_comm, hsum]

theorem cast_pos (hm : m.Prime) (s : Stride m) {c : Nat} (hc : c < m) :
    (c : ZMod m) = s.offset + s.pos c * s.skip := by
  conv_lhs => rw [← visit_pos hm s hc]
  rw [visit, ZMod.natCast_mod]
  push_cast
  rfl

theorem cast_lead (hm : m.Prime) {c : Nat} (hc : c < m) :
    (s.lead t c : ZMod m) = t.pos c - s.pos c := by
  have hs := pos_lt hm s hc
  rw [lead, ZMod.natCast_mod, Nat.cast_add, Nat.cast_sub hs.le, ZMod.natCast_self]
  ring

theorem lead_lt (hm : m.Prime) (s t : Stride m) (c : Nat) : s.lead t c < m :=
  Nat.mod_lt _ hm.pos

theorem eq_of_cast {a b : Nat} (ha : a < m) (hb : b < m) (h : (a : ZMod m) = b) : a = b := by
  rwa [ZMod.natCast_eq_natCast_iff, Nat.ModEq, Nat.mod_eq_of_lt ha, Nat.mod_eq_of_lt hb] at h

/-- With different steps, no lead occurs twice. -/
theorem lead_inj (hm : m.Prime) (hskip : s.skip ≠ t.skip) {c c' : Nat} (hc : c < m) (hc' : c' < m)
    (h : s.lead t c = s.lead t c') : c = c' := by
  have : Fact m.Prime := ⟨hm⟩
  have hstep : (s.skip : ZMod m) - t.skip ≠ 0 := by
    rw [sub_ne_zero]
    exact fun heq => hskip (eq_of_cast s.skip_lt t.skip_lt heq)
  -- where both sequences come with the same lead, the position in `s` is determined
  have hsolve : ∀ d < m, (s.pos d : ZMod m) * (s.skip - t.skip) =
      t.offset - s.offset + s.lead t d * t.skip := by
    intro d hd
    have hs := cast_pos hm s hd
    have ht := cast_pos hm t hd
    rw [cast_lead hm hd]
    linear_combination ht - hs
  have hpos : (s.pos c : ZMod m) = s.pos c' := by
    refine mul_right_cancel₀ hstep ?_
    rw [hsolve c hc, hsolve c' hc', h]
  have hsame := eq_of_cast (pos_lt hm s hc) (pos_lt hm s hc') hpos
  rw [← visit_pos hm s hc, hsame, visit_pos hm s hc']

/-- **Two sequences with different steps** come first to the same number of slots each, and to one
slot together. -/
theorem two_mul_card_before (hm : m.Prime) (hskip : s.skip ≠ t.skip) :
    2 * #{c ∈ range m | t.pos c < s.pos c} + 1 = m := by
  have hsum : ∑ c ∈ range m, s.lead t c = ∑ c ∈ range m, c :=
    sum_eq_sum_range (fun c _ => lead_lt hm s t c) fun _ hc _ hc' => lead_inj hm hskip hc hc'
  have hgauss := sum_range_id_mul_two m
  rw [← hsum, ← mul_card_before hm, Nat.mul_assoc] at hgauss
  have hcard := Nat.eq_of_mul_eq_mul_left hm.pos hgauss
  have htwo := hm.two_le
  omega

/-- With the same step, the lead is the same everywhere. -/
theorem lead_eq (hm : m.Prime) (hskip : s.skip = t.skip) {c : Nat} (hc : c < m) :
    s.lead t c = t.pos s.offset := by
  have : Fact m.Prime := ⟨hm⟩
  have hstep : (t.skip : ZMod m) ≠ 0 := by
    intro heq
    have := eq_of_cast t.skip_lt hm.pos (heq.trans Nat.cast_zero.symm)
    exact absurd this t.skip_pos.ne'
  refine eq_of_cast (lead_lt hm s t c) (pos_lt hm t s.offset_lt) (mul_right_cancel₀ hstep ?_)
  have hs := cast_pos hm s hc
  have ht := cast_pos hm t hc
  have hstart := cast_pos hm t s.offset_lt
  rw [cast_lead hm hc]
  rw [hskip] at hs
  linear_combination hs - ht + hstart

/-- **Two sequences with the same step** divide the slots by where they begin. -/
theorem card_before_of_skip_eq (hm : m.Prime) (hskip : s.skip = t.skip) :
    #{c ∈ range m | t.pos c < s.pos c} = t.pos s.offset := by
  have hsum : ∑ c ∈ range m, s.lead t c = m * t.pos s.offset := by
    rw [sum_congr rfl fun c hc => lead_eq hm hskip (mem_range.mp hc), sum_const, card_range,
      smul_eq_mul]
  exact Nat.eq_of_mul_eq_mul_left hm.pos ((mul_card_before hm).trans hsum)

end Stride
