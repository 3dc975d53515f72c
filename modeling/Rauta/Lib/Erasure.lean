import Rauta.Lib.Async

/-!
# Erasing what a run is about

The same computation can be described with more and with less. `m.Erases φ g m'` says that `m'` is
what is left of `m` when every label is replaced by `φ`, or left out if `φ` gives none, and the
result by `g`. Nothing else changes: the spans that are left keep their times, and the runs end
together.

There is one rule for every operation of `Run`, so that a detailed model is compared with a coarse
one by going through both.
-/

namespace Async

variable {ε ε' α α' β β' : Type}

/-- The span under another label, or nothing. -/
def Span.relabel (φ : ε → Option ε') (s : Span ε) : Option (Span ε') :=
  (φ s.label).map fun l => ⟨l, s.start, s.length⟩

/-- A span can be relabelled before or after it is moved, -/
theorem Span.relabel_delay (φ : ε → Option ε') (d : Nat) (s : Span ε) :
    (s.delay d).relabel φ = (s.relabel φ).map (.delay d) := by
  simp [relabel, delay, Function.comp_def]

/-- and before or after it is cut. -/
theorem Span.relabel_cut (φ : ε → Option ε') (d : Nat) (s : Span ε) :
    (s.cut d).bind (Span.relabel φ) = (s.relabel φ).bind (Span.cut d) := by
  cases hφ : φ s.label with
  | none =>
      unfold cut
      split <;> simp [relabel, hφ]
  | some l =>
      unfold cut
      split <;> simp [relabel, *]

namespace Run

/-- The second run is what the labels and the results leave of the first one. -/
structure Erases (φ : ε → Option ε') (g : α → α') (m : Run ε α) (m' : Run ε' α') : Prop where
  spans : m'.spans = m.spans.filterMap (Span.relabel φ)
  finish : m'.finish = m.finish.map fun r => (r.1, g r.2)

variable {φ : ε → Option ε'} {g : α → α'} {h : β → β'} {m : Run ε α} {m' : Run ε' α'}
  {f : α → Run ε β} {f' : α' → Run ε' β'} {label : ε} {label' : ε'}

/-- The runs end together, -/
theorem Erases.finish_some (hm : m.Erases φ g m') {t : Nat} {a : α}
    (hfinish : m.finish = some (t, a)) : m'.finish = some (t, g a) := by
  rw [hm.finish, hfinish]
  rfl

/-- and a result of the second one stands for one of the first. -/
theorem Erases.exists_finish (hm : m.Erases φ g m') {t : Nat} {a' : α'}
    (hfinish : m'.finish = some (t, a')) : ∃ a, m.finish = some (t, a) ∧ g a = a' := by
  rw [hm.finish] at hfinish
  obtain ⟨r, hr, heq⟩ := Option.map_eq_some_iff.mp hfinish
  cases heq
  exact ⟨r.2, hr, rfl⟩

/-! ## The rules -/

theorem erases_pure (φ : ε → Option ε') (g : α → α') (a : α) :
    (pure a : Run ε α).Erases φ g (pure (g a)) := ⟨rfl, rfl⟩

theorem erases_wait (φ : ε → Option ε') (g : α → α') (answer : Option (Nat × α)) :
    (wait answer : Run ε α).Erases φ g (wait (answer.map fun r => (r.1, g r.2))) := ⟨rfl, rfl⟩

theorem Erases.bind (hm : m.Erases φ g m') (hf : ∀ a, (f a).Erases φ h (f' (g a))) :
    (m >>= f).Erases φ h (m' >>= f') := by
  cases hfinish : m.finish with
  | none =>
      have hfinish' : m'.finish = none := by rw [hm.finish, hfinish]; rfl
      refine ⟨?_, ?_⟩
      · rw [spans_bind_of_none hfinish, spans_bind_of_none hfinish', hm.spans]
      · show m'.finish.bind _ = Option.map _ (m.finish.bind _)
        rw [hfinish, hfinish']
        rfl
  | some r =>
      obtain ⟨t, a⟩ := r
      have hfinish' := hm.finish_some hfinish
      refine ⟨?_, ?_⟩
      · have hdelay : ∀ s : Span ε, (s.delay t).relabel φ = (s.relabel φ).map (.delay t) :=
          Span.relabel_delay φ t
        rw [spans_bind_of_finish hfinish, spans_bind_of_finish hfinish', hm.spans, (hf a).spans,
          List.filterMap_append, List.filterMap_map, List.map_filterMap]
        simp only [Function.comp_def, hdelay]
      · rw [finish_bind_of_finish hfinish, finish_bind_of_finish hfinish', (hf a).finish]
        simp [Function.comp_def]

theorem Erases.during (hm : m.Erases φ g m') (hlabel : φ label = some label') :
    (m.during label).Erases φ g (m'.during label') where
  spans := by
    simp [Span.relabel, hlabel, hm.spans, hm.finish, Function.comp_def]
  finish := hm.finish

/-- A label that is left out takes no time. -/
theorem Erases.during_left (hm : m.Erases φ g m') (hlabel : φ label = none) :
    (m.during label).Erases φ g m' where
  spans := by simp [Span.relabel, hlabel, hm.spans]
  finish := hm.finish

theorem erases_note (hlabel : φ label = some label') :
    (note label : Run ε Unit).Erases φ id (note label') :=
  (erases_pure φ id ()).during hlabel

theorem Erases.timeout (hm : m.Erases φ g m') (d : Nat) :
    (m.timeout d).Erases φ (Option.map g) (m'.timeout d) := by
  by_cases hlate : ∀ t a, m.finish = some (t, a) → d < t
  · have hlate' : ∀ t a, m'.finish = some (t, a) → d < t := by
      intro t a' hfinish
      obtain ⟨a, hfinish, -⟩ := hm.exists_finish hfinish
      exact hlate t a hfinish
    refine ⟨?_, ?_⟩
    · rw [(timeout_of_late hlate).1, (timeout_of_late hlate').1, hm.spans, List.filterMap_filterMap,
        List.filterMap_filterMap]
      simp only [Span.relabel_cut]
    · rw [(timeout_of_late hlate).2, (timeout_of_late hlate').2]
      rfl
  · simp only [not_forall, Nat.not_lt] at hlate
    obtain ⟨t, a, hfinish, hle⟩ := hlate
    have hfinish' := hm.finish_some hfinish
    refine ⟨?_, ?_⟩
    · rw [(timeout_of_le hfinish hle).1, (timeout_of_le hfinish' hle).1, hm.spans]
    · rw [(timeout_of_le hfinish hle).2, (timeout_of_le hfinish' hle).2]
      rfl

/-! ## What the coarse run says about the detailed one -/

/-- What the coarse run shows has a cause in the detailed one. -/
theorem Erases.exists_emits (hm : m.Erases φ g m') (hlabel : m'.Emits label') :
    ∃ label, φ label = some label' ∧ m.Emits label := by
  obtain ⟨t, s, hs, rfl, -⟩ := hlabel
  rw [hm.spans] at hs
  obtain ⟨s', hs', hrelabel⟩ := List.mem_filterMap.mp hs
  obtain ⟨l, hl, rfl⟩ := Option.map_eq_some_iff.mp hrelabel
  exact ⟨s'.label, hl, s'.start, s', hs', rfl, rfl⟩

theorem Erases.emits (hm : m.Erases φ g m') (hlabel : φ label = some label')
    (h : m.Emits label) : m'.Emits label' := by
  obtain ⟨t, s, hs, rfl, rfl⟩ := h
  refine ⟨s.start, ⟨label', s.start, s.length⟩, ?_, rfl, rfl⟩
  rw [hm.spans]
  exact List.mem_filterMap.mpr ⟨s, hs, by rw [Span.relabel, hlabel]; rfl⟩

end Run

end Async
