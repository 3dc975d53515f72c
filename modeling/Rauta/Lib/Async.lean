import Mathlib.Data.List.Basic

/-!
# Asynchronous computations in time

A `Run` is what an `async` computation does when its surroundings are fixed: the stretches of time
it spends on something (`Span`), and when it ends and with what, unless it waits for ever. Times are
counted from the start of the computation, so that running one thing after another means moving the
second one, and a `Run` is a monad.

`timeout d` stands for a runtime that drops the inner computation when `d` is over: what has begun
by then is cut short, what would have begun later does not happen.

A run carries the proof that nothing goes on after its end (`Run.closed`). Whatever a timeout wraps
is therefore over in time, all of it (`spans_timeout`).
-/

namespace Async

/-- Something that is going on from `start` for a while, or for ever. -/
structure Span (ε : Type) where
  label : ε
  start : Nat
  length : Option Nat

variable {ε α β : Type}

namespace Span

/-- The span is over at a time. -/
def OverBy (t : Nat) (s : Span ε) : Prop := ∃ l, s.length = some l ∧ s.start + l ≤ t

/-- The same, later. -/
def delay (d : Nat) (s : Span ε) : Span ε := { s with start := d + s.start }

/-- What is left of it at a deadline. -/
def cut (d : Nat) (s : Span ε) : Option (Span ε) :=
  if s.start ≤ d then some { s with length := some (min (s.length.getD d) (d - s.start)) } else none

variable {s s' : Span ε} {t t' d : Nat}

theorem OverBy.mono (h : s.OverBy t) (hle : t ≤ t') : s.OverBy t' := by
  obtain ⟨l, hl, hend⟩ := h
  exact ⟨l, hl, Nat.le_trans hend hle⟩

theorem OverBy.delay (h : s.OverBy t) (d : Nat) : (s.delay d).OverBy (d + t) := by
  obtain ⟨l, hl, hend⟩ := h
  refine ⟨l, hl, ?_⟩
  show d + s.start + l ≤ d + t
  omega

theorem cut_eq_some (h : s.cut d = some s') : s'.label = s.label ∧ s.start ≤ d ∧ s'.OverBy d := by
  simp only [cut, Option.ite_none_right_eq_some, Option.some.injEq] at h
  obtain ⟨hstart, rfl⟩ := h
  refine ⟨rfl, hstart, _, rfl, ?_⟩
  show s.start + min _ (d - s.start) ≤ d
  omega

end Span

/-- What a computation does, and when it ends with what. -/
structure Run (ε α : Type) where
  spans : List (Span ε)
  finish : Option (Nat × α)
  closed : ∀ t a, finish = some (t, a) → ∀ s ∈ spans, s.OverBy t

namespace Run

/-! ## The operations -/

/-- Wait for an answer that comes after a while, or not at all. -/
def wait (answer : Option (Nat × α)) : Run ε α := ⟨[], answer, by simp⟩

/-- One computation, and then another one that depends on the result. -/
def andThen (m : Run ε α) (f : α → Run ε β) : Run ε β where
  spans := m.spans ++ (m.finish.map fun (t, a) => (f a).spans.map (.delay t)).getD []
  finish := m.finish.bind fun (t, a) => (f a).finish.map fun (t', b) => (t + t', b)
  closed := by
    intro t b h s hs
    obtain ⟨⟨t₁, a⟩, hm, h⟩ := Option.bind_eq_some_iff.mp h
    obtain ⟨⟨t₂, b⟩, hf, heq⟩ := Option.map_eq_some_iff.mp h
    cases heq
    rw [hm] at hs
    rcases List.mem_append.mp hs with hs | hs
    · exact (m.closed t₁ a hm s hs).mono (Nat.le_add_right _ _)
    · obtain ⟨s', hs', rfl⟩ := List.mem_map.mp hs
      exact ((f a).closed t₂ _ hf s' hs').delay t₁

instance : Monad (Run ε) where
  pure a := wait (some (0, a))
  bind := andThen

/-- `sleep`. -/
def sleep (d : Nat) : Run ε Unit := wait (some (d, ()))

/-- A computation that is itself one stretch of activity. -/
def during (label : ε) (m : Run ε α) : Run ε α where
  spans := ⟨label, 0, m.finish.map Prod.fst⟩ :: m.spans
  finish := m.finish
  closed := by
    intro t a h s hs
    rcases List.mem_cons.mp hs with rfl | hs
    · exact ⟨t, by simp [h], by simp⟩
    · exact m.closed t a h s hs

/-- Note that something happens. -/
def note (label : ε) : Run ε Unit := during label (pure ())

/-- `timeout`: the result, or none when the time is over. -/
def timeout (d : Nat) (m : Run ε α) : Run ε (Option α) :=
  match h : m.finish.filter fun r => r.1 ≤ d with
  | some (t, a) =>
    { spans := m.spans
      finish := some (t, some a)
      closed := by
        intro t' a' heq
        cases heq
        exact m.closed t a (Option.filter_eq_some_iff.mp h).1 }
  | none =>
    { spans := m.spans.filterMap (Span.cut d)
      finish := some (d, none)
      closed := by
        intro t' a' heq s hs
        cases heq
        obtain ⟨s', -, hcut⟩ := List.mem_filterMap.mp hs
        exact (Span.cut_eq_some hcut).2.2 }

variable {m : Run ε α} {f : α → Run ε β} {t d : Nat} {a : α} {label : ε}

/-! ## Their equations -/

@[simp] theorem spans_pure (a : α) : (pure a : Run ε α).spans = [] := rfl

@[simp] theorem finish_pure (a : α) : (pure a : Run ε α).finish = some (0, a) := rfl

@[simp] theorem spans_wait (answer : Option (Nat × α)) : (wait answer : Run ε α).spans = [] := rfl

@[simp] theorem finish_wait (answer : Option (Nat × α)) :
    (wait answer : Run ε α).finish = answer := rfl

@[simp] theorem spans_during :
    (m.during label).spans = ⟨label, 0, m.finish.map Prod.fst⟩ :: m.spans := rfl

@[simp] theorem finish_during : (m.during label).finish = m.finish := rfl

theorem spans_bind_of_finish (h : m.finish = some (t, a)) :
    (m >>= f).spans = m.spans ++ (f a).spans.map (.delay t) := by
  show m.spans ++ (m.finish.map _).getD [] = _
  rw [h]
  rfl

theorem finish_bind_of_finish (h : m.finish = some (t, a)) :
    (m >>= f).finish = (f a).finish.map fun (t', b) => (t + t', b) := by
  show m.finish.bind _ = _
  rw [h]
  rfl

theorem spans_bind_of_none (h : m.finish = none) : (m >>= f).spans = m.spans := by
  show m.spans ++ (m.finish.map _).getD [] = _
  rw [h]
  exact List.append_nil _

/-- Doing nothing afterwards changes nothing. -/
theorem bind_eq_self {f : α → Run ε α} (h : ∀ t a, m.finish = some (t, a) → f a = pure a) :
    m >>= f = m := by
  obtain ⟨spans, finish, closed⟩ := m
  cases finish with
  | none =>
      show andThen _ _ = _
      simp [andThen]
  | some r =>
      show andThen _ _ = _
      simp [andThen, h r.1 r.2 rfl]

theorem bind_pure' (m : Run ε α) : (m >>= pure : Run ε α) = m := bind_eq_self fun _ _ _ => rfl

/-- A timeout does not show when the computation is fast enough. -/
theorem timeout_of_le (h : m.finish = some (t, a)) (ht : t ≤ d) :
    (m.timeout d).spans = m.spans ∧ (m.timeout d).finish = some (t, some a) := by
  have hin : m.finish.filter (fun r => r.1 ≤ d) = some (t, a) := by simp [h, ht]
  unfold timeout
  split
  · next t' a' h' =>
      rw [hin] at h'
      cases h'
      exact ⟨rfl, rfl⟩
  · next h' =>
      rw [hin] at h'
      cases h'

/-- Otherwise the computation is dropped. -/
theorem timeout_of_late (h : ∀ t a, m.finish = some (t, a) → d < t) :
    (m.timeout d).spans = m.spans.filterMap (Span.cut d) ∧
      (m.timeout d).finish = some (d, none) := by
  unfold timeout
  split
  · next t' a' h' =>
      obtain ⟨hfinish, hle⟩ := Option.filter_eq_some_iff.mp h'
      have := h t' a' hfinish
      simp only [decide_eq_true_eq] at hle
      omega
  · exact ⟨rfl, rfl⟩

/-- **A timeout is kept.** -/
theorem finish_timeout (m : Run ε α) (d : Nat) :
    ∃ t r, (m.timeout d).finish = some (t, r) ∧ t ≤ d := by
  unfold timeout
  split
  · next t a h =>
      have hle := (Option.filter_eq_some_iff.mp h).2
      exact ⟨t, some a, rfl, by simpa using hle⟩
  · exact ⟨d, none, rfl, Nat.le_refl d⟩

/-- And with it everything inside is over. -/
theorem spans_timeout {s : Span ε} (h : s ∈ (m.timeout d).spans) : s.OverBy d := by
  obtain ⟨t, r, hfinish, hle⟩ := m.finish_timeout d
  exact ((m.timeout d).closed t r hfinish s h).mono hle

/-! ## How many spans of a kind -/

/-- The number of spans whose label satisfies a test. -/
def count (p : ε → Bool) (m : Run ε α) : Nat := m.spans.countP fun s => p s.label

variable {p : ε → Bool}

@[simp] theorem count_pure (a : α) : (pure a : Run ε α).count p = 0 := rfl

@[simp] theorem count_wait (answer : Option (Nat × α)) : (wait answer : Run ε α).count p = 0 := rfl

@[simp] theorem count_during :
    (m.during label).count p = m.count p + if p label then 1 else 0 := by
  simp [count, List.countP_cons]

theorem count_bind_of_finish (h : m.finish = some (t, a)) :
    (m >>= f).count p = m.count p + (f a).count p := by
  unfold count
  rw [spans_bind_of_finish h, List.countP_append, List.countP_map]
  rfl

theorem count_bind_le {k l : Nat} (hm : m.count p ≤ k)
    (hf : ∀ t a, m.finish = some (t, a) → (f a).count p ≤ l) : (m >>= f).count p ≤ k + l := by
  cases hfinish : m.finish with
  | none =>
      have : (m >>= f).count p = m.count p := by rw [count, spans_bind_of_none hfinish, count]
      omega
  | some r =>
      obtain ⟨t, a⟩ := r
      have := hf t a hfinish
      rw [count_bind_of_finish hfinish]
      omega

theorem count_timeout_le : (m.timeout d).count p ≤ m.count p := by
  unfold timeout
  split
  · exact Nat.le_refl _
  · show (m.spans.filterMap (Span.cut d)).countP _ ≤ m.spans.countP _
    rw [List.countP_filterMap]
    refine List.countP_mono_left fun s _ hs => ?_
    cases hcut : s.cut d with
    | none => simp [hcut] at hs
    | some s' => simpa [hcut, (Span.cut_eq_some hcut).1] using hs

/-- The run ends at the time with the result, and has so many spans of a kind. -/
structure Ends (p : ε → Bool) (m : Run ε α) (t : Nat) (a : α) (k : Nat) : Prop where
  finish : m.finish = some (t, a)
  count : m.count p = k

theorem ends_pure (a : α) : (pure a : Run ε α).Ends p 0 a 0 := ⟨rfl, rfl⟩

theorem Ends.bind {t' t'' k k' k'' : Nat} {b : β} (hm : m.Ends p t a k)
    (hf : (f a).Ends p t' b k') (ht : t + t' = t'') (hk : k + k' = k'') :
    (m >>= f).Ends p t'' b k'' where
  finish := by
    rw [finish_bind_of_finish hm.finish, hf.finish, ← ht]
    rfl
  count := by rw [count_bind_of_finish hm.finish, hm.count, hf.count, hk]

theorem Ends.timeout {k : Nat} (hm : m.Ends p t a k) (hle : t ≤ d) :
    (m.timeout d).Ends p t (some a) k where
  finish := (timeout_of_le hm.finish hle).2
  count := by rw [Run.count, (timeout_of_le hm.finish hle).1]; exact hm.count

/-! ## How long spans of a kind are -/

/-- Every span whose label satisfies a test is over after a time. -/
def Within (p : ε → Bool) (d : Nat) (m : Run ε α) : Prop :=
  ∀ s ∈ m.spans, p s.label = true → ∃ l, s.length = some l ∧ l ≤ d

theorem within_bind (hm : m.Within p d) (hf : ∀ a, (f a).Within p d) : (m >>= f).Within p d := by
  intro s hs hlabel
  cases hfinish : m.finish with
  | none =>
      rw [spans_bind_of_none hfinish] at hs
      exact hm s hs hlabel
  | some r =>
      rw [spans_bind_of_finish hfinish] at hs
      rcases List.mem_append.mp hs with hs | hs
      · exact hm s hs hlabel
      · obtain ⟨s', hs', rfl⟩ := List.mem_map.mp hs
        exact hf r.2 s' hs' hlabel

/-- Whatever a timeout wraps is over when it is. -/
theorem within_timeout (p : ε → Bool) (m : Run ε α) (d : Nat) : (m.timeout d).Within p d := by
  intro s hs _
  obtain ⟨l, hl, hend⟩ := spans_timeout hs
  exact ⟨l, hl, by omega⟩

/-- A timeout makes nothing longer. -/
theorem Within.timeout {d' : Nat} (hm : m.Within p d) : (m.timeout d').Within p d := by
  by_cases hlate : ∀ t a, m.finish = some (t, a) → d' < t
  · intro s hs hlabel
    rw [(timeout_of_late hlate).1] at hs
    obtain ⟨s', hs', hcut⟩ := List.mem_filterMap.mp hs
    obtain ⟨l, hl, hle⟩ := hm s' hs' ((Span.cut_eq_some hcut).1 ▸ hlabel)
    simp only [Span.cut, Option.ite_none_right_eq_some, Option.some.injEq] at hcut
    obtain ⟨-, rfl⟩ := hcut
    refine ⟨_, rfl, ?_⟩
    rw [hl, Option.getD_some]
    omega
  · simp only [not_forall, Nat.not_lt] at hlate
    obtain ⟨t, a, hfinish, hle⟩ := hlate
    rw [Within, (timeout_of_le hfinish hle).1]
    exact hm

/-- The lengths of the spans of a kind, those that come to an end. -/
def lengths (p : ε → Bool) (m : Run ε α) : List Nat :=
  m.spans.filterMap fun s => if p s.label then s.length else none

theorem lengths_during_of_finish (h : p label = true) (hfinish : m.finish = some (t, a)) :
    (m.during label).lengths p = t :: m.lengths p := by
  simp [lengths, h, hfinish]

theorem lengths_bind_of_finish (h : m.finish = some (t, a)) :
    (m >>= f).lengths p = m.lengths p ++ (f a).lengths p := by
  unfold lengths
  rw [spans_bind_of_finish h, List.filterMap_append, List.filterMap_map]
  rfl

theorem lengths_bind_of_none (h : m.finish = none) : (m >>= f).lengths p = m.lengths p := by
  rw [lengths, spans_bind_of_none h, lengths]

/-! ## What begins when -/

/-- A span with the label begins at the time. -/
def Begins (m : Run ε α) (l : ε) (t : Nat) : Prop := ∃ s ∈ m.spans, s.label = l ∧ s.start = t

/-- A span with the label begins at some time. -/
def Emits (m : Run ε α) (l : ε) : Prop := ∃ t, m.Begins l t

instance [DecidableEq ε] (m : Run ε α) (l : ε) : Decidable (m.Emits l) :=
  decidable_of_iff (∃ s ∈ m.spans, s.label = l) (by simp [Emits, Begins])

variable {l : ε}

@[simp] theorem not_begins_pure (a : α) : ¬ (pure a : Run ε α).Begins l t := by
  rintro ⟨s, hs, -⟩
  cases hs

@[simp] theorem not_begins_wait (answer : Option (Nat × α)) :
    ¬ (wait answer : Run ε α).Begins l t := by
  rintro ⟨s, hs, -⟩
  cases hs

@[simp] theorem begins_during :
    (m.during label).Begins l t ↔ (label = l ∧ t = 0) ∨ m.Begins l t := by
  simp [Begins, eq_comm]

theorem begins_bind : (m >>= f).Begins l t ↔ m.Begins l t ∨
    ∃ t₁ a t₂, m.finish = some (t₁, a) ∧ (f a).Begins l t₂ ∧ t = t₁ + t₂ := by
  cases hfinish : m.finish with
  | none => simp [Begins, spans_bind_of_none hfinish]
  | some r =>
      obtain ⟨t₁, a⟩ := r
      simp only [Begins, spans_bind_of_finish hfinish, List.mem_append, List.mem_map]
      constructor
      · rintro ⟨s, hs | ⟨s, hs, rfl⟩, hlabel, hstart⟩
        · exact .inl ⟨s, hs, hlabel, hstart⟩
        · exact .inr ⟨t₁, a, s.start, rfl, ⟨s, hs, hlabel, rfl⟩, hstart.symm⟩
      · rintro (⟨s, hs, hlabel, hstart⟩ | ⟨t₁', a', t₂, heq, ⟨s, hs, hlabel, rfl⟩, rfl⟩)
        · exact ⟨s, .inl hs, hlabel, hstart⟩
        · cases heq
          exact ⟨s.delay t₁, .inr ⟨s, hs, rfl⟩, hlabel, rfl⟩

/-- What begins under a timeout begins before the deadline. -/
theorem begins_timeout : (m.timeout d).Begins l t ↔ m.Begins l t ∧ t ≤ d := by
  by_cases hlate : ∀ t a, m.finish = some (t, a) → d < t
  · rw [Begins, (timeout_of_late hlate).1]
    constructor
    · rintro ⟨s, hs, rfl, rfl⟩
      obtain ⟨s', hs', hcut⟩ := List.mem_filterMap.mp hs
      obtain ⟨hlabel, hstart, -⟩ := Span.cut_eq_some hcut
      simp only [Span.cut, hstart, if_true, Option.some.injEq] at hcut
      subst hcut
      exact ⟨⟨s', hs', rfl, rfl⟩, hstart⟩
    · rintro ⟨⟨s, hs, hlabel, rfl⟩, hle⟩
      exact ⟨_, List.mem_filterMap.mpr ⟨s, hs, if_pos hle⟩, hlabel, rfl⟩
  · simp only [not_forall, Nat.not_lt] at hlate
    obtain ⟨t₀, a, hfinish, hle⟩ := hlate
    rw [Begins, (timeout_of_le hfinish hle).1]
    refine ⟨fun h => ⟨h, ?_⟩, And.left⟩
    obtain ⟨s, hs, -, rfl⟩ := h
    obtain ⟨len, -, hend⟩ := m.closed t₀ a hfinish s hs
    omega

/-! ## What is said of all spans, and of the result -/

/-- All that is going on has a label with the property. -/
def Labels (P : ε → Prop) (m : Run ε α) : Prop := ∀ s ∈ m.spans, P s.label

variable {P : ε → Prop}

theorem Labels.of_emits (h : m.Labels P) (hl : m.Emits l) : P l := by
  obtain ⟨t, s, hs, rfl, -⟩ := hl
  exact h s hs

@[simp] theorem labels_pure (a : α) : (pure a : Run ε α).Labels P := by
  intro s hs
  cases hs

@[simp] theorem labels_wait (answer : Option (Nat × α)) : (wait answer : Run ε α).Labels P := by
  intro s hs
  cases hs

theorem Labels.lengths_eq_nil (h : m.Labels fun l => p l = false) : m.lengths p = [] := by
  refine List.filterMap_eq_nil_iff.mpr fun s hs => ?_
  rw [h s hs]
  rfl

@[simp] theorem labels_during : (m.during label).Labels P ↔ P label ∧ m.Labels P := by
  simp [Labels]

theorem Labels.bind (hm : m.Labels P) (hf : ∀ t a, m.finish = some (t, a) → (f a).Labels P) :
    (m >>= f).Labels P := by
  intro s hs
  cases hfinish : m.finish with
  | none =>
      rw [spans_bind_of_none hfinish] at hs
      exact hm s hs
  | some r =>
      rw [spans_bind_of_finish hfinish] at hs
      rcases List.mem_append.mp hs with hs | hs
      · exact hm s hs
      · obtain ⟨s', hs', rfl⟩ := List.mem_map.mp hs
        exact hf r.1 r.2 hfinish s' hs'

theorem Labels.timeout (hm : m.Labels P) : (m.timeout d).Labels P := by
  intro s hs
  have hbegins : (m.timeout d).Begins s.label s.start := ⟨s, hs, rfl, rfl⟩
  exact hm.of_emits ⟨s.start, (begins_timeout.mp hbegins).1⟩

/-- The result, if there is one, has the property. -/
def Returns (Q : α → Prop) (m : Run ε α) : Prop := ∀ t a, m.finish = some (t, a) → Q a

variable {Q : α → Prop} {R : β → Prop}

@[simp] theorem returns_pure : (pure a : Run ε α).Returns Q ↔ Q a := by
  simp [Returns]

theorem Returns.bind (hm : m.Returns Q) (hf : ∀ a, Q a → (f a).Returns R) :
    (m >>= f).Returns R := by
  intro t b hfinish
  obtain ⟨r, hr, hfinish⟩ := Option.bind_eq_some_iff.mp hfinish
  obtain ⟨r', hr', heq⟩ := Option.map_eq_some_iff.mp hfinish
  cases heq
  exact hf r.2 (hm r.1 r.2 hr) r'.1 r'.2 hr'

/-- What holds whatever the first result is. -/
theorem returns_bind (hf : ∀ a, (f a).Returns R) : (m >>= f).Returns R :=
  Returns.bind (Q := fun _ => True) (fun _ _ _ => trivial) fun a _ => hf a

theorem Returns.timeout (hm : m.Returns Q) :
    (m.timeout d).Returns fun r => ∀ a, r = some a → Q a := by
  intro t r hfinish a hr
  by_cases hlate : ∀ t a, m.finish = some (t, a) → d < t
  · rw [(timeout_of_late hlate).2, hr] at hfinish
    cases hfinish
  · simp only [not_forall, Nat.not_lt] at hlate
    obtain ⟨t', a', hfinish', hle⟩ := hlate
    rw [(timeout_of_le hfinish' hle).2, hr] at hfinish
    cases hfinish
    exact hm _ _ hfinish'

end Run

end Async
