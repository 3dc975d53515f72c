import Mathlib.Data.List.Basic
import Mathlib.Data.List.MinMax
import Mathlib.Data.List.Nodup
import Mathlib.Data.List.TakeWhile
import Rauta.Router.Cache

/-!
# The `matchit` crate

The prefix router is a `matchit::Router`, whose source is not part of the repository. It enters the
model as a parameter (`Matchit`), known by what it was given: a router *is* the list of the patterns
inserted into it, with their values, and a lookup is some function of that list.

`Matchit.Lawful` collects what the crate documents and the proxy relies on. About patterns with
parameters in the middle it says next to nothing. About the two shapes that a path without braces
gives rise to — static text, and static text followed by the catch-all `{*rest}` — it says:

* such a pattern is well formed, and two of them conflict only when they are equal;
* static text matches itself, a catch-all matches every text that properly extends its static part
  (the remainder must not be empty);
* a lookup that has a match finds one, and never prefers a catch-all to a match that has static text
  where the catch-all begins.

For these shapes the last point makes the match with the longest static part the winner
(`matchAt_eq_some_iff`), which is all that the routing proofs use.
-/

namespace Rauta

/-- A `matchit::Router<RouteKey>`: the inserted patterns with their values, oldest first. -/
abbrev PrefixRouter := List (Str × RouteKey)

/-- The operations of the crate. `insert` fails on a malformed pattern and on one that conflicts
with a pattern already there; `message` is the text of the error. -/
structure Matchit where
  malformed : Str → Bool
  conflicts : Str → Str → Bool
  message : List Str → Str → Str
  matchAt : PrefixRouter → Str → Option RouteKey

namespace Matchit

/-- `Router::insert`. -/
def insert (M : Matchit) (pr : PrefixRouter) (pattern : Str) (key : RouteKey) :
    Except Str PrefixRouter :=
  if M.malformed pattern || pr.any fun e => M.conflicts e.1 pattern then
    .error (M.message (pr.map Prod.fst) pattern)
  else .ok (pr ++ [(pattern, key)])

/-- What insertion can build: well-formed patterns, none in conflict with an earlier one. -/
def Built (M : Matchit) (pr : PrefixRouter) : Prop :=
  (∀ e ∈ pr, M.malformed e.1 = false) ∧ pr.Pairwise fun e e' => M.conflicts e.1 e'.1 = false

instance (M : Matchit) (pr : PrefixRouter) : Decidable (M.Built pr) :=
  inferInstanceAs (Decidable (_ ∧ _))

end Matchit

/-! ## Patterns without parameters -/

/-- The catch-all the proxy appends to a path. -/
def catchAll : Str := ['{', '*', 'r', 'e', 's', 't', '}']

/-- The text of a pattern before its first parameter. -/
def staticPart (pattern : Str) : Str := pattern.takeWhile (· ≠ '{')

/-- A text without braces: `matchit` reads it literally. -/
def Plain (t : Str) : Prop := '{' ∉ t ∧ '}' ∉ t

instance (t : Str) : Decidable (Plain t) := inferInstanceAs (Decidable (_ ∧ _))

/-- Non-empty static text, possibly followed by the catch-all. -/
def Simple (pattern : Str) : Prop :=
  pattern ≠ [] ∧ '}' ∉ staticPart pattern ∧
    (pattern = staticPart pattern ∨ pattern = staticPart pattern ++ catchAll)

instance (pattern : Str) : Decidable (Simple pattern) := inferInstanceAs (Decidable (_ ∧ _))

/-- Which texts a simple pattern matches. -/
def Matches (pattern x : Str) : Prop :=
  (pattern = staticPart pattern ∧ x = pattern) ∨
    (pattern = staticPart pattern ++ catchAll ∧ staticPart pattern <+: x ∧ staticPart pattern ≠ x)

instance (pattern x : Str) : Decidable (Matches pattern x) := inferInstanceAs (Decidable (_ ∨ _))

theorem staticPart_of_plain {t : Str} (h : Plain t) : staticPart t = t := by
  rw [staticPart, List.takeWhile_eq_self_iff]
  intro c hc
  have : c ≠ '{' := by
    rintro rfl
    exact h.1 hc
  simpa using this

/-- The static part ends with the first opening brace. -/
theorem staticPart_append_brace {t : Str} (h : Plain t) (rest : Str) :
    staticPart (t ++ '{' :: rest) = t := by
  have hall : ∀ c ∈ t, (decide (c ≠ '{')) = true := by
    intro c hc
    have : c ≠ '{' := by
      rintro rfl
      exact h.1 hc
    simpa using this
  rw [staticPart, List.takeWhile_append_of_pos hall]
  simp

theorem staticPart_append_catchAll {t : Str} (h : Plain t) : staticPart (t ++ catchAll) = t :=
  staticPart_append_brace h _

theorem ne_append_catchAll (t : Str) : t ≠ t ++ catchAll := by
  intro h
  cases List.self_eq_append_right.mp h

theorem simple_of_plain {t : Str} (h : Plain t) (hne : t ≠ []) : Simple t := by
  rw [Simple, staticPart_of_plain h]
  exact ⟨hne, h.2, Or.inl rfl⟩

theorem simple_append_catchAll {t : Str} (h : Plain t) : Simple (t ++ catchAll) := by
  rw [Simple, staticPart_append_catchAll h]
  exact ⟨by simp [catchAll], h.2, Or.inr rfl⟩

theorem matches_of_plain {t x : Str} (h : Plain t) : Matches t x ↔ x = t := by
  rw [Matches, staticPart_of_plain h]
  constructor
  · rintro (⟨-, hx⟩ | ⟨hc, -⟩)
    · exact hx
    · exact absurd hc (ne_append_catchAll t)
  · intro hx
    exact Or.inl ⟨rfl, hx⟩

theorem matches_append_catchAll {t x : Str} (h : Plain t) :
    Matches (t ++ catchAll) x ↔ t <+: x ∧ t ≠ x := by
  rw [Matches, staticPart_append_catchAll h]
  constructor
  · rintro (⟨hc, -⟩ | ⟨-, hx⟩)
    · exact absurd hc.symm (ne_append_catchAll t)
    · exact hx
  · intro hx
    exact Or.inr ⟨rfl, hx⟩

theorem Matches.staticPart_prefix {pattern x : Str} (h : Matches pattern x) :
    staticPart pattern <+: x := by
  rcases h with ⟨hs, hx⟩ | ⟨-, hp, -⟩
  · have hsx : staticPart pattern = x := hs.symm.trans hx.symm
    exact hsx ▸ List.prefix_rfl
  · exact hp

/-- Two patterns that match one text and have static parts of one length are the same pattern. -/
theorem Matches.eq_of_length_eq {p q x : Str} (hp : Matches p x) (hq : Matches q x)
    (hlen : (staticPart p).length = (staticPart q).length) : p = q := by
  have hst : staticPart p = staticPart q :=
    (List.prefix_of_prefix_length_le hp.staticPart_prefix hq.staticPart_prefix
      (Nat.le_of_eq hlen)).eq_of_length hlen
  rcases hp with ⟨h₁, hx₁⟩ | ⟨h₁, -, hx₁⟩ <;> rcases hq with ⟨h₂, hx₂⟩ | ⟨h₂, -, hx₂⟩
  · rw [h₁, hst, ← h₂]
  · exact absurd (hst ▸ (hx₁.trans h₁).symm : staticPart q = x) hx₂
  · exact absurd (hst ▸ (hx₂.trans h₂).symm : staticPart p = x) hx₁
  · rw [h₁, hst, ← h₂]

/-! ## The documented behaviour -/

namespace Matchit

/-- What the proxy relies on. -/
structure Lawful (M : Matchit) : Prop where
  /-- Static text and a trailing catch-all are well formed. -/
  simple_wellFormed : ∀ {p}, Simple p → M.malformed p = false
  /-- Static text never conflicts; catch-alls conflict at the same place only. -/
  simple_conflicts : ∀ {p q}, Simple p → Simple q → p ≠ q → M.conflicts p q = false
  /-- A pattern cannot be inserted twice. -/
  conflicts_self : ∀ p, M.conflicts p p = true
  /-- Which of two conflicting patterns comes first does not matter. -/
  conflicts_symm : ∀ p q, M.conflicts p q = M.conflicts q p
  /-- A lookup depends only on what was inserted. -/
  at_perm : ∀ {pr pr'} x, M.Built pr → pr.Perm pr' → M.matchAt pr x = M.matchAt pr' x
  /-- Backtracking is complete: a lookup finds a match if there is one. -/
  at_isSome : ∀ {pr e x}, M.Built pr → (∀ e ∈ pr, Simple e.1) → e ∈ pr → Matches e.1 x →
    M.matchAt pr x ≠ none
  /-- A lookup returns a match, and static text goes before a catch-all. -/
  at_some : ∀ {pr x v}, M.Built pr → (∀ e ∈ pr, Simple e.1) → M.matchAt pr x = some v →
    ∃ p, (p, v) ∈ pr ∧ Matches p x ∧
      ∀ e ∈ pr, Matches e.1 x → staticPart p <+: staticPart e.1 → staticPart p = staticPart e.1

/-- A lookup returns a value only if it is the value of a pattern that matches. -/
def Sound (M : Matchit) : Prop :=
  ∀ pr x v, M.Built pr → (∀ e ∈ pr, Simple e.1) → M.matchAt pr x = some v →
    ∃ p, (p, v) ∈ pr ∧ Matches p x

variable {M : Matchit}

theorem Lawful.sound (hM : M.Lawful) : M.Sound := by
  intro pr x v hb hs hv
  obtain ⟨p, hp, hpx, -⟩ := hM.at_some hb hs hv
  exact ⟨p, hp, hpx⟩

/-- In a built router a pattern has one value. -/
theorem Built.value_unique (hM : M.Lawful) {pr : PrefixRouter} (h : M.Built pr) {p : Str}
    {v w : RouteKey} (hv : (p, v) ∈ pr) (hw : (p, w) ∈ pr) : v = w := by
  by_contra hne
  have hpair : (p, v) ≠ (p, w) := fun he => hne (Prod.mk.inj he).2
  have hsymm : Std.Symm fun e e' : Str × RouteKey => M.conflicts e.1 e'.1 = false :=
    ⟨fun e e' he => (hM.conflicts_symm e'.1 e.1).trans he⟩
  have := h.2.forall hv hw hpair
  rw [hM.conflicts_self] at this
  cases this

/-- **The longest static part wins.** -/
theorem matchAt_eq_some_iff (hM : M.Lawful) {pr : PrefixRouter} (hb : M.Built pr)
    (hs : ∀ e ∈ pr, Simple e.1) {x : Str} {v : RouteKey} :
    M.matchAt pr x = some v ↔ ∃ p, (p, v) ∈ pr ∧ Matches p x ∧
      ∀ e ∈ pr, Matches e.1 x → (staticPart e.1).length ≤ (staticPart p).length := by
  -- The static parts of all matches are prefixes of `x`, so they form a chain.
  have hmax : ∀ {w}, M.matchAt pr x = some w → ∃ p, (p, w) ∈ pr ∧ Matches p x ∧
      ∀ e ∈ pr, Matches e.1 x → (staticPart e.1).length ≤ (staticPart p).length := by
    intro w hw
    obtain ⟨p, hp, hpx, hbest⟩ := hM.at_some hb hs hw
    refine ⟨p, hp, hpx, fun e he hex => ?_⟩
    by_contra hlt
    have hpre : staticPart p <+: staticPart e.1 :=
      List.prefix_of_prefix_length_le hpx.staticPart_prefix hex.staticPart_prefix (by omega)
    have := congrArg List.length (hbest e he hex hpre)
    omega
  constructor
  · exact hmax
  · rintro ⟨p, hp, hpx, hbest⟩
    cases hw : M.matchAt pr x with
    | none => exact absurd hw (hM.at_isSome hb hs hp hpx)
    | some w =>
        obtain ⟨q, hq, hqx, hqbest⟩ := hmax hw
        have hlen : (staticPart q).length = (staticPart p).length :=
          Nat.le_antisymm (hbest _ hq hqx) (hqbest _ hp hpx)
        have : q = p := hqx.eq_of_length_eq hpx hlen
        subst this
        rw [hb.value_unique hM hq hp]

theorem matchAt_eq_none_iff (hM : M.Lawful) {pr : PrefixRouter} (hb : M.Built pr)
    (hs : ∀ e ∈ pr, Simple e.1) {x : Str} :
    M.matchAt pr x = none ↔ ∀ e ∈ pr, ¬ Matches e.1 x := by
  constructor
  · intro h e he hex
    exact hM.at_isSome hb hs he hex h
  · intro h
    cases hw : M.matchAt pr x with
    | none => rfl
    | some w =>
        obtain ⟨p, hp, hpx, -⟩ := hM.at_some hb hs hw
        exact absurd hpx (h _ hp)

/-! ## Insertion, step by step -/

theorem built_nil (M : Matchit) : M.Built [] := ⟨by simp, List.Pairwise.nil⟩

/-- Into a built router exactly those patterns go that leave it built. -/
theorem insert_eq_ok_iff {pr pr' : PrefixRouter} (hb : M.Built pr) {pattern : Str}
    {key : RouteKey} :
    M.insert pr pattern key = .ok pr' ↔ pr' = pr ++ [(pattern, key)] ∧ M.Built pr' := by
  have hbuilt : M.Built (pr ++ [(pattern, key)]) ↔
      ¬ (M.malformed pattern || pr.any fun e => M.conflicts e.1 pattern) = true := by
    simp only [Built, List.mem_append, List.mem_singleton, List.pairwise_append, hb.2,
      List.pairwise_singleton, true_and, Bool.or_eq_true, List.any_eq_true, not_or, not_exists,
      not_and, Bool.not_eq_true]
    constructor
    · rintro ⟨hw, hc⟩
      exact ⟨hw _ (Or.inr rfl), fun e he => hc e he _ rfl⟩
    · rintro ⟨hw, hc⟩
      refine ⟨?_, ?_⟩
      · rintro e (he | rfl)
        · exact hb.1 e he
        · exact hw
      · rintro e he _ rfl
        exact hc e he
  unfold insert
  split
  · next hbad =>
    simp only [reduceCtorEq, false_iff, not_and]
    rintro rfl
    exact fun h => hbuilt.mp h hbad
  · next hgood =>
    simp only [Except.ok.injEq]
    constructor
    · rintro rfl
      exact ⟨rfl, hbuilt.mpr hgood⟩
    · rintro ⟨rfl, -⟩
      rfl

/-- Being built does not depend on the order of insertion. -/
theorem Built.perm (hM : M.Lawful) {pr pr' : PrefixRouter} (h : M.Built pr) (hp : pr.Perm pr') :
    M.Built pr' := by
  refine ⟨fun e he => h.1 e (hp.mem_iff.mpr he), hp.pairwise h.2 ?_⟩
  intro e e' he
  rw [hM.conflicts_symm]
  exact he

/-- Distinct simple patterns can all be inserted. -/
theorem built_of_simple (hM : M.Lawful) {pr : PrefixRouter} (hs : ∀ e ∈ pr, Simple e.1)
    (hd : (pr.map Prod.fst).Nodup) : M.Built pr := by
  refine ⟨fun e he => hM.simple_wellFormed (hs e he), ?_⟩
  have hne : pr.Pairwise fun e e' => e.1 ≠ e'.1 := List.pairwise_map.mp hd
  refine hne.imp_of_mem ?_
  intro e e' he he' hne
  exact hM.simple_conflicts (hs e he) (hs e' he') hne

/-! ## A lawful instance

Longest static part first, by a scan over all patterns. It knows no parameters: a brace that is not
part of a trailing `{*rest}` is an error, as it is in the crate when it is unbalanced. -/

/-- A scan that behaves as the crate does on the patterns of paths without parameters. -/
def scan : Matchit where
  malformed p := !decide (Simple p)
  conflicts p q := p == q
  message _ p := "insert: ".toList ++ p
  matchAt pr x :=
    ((pr.filter fun e => Matches e.1 x).argmax fun e => (staticPart e.1).length).map Prod.snd

/-- What the scan picks. -/
theorem scan_argmax {pr : PrefixRouter} {x : Str} {e : Str × RouteKey}
    (h : e ∈ (pr.filter fun e => Matches e.1 x).argmax fun e => (staticPart e.1).length) :
    e ∈ pr ∧ Matches e.1 x ∧
      ∀ e' ∈ pr, Matches e'.1 x → (staticPart e'.1).length ≤ (staticPart e.1).length := by
  have hmem := List.mem_filter.mp (List.argmax_mem h)
  refine ⟨hmem.1, of_decide_eq_true hmem.2, fun e' he' hx' => ?_⟩
  have hmem' : e' ∈ pr.filter fun e => Matches e.1 x :=
    List.mem_filter.mpr ⟨he', decide_eq_true hx'⟩
  exact List.le_of_mem_argmax (f := fun e => (staticPart e.1).length) hmem' h

theorem scan_some {pr : PrefixRouter} {x : Str} {v : RouteKey} (h : scan.matchAt pr x = some v) :
    ∃ p, (p, v) ∈ pr ∧ Matches p x ∧
      ∀ e ∈ pr, Matches e.1 x → (staticPart e.1).length ≤ (staticPart p).length := by
  obtain ⟨e, he, rfl⟩ := Option.map_eq_some_iff.mp h
  obtain ⟨hmem, hx, hbest⟩ := scan_argmax he
  exact ⟨e.1, hmem, hx, hbest⟩

theorem scan_isSome {pr : PrefixRouter} {x : Str} {e : Str × RouteKey} (he : e ∈ pr)
    (hx : Matches e.1 x) : scan.matchAt pr x ≠ none := by
  intro h
  have hnil := List.argmax_eq_none.mp (Option.map_eq_none_iff.mp h)
  have : e ∈ pr.filter fun e => Matches e.1 x := List.mem_filter.mpr ⟨he, decide_eq_true hx⟩
  rw [hnil] at this
  cases this

/-- In what the scan calls built no pattern occurs twice. -/
theorem scan_value_unique {pr : PrefixRouter} (h : scan.Built pr) {p : Str} {v w : RouteKey}
    (hv : (p, v) ∈ pr) (hw : (p, w) ∈ pr) : v = w := by
  by_contra hne
  have hsymm : Std.Symm fun e e' : Str × RouteKey => scan.conflicts e.1 e'.1 = false :=
    ⟨fun e e' he => BEq.comm.trans he⟩
  have hpp : (p == p) = false := h.2.forall hv hw fun he => hne (Prod.mk.inj he).2
  rw [BEq.rfl] at hpp
  cases hpp

theorem scan_lawful : scan.Lawful where
  simple_wellFormed h := by simp [scan, h]
  simple_conflicts _ _ hne := by simp [scan, hne]
  conflicts_self p := by simp [scan]
  conflicts_symm p q := by simp [scan, BEq.comm]
  at_perm := by
    intro pr pr' x hb hp
    -- Both scans pick the same static length, hence the same pattern.
    cases h : scan.matchAt pr x with
    | none =>
        cases h' : scan.matchAt pr' x with
        | none => rfl
        | some v =>
            obtain ⟨p, hmem, hx, -⟩ := scan_some h'
            exact absurd h (scan_isSome (hp.mem_iff.mpr hmem) hx)
    | some v =>
        obtain ⟨p, hmem, hx, hbest⟩ := scan_some h
        cases h' : scan.matchAt pr' x with
        | none => exact absurd h' (scan_isSome (hp.mem_iff.mp hmem) hx)
        | some w =>
            obtain ⟨q, hmem', hx', hbest'⟩ := scan_some h'
            have hq := hp.mem_iff.mpr hmem'
            have hlen : (staticPart p).length = (staticPart q).length :=
              Nat.le_antisymm (hbest' _ (hp.mem_iff.mp hmem) hx) (hbest _ hq hx')
            have hpq : p = q := hx.eq_of_length_eq hx' hlen
            subst hpq
            rw [scan_value_unique hb hmem hq]
  at_isSome := fun _ _ he hx => scan_isSome he hx
  at_some := by
    intro pr x v _ _ h
    obtain ⟨p, hmem, hx, hbest⟩ := scan_some h
    exact ⟨p, hmem, hx, fun e he hex hpre => hpre.eq_of_length_le (hbest e he hex)⟩

end Matchit

end Rauta
