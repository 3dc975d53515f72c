import Mathlib.Algebra.Order.Floor.Semiring
import Rauta.RateLimiter.PerRoute

/-!
# The format of a limit

An annotation is documented as `Nrps` or `Nrps,burst=B` (`Documented`).
`parse_rate_limit_annotation` reads more than that: it strips `rps` and `burst=` as often as they
come, does not look at a third part, and takes every number that is not `<= 0.0`, among them
infinity and NaN. And the default burst is a `u64`, which a large rate does not fit.

What it reads is a grammar of its own (`parseRateLimitAnnotation_eq_ok_iff`), in which the number of
extra words is written down. It agrees with the documented one on a text if and only if the text is
not one of those (`Loose`).

Of `f64` parsing we need that no number ends in `rps`.
-/

namespace Rauta

/-! ## Repeated words -/

/-- A word, so many times. -/
def repeated (word : Str) (n : Nat) : Str := (List.replicate n word).flatten

@[simp] theorem repeated_zero (word : Str) : repeated word 0 = [] := rfl

theorem repeated_succ (word : Str) (n : Nat) :
    repeated word (n + 1) = word ++ repeated word n := by
  simp [repeated, List.replicate_succ]

theorem repeated_succ_eq_append (word : Str) (n : Nat) :
    repeated word (n + 1) = repeated word n ++ word := by
  simp [repeated, List.replicate_succ']

theorem length_repeated (word : Str) (n : Nat) : (repeated word n).length = n * word.length := by
  simp [repeated]

theorem reverse_repeated (word : Str) (n : Nat) :
    (repeated word n).reverse = repeated word.reverse n := by
  simp [repeated, List.reverse_flatten]

variable {word text rest : Str} {n : Nat}

/-- Dropping a word often enough leaves a text that does not begin with it. -/
theorem exists_repeated_dropWord (hword : word ≠ []) {times : Nat} (htimes : text.length ≤ times) :
    ∃ n, text = repeated word n ++ dropWord word times text ∧
      ¬ word <+: dropWord word times text := by
  induction times generalizing text with
  | zero =>
      obtain rfl := List.length_eq_zero_iff.mp (Nat.le_zero.mp htimes)
      exact ⟨0, rfl, by simpa [dropWord] using hword⟩
  | succ times ih =>
      rw [dropWord]
      split
      · next hbegins =>
          obtain ⟨rest, rfl⟩ := hbegins
          have hpos := List.length_pos_iff.mpr hword
          have hlen : ((word ++ rest).drop word.length).length ≤ times := by
            simp only [List.drop_left, List.length_append] at htimes ⊢
            omega
          obtain ⟨n, htext, hends⟩ := ih hlen
          refine ⟨n + 1, ?_, hends⟩
          rw [repeated_succ, List.append_assoc, ← htext, List.drop_left]
      · next hbegins => exact ⟨0, rfl, hbegins⟩

/-- It drops all copies in front. -/
theorem dropWord_repeated (hrest : ¬ word <+: rest) {times : Nat} (hn : n ≤ times) :
    dropWord word times (repeated word n ++ rest) = rest := by
  induction n generalizing times with
  | zero =>
      cases times with
      | zero => rfl
      | succ times => rw [repeated_zero, List.nil_append, dropWord, if_neg hrest]
  | succ n ih =>
      obtain ⟨times, rfl⟩ : ∃ m, times = m + 1 := ⟨times - 1, by omega⟩
      rw [repeated_succ, List.append_assoc, dropWord, if_pos (List.prefix_append _ _),
        List.drop_left]
      exact ih (Nat.le_of_succ_le_succ hn)

/-- `trim_start_matches` takes off the copies in front, all of them. -/
theorem trimStartMatches_eq_iff (hword : word ≠ []) :
    trimStartMatches word text = rest ↔
      ¬ word <+: rest ∧ ∃ n, text = repeated word n ++ rest := by
  constructor
  · rintro rfl
    obtain ⟨n, htext, hends⟩ := exists_repeated_dropWord hword (Nat.le_refl text.length)
    exact ⟨hends, n, htext⟩
  · rintro ⟨hends, n, rfl⟩
    refine dropWord_repeated hends ?_
    have hpos := List.length_pos_iff.mpr hword
    have hle : n ≤ n * word.length := Nat.le_mul_of_pos_right n hpos
    rw [List.length_append, length_repeated]
    omega

/-- `trim_end_matches` takes off the copies at the end. -/
theorem trimEndMatches_eq_iff (hword : word ≠ []) :
    trimEndMatches word text = rest ↔
      ¬ word <:+ rest ∧ ∃ n, text = rest ++ repeated word n := by
  rw [trimEndMatches, List.reverse_eq_iff, trimStartMatches_eq_iff (by simpa using hword),
    List.reverse_prefix]
  refine and_congr_right fun _ => exists_congr fun n => ?_
  rw [List.reverse_eq_iff, List.reverse_append, reverse_repeated, List.reverse_reverse,
    List.reverse_reverse]

/-- How often a word comes at the end. -/
theorem eq_of_append_repeated (hword : word ≠ []) {m : Nat} {rest' : Str} (hrest : ¬ word <:+ rest)
    (hrest' : ¬ word <:+ rest') (h : rest ++ repeated word n = rest' ++ repeated word m) :
    rest = rest' ∧ n = m := by
  have hsame : rest = rest' :=
    ((trimEndMatches_eq_iff hword).mpr ⟨hrest, n, rfl⟩).symm.trans
      ((trimEndMatches_eq_iff hword).mpr ⟨hrest', m, h⟩)
  subst hsame
  have hlen := congrArg List.length (List.append_cancel_left h)
  rw [length_repeated, length_repeated] at hlen
  exact ⟨rfl, Nat.eq_of_mul_eq_mul_right (List.length_pos_iff.mpr hword) hlen⟩

/-- How often a word comes in front. -/
theorem eq_of_repeated_append (hword : word ≠ []) {m : Nat} {rest' : Str} (hrest : ¬ word <+: rest)
    (hrest' : ¬ word <+: rest') (h : repeated word n ++ rest = repeated word m ++ rest') :
    rest = rest' ∧ n = m := by
  have hsame : rest = rest' :=
    ((trimStartMatches_eq_iff hword).mpr ⟨hrest, n, rfl⟩).symm.trans
      ((trimStartMatches_eq_iff hword).mpr ⟨hrest', m, h⟩)
  subst hsame
  have hlen := congrArg List.length (List.append_cancel_right h)
  rw [length_repeated, length_repeated] at hlen
  exact ⟨rfl, Nat.eq_of_mul_eq_mul_right (List.length_pos_iff.mpr hword) hlen⟩

/-! ## Numbers -/

/-- Of `f64` parsing: no number ends in `rps`. -/
def NoRps (parse : Str → Option F64) : Prop :=
  ∀ number, "rps".toList <:+ number → parse number = none

/-- A number is made of digits. -/
theorem digit_of_foldlM {f : Nat → Nat → Option Nat} {digits : Str} {start value : Nat}
    (h : digits.foldlM (fun n c => (IpText.toDigit 10 c).bind (f n)) start = some value) :
    ∀ c ∈ digits, IpText.toDigit 10 c ≠ none := by
  induction digits generalizing start with
  | nil => simp
  | cons c digits ih =>
      rw [List.foldlM_cons] at h
      obtain ⟨next, hnext, h⟩ := Option.bind_eq_some_iff.mp h
      obtain ⟨digit, hdigit, -⟩ := Option.bind_eq_some_iff.mp hnext
      intro c' hc'
      rcases List.mem_cons.mp hc' with rfl | hc'
      · simp [hdigit]
      · exact ih h c' hc'

theorem digit_of_parseU64 {number : Str} {value : Nat} (h : parseU64 number = some value) :
    ∀ c ∈ number, c = '+' ∨ IpText.toDigit 10 c ≠ none := by
  simp only [parseU64, Option.ite_none_left_eq_some] at h
  have hdigits := digit_of_foldlM h.2
  intro c hc
  split at hdigits
  · next hplus =>
      obtain ⟨rest, rfl⟩ := List.head?_eq_some_iff.mp hplus
      exact (List.mem_cons.mp hc).imp_right (hdigits c)
  · exact .inr (hdigits c hc)

theorem not_burst_of_parseU64 {number : Str} {value : Nat} (h : parseU64 number = some value) :
    ¬ "burst=".toList <+: number := by
  rintro ⟨rest, rfl⟩
  exact absurd (digit_of_parseU64 h 'b' (by simp)) (by decide)

/-! ## The grammars -/

variable {parse : Str → Option F64} {part : Str} {parts : List Str} {rate : F64}
  {burst extra : Nat}

/-- A part is `Nrps`, for a finite positive number. -/
def IsRate (parse : Str → Option F64) (part : Str) (rate : ℚ) : Prop :=
  ∃ number, trim part = number ++ "rps".toList ∧ parse number = some (.finite rate) ∧ 0 < rate

/-- A part is `burst=B`. -/
def IsBurst (part : Str) (burst : Nat) : Prop :=
  ∃ number, trim part = "burst=".toList ++ number ∧ parseU64 number = some burst

/-- The documented format, and what it means. -/
inductive Documented (parse : Str → Option F64) (text : Str) : F64 → Nat → Prop where
  | rate {part : Str} {rate : ℚ} (hsplit : text.splitOn ',' = [part])
      (hrate : IsRate parse part rate) : Documented parse text (.finite rate) ⌈rate⌉₊
  | burst {part part' : Str} {rate : ℚ} {burst : Nat} (hsplit : text.splitOn ',' = [part, part'])
      (hrate : IsRate parse part rate) (hburst : IsBurst part' burst) :
      Documented parse text (.finite rate) burst

/-- A part is `Nrps` with so many extra `rps`, for a number that is not `<= 0.0`. -/
def ReadAsRate (parse : Str → Option F64) (extra : Nat) (part : Str) (rate : F64) : Prop :=
  rate.nonpos = false ∧
    ∃ number, trim part = number ++ repeated "rps".toList (extra + 1) ∧ parse number = some rate

/-- A part is `burst=B` with so many extra `burst=`. -/
def ReadAsBurst (extra : Nat) (part : Str) (burst : Nat) : Prop :=
  ∃ number, trim part = repeated "burst=".toList (extra + 1) ++ number ∧
    parseU64 number = some burst

theorem rps_ne_nil : "rps".toList ≠ [] := by decide

theorem burst_ne_nil : "burst=".toList ≠ [] := by decide

theorem exists_readAsRate_iff (hparse : NoRps parse) :
    (∃ extra, ReadAsRate parse extra part rate) ↔ "rps".toList <:+ trim part ∧
      parse (trimEndMatches "rps".toList (trim part)) = some rate ∧ rate.nonpos = false := by
  constructor
  · rintro ⟨extra, hpos, number, htrim, hnumber⟩
    have hends : ¬ "rps".toList <:+ number := by
      intro hends
      rw [hparse number hends] at hnumber
      cases hnumber
    rw [(trimEndMatches_eq_iff rps_ne_nil).mpr ⟨hends, extra + 1, htrim⟩, htrim,
      repeated_succ_eq_append, ← List.append_assoc]
    exact ⟨List.suffix_append _ _, hnumber, hpos⟩
  · rintro ⟨hends, hnumber, hpos⟩
    obtain ⟨hstripped, n, htrim⟩ := (trimEndMatches_eq_iff rps_ne_nil).mp
      (rfl : trimEndMatches "rps".toList (trim part) = _)
    cases n with
    | zero =>
        rw [repeated_zero, List.append_nil] at htrim
        exact absurd (htrim ▸ hends) hstripped
    | succ extra => exact ⟨extra, hpos, _, htrim, hnumber⟩

theorem exists_readAsBurst_iff :
    (∃ extra, ReadAsBurst extra part burst) ↔ "burst=".toList <+: trim part ∧
      parseU64 (trimStartMatches "burst=".toList (trim part)) = some burst := by
  constructor
  · rintro ⟨extra, number, htrim, hnumber⟩
    rw [(trimStartMatches_eq_iff burst_ne_nil).mpr
      ⟨not_burst_of_parseU64 hnumber, extra + 1, htrim⟩, htrim, repeated_succ, List.append_assoc]
    exact ⟨List.prefix_append _ _, hnumber⟩
  · rintro ⟨hbegins, hnumber⟩
    obtain ⟨hstripped, n, htrim⟩ := (trimStartMatches_eq_iff burst_ne_nil).mp
      (rfl : trimStartMatches "burst=".toList (trim part) = _)
    cases n with
    | zero =>
        rw [repeated_zero, List.nil_append] at htrim
        exact absurd (htrim ▸ hbegins) hstripped
    | succ extra => exact ⟨extra, _, htrim, hnumber⟩

theorem parseBurst_some_eq_ok_iff :
    parseBurst rate (some part) = .ok burst ↔ ∃ extra, ReadAsBurst extra part burst := by
  rw [exists_readAsBurst_iff]
  by_cases hbegins : "burst=".toList <+: trim part
  · cases hnumber : parseU64 (trimStartMatches "burst=".toList (trim part)) with
    | none => simp only [parseBurst, hbegins, hnumber, not_true, if_false, reduceCtorEq, and_false]
    | some value =>
        simp only [parseBurst, hbegins, hnumber, not_true, if_false, Except.ok.injEq, true_and,
          Option.some.injEq]
  · simp only [parseBurst, hbegins, not_false_eq_true, if_true, reduceCtorEq, false_and]

/-- **What is read**, and as what. -/
theorem parseRateLimitAnnotation_eq_ok_iff (hparse : NoRps parse) :
    parseRateLimitAnnotation parse text = .ok (rate, burst) ↔
      ∃ part parts, text.splitOn ',' = part :: parts ∧ (∃ extra, ReadAsRate parse extra part rate) ∧
        parseBurst rate parts.head? = .ok burst := by
  simp only [exists_readAsRate_iff hparse]
  constructor
  · intro h
    unfold parseRateLimitAnnotation at h
    split at h
    · cases h
    · next part parts hsplit =>
        refine ⟨part, parts, hsplit, ?_⟩
        simp only at h
        split at h
        · cases h
        · next hends =>
            split at h
            · cases h
            · next value hnumber =>
                split at h
                · cases h
                · next hpos =>
                    cases hburst : parseBurst value parts.head? with
                    | error e =>
                        rw [hburst] at h
                        cases h
                    | ok value' =>
                        rw [hburst] at h
                        cases h
                        exact ⟨⟨not_not.mp hends, hnumber, Bool.not_eq_true _ ▸ hpos⟩, hburst⟩
  · rintro ⟨part, parts, hsplit, ⟨hends, hnumber, hpos⟩, hburst⟩
    simp only [hsplit, parseRateLimitAnnotation, hends, hnumber, hpos, hburst, not_true, if_false,
      Bool.false_eq_true, Except.map]

/-- An annotation that is read though it is not documented, or not as documented: with an extra
`rps` or `burst=`, with a third part, with a rate that is not finite, or with a rate that is too
large for its own default burst. -/
inductive Loose (parse : Str → Option F64) (text : Str) : Prop where
  | rate {part : Str} {extra : Nat} {rate : F64} (hsplit : text.splitOn ',' = [part])
      (hrate : ReadAsRate parse extra part rate)
      (hloose : extra ≠ 0 ∨ ∀ q, rate = .finite q → 2 ^ 64 ≤ ⌈q⌉₊)
  | burst {part part' : Str} {more : List Str} {extra extra' : Nat} {rate : F64} {burst : Nat}
      (hsplit : text.splitOn ',' = part :: part' :: more)
      (hrate : ReadAsRate parse extra part rate) (hburst : ReadAsBurst extra' part' burst)
      (hloose : extra ≠ 0 ∨ extra' ≠ 0 ∨ more ≠ [] ∨ ∀ q, rate ≠ .finite q)

theorem isRate_iff {q : ℚ} : IsRate parse part q ↔ ReadAsRate parse 0 part (.finite q) := by
  have hpos : (F64.finite q).nonpos = false ↔ 0 < q := by simp [F64.nonpos]
  simp only [IsRate, ReadAsRate, repeated_succ, repeated_zero, List.append_nil, hpos]
  constructor
  · rintro ⟨number, htrim, hnumber, hq⟩
    exact ⟨hq, number, htrim, hnumber⟩
  · rintro ⟨hq, number, htrim, hnumber⟩
    exact ⟨number, htrim, hnumber, hq⟩

theorem isBurst_iff : IsBurst part burst ↔ ReadAsBurst 0 part burst := by
  simp only [IsBurst, ReadAsBurst, repeated_succ, repeated_zero, List.append_nil]

theorem ReadAsRate.unique (hparse : NoRps parse) {extra' : Nat} {rate' : F64}
    (h : ReadAsRate parse extra part rate) (h' : ReadAsRate parse extra' part rate') :
    extra = extra' ∧ rate = rate' := by
  have hends : ∀ {number value}, parse number = some value → ¬ "rps".toList <:+ number := by
    intro number value hnumber hends
    rw [hparse number hends] at hnumber
    cases hnumber
  obtain ⟨-, number, htrim, hnumber⟩ := h
  obtain ⟨-, number', htrim', hnumber'⟩ := h'
  obtain ⟨rfl, hextra⟩ := eq_of_append_repeated rps_ne_nil (hends hnumber) (hends hnumber')
    (htrim.symm.trans htrim')
  exact ⟨Nat.succ.inj hextra, Option.some.inj (hnumber.symm.trans hnumber')⟩

theorem ReadAsBurst.unique {extra' burst' : Nat} (h : ReadAsBurst extra part burst)
    (h' : ReadAsBurst extra' part burst') : extra = extra' ∧ burst = burst' := by
  obtain ⟨number, htrim, hnumber⟩ := h
  obtain ⟨number', htrim', hnumber'⟩ := h'
  obtain ⟨rfl, hextra⟩ := eq_of_repeated_append burst_ne_nil (not_burst_of_parseU64 hnumber)
    (not_burst_of_parseU64 hnumber') (htrim.symm.trans htrim')
  exact ⟨Nat.succ.inj hextra, Option.some.inj (hnumber.symm.trans hnumber')⟩

/-- The default burst is the rate rounded up, as long as it fits. -/
theorem ceilAsU64_eq_iff {q : ℚ} : (F64.finite q).ceilAsU64 = ⌈q⌉₊ ↔ ⌈q⌉₊ < 2 ^ 64 := by
  show min ⌈q⌉₊ (2 ^ 64 - 1) = ⌈q⌉₊ ↔ _
  omega

/-- The documented format in the terms of what is read. -/
theorem documented_iff : Documented parse text rate burst ↔
    ∃ part parts q, text.splitOn ',' = part :: parts ∧ rate = .finite q ∧
      ReadAsRate parse 0 part rate ∧
      ((parts = [] ∧ burst = ⌈q⌉₊) ∨ ∃ part', parts = [part'] ∧ ReadAsBurst 0 part' burst) := by
  constructor
  · rintro (⟨hsplit, hrate⟩ | ⟨hsplit, hrate, hburst⟩)
    · exact ⟨_, [], _, hsplit, rfl, isRate_iff.mp hrate, .inl ⟨rfl, rfl⟩⟩
    · exact ⟨_, [_], _, hsplit, rfl, isRate_iff.mp hrate, .inr ⟨_, rfl, isBurst_iff.mp hburst⟩⟩
  · rintro ⟨part, parts, q, hsplit, rfl, hrate, ⟨rfl, rfl⟩ | ⟨part', rfl, hburst⟩⟩
    · exact .rate hsplit (isRate_iff.mpr hrate)
    · exact .burst hsplit (isRate_iff.mpr hrate) (isBurst_iff.mpr hburst)

/-- A text that is not loose is read as documented. -/
theorem documented_of_not_loose (hloose : ¬ Loose parse text)
    (hsplit : text.splitOn ',' = part :: parts) (hrate : ReadAsRate parse extra part rate)
    (hburst : parseBurst rate parts.head? = .ok burst) : Documented parse text rate burst := by
  rw [documented_iff]
  cases parts with
  | nil =>
      have hfits : ¬ (extra ≠ 0 ∨ ∀ q, rate = .finite q → 2 ^ 64 ≤ ⌈q⌉₊) :=
        fun h => hloose (.rate hsplit hrate h)
      simp only [not_or, not_not, not_forall, Nat.not_le] at hfits
      obtain ⟨rfl, q, rfl, hfits⟩ := hfits
      have hceil : (F64.finite q).ceilAsU64 = burst := Except.ok.inj hburst
      refine ⟨part, [], q, hsplit, rfl, hrate, .inl ⟨rfl, ?_⟩⟩
      rw [← hceil, ceilAsU64_eq_iff]
      exact hfits
  | cons part' more =>
      obtain ⟨extra', hread⟩ := parseBurst_some_eq_ok_iff.mp hburst
      have hplain : ¬ (extra ≠ 0 ∨ extra' ≠ 0 ∨ more ≠ [] ∨ ∀ q, rate ≠ .finite q) :=
        fun h => hloose (.burst hsplit hrate hread h)
      simp only [not_or, not_not, not_forall] at hplain
      obtain ⟨rfl, rfl, rfl, q, rfl⟩ := hplain
      exact ⟨part, [part'], q, hsplit, rfl, hrate, .inr ⟨part', rfl, hread⟩⟩

/-- A documented text that is not loose is read. -/
theorem parseBurst_of_documented (hloose : ¬ Loose parse text)
    (h : Documented parse text rate burst) :
    ∃ part parts, text.splitOn ',' = part :: parts ∧ (∃ extra, ReadAsRate parse extra part rate) ∧
      parseBurst rate parts.head? = .ok burst := by
  obtain ⟨part, parts, q, hsplit, rfl, hrate, ⟨rfl, rfl⟩ | ⟨part', rfl, hburst⟩⟩ :=
    documented_iff.mp h
  · refine ⟨part, [], hsplit, ⟨0, hrate⟩, congrArg Except.ok (ceilAsU64_eq_iff.mpr ?_)⟩
    by_contra hlarge
    refine hloose (.rate hsplit hrate (.inr fun q' hq' => ?_))
    cases hq'
    exact Nat.not_lt.mp hlarge
  · exact ⟨part, [part'], hsplit, ⟨0, hrate⟩, parseBurst_some_eq_ok_iff.mpr ⟨0, hburst⟩⟩

/-- A loose text is read as something that is not documented. -/
theorem Loose.exists_not_documented (hparse : NoRps parse) (h : Loose parse text) :
    ∃ rate burst, parseRateLimitAnnotation parse text = .ok (rate, burst) ∧
      ¬ Documented parse text rate burst := by
  obtain ⟨hsplit, hrate, hloose⟩ | ⟨hsplit, hrate, hburst, hloose⟩ := h
  · next part extra rate =>
      refine ⟨rate, rate.ceilAsU64,
        (parseRateLimitAnnotation_eq_ok_iff hparse).mpr ⟨_, _, hsplit, ⟨_, hrate⟩, rfl⟩, ?_⟩
      intro hdoc
      obtain ⟨part', parts, q, hsplit', rfl, hrate', hburst⟩ := documented_iff.mp hdoc
      obtain ⟨rfl, rfl⟩ := List.cons.inj (hsplit.symm.trans hsplit')
      obtain ⟨rfl, -⟩ := hrate.unique hparse hrate'
      have hlarge : 2 ^ 64 ≤ ⌈q⌉₊ := (hloose.resolve_left fun h => h rfl) q rfl
      obtain ⟨-, hceil⟩ | ⟨part', hparts, -⟩ := hburst
      · exact absurd (ceilAsU64_eq_iff.mp hceil) (Nat.not_lt.mpr hlarge)
      · cases hparts
  · next part part' more extra extra' rate burst =>
      refine ⟨rate, burst, (parseRateLimitAnnotation_eq_ok_iff hparse).mpr
        ⟨_, _, hsplit, ⟨_, hrate⟩, parseBurst_some_eq_ok_iff.mpr ⟨_, hburst⟩⟩, ?_⟩
      intro hdoc
      obtain ⟨_, parts, q, hsplit', rfl, hrate', hburst'⟩ := documented_iff.mp hdoc
      obtain ⟨rfl, rfl⟩ := List.cons.inj (hsplit.symm.trans hsplit')
      obtain ⟨rfl, -⟩ := hrate.unique hparse hrate'
      obtain ⟨hparts, -⟩ | ⟨_, hparts, hburst'⟩ := hburst'
      · cases hparts
      · cases hparts
        obtain ⟨rfl, -⟩ := hburst.unique hburst'
        rcases hloose with h | h | h | h
        · exact h rfl
        · exact h rfl
        · exact h rfl
        · exact h q rfl

theorem Loose.not_documented (hparse : NoRps parse) (h : Loose parse text)
    (hread : parseRateLimitAnnotation parse text = .ok (rate, burst)) :
    ¬ Documented parse text rate burst := by
  obtain ⟨rate', burst', hread', hdoc⟩ := h.exists_not_documented hparse
  cases hread.symm.trans hread'
  exact hdoc

/-- **The format that is read is the documented one**, for exactly the texts that are not loose. -/
theorem parseRateLimitAnnotation_iff_documented_iff (hparse : NoRps parse) :
    (∀ rate burst, parseRateLimitAnnotation parse text = .ok (rate, burst) ↔
      Documented parse text rate burst) ↔ ¬ Loose parse text := by
  constructor
  · intro h hloose
    obtain ⟨rate, burst, hread, hdoc⟩ := hloose.exists_not_documented hparse
    exact hdoc ((h rate burst).mp hread)
  · intro hloose rate burst
    rw [parseRateLimitAnnotation_eq_ok_iff hparse]
    constructor
    · rintro ⟨part, parts, hsplit, ⟨extra, hrate⟩, hburst⟩
      exact documented_of_not_loose hloose hsplit hrate hburst
    · exact parseBurst_of_documented hloose

/-- Some of `f64` parsing: whole numbers, `inf`, and one number with an exponent. -/
def someFloats (text : Str) : Option F64 :=
  if text = "inf".toList then some .posInf
  else if text = "1e20".toList then some (.finite (10 ^ 20))
  else (parseU64 text).map fun n => .finite n

theorem noRps_someFloats : NoRps someFloats := by
  intro number hends
  have hinf : number ≠ "inf".toList := by
    rintro rfl
    exact absurd hends (by decide)
  have hexp : number ≠ "1e20".toList := by
    rintro rfl
    exact absurd hends (by decide)
  rw [someFloats, if_neg hinf, if_neg hexp, Option.map_eq_none_iff]
  cases hnumber : parseU64 number with
  | none => rfl
  | some value =>
      have hs : 's' ∈ number := hends.subset (by decide)
      exact absurd (digit_of_parseU64 hnumber 's' hs) (by decide)

theorem readAsRate_ten : ReadAsRate someFloats 0 "10rps".toList (.finite 10) :=
  ⟨rfl, "10".toList, by decide, rfl⟩

theorem readAsBurst_five : ReadAsBurst 0 "burst=5".toList 5 := ⟨"5".toList, by decide, rfl⟩

/-- An annotation that is not loose is read, and as documented. -/
theorem agrees_someFloats :
    ¬ Loose someFloats "10rps,burst=5".toList ∧
    parseRateLimitAnnotation someFloats "10rps,burst=5".toList = .ok (.finite 10, 5) ∧
    Documented someFloats "10rps,burst=5".toList (.finite 10) 5 := by
  have hsplit : "10rps,burst=5".toList.splitOn ',' = ["10rps".toList, "burst=5".toList] := by decide
  have hloose : ¬ Loose someFloats "10rps,burst=5".toList := by
    rintro (⟨hone, -, -⟩ | ⟨htwo, hrate, hburst, hloose⟩)
    · cases hsplit.symm.trans hone
    · cases hsplit.symm.trans htwo
      obtain ⟨rfl, rfl⟩ := readAsRate_ten.unique noRps_someFloats hrate
      obtain ⟨rfl, -⟩ := readAsBurst_five.unique hburst
      rcases hloose with h | h | h | h
      · exact h rfl
      · exact h rfl
      · exact h rfl
      · exact h 10 rfl
  have hread := (parseRateLimitAnnotation_iff_documented_iff noRps_someFloats).mpr hloose
    (.finite 10) 5
  exact ⟨hloose, rfl, hread.mp rfl⟩

/-- An annotation is read, and not as documented. -/
def ReadUndocumented (parse : Str → Option F64) (text : Str) (rate : F64) (burst : Nat) : Prop :=
  parseRateLimitAnnotation parse text = .ok (rate, burst) ∧ ¬ Documented parse text rate burst

/-- **What is read though it is not documented**: a third part, an `rps` and a `burst=` too many, an
infinite rate, and a rate whose default burst is another number. -/
theorem exists_read_not_documented :
    ReadUndocumented someFloats "10rps,burst=5,x".toList (.finite 10) 5 ∧
    ReadUndocumented someFloats "10rpsrps".toList (.finite 10) 10 ∧
    ReadUndocumented someFloats "10rps,burst=burst=5".toList (.finite 10) 5 ∧
    ReadUndocumented someFloats "infrps".toList .posInf (2 ^ 64 - 1) ∧
    ReadUndocumented someFloats "1e20rps".toList (.finite (10 ^ 20)) (2 ^ 64 - 1) := by
  have htwice : ReadAsRate someFloats 1 "10rpsrps".toList (.finite 10) :=
    ⟨rfl, "10".toList, by decide, rfl⟩
  have hinf : ReadAsRate someFloats 0 "infrps".toList .posInf := ⟨rfl, "inf".toList, by decide, rfl⟩
  have hlarge : ReadAsRate someFloats 0 "1e20rps".toList (.finite (10 ^ 20)) :=
    ⟨rfl, "1e20".toList, by decide, rfl⟩
  have hceil : 2 ^ 64 ≤ ⌈(10 ^ 20 : ℚ)⌉₊ := by
    rw [show (10 ^ 20 : ℚ) = (10 ^ 20 : ℕ) by norm_num, Nat.ceil_natCast]
    norm_num
  have hfive' : ReadAsBurst 1 "burst=burst=5".toList 5 := ⟨"5".toList, by decide, rfl⟩
  have hsplit : "10rps,burst=burst=5".toList.splitOn ',' =
      ["10rps".toList, "burst=burst=5".toList] := by
    decide
  have hmore : ["x".toList] ≠ [] := List.cons_ne_nil _ _
  refine ⟨⟨rfl, ?_⟩, ⟨rfl, ?_⟩, ⟨rfl, ?_⟩, ⟨rfl, ?_⟩, ⟨rfl, ?_⟩⟩
  · exact Loose.not_documented noRps_someFloats
      (.burst (by decide) readAsRate_ten readAsBurst_five (.inr (.inr (.inl hmore)))) rfl
  · exact Loose.not_documented noRps_someFloats
      (.rate (by decide) htwice (.inl Nat.one_ne_zero)) rfl
  · exact Loose.not_documented noRps_someFloats
      (.burst hsplit readAsRate_ten hfive' (.inr (.inl Nat.one_ne_zero))) rfl
  · exact Loose.not_documented noRps_someFloats (.rate (by decide) hinf (.inr (by simp))) rfl
  · refine Loose.not_documented noRps_someFloats (.rate (by decide) hlarge (.inr ?_)) rfl
    rintro q ⟨⟩
    exact hceil

end Rauta
