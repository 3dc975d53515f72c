import Mathlib.Data.List.AList
import Mathlib.Data.List.DropRight
import Rauta.IpText
import Rauta.RateLimiter

/-!
# Limits per route

`RateLimiter` keeps one token bucket per route pattern; a pattern without a bucket is not limited.
A limit is written as an annotation, `100rps,burst=200` or `50rps`, which
`parse_rate_limit_annotation` reads.

What `f64` arithmetic rounds to, and what `f64` parsing accepts, are parameters (`FloatOps`).
-/

namespace Rauta

/-! ## Numbers -/

/-- What is left open of `f64`: the rounding of an exact result, and the value of a text. -/
structure FloatOps where
  round : ℚ → ℚ
  parse : Str → Option F64

namespace F64

/-- `rate / 1000.0`. -/
def perMs (round : ℚ → ℚ) : F64 → F64
  | .finite q => .finite (round (q / 1000))
  | special => special

/-- `rate.ceil() as u64`: the cast saturates, and makes zero of a NaN. -/
def ceilAsU64 : F64 → Nat
  | .nan => 0
  | .negInf => 0
  | .posInf => 2 ^ 64 - 1
  | .finite q => min ⌈q⌉₊ (2 ^ 64 - 1)

end F64

/-- `parse::<u64>()`: digits, with an optional plus sign in front. -/
def parseU64 (text : Str) : Option Nat :=
  let digits := if text.head? = some '+' then text.tail else text
  if digits = [] then none
  else
    digits.foldlM
      (fun n c => (IpText.toDigit 10 c).bind fun d =>
        if n * 10 + d < 2 ^ 64 then some (n * 10 + d) else none)
      0

/-! ## Text -/

/-- `char::is_whitespace`: the Unicode property `White_Space`. -/
def isWhitespace (c : Char) : Bool :=
  (0x09 ≤ c.toNat && c.toNat ≤ 0x0D) || c.toNat == 0x20 || c.toNat == 0x85 || c.toNat == 0xA0 ||
  c.toNat == 0x1680 || (0x2000 ≤ c.toNat && c.toNat ≤ 0x200A) || c.toNat == 0x2028 ||
  c.toNat == 0x2029 || c.toNat == 0x202F || c.toNat == 0x205F || c.toNat == 0x3000

/-- `trim`. -/
def trim (text : Str) : Str := (text.dropWhile isWhitespace).rdropWhile isWhitespace

/-- Drop a word off the front, at most so many times. -/
def dropWord (word : Str) : Nat → Str → Str
  | 0, text => text
  | times + 1, text =>
    if word <+: text then dropWord word times (text.drop word.length) else text

/-- `trim_start_matches`, for a word that is not empty. -/
def trimStartMatches (word text : Str) : Str := dropWord word text.length text

/-- `trim_end_matches`, for a word that is not empty. -/
def trimEndMatches (word text : Str) : Str :=
  (trimStartMatches word.reverse text.reverse).reverse

/-! ## The annotation -/

/-- The second part of the annotation; without one the burst is the rate, rounded up. -/
def parseBurst (rate : F64) : Option Str → Except Str Nat
  | none => .ok rate.ceilAsU64
  | some part =>
    let burstStr := trim part
    if ¬ "burst=".toList <+: burstStr then
      .error ("Expected 'burst=N', got: ".toList ++ burstStr)
    else
      match parseU64 (trimStartMatches "burst=".toList burstStr) with
      | none => .error ("Invalid burst number: ".toList ++ burstStr)
      | some burst => .ok burst

/-- `parse_rate_limit_annotation`: the rate and the burst. Parts after the second are ignored. A NaN
is not `<= 0.0`, and passes. -/
def parseRateLimitAnnotation (parse : Str → Option F64) (text : Str) :
    Except Str (F64 × Nat) :=
  match text.splitOn ',' with
  | [] => .error "Missing rate specification".toList
  | part :: parts =>
    let rateStr := trim part
    if ¬ "rps".toList <:+ rateStr then
      .error ("Rate must end with 'rps', got: ".toList ++ rateStr)
    else
      match parse (trimEndMatches "rps".toList rateStr) with
      | none => .error ("Invalid rate number: ".toList ++ rateStr)
      | some rate =>
        if rate.nonpos then .error "Rate must be positive".toList
        else (parseBurst rate parts.head?).map fun burst => (rate, burst)

/-! ## The buckets -/

/-- `TokenBucket::new`, from the rate per second. -/
def TokenBucket.ofRate (round : ℚ → ℚ) (rate : F64) (burst : Nat) : TokenBucket :=
  .new (floatToFixed (rate.perMs round)) burst

/-- A bucket in use: its constants, its word, and when it was created (in milliseconds). -/
structure LiveBucket where
  bucket : TokenBucket
  packed : Nat
  createdAt : Nat

/-- `RateLimiter`: the buckets by route pattern. -/
abbrev RateLimiter := AList fun _ : Str => LiveBucket

namespace RateLimiter

/-- `configure_route`: a new, full bucket, also where there was one. -/
def configureRoute (l : RateLimiter) (round : ℚ → ℚ) (now : Nat) (route : Str) (rate : F64)
    (burst : Nat) : RateLimiter :=
  let bucket := TokenBucket.ofRate round rate burst
  l.insert route ⟨bucket, bucket.initial, now⟩

/-- `check_rate_limit`: a pattern without a bucket is allowed. -/
def checkRateLimit (l : RateLimiter) (now : Nat) (route : Str) : Bool × RateLimiter :=
  match l.lookup route with
  | none => (true, l)
  | some b =>
    let (allowed, packed) := b.bucket.tryAcquireN (.finite 1) (now - b.createdAt) b.packed
    (allowed, l.insert route { b with packed := packed })

/-- The pattern has a bucket of this rate and burst. -/
def Limited (round : ℚ → ℚ) (rate : F64) (burst : Nat) (l : RateLimiter) (pattern : Str) : Prop :=
  ∃ b, l.lookup pattern = some b ∧ b.bucket = TokenBucket.ofRate round rate burst

variable {l : RateLimiter} {round : ℚ → ℚ} {rate : F64} {burst : Nat} {pattern : Str}

theorem not_limited_empty : ¬ Limited round rate burst ∅ pattern := by
  rintro ⟨b, hb, -⟩
  cases hb

/-- Configuring with one rate and burst limits the pattern that is named, and no other. -/
theorem limited_configureRoute_iff {now : Nat} {route : Str} :
    Limited round rate burst (l.configureRoute round now route rate burst) pattern ↔
      pattern = route ∨ Limited round rate burst l pattern := by
  unfold Limited configureRoute
  by_cases h : pattern = route
  · subst h
    simp [AList.lookup_insert]
  · simp [h, AList.lookup_insert_ne h]

/-- Without a bucket, every request is allowed and nothing is counted. -/
theorem checkRateLimit_of_lookup_eq_none (h : l.lookup pattern = none) (now : Nat) :
    l.checkRateLimit now pattern = (true, l) := by
  simp [checkRateLimit, h]

/-- A check is a call of the route's bucket. -/
theorem checkRateLimit_of_lookup {x : LiveBucket} (h : l.lookup pattern = some x) {now : Nat}
    {allowed : Bool} {packed : Nat}
    (hanswer : x.bucket.tryAcquireN (.finite 1) (now - x.createdAt) x.packed = (allowed, packed)) :
    l.checkRateLimit now pattern = (allowed, l.insert pattern { x with packed := packed }) := by
  -- for any function in the place of `try_acquire_n`, so that nothing is evaluated
  have hcheck : ∀ acquire : TokenBucket → F64 → Nat → Nat → Bool × Nat,
      acquire x.bucket (.finite 1) (now - x.createdAt) x.packed = (allowed, packed) →
      (match l.lookup pattern with
        | none => (true, l)
        | some b =>
          let (allowed, packed) := acquire b.bucket (.finite 1) (now - b.createdAt) b.packed
          (allowed, l.insert pattern { b with packed := packed })) =
        (allowed, l.insert pattern { x with packed := packed }) := by
    intro acquire hanswer
    simp only [h, hanswer]
  exact hcheck TokenBucket.tryAcquireN hanswer

end RateLimiter

end Rauta
