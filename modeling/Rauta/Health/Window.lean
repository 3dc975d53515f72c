import Mathlib.Tactic.Linarith
import Rauta.Health
import Rauta.Lib.Rounding
import Rauta.Lib.SlidingWindow

/-!
# Passive health as a sliding window

`BackendHealth` remembers the last `windowSize` responses, one flag for each. After any sequence of
responses the window is the end of the sequence (`window_foldl_recordResponse`), so `is_healthy`
answers a question about the sequence: are at most half of its last responses errors?

The source asks it in floating point (`isHealthyF64`). Both counts are small, so the rounded
quotient is on the same side of `0.5` as the exact one, and the answer is that of the counts
(`isHealthyF64_eq_isHealthy`).
-/

namespace Rauta

namespace BackendHealth

open Rounding SlidingWindow

/-! ## The rate in floating point -/

section ErrorRate

variable (round : ℚ → ℚ)

/-- `error_count as f64 / total as f64`. Both conversions and the division round. -/
def errorRate (h : BackendHealth) : ℚ := round (round h.errorCount / round h.window.length)

/-- `is_healthy`, as the source computes it. -/
def isHealthyF64 (h : BackendHealth) : Bool :=
  if h.window.length = 0 then true else h.errorRate round ≤ 1 / 2

end ErrorRate

variable {round : ℚ → ℚ}

/-- The counts of a window are small enough for the conversion to be exact. -/
theorem round_natCast (hround : IsBinary64 round) {n : Nat} (hn : n ≤ windowSize) :
    round n = n := by
  have habs : |(n : ℤ)| ≤ 2 ^ 53 := by
    unfold windowSize at hn
    rw [Nat.abs_cast]
    omega
  exact hround.exact n (representable_intCast habs)

/-- A rate above one half is above `257/512` too, a number of the format: the counts are at most
`windowSize`. -/
theorem exists_representable_between {e t : Nat} (ht : 0 < t) (hle : t ≤ windowSize)
    (hlt : (1 / 2 : ℚ) < e / t) :
    ∃ r, Representable 53 1074 r ∧ 1 / 2 < r ∧ r ≤ (e / t : ℚ) := by
  have htq : (0 : ℚ) < t := Nat.cast_pos.mpr ht
  have hmore : t < 2 * e := by
    rw [lt_div_iff₀ htq] at hlt
    have : (t : ℚ) < 2 * e := by linarith
    exact_mod_cast this
  refine ⟨257 / 512, ⟨257, 9, by norm_num, by norm_num, by norm_num⟩, by norm_num, ?_⟩
  rw [le_div_iff₀ htq]
  have hcount : 257 * t ≤ 512 * e := by
    unfold windowSize at hle
    omega
  have hcountq : (257 * t : ℚ) ≤ 512 * e := by exact_mod_cast hcount
  linarith

/-- **The floating-point answer is the exact one.** -/
theorem isHealthyF64_eq_isHealthy (hround : IsBinary64 round) (h : BackendHealth) :
    h.isHealthyF64 round = h.isHealthy := by
  rw [Bool.eq_iff_iff, isHealthy_iff]
  unfold isHealthyF64
  by_cases h0 : h.window.length = 0
  · have hnone : h.errorCount = 0 := Nat.le_zero.mp (h0 ▸ List.count_le_length)
    simp [h0, hnone]
  · have hpos : 0 < h.window.length := Nat.pos_of_ne_zero h0
    have hposq : (0 : ℚ) < h.window.length := Nat.cast_pos.mpr hpos
    have herr : h.errorCount ≤ windowSize := List.count_le_length.trans h.bounded
    have hhalf : Representable 53 1074 (1 / 2) := ⟨1, 1, by norm_num, by norm_num, by norm_num⟩
    rw [if_neg h0, decide_eq_true_iff]
    unfold errorRate
    rw [round_natCast hround herr, round_natCast hround h.bounded,
      hround.le_iff hhalf (exists_representable_between hpos h.bounded), div_le_iff₀ hposq]
    have hdouble : (h.errorCount : ℚ) ≤ 1 / 2 * h.window.length ↔
        (2 * h.errorCount : ℚ) ≤ h.window.length := by
      constructor <;> intro hle <;> linarith
    rw [hdouble]
    exact_mod_cast Iff.rfl

/-! ## The window after a sequence of responses -/

/-- One more response, at the end of those the window stands for. -/
theorem window_recordResponse {h : BackendHealth} {responses : List Bool}
    (hw : h.window = responses.rtake windowSize) (statusCode : Nat) :
    (h.recordResponse statusCode).window =
      (responses ++ [isError statusCode]).rtake windowSize := by
  show slide windowSize h.window (isError statusCode) = _
  rw [hw]
  exact slide_rtake (by decide) responses _

/-- The window holds the last responses. -/
theorem window_foldl_recordResponse (codes : List Nat) :
    (codes.foldl recordResponse .new).window = (codes.map isError).rtake windowSize := by
  induction codes using List.reverseRecOn with
  | nil => rfl
  | append_singleton codes code ih =>
      rw [List.foldl_append, List.map_append]
      exact window_recordResponse ih code

theorem errorCount_foldl_recordResponse (codes : List Nat) :
    (codes.foldl recordResponse .new).errorCount =
      (codes.rtake windowSize).countP fun c => 500 ≤ c ∧ c ≤ 599 := by
  rw [errorCount, window_foldl_recordResponse, rtake_map, List.count_eq_countP, List.countP_map]
  congr 1
  funext c
  have h599 : c < 600 ↔ c ≤ 599 := Nat.lt_succ_iff
  simp [isError, h599]

/-- **The sliding-window majority**: after any responses, `is_healthy` says whether at most half of
the last ones are errors, and the window is never larger than its size. -/
theorem isHealthyF64_foldl_recordResponse_iff (hround : IsBinary64 round) (codes : List Nat) :
    ((codes.foldl recordResponse .new).isHealthyF64 round = true ↔
      2 * (codes.rtake (min 100 codes.length)).countP (fun c => 500 ≤ c ∧ c ≤ 599) ≤
        min 100 codes.length) ∧
    (codes.foldl recordResponse .new).window.length ≤ 100 := by
  refine ⟨?_, (codes.foldl recordResponse .new).bounded⟩
  have hlen : (codes.foldl recordResponse .new).window.length = min 100 codes.length := by
    rw [window_foldl_recordResponse, length_rtake, List.length_map]
    rfl
  rw [isHealthyF64_eq_isHealthy hround, isHealthy_iff, errorCount_foldl_recordResponse, hlen,
    rtake_min_length]
  rfl

/-- Three errors in four responses, with exact arithmetic. -/
theorem isHealthyF64_foldl_recordResponse_iff_exact :
    (([500, 200, 503, 599].foldl recordResponse .new).isHealthyF64 id = true ↔ 2 * 3 ≤ 4) ∧
      ([500, 200, 503, 599].foldl recordResponse .new).window.length ≤ 100 :=
  isHealthyF64_foldl_recordResponse_iff isRounding_id [500, 200, 503, 599]

end BackendHealth

end Rauta
