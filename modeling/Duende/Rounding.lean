import Duende.Core.Config

/-!
# Rounded arithmetic

The floats are exact rationals (`F64`). Where the source rounds and then cuts a result to an
integer, the rounding shows: `F64.round` is the nearest `f64`, and `abs_nearest_sub_le` says how
far it is away.
-/

namespace Duende.F64

variable {q r : ℚ}

/-- The nearest integer is at most half away, and not below the floor. -/
theorem roundHalfEven_spec (q : ℚ) :
    ⌊q⌋ ≤ roundHalfEven q ∧ |(roundHalfEven q : ℚ) - q| ≤ 1 / 2 := by
  have hlo := Int.floor_le q
  have hhi := Int.lt_floor_add_one q
  unfold roundHalfEven
  simp only
  split
  · rename_i h
    refine ⟨le_refl _, abs_le.2 ⟨?_, ?_⟩⟩
    · rcases h with h | h
      · linarith
      · linarith [h.1]
    · linarith
  · rename_i h
    rw [not_or, not_lt] at h
    push_cast
    exact ⟨by omega, abs_le.2 ⟨by linarith, by linarith [h.1]⟩⟩

def least : ℚ := 2 ^ (-1074 : Int)

/-- The distance of the floats around `q`: 53 binary places, as far as there are any. -/
def ulp (q : ℚ) : ℚ := max (2 ^ (Int.log 2 |q| - 52)) least

/-- The nearest multiple of that distance, the even one of two. -/
def nearest (q : ℚ) : ℚ := roundHalfEven (q / ulp q) * ulp q

def round (q : ℚ) : F64 :=
  if |nearest q| < 2 ^ 1024 then finite (nearest q) else infinite (decide (q < 0))

/-- The result of an operation, rounded. -/
def rounded : F64 → F64
  | finite q => round q
  | a => a

theorem least_pos : 0 < least := zpow_pos (by norm_num) _

theorem least_le : least ≤ 1 / 2 ^ 128 := by
  have h : (2 : ℚ) ^ (-1074 : Int) ≤ 2 ^ (-128 : Int) :=
    zpow_le_zpow_right₀ (by norm_num) (by norm_num)
  calc least ≤ 2 ^ (-128 : Int) := h
    _ = 1 / 2 ^ 128 := by norm_num

theorem ulp_pos (q : ℚ) : 0 < ulp q := lt_max_of_lt_right least_pos

theorem ulp_le (hq : q ≠ 0) : ulp q ≤ |q| / 2 ^ 52 + least := by
  have hlog : (2 : ℚ) ^ Int.log 2 |q| ≤ |q| := Int.zpow_log_le_self (by norm_num) (abs_pos.2 hq)
  have hplaces : (2 : ℚ) ^ (Int.log 2 |q| - 52) ≤ |q| / 2 ^ 52 := by
    rw [zpow_sub₀ (by norm_num), show (2 : ℚ) ^ (52 : Int) = 2 ^ 52 from zpow_natCast _ _]
    gcongr
  have hleast := least_pos
  have hq' : 0 ≤ |q| / 2 ^ 52 := by positivity
  exact max_le (by linarith) (by linarith)

/-- **The rounding error**: half a unit in the last of 53 places, or half the least float. -/
theorem abs_nearest_sub_le (q : ℚ) : |nearest q - q| ≤ |q| / 2 ^ 53 + least / 2 := by
  have hpos := ulp_pos q
  rcases eq_or_ne q 0 with rfl | hq
  · have hzero : nearest 0 = 0 := by
      unfold nearest
      rw [zero_div]
      exact mul_eq_zero_of_left (by norm_num [roundHalfEven]) _
    rw [hzero, sub_zero, abs_zero, zero_div, zero_add]
    exact (half_pos least_pos).le
  · have hround := (roundHalfEven_spec (q / ulp q)).2
    have heq : nearest q - q = (roundHalfEven (q / ulp q) - q / ulp q) * ulp q := by
      unfold nearest
      rw [sub_mul, div_mul_cancel₀ _ hpos.ne']
    calc |nearest q - q| = |(roundHalfEven (q / ulp q) : ℚ) - q / ulp q| * ulp q := by
          rw [heq, abs_mul, abs_of_pos hpos]
      _ ≤ 1 / 2 * ulp q := by gcongr
      _ ≤ 1 / 2 * (|q| / 2 ^ 52 + least) := by gcongr; exact ulp_le hq
      _ = |q| / 2 ^ 53 + least / 2 := by ring

theorem round_eq (h : |nearest q| < 2 ^ 100) : round q = finite (nearest q) :=
  if_pos (h.trans_le (pow_le_pow_right₀ (by norm_num) (by norm_num)))

/-- The factors are rounded, and the product is: of moderate size it is off by less than one. -/
theorem round_times {a b : ℚ} (ha : 0 ≤ a) (hb : 1 ≤ b) (hb' : b ≤ 2 ^ 64)
    (hab : a * b ≤ 2 ^ 50) : ∃ r, ((round a).times (round b)).rounded = finite r ∧
      |r - a * b| < 1 := by
  have hleast := least_le
  have hleast0 := least_pos
  have ha' : a ≤ 2 ^ 50 := (le_mul_of_one_le_right ha hb).trans hab
  have hx := abs_nearest_sub_le a
  have hy := abs_nearest_sub_le b
  rw [abs_of_nonneg ha] at hx
  rw [abs_of_nonneg (show 0 ≤ b by linarith)] at hy
  obtain ⟨hx1, hx2⟩ := abs_le.1 hx
  obtain ⟨hy1, hy2⟩ := abs_le.1 hy
  have hsmallx : |nearest a| < 2 ^ 100 := abs_lt.2 ⟨by linarith, by linarith⟩
  have hsmally : |nearest b| < 2 ^ 100 := abs_lt.2 ⟨by linarith, by linarith⟩
  have hb0 : 0 ≤ nearest b := by linarith
  have hb2 : nearest b ≤ 2 * b := by linarith
  -- the errors of the two factors, each times the other factor
  have hfirst : |(nearest a - a) * nearest b| ≤ (a / 2 ^ 53 + least / 2) * (2 * b) := by
    rw [abs_mul, abs_of_nonneg hb0]
    gcongr
  have hsecond : |a * (nearest b - b)| ≤ a * (2 * (b / 2 ^ 53)) := by
    rw [abs_mul, abs_of_nonneg ha]
    gcongr
    linarith
  have hleastb : least * b ≤ 1 / 2 ^ 128 * 2 ^ 64 := by gcongr
  have hproduct : |nearest a * nearest b - a * b| ≤ 1 / 2 + 1 / 2 ^ 64 := by
    have heq : nearest a * nearest b - a * b =
        (nearest a - a) * nearest b + a * (nearest b - b) := by ring
    have hsum : (a / 2 ^ 53 + least / 2) * (2 * b) + a * (2 * (b / 2 ^ 53)) =
        4 * (a * b) / 2 ^ 53 + least * b := by ring
    rw [heq]
    refine (abs_add_le _ _).trans ((add_le_add hfirst hsecond).trans ?_)
    rw [hsum]
    linarith
  -- the error of the product
  have hz := abs_nearest_sub_le (nearest a * nearest b)
  have hab0 : 0 ≤ a * b := by positivity
  obtain ⟨hp1, hp2⟩ := abs_le.1 hproduct
  have hzabs : |nearest a * nearest b| ≤ 2 ^ 50 + 1 := abs_le.2 ⟨by linarith, by linarith⟩
  have hz' : |nearest (nearest a * nearest b) - nearest a * nearest b| ≤ 1 / 4 := by linarith
  obtain ⟨hz1, hz2⟩ := abs_le.1 hz'
  refine ⟨nearest (nearest a * nearest b), ?_, abs_lt.2 ⟨by linarith, by linarith⟩⟩
  rw [round_eq hsmallx, round_eq hsmally]
  exact round_eq (abs_lt.2 ⟨by linarith, by linarith⟩)

/-- A third is a third of `2 ^ 54`, rounded. -/
example : round (1 / 3) = finite (6004799503160661 / 2 ^ 54) := by decide +kernel

end Duende.F64
