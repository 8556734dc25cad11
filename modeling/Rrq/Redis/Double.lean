import Mathlib.Data.Int.Log
import Mathlib.Data.Rat.Floor
import Mathlib.Tactic.FieldSimp
import Mathlib.Tactic.Linarith
import Mathlib.Tactic.Positivity

-- Binary floating point with 53 significant bits, for numbers that stay in its normal range.
-- A number is rounded to the nearest that is representable, ties to the even one.

namespace Double

def roundEven (x : ℚ) : Int :=
  let low := ⌊x⌋
  if x - low < 1 / 2 then low
  else if 1 / 2 < x - low then low + 1
  else if low % 2 = 0 then low
  else low + 1

def round (x : ℚ) : ℚ :=
  if x = 0 then 0
  else
    let unit : ℚ := (2 : ℚ) ^ (Int.log 2 |x| - 52)
    roundEven (x / unit) * unit

def add (x y : ℚ) : ℚ := round (x + y)

def mul (x y : ℚ) : ℚ := round (x * y)

theorem le_roundEven {n : Int} {x : ℚ} (h : n ≤ x) : n ≤ roundEven x := by
  have hfloor : n ≤ ⌊x⌋ := Int.le_floor.mpr h
  unfold roundEven
  dsimp only
  split_ifs <;> omega

theorem roundEven_le {n : Int} {x : ℚ} (h : x ≤ n) : roundEven x ≤ n := by
  have hfloor : (⌊x⌋ : ℚ) ≤ n := (Int.floor_le x).trans h
  have hlow : ⌊x⌋ ≤ n := by exact_mod_cast hfloor
  unfold roundEven
  dsimp only
  by_cases heq : ⌊x⌋ = n
  · have hzero : x - (⌊x⌋ : ℚ) ≤ 0 := by rw [heq]; linarith
    have hless : x - (⌊x⌋ : ℚ) < 1 / 2 := by linarith
    rw [if_pos hless, heq]
  · split_ifs <;> omega

theorem roundEven_mono {x y : ℚ} (h : x ≤ y) : roundEven x ≤ roundEven y := by
  by_cases hfloor : ⌊x⌋ = ⌊y⌋
  · unfold roundEven
    dsimp only
    rw [hfloor]
    split_ifs <;> first | omega | (exfalso; linarith)
  · have hless : ⌊x⌋ + 1 ≤ ⌊y⌋ := (Int.floor_mono h).lt_of_ne hfloor
    have hx : roundEven x ≤ ⌊x⌋ + 1 := roundEven_le (by
      push_cast
      exact (Int.lt_floor_add_one x).le)
    exact hx.trans (hless.trans (le_roundEven (Int.floor_le y)))

theorem abs_roundEven_sub_le (x : ℚ) : |(roundEven x : ℚ) - x| ≤ 1 / 2 := by
  have hlow := Int.floor_le x
  have hhigh := Int.lt_floor_add_one x
  rw [abs_le]
  unfold roundEven
  dsimp only
  split_ifs <;> push_cast <;> constructor <;> linarith

-- The distance of the numbers that are representable near a number, as a power of two.
def unit (x : ℚ) : ℚ := (2 : ℚ) ^ (Int.log 2 |x| - 52)

theorem unit_pos (x : ℚ) : 0 < unit x := zpow_pos (by norm_num) _

theorem round_eq (x : ℚ) : round x = roundEven (x / unit x) * unit x := by
  unfold round
  split_ifs with h
  · subst h
    simp [roundEven]
  · rfl

theorem abs_round_sub_le (x : ℚ) : |round x - x| ≤ unit x / 2 := by
  have hunit := unit_pos x
  have hscaled : round x - x = (roundEven (x / unit x) - x / unit x) * unit x := by
    rw [round_eq]
    field_simp
  rw [hscaled, abs_mul, abs_of_pos hunit]
  have h := mul_le_mul_of_nonneg_right (abs_roundEven_sub_le (x / unit x)) hunit.le
  linarith

theorem unit_le {x : ℚ} {bits : Int} (hx : x ≠ 0) (h : |x| < (2 : ℚ) ^ bits) :
    unit x ≤ (2 : ℚ) ^ (bits - 53) := by
  have hlog : Int.log 2 |x| < bits := (Int.lt_zpow_iff_log_lt (by norm_num) (abs_pos.mpr hx)).mp h
  exact zpow_le_zpow_right₀ (by norm_num) (by omega)

-- Below 53 bits an integer is a multiple of the distance.
theorem exists_scaled {x : ℚ} (hx : x ≠ 0) (h : |x| < 2 ^ 53) (n : Int) :
    ∃ m : Int, (n : ℚ) = m * unit x := by
  have hlog : Int.log 2 |x| < 53 := by
    refine (Int.lt_zpow_iff_log_lt (by norm_num) (abs_pos.mpr hx)).mp ?_
    exact_mod_cast h
  obtain ⟨k, hk⟩ := Int.eq_ofNat_of_zero_le (show 0 ≤ 52 - Int.log 2 |x| by omega)
  refine ⟨n * 2 ^ k, ?_⟩
  rw [unit, show Int.log 2 |x| - 52 = -(k : Int) by omega, zpow_neg, zpow_natCast]
  push_cast
  rw [mul_assoc, mul_inv_cancel₀ (by positivity), mul_one]

theorem le_round {x : ℚ} {n : Int} (h : |x| < 2 ^ 53) (hn : n ≤ x) : n ≤ round x := by
  by_cases hx : x = 0
  · simpa [round, hx] using hn
  · obtain ⟨m, hm⟩ := exists_scaled hx h n
    have hunit := unit_pos x
    have hscaled : (m : ℚ) ≤ x / unit x := by
      rw [le_div_iff₀ hunit, ← hm]
      exact hn
    have hrounded : (m : ℚ) ≤ roundEven (x / unit x) := by exact_mod_cast le_roundEven hscaled
    rw [round_eq, hm]
    exact mul_le_mul_of_nonneg_right hrounded hunit.le

theorem round_le {x : ℚ} {n : Int} (h : |x| < 2 ^ 53) (hn : x ≤ n) : round x ≤ n := by
  by_cases hx : x = 0
  · simpa [round, hx] using hn
  · obtain ⟨m, hm⟩ := exists_scaled hx h n
    have hunit := unit_pos x
    have hscaled : x / unit x ≤ (m : ℚ) := by
      rw [div_le_iff₀ hunit, ← hm]
      exact hn
    have hrounded : (roundEven (x / unit x) : ℚ) ≤ m := by exact_mod_cast roundEven_le hscaled
    rw [round_eq, hm]
    exact mul_le_mul_of_nonneg_right hrounded hunit.le

-- An integer of at most 53 bits is kept.
theorem round_intCast {n : Int} (h : |n| < 2 ^ 53) : round n = n := by
  have hsmall : |(n : ℚ)| < 2 ^ 53 := by exact_mod_cast h
  exact le_antisymm (round_le hsmall le_rfl) (le_round hsmall le_rfl)

theorem round_nonpos {x : ℚ} (h : x ≤ 0) : round x ≤ 0 := by
  have hunit := unit_pos x
  have hscaled : x / unit x ≤ (0 : Int) := by
    rw [Int.cast_zero]
    exact div_nonpos_of_nonpos_of_nonneg h hunit.le
  have hrounded : (roundEven (x / unit x) : ℚ) ≤ 0 := by exact_mod_cast roundEven_le hscaled
  rw [round_eq]
  exact mul_nonpos_of_nonpos_of_nonneg hrounded hunit.le

end Double
