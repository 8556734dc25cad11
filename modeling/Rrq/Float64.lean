import Rrq.Redis.Double

-- The floating point numbers of 64 bits, with overflow and gradual underflow. The two zeros are
-- one value here: nothing compares or converts them differently.

namespace Float64

-- The numbers near a given one are the multiples of a power of two.
def exponent (x : ℚ) : Int := max (Int.log 2 |x| - 52) (-1074)

def spacing (x : ℚ) : ℚ := (2 : ℚ) ^ exponent x

def nearest (x : ℚ) : ℚ := Double.roundEven (x / spacing x) * spacing x

theorem spacing_pos (x : ℚ) : 0 < spacing x := zpow_pos (by norm_num) _

theorem exists_spacings {x : ℚ} {e : Int} (h : exponent x ≤ e) (n : Int) :
    ∃ m : Int, (n : ℚ) * (2 : ℚ) ^ e = m * spacing x := by
  obtain ⟨k, hk⟩ := Int.eq_ofNat_of_zero_le (show 0 ≤ e - exponent x by omega)
  refine ⟨n * 2 ^ k, ?_⟩
  rw [spacing, show e = k + exponent x by omega, zpow_add₀ (by norm_num), zpow_natCast]
  push_cast
  ring

section Multiple

variable {x y : ℚ} {m : Int}

theorem le_nearest (hy : y = m * spacing x) (h : y ≤ x) : y ≤ nearest x := by
  have hscaled : (m : ℚ) ≤ x / spacing x := by
    rw [le_div_iff₀ (spacing_pos x), ← hy]
    exact h
  have hrounded : (m : ℚ) ≤ Double.roundEven (x / spacing x) := by
    exact_mod_cast Double.le_roundEven hscaled
  rw [hy]
  exact mul_le_mul_of_nonneg_right hrounded (spacing_pos x).le

theorem nearest_le (hy : y = m * spacing x) (h : x ≤ y) : nearest x ≤ y := by
  have hscaled : x / spacing x ≤ (m : ℚ) := by
    rw [div_le_iff₀ (spacing_pos x), ← hy]
    exact h
  have hrounded : (Double.roundEven (x / spacing x) : ℚ) ≤ m := by
    exact_mod_cast Double.roundEven_le hscaled
  rw [hy]
  exact mul_le_mul_of_nonneg_right hrounded (spacing_pos x).le

end Multiple

theorem zpow_log_le {x : ℚ} (hx : 0 < x) : (2 : ℚ) ^ Int.log 2 |x| ≤ x := by
  rw [abs_of_pos hx]
  exact Int.zpow_log_le_self (by norm_num) hx

theorem lt_zpow_log {x : ℚ} : x < (2 : ℚ) ^ (Int.log 2 |x| + 1) :=
  (le_abs_self x).trans_lt (Int.lt_zpow_succ_log_self (by norm_num) |x|)

theorem nearest_zero : nearest 0 = 0 := by
  simp [nearest, Double.roundEven]

theorem nearest_nonneg {x : ℚ} (hx : 0 ≤ x) : 0 ≤ nearest x :=
  le_nearest (m := 0) (by simp) hx

theorem zpow_le_nearest {x : ℚ} {k : Int} (hk : -1074 ≤ k) (h : (2 : ℚ) ^ k ≤ x) :
    (2 : ℚ) ^ k ≤ nearest x := by
  have hx : 0 < x := (zpow_pos (by norm_num) k).trans_le h
  have hlog : k ≤ Int.log 2 |x| := by
    rw [abs_of_pos hx]
    exact (Int.zpow_le_iff_le_log (by norm_num) hx).mp (by exact_mod_cast h)
  have hexponent : exponent x ≤ Int.log 2 |x| := max_le (by omega) (by omega)
  obtain ⟨m, hm⟩ := exists_spacings hexponent 1
  rw [Int.cast_one, one_mul] at hm
  calc
    (2 : ℚ) ^ k ≤ (2 : ℚ) ^ Int.log 2 |x| := zpow_le_zpow_right₀ (by norm_num) hlog
    _ ≤ nearest x := le_nearest hm (zpow_log_le hx)

theorem nearest_le_zpow {x : ℚ} {k : Int} (hk : -1074 ≤ k) (hx : 0 < x) (h : x ≤ (2 : ℚ) ^ k) :
    nearest x ≤ (2 : ℚ) ^ k := by
  have hlog : Int.log 2 |x| ≤ k := by
    rw [abs_of_pos hx, ← zpow_le_zpow_iff_right₀ (show (1 : ℚ) < 2 by norm_num)]
    exact (Int.zpow_log_le_self (by norm_num) hx).trans h
  have hexponent : exponent x ≤ k := max_le (by omega) hk
  obtain ⟨m, hm⟩ := exists_spacings hexponent 1
  rw [Int.cast_one, one_mul] at hm
  exact nearest_le hm h

-- Numbers of one spacing are rounded alike. Otherwise a power of two stands between them.
theorem nearest_mono {x y : ℚ} (hx : 0 ≤ x) (h : x ≤ y) : nearest x ≤ nearest y := by
  rcases hx.eq_or_lt with rfl | hx
  · rw [nearest_zero]
    exact nearest_nonneg h
  have hy : 0 < y := hx.trans_le h
  by_cases hspacing : exponent x = exponent y
  · have hsame : spacing x = spacing y := by rw [spacing, spacing, hspacing]
    have hrounded : (Double.roundEven (x / spacing y) : ℚ) ≤ Double.roundEven (y / spacing y) := by
      exact_mod_cast Double.roundEven_mono (div_le_div_of_nonneg_right h (spacing_pos y).le)
    rw [nearest, nearest, hsame]
    exact mul_le_mul_of_nonneg_right hrounded (spacing_pos y).le
  · have hlog : Int.log 2 |x| ≤ Int.log 2 |y| := by
      rw [abs_of_pos hx, abs_of_pos hy]
      exact Int.log_mono_right hx h
    have hbetween : Int.log 2 |x| + 1 ≤ Int.log 2 |y| ∧ -1074 ≤ Int.log 2 |y| := by
      unfold exponent at hspacing
      omega
    have hbelow : x ≤ (2 : ℚ) ^ Int.log 2 |y| :=
      lt_zpow_log.le.trans (zpow_le_zpow_right₀ (by norm_num) hbetween.1)
    exact (nearest_le_zpow hbetween.2 hx hbelow).trans
      (zpow_le_nearest hbetween.2 (zpow_log_le hy))

-- The finite numbers: an integer of 53 bits, scaled, within the range of the exponent.
def Representable (x : ℚ) : Prop :=
  |x| < 2 ^ 1024 ∧ ∃ m e : Int, |m| < 2 ^ 53 ∧ -1074 ≤ e ∧ x = m * (2 : ℚ) ^ e

theorem abs_lt_spacings (x : ℚ) : |x| < 2 ^ 53 * spacing x := by
  have hexponent : Int.log 2 |x| + 1 ≤ 53 + exponent x := by
    unfold exponent
    omega
  calc
    |x| < (2 : ℚ) ^ (Int.log 2 |x| + 1) := by simpa using lt_zpow_log (x := |x|)
    _ ≤ (2 : ℚ) ^ (53 + exponent x) := zpow_le_zpow_right₀ (by norm_num) hexponent
    _ = 2 ^ 53 * spacing x := by
      rw [spacing, zpow_add₀ (by norm_num)]
      norm_num

-- Rounding may carry to the next power of two, that is a smaller multiple of a larger one.
theorem nearest_representable {x : ℚ} (h : |nearest x| < 2 ^ 1024) : Representable (nearest x) := by
  refine ⟨h, ?_⟩
  have hscaled : |x / spacing x| ≤ ((2 ^ 53 : Int) : ℚ) := by
    rw [abs_div, abs_of_pos (spacing_pos x), div_le_iff₀ (spacing_pos x)]
    exact_mod_cast (abs_lt_spacings x).le
  rw [abs_le] at hscaled
  have hhigh : Double.roundEven (x / spacing x) ≤ 2 ^ 53 := Double.roundEven_le hscaled.2
  have hlow : -2 ^ 53 ≤ Double.roundEven (x / spacing x) :=
    Double.le_roundEven (by exact_mod_cast hscaled.1)
  have hexponent : -1074 ≤ exponent x := le_max_right _ _
  by_cases hinside : |Double.roundEven (x / spacing x)| < 2 ^ 53
  · exact ⟨_, exponent x, hinside, hexponent, rfl⟩
  · obtain ⟨half, hhalf⟩ : ∃ half, Double.roundEven (x / spacing x) = 2 * half := by
      rw [abs_lt] at hinside
      exact ⟨_, (Int.mul_ediv_cancel' (by omega)).symm⟩
    refine ⟨half, exponent x + 1, ?_, by omega, ?_⟩
    · rw [abs_lt]
      omega
    · rw [nearest, hhalf, spacing, zpow_add₀ (by norm_num)]
      push_cast
      ring

theorem representable_of_scaled {m e : Int} (hm : |m| < 2 ^ 53) (he : -1074 ≤ e) (htop : e ≤ 971) :
    Representable (m * (2 : ℚ) ^ e) := by
  refine ⟨?_, m, e, hm, he, rfl⟩
  have hscale : (0 : ℚ) < 2 ^ e := zpow_pos (by norm_num) e
  have hsmall : |(m : ℚ)| < (2 : ℚ) ^ (53 : Int) := by exact_mod_cast hm
  have htotal : (2 : ℚ) ^ (53 + e) ≤ 2 ^ (1024 : Int) := zpow_le_zpow_right₀ (by norm_num) (by omega)
  calc
    |(m : ℚ) * 2 ^ e| = |(m : ℚ)| * 2 ^ e := by rw [abs_mul, abs_of_pos hscale]
    _ < 2 ^ (53 : Int) * 2 ^ e := mul_lt_mul_of_pos_right hsmall hscale
    _ = 2 ^ (53 + e) := (zpow_add₀ (by norm_num) _ _).symm
    _ ≤ 2 ^ 1024 := by exact_mod_cast htotal

theorem representable_intCast {m : Int} (hm : |m| < 2 ^ 53) : Representable m := by
  simpa using representable_of_scaled (e := 0) hm (by norm_num) (by norm_num)

theorem representable_halves {m : Int} (hm : |m| < 2 ^ 53) : Representable (m / 2) := by
  simpa [div_eq_mul_inv] using representable_of_scaled (e := -1) hm (by norm_num) (by norm_num)

theorem Representable.nearest_eq {x : ℚ} (h : Representable x) : nearest x = x := by
  obtain ⟨-, m, e, hm, he, rfl⟩ := h
  by_cases hzero : m = 0
  · rw [hzero, Int.cast_zero, zero_mul, nearest_zero]
  · have hpos : (0 : ℚ) < |(m : ℚ) * 2 ^ e| :=
      abs_pos.mpr (mul_ne_zero (by exact_mod_cast hzero) (zpow_ne_zero e (by norm_num)))
    have hbound : |(m : ℚ) * 2 ^ e| < (2 : ℚ) ^ (53 + e) := by
      have hscale : (0 : ℚ) < 2 ^ e := zpow_pos (by norm_num) e
      rw [abs_mul, abs_of_pos hscale, zpow_add₀ (by norm_num)]
      have hsmall : |(m : ℚ)| < (2 : ℚ) ^ (53 : Int) := by exact_mod_cast hm
      exact mul_lt_mul_of_pos_right hsmall hscale
    have hlog := (Int.lt_zpow_iff_log_lt (b := 2) (by norm_num) hpos).mp (by exact_mod_cast hbound)
    have hexponent : exponent ((m : ℚ) * 2 ^ e) ≤ e := max_le (by omega) he
    obtain ⟨k, hk⟩ := exists_spacings hexponent m
    exact le_antisymm (nearest_le hk le_rfl) (le_nearest hk le_rfl)

-- The numbers from a power of two on. What is rounded up to it starts half of a spacing below.
section Threshold

variable {x : ℚ} {k : Int}

theorem exponent_below (hk : -1021 ≤ k) (hlow : (2 : ℚ) ^ (k - 1) ≤ x) (hhigh : x < (2 : ℚ) ^ k) :
    exponent x = k - 53 := by
  have hx : 0 < x := (zpow_pos (by norm_num) _).trans_le hlow
  have hfirst : k - 1 ≤ Int.log 2 |x| := by
    rw [abs_of_pos hx]
    exact (Int.zpow_le_iff_le_log (by norm_num) hx).mp (by exact_mod_cast hlow)
  have hlast : Int.log 2 |x| < k := by
    rw [abs_of_pos hx]
    exact (Int.lt_zpow_iff_log_lt (by norm_num) hx).mp (by exact_mod_cast hhigh)
  unfold exponent
  omega

theorem scaled_threshold :
    ((2 : ℚ) ^ k - (2 : ℚ) ^ (k - 54)) / (2 : ℚ) ^ (k - 53) = 2 ^ 53 - 1 / 2 := by
  have hpos : (0 : ℚ) < (2 : ℚ) ^ (k - 54) := zpow_pos (by norm_num) _
  rw [show k = 54 + (k - 54) by omega, show 54 + (k - 54) - 53 = 1 + (k - 54) by omega,
    show 54 + (k - 54) - 54 = k - 54 by omega, zpow_add₀ (by norm_num), zpow_add₀ (by norm_num)]
  field_simp

theorem nearest_lt_zpow (hk : -1021 ≤ k) (hx : 0 ≤ x) :
    nearest x < (2 : ℚ) ^ k ↔ x < (2 : ℚ) ^ k - (2 : ℚ) ^ (k - 54) := by
  have hhalf : (2 : ℚ) ^ (k - 1) < (2 : ℚ) ^ k := zpow_lt_zpow_right₀ (by norm_num) (by omega)
  have hdouble : (2 : ℚ) ^ k = 2 * (2 : ℚ) ^ (k - 1) := by
    rw [show k = 1 + (k - 1) by omega, zpow_add₀ (by norm_num)]
    norm_num
  have hgap : (2 : ℚ) ^ (k - 54) ≤ (2 : ℚ) ^ (k - 1) :=
    zpow_le_zpow_right₀ (by norm_num) (by omega)
  have hgappos : (0 : ℚ) < (2 : ℚ) ^ (k - 54) := zpow_pos (by norm_num) _
  constructor
  · intro hless
    by_contra hnot
    have hthreshold : exponent ((2 : ℚ) ^ k - (2 : ℚ) ^ (k - 54)) = k - 53 :=
      exponent_below hk (by linarith) (by linarith)
    have hrounded : nearest ((2 : ℚ) ^ k - (2 : ℚ) ^ (k - 54)) = (2 : ℚ) ^ k := by
      rw [nearest, spacing, hthreshold, scaled_threshold,
        show Double.roundEven (2 ^ 53 - 1 / 2) = 2 ^ 53 by decide +kernel,
        show (2 : ℚ) ^ k = (2 : ℚ) ^ (53 + (k - 53)) by congr 1; omega, zpow_add₀ (by norm_num)]
      norm_num
    have hmono := nearest_mono (by linarith) (not_lt.mp hnot)
    linarith
  · intro hless
    rcases lt_or_ge x ((2 : ℚ) ^ (k - 1)) with hsmall | hlarge
    · rcases hx.eq_or_lt with rfl | hpos
      · rw [nearest_zero]
        linarith
      · exact (nearest_le_zpow (by omega) hpos hsmall.le).trans_lt hhalf
    · have hexponent : exponent x = k - 53 := exponent_below hk hlarge (by linarith)
      have hscaled : x / spacing x < 2 ^ 53 - 1 / 2 := by
        rw [← scaled_threshold (k := k), spacing, hexponent]
        exact div_lt_div_of_pos_right hless (zpow_pos (by norm_num) _)
      have hrounded : (Double.roundEven (x / spacing x) : ℚ) < 2 ^ 53 := by
        have herror := abs_le.mp (Double.abs_roundEven_sub_le (x / spacing x))
        linarith
      calc
        nearest x < 2 ^ 53 * spacing x := mul_lt_mul_of_pos_right hrounded (spacing_pos x)
        _ = (2 : ℚ) ^ k := by
          rw [spacing, hexponent, show k = 53 + (k - 53) by omega, zpow_add₀ (by norm_num)]
          norm_num

end Threshold

-- Below a power of two, the last number is a spacing below it.
theorem Representable.le_last {x : ℚ} {k : Int} (h : Representable x)
    (hx : x < (2 : ℚ) ^ (53 + k)) : x ≤ (2 ^ 53 - 1) * (2 : ℚ) ^ k := by
  obtain ⟨-, m, e, hm, -, rfl⟩ := h
  have hbound : (m : ℚ) ≤ 2 ^ 53 - 1 := by
    have hlast : m ≤ 2 ^ 53 - 1 := by
      rw [abs_lt] at hm
      omega
    exact_mod_cast hlast
  rcases le_total e k with he | he
  · have hscale : (0 : ℚ) < 2 ^ e := zpow_pos (by norm_num) e
    calc
      (m : ℚ) * 2 ^ e ≤ (2 ^ 53 - 1) * 2 ^ e := mul_le_mul_of_nonneg_right hbound hscale.le
      _ ≤ (2 ^ 53 - 1) * 2 ^ k := by
        have hmono : (2 : ℚ) ^ e ≤ 2 ^ k := zpow_le_zpow_right₀ (by norm_num) he
        exact mul_le_mul_of_nonneg_left hmono (by norm_num)
  · obtain ⟨n, hn⟩ := Int.eq_ofNat_of_zero_le (show 0 ≤ e - k by omega)
    have hscale : (0 : ℚ) < 2 ^ k := zpow_pos (by norm_num) k
    have hsplit : (m : ℚ) * 2 ^ e = ((m * 2 ^ n : Int) : ℚ) * 2 ^ k := by
      rw [show e = n + k by omega, zpow_add₀ (by norm_num), zpow_natCast]
      push_cast
      ring
    rw [hsplit, zpow_add₀ (by norm_num)] at hx
    have hless : ((m * 2 ^ n : Int) : ℚ) < 2 ^ (53 : Int) := lt_of_mul_lt_mul_right hx hscale.le
    have hlast : m * 2 ^ n ≤ 2 ^ 53 - 1 := by
      have hint : m * 2 ^ n < 2 ^ 53 := by exact_mod_cast hless
      omega
    rw [hsplit]
    exact mul_le_mul_of_nonneg_right (by exact_mod_cast hlast) hscale.le

end Float64

-- A number, by its value.
inductive F64 where
  | nan
  | infinity (negative : Bool)
  | finite (value : ℚ) (representable : Float64.Representable value)

namespace F64

def ofRat (x : ℚ) : F64 :=
  if h : |Float64.nearest x| < 2 ^ 1024 then
    .finite (Float64.nearest x) (Float64.nearest_representable h)
  else .infinity (x < 0)

def isFinite : F64 → Bool
  | finite _ _ => true
  | _ => false

def neg : F64 → F64
  | nan => nan
  | infinity negative => infinity !negative
  | finite x h => finite (-x) (by
      obtain ⟨hrange, m, e, hm, he, rfl⟩ := h
      exact ⟨by rwa [abs_neg], -m, e, by rwa [abs_neg], he, by push_cast; ring⟩)

def add : F64 → F64 → F64
  | nan, _ | _, nan => nan
  | infinity a, infinity b => if a = b then infinity a else nan
  | infinity a, finite _ _ | finite _ _, infinity a => infinity a
  | finite x _, finite y _ => ofRat (x + y)

def mul : F64 → F64 → F64
  | nan, _ | _, nan => nan
  | infinity a, infinity b => infinity (a ^^ b)
  | infinity a, finite x _ | finite x _, infinity a => if x = 0 then nan else infinity (a ^^ x < 0)
  | finite x _, finite y _ => ofRat (x * y)

instance : Neg F64 := ⟨neg⟩
instance : Add F64 := ⟨add⟩
instance : Sub F64 := ⟨fun x y => x + -y⟩
instance : Mul F64 := ⟨mul⟩

-- Nothing is below, above or equal to what is not a number.
def le : F64 → F64 → Bool
  | nan, _ | _, nan => false
  | infinity true, _ | _, infinity false => true
  | infinity false, _ | _, infinity true => false
  | finite x _, finite y _ => x ≤ y

def lt : F64 → F64 → Bool
  | nan, _ | _, nan => false
  | infinity false, _ | _, infinity true => false
  | infinity true, _ | _, infinity false => true
  | finite x _, finite y _ => x < y

instance : LE F64 := ⟨fun x y => le x y⟩
instance : LT F64 := ⟨fun x y => lt x y⟩

instance (x y : F64) : Decidable (x ≤ y) := inferInstanceAs (Decidable (le x y = true))
instance (x y : F64) : Decidable (x < y) := inferInstanceAs (Decidable (lt x y = true))

-- The smaller and the larger of two numbers pass over what is not a number.
instance : Min F64 := ⟨fun
  | nan, y => y
  | x, nan => x
  | x, y => if y < x then y else x⟩

instance : Max F64 := ⟨fun
  | nan, y => y
  | x, nan => x
  | x, y => if x < y then y else x⟩

def clamp (x low high : F64) : F64 :=
  let x := if x < low then low else x
  if high < x then high else x

section Order

variable {x y : F64} {p q : ℚ} {hp : Float64.Representable p} {hq : Float64.Representable q}

@[simp] theorem finite_le : finite p hp ≤ finite q hq ↔ p ≤ q := decide_eq_true_iff

@[simp] theorem finite_lt : finite p hp < finite q hq ↔ p < q := decide_eq_true_iff

@[simp] theorem not_nan_le : ¬ nan ≤ x := by
  cases x <;> exact Bool.false_ne_true

@[simp] theorem not_le_nan : ¬ x ≤ nan := by
  cases x with
  | nan => exact Bool.false_ne_true
  | infinity negative => cases negative <;> exact Bool.false_ne_true
  | finite value h => exact Bool.false_ne_true

@[simp] theorem not_nan_lt : ¬ nan < x := by
  cases x <;> exact Bool.false_ne_true

theorem le_refl_of_le (h : x ≤ y) : y ≤ y := by
  cases y with
  | nan => exact absurd h not_le_nan
  | infinity negative => cases negative <;> rfl
  | finite value h => exact finite_le.mpr le_rfl

-- What lies between two finite numbers is finite.
theorem exists_of_between (hlow : finite p hp ≤ x) (hhigh : x ≤ finite q hq) :
    ∃ (value : ℚ) (h : Float64.Representable value), x = finite value h ∧ p ≤ value ∧ value ≤ q := by
  cases x with
  | nan => exact absurd hlow not_le_nan
  | infinity negative =>
      cases negative
      · exact absurd hhigh Bool.false_ne_true
      · exact absurd hlow Bool.false_ne_true
  | finite value h => exact ⟨value, h, rfl, finite_le.mp hlow, finite_le.mp hhigh⟩

end Order

section OfRat

variable {x : ℚ}

theorem ofRat_eq (h : Float64.Representable x) : ofRat x = finite x h := by
  have hrange : |Float64.nearest x| < 2 ^ 1024 := by
    rw [h.nearest_eq]
    exact h.1
  unfold ofRat
  rw [dif_pos hrange]
  simp only [h.nearest_eq]

theorem ofRat_of_lt (h : |Float64.nearest x| < 2 ^ 1024) :
    ofRat x = finite (Float64.nearest x) (Float64.nearest_representable h) := dif_pos h

theorem ofRat_of_ge (h : 2 ^ 1024 ≤ |Float64.nearest x|) (hx : 0 ≤ x) :
    ofRat x = infinity false := by
  unfold ofRat
  rw [dif_neg (not_lt.mpr h), decide_eq_false (not_lt.mpr hx)]

end OfRat

end F64
