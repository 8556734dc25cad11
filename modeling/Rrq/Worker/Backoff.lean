import Rrq.Worker.Execute

-- How the delay of a retry grows with the number of attempts.

namespace Rrq

-- What is left of an attempt that is cast to 32 bits.
def lowBits (attempt : Int) : Int := (if attempt ≤ 0 then 1 else attempt) % 2 ^ 32

-- The low bits do not fall, at least while the delay is below its limit. The first two attempts
-- and all from the thirty-first on count as equal.
def LowBitsGrow (settings : RRQSettings) (a b : Int) : Prop :=
  settings.baseRetryDelaySeconds = 0 ∨
    settings.maxRetryDelaySeconds ≤
      settings.baseRetryDelaySeconds * 2 ^ (min (lowBits b - 1) 30).toNat ∨
    min (lowBits a) 31 ≤ max (lowBits b) 1

-- A later attempt waits no less than an earlier one, and both wait between the first delay and
-- the limit.
structure BackoffOrdered (settings : RRQSettings) (a b : Int) : Prop where
  monotone : calculateBackoffSeconds settings a ≤ calculateBackoffSeconds settings b
  bounded : ∀ attempt ∈ [a, b],
    min settings.baseRetryDelaySeconds settings.maxRetryDelaySeconds ≤
        calculateBackoffSeconds settings attempt ∧
      calculateBackoffSeconds settings attempt ≤ settings.maxRetryDelaySeconds

def backoffExponent (attempt : Int) : Nat := min (lowBits attempt - 1).toNat 30

section Backoff

variable {settings : RRQSettings} {a b : Int}

theorem calculateBackoffSeconds_eq (settings : RRQSettings) (attempt : Int) :
    calculateBackoffSeconds settings attempt =
      min (settings.baseRetryDelaySeconds * 2 ^ backoffExponent attempt)
        settings.maxRetryDelaySeconds := rfl

theorem backoffExponent_le_iff :
    backoffExponent a ≤ backoffExponent b ↔ min (lowBits a) 31 ≤ max (lowBits b) 1 := by
  unfold backoffExponent
  omega

theorem lowBits_of_lt (hpos : 0 < a) (hlt : a < 2 ^ 32) : lowBits a = a := by
  rw [lowBits, if_neg (by omega), Int.emod_eq_of_lt hpos.le hlt]

theorem lowBits_of_nonpos (h : a ≤ 0) : lowBits a = 1 := by
  rw [lowBits, if_pos h]
  rfl

-- A base that is not negative grows with its exponent, and strictly so unless it is zero.
theorem delay_le_iff {base limit : ℚ} {m n : Nat} (hbase : 0 ≤ base) :
    min (base * 2 ^ m) limit ≤ min (base * 2 ^ n) limit ↔
      base = 0 ∨ limit ≤ base * 2 ^ n ∨ m ≤ n := by
  rcases hbase.eq_or_lt with rfl | hpos
  · simp
  constructor
  · intro h
    by_contra hnot
    obtain ⟨-, hlimit, hlt⟩ := not_or.mp hnot |>.imp_right not_or.mp
    have hgrows : base * 2 ^ n < base * 2 ^ m := by
      apply mul_lt_mul_of_pos_left _ hpos
      exact pow_lt_pow_right₀ one_lt_two (Nat.lt_of_not_le hlt)
    have hearlier : base * 2 ^ n < min (base * 2 ^ m) limit :=
      lt_min hgrows (lt_of_not_ge hlimit)
    exact absurd (h.trans (min_le_left _ _)) (not_le_of_gt hearlier)
  · rintro (rfl | hlimit | hle)
    · exact absurd rfl hpos.ne
    · rw [min_eq_right hlimit]
      exact min_le_right _ _
    · have hgrows : base * 2 ^ m ≤ base * 2 ^ n :=
        mul_le_mul_of_nonneg_left (pow_le_pow_right₀ one_le_two hle) hbase
      exact min_le_min_right limit hgrows

theorem backoff_bounded (hbase : 0 ≤ settings.baseRetryDelaySeconds) (attempt : Int) :
    min settings.baseRetryDelaySeconds settings.maxRetryDelaySeconds ≤
        calculateBackoffSeconds settings attempt ∧
      calculateBackoffSeconds settings attempt ≤ settings.maxRetryDelaySeconds := by
  rw [calculateBackoffSeconds_eq]
  refine ⟨min_le_min_right _ ?_, min_le_right _ _⟩
  exact le_mul_of_one_le_right hbase (one_le_pow₀ one_le_two)

-- Attempts that 32 bits hold are told apart.
theorem lowBitsGrow_of_lt (hab : a ≤ b) (hb : b < 2 ^ 32) : LowBitsGrow settings a b := by
  refine .inr (.inr ?_)
  rcases le_or_gt b 0 with hb0 | hb0
  · rw [lowBits_of_nonpos hb0, lowBits_of_nonpos (hab.trans hb0)]
    decide
  · rw [lowBits_of_lt hb0 hb]
    rcases le_or_gt a 0 with ha0 | ha0
    · rw [lowBits_of_nonpos ha0]
      omega
    · rw [lowBits_of_lt ha0 (hab.trans_lt hb)]
      omega

theorem calculateBackoffSeconds_le_iff (hbase : 0 ≤ settings.baseRetryDelaySeconds) :
    calculateBackoffSeconds settings a ≤ calculateBackoffSeconds settings b ↔
      LowBitsGrow settings a b := by
  have hexponent : (min (lowBits b - 1) 30).toNat = backoffExponent b := by
    unfold backoffExponent
    omega
  rw [calculateBackoffSeconds_eq, calculateBackoffSeconds_eq, delay_le_iff hbase,
    backoffExponent_le_iff, LowBitsGrow, hexponent]

end Backoff

theorem backoffOrdered_iff {settings : RRQSettings} {a b : Int}
    (hbase : 0 ≤ settings.baseRetryDelaySeconds) :
    BackoffOrdered settings a b ↔ LowBitsGrow settings a b := by
  constructor
  · exact fun h => (calculateBackoffSeconds_le_iff hbase).mp h.monotone
  · intro h
    exact ⟨(calculateBackoffSeconds_le_iff hbase).mpr h, fun attempt _ =>
      backoff_bounded hbase attempt⟩

theorem backoffOrdered_iff_early : BackoffOrdered {} 2 3 :=
  (backoffOrdered_iff (by norm_num)).mpr (lowBitsGrow_of_lt (by decide) (by decide))

-- The cast takes the attempt after the last that 32 bits hold for one that has just begun.
theorem backoff_falls : ¬ ∀ (settings : RRQSettings) (a b : Int),
    0 ≤ settings.baseRetryDelaySeconds → 0 ≤ settings.maxRetryDelaySeconds → InI64 a → InI64 b →
      a ≤ b → BackoffOrdered settings a b := by
  intro h
  have hbase : (0 : ℚ) ≤ ({} : RRQSettings).baseRetryDelaySeconds := by norm_num
  have hordered := h {} (2 ^ 32 - 1) (2 ^ 32) hbase (by norm_num) (by decide) (by decide)
    (by decide)
  rcases (calculateBackoffSeconds_le_iff hbase).mp hordered.monotone with hzero | hlimit | hgrow
  · norm_num at hzero
  · have hexponent : (min (lowBits (2 ^ 32) - 1) 30).toNat = 0 := by decide
    rw [hexponent] at hlimit
    norm_num at hlimit
  · revert hgrow
    decide

end Rrq
