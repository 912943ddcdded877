import FormulaBar.Decimal.Format
import Mathlib

/-! # Rounding — numbers that are binary numbers already

    A binary number has 53 bits, and every result is rounded to the nearest
    one.  A result that is equal to a stored number is rounded to that number:
    neither a shift, nor a product, nor a quotient has anything to round off.
    Values are rational numbers, so they can be compared across the bases ten
    and two. -/

namespace FormulaBar

open Float.Model Float.Model.UnpackedFloat

/-! ## Values -/

/-- The number that a decimal is. -/
def Decimal.value (d : Decimal) : ℚ := d.digits * 10 ^ d.exponent

/-- The number that a significand and an exponent are. -/
def Binary.value (b : Binary) : ℚ := b.significand * 2 ^ b.exponent

/-- Zeros at the end of the digits count as powers of ten. -/
theorem Decimal.value_shift (n k : Nat) (e : Int) :
    Decimal.value ⟨n * 10 ^ k, e⟩ = Decimal.value ⟨n, e + k⟩ := by
  rw [value, value, zpow_add₀ (by decide), zpow_natCast]
  push_cast
  ring

/-- A zero at the end of the digits is reduced to the exponent. -/
theorem Decimal.reduce_ten_mul (n : Nat) (e : Int) :
    Decimal.reduce ⟨n * 10, e⟩ = Decimal.reduce ⟨n, e + 1⟩ := by
  by_cases hn : n = 0
  · subst hn
    rw [Nat.zero_mul, reduce, if_pos rfl, reduce, if_pos rfl]
  · rw [reduce, if_neg (Nat.mul_ne_zero hn (by decide)), if_pos (Nat.mul_mod_left n 10),
      Nat.mul_div_cancel n (by decide)]

/-- Shifted spellings have one reduced form. -/
theorem Decimal.reduce_shift (n k : Nat) (e : Int) :
    Decimal.reduce ⟨n * 10 ^ k, e⟩ = Decimal.reduce ⟨n, e + k⟩ := by
  induction k generalizing e with
  | zero => rw [Nat.pow_zero, Nat.mul_one, Int.natCast_zero, Int.add_zero]
  | succ k ih =>
      rw [Nat.pow_succ, ← Nat.mul_assoc, reduce_ten_mul, ih]
      congr 2
      push_cast
      ring

/-- A reduced form has no further zeros at its end. -/
theorem Decimal.reduce_reduce (d : Decimal) : d.reduce.reduce = d.reduce := by
  fun_induction reduce d with
  | case1 d _ => rw [reduce, if_pos rfl]
  | case2 d _ _ ih => exact ih
  | case3 d hzero hten => rw [reduce, if_neg hzero, if_neg hten]

/-- A decimal is rounded like its reduced form. -/
theorem Decimal.toFloat_reduce (d : Decimal) : d.reduce.toFloat = d.toFloat := by
  rw [toFloat, reduce_reduce]
  rfl

/-- A decimal has the value of its reduced form. -/
theorem Decimal.value_reduce (d : Decimal) : d.reduce.value = d.value := by
  fun_induction reduce d with
  | case1 d hzero => rw [value, value, hzero, Nat.cast_zero, zero_mul, zero_mul]
  | case2 d _ hten ih =>
      have hdigits : d.digits / 10 * 10 ^ 1 = d.digits :=
        Nat.div_mul_cancel (Nat.dvd_of_mod_eq_zero hten)
      have hshift := value_shift (d.digits / 10) 1 d.exponent
      rw [hdigits] at hshift
      rw [ih]
      exact hshift.symm
  | case3 d _ _ => rfl

/-- The exact decimal of a binary number has its value. -/
theorem Binary.value_exact (b : Binary) : b.exact.value = b.value := by
  rw [exact, Binary.value]
  split
  · next h =>
    obtain ⟨k, hk⟩ := Int.eq_ofNat_of_zero_le h
    rw [Decimal.value, hk]
    simp
  · next h =>
    obtain ⟨k, hk⟩ : ∃ k : Nat, b.exponent = -(k : Int) := ⟨(-b.exponent).toNat, by omega⟩
    have hten : (10 : ℚ) ^ k = 5 ^ k * 2 ^ k := by rw [← mul_pow]; norm_num
    rw [Decimal.value, hk]
    simp only [Int.neg_neg, Int.toNat_natCast, zpow_neg, zpow_natCast, Nat.pow_eq, hten]
    push_cast
    field_simp

/-! ## Stored numbers -/

/-- A significand and an exponent as a finite number stores them: there are 53
    bits, or fewer with the least exponent. -/
structure Binary.Stored (b : Binary) : Prop where
  pos : 0 < b.significand
  bits : b.significand < 2 ^ 53
  low : -1074 ≤ b.exponent
  high : b.exponent ≤ 971
  full : 2 ^ 52 ≤ b.significand ∨ b.exponent = -1074

namespace Binary.Stored

variable {b : Binary}

/-- The number with a sign. -/
def number (h : b.Stored) (s : Sign) : UnpackedFloat :=
  .finite s b.significand b.exponent h.pos

/-- The significand of a stored number has 53 bits at most. -/
theorem log2_lt (h : b.Stored) : b.significand.log2 < 53 :=
  (Nat.log2_lt (Nat.ne_of_gt h.pos)).mpr h.bits

/-- It has all of them, or the exponent is the least. -/
theorem log2_eq (h : b.Stored) : b.significand.log2 = 52 ∨ b.exponent = -1074 := by
  rcases h.full with hfull | hleast
  · have hle := (Nat.le_log2 (Nat.ne_of_gt h.pos)).mpr hfull
    have hlt := h.log2_lt
    exact Or.inl (by omega)
  · exact Or.inr hleast

end Binary.Stored

/-- The exponent that a number takes whose leading bit is in front of `2 ^ k`. -/
theorem targetExponent_eq (k : Int) :
    Format.binary64.targetExponent k = max (k - 53) (-1074) := rfl

theorem log2_mul_two_pow {m : Nat} (hm : m ≠ 0) (k : Nat) :
    (m * 2 ^ k).log2 = m.log2 + k := by
  refine (Nat.log2_eq_iff (Nat.mul_ne_zero hm (by simp))).mpr ⟨?_, ?_⟩
  · rw [Nat.pow_add]
    exact Nat.mul_le_mul_right _ (Nat.log2_self_le hm)
  · rw [Nat.add_right_comm, Nat.pow_add]
    exact Nat.mul_lt_mul_of_pos_right Nat.lt_log2_self (Nat.two_pow_pos k)

/-- Shifting zeros out loses nothing. -/
theorem repeat_shiftRightOne (m k : Nat) :
    k.repeat ExtendedMantissa.shiftRightOne ⟨m * 2 ^ k, false, false⟩
      = ⟨m, false, false⟩ := by
  induction k generalizing m with
  | zero => rw [Nat.pow_zero, Nat.mul_one]; rfl
  | succ k ih =>
      have hsplit : m * 2 ^ (k + 1) = m * 2 * 2 ^ k := by
        rw [Nat.pow_succ, Nat.mul_assoc, Nat.mul_comm (2 ^ k)]
      rw [Nat.repeat, hsplit, ih]
      simp [ExtendedMantissa.shiftRightOne]

namespace Binary.Stored

variable {b : Binary}

/-- A stored number has the exponent that it takes. -/
theorem targetExponent (h : b.Stored) :
    Format.binary64.targetExponent (b.significand.log2 + 1 + b.exponent) = b.exponent := by
  have hlow := h.low
  have hlt := h.log2_lt
  rw [targetExponent_eq]
  rcases h.log2_eq with hfull | hleast <;> omega

/-- More bits than the number needs are shifted out, all of them zeros. -/
theorem shiftToTargetExponent_eq (h : b.Stored) (k : Nat) :
    shiftToTargetExponent .binary64 (b.significand * 2 ^ k) (b.exponent - k) .exact
      = (⟨b.significand, false, false⟩, b.exponent) := by
  have htotal : totalExponent (b.significand * 2 ^ k) (b.exponent - k)
      = b.significand.log2 + 1 + b.exponent := by
    rw [totalExponent, log2_mul_two_pow (Nat.ne_of_gt h.pos)]
    push_cast
    ring
  have hshift : (b.exponent - (b.exponent - k)).toNat = k := by omega
  rw [shiftToTargetExponent, htotal, h.targetExponent, shiftToExponent, hshift]
  refine Prod.ext (repeat_shiftRightOne b.significand k) ?_
  exact Int.sub_add_cancel b.exponent k

/-- **STORED NUMBERS ARE NOT ROUNDED**: any spelling of a stored number with
    further bits is rounded to that number. -/
theorem roundWithAccuracy_eq (h : b.Stored) (s : Sign) (k : Nat) :
    roundWithAccuracy .binary64 s (b.significand * 2 ^ k) (b.exponent - k) .exact
      = h.number s := by
  have hagain : shiftToTargetExponent .binary64 b.significand b.exponent .exact
      = (⟨b.significand, false, false⟩, b.exponent) := by
    have hzero := h.shiftToTargetExponent_eq 0
    rwa [Nat.pow_zero, Nat.mul_one, Int.natCast_zero, Int.sub_zero] at hzero
  have hrounded : ExtendedMantissa.roundedMantissa ⟨b.significand, false, false⟩
      = b.significand := rfl
  rw [roundWithAccuracy, h.shiftToTargetExponent_eq]
  simp only [hrounded, hagain]
  exact dif_neg (Nat.ne_of_gt h.pos)

end Binary.Stored

/-! ## Products and quotients -/

/-- Of two spellings of one number, the one with the smaller significand has
    the larger exponent. -/
theorem exponent_le_of_value {m n : Nat} {e f : Int} (hmn : n < m)
    (hv : (m : ℚ) * 2 ^ e = n * 2 ^ f) : e ≤ f := by
  refine Int.not_lt.mp fun hlt => ?_
  obtain ⟨k, hk⟩ : ∃ k : Nat, e = f + k := ⟨(e - f).toNat, by omega⟩
  rw [hk, zpow_add₀ (by decide), zpow_natCast] at hv
  have hpow : (2 : ℚ) ^ f ≠ 0 := zpow_ne_zero f (by decide)
  have hcast : ((m * 2 ^ k : Nat) : ℚ) = (n : Nat) := by
    refine mul_right_cancel₀ hpow ?_
    push_cast
    linarith
  have heq : m * 2 ^ k = n := by exact_mod_cast hcast
  have hle : m ≤ m * 2 ^ k := Nat.le_mul_of_pos_right m (Nat.two_pow_pos k)
  omega

/-- The leading bit bounds a number from both sides. -/
theorem two_zpow_log2_le {m : Nat} (hm : 0 < m) (e : Int) :
    (2 : ℚ) ^ (m.log2 + e) ≤ m * 2 ^ e ∧ (m : ℚ) * 2 ^ e < 2 ^ (m.log2 + 1 + e) := by
  have hpow : (0 : ℚ) < 2 ^ e := zpow_pos (by norm_num) e
  have hlow : (2 : ℚ) ^ m.log2 ≤ m := by
    exact_mod_cast Nat.log2_self_le (Nat.ne_of_gt hm)
  have hhigh : (m : ℚ) < 2 ^ (m.log2 + 1) := by
    exact_mod_cast Nat.lt_log2_self (n := m)
  constructor
  · rw [zpow_add₀ (by decide), zpow_natCast]
    exact mul_le_mul_of_nonneg_right hlow hpow.le
  · rw [zpow_add₀ (by decide)]
    exact mul_lt_mul_of_pos_right (by exact_mod_cast hhigh) hpow

namespace Binary.Stored

variable {b : Binary} {m₁ m₂ : Nat} {e₁ e₂ : Int}

/-- **STORED VALUES ARE NOT ROUNDED**: what has the value of a stored number
    is rounded to it. -/
theorem round_of_value (h : b.Stored) (s : Sign) {m : Nat} {e : Int}
    (hv : (m : ℚ) * 2 ^ e = b.value) (he : e ≤ b.exponent) :
    roundWithAccuracy .binary64 s m e .exact = h.number s := by
  obtain ⟨k, hk⟩ : ∃ k : Nat, e = b.exponent - k := ⟨(b.exponent - e).toNat, by omega⟩
  have hexp : b.exponent = k + e := by omega
  have hpow : (2 : ℚ) ^ e ≠ 0 := zpow_ne_zero e (by decide)
  have hcast : (m : ℚ) = (b.significand * 2 ^ k : Nat) := by
    refine mul_right_cancel₀ hpow ?_
    rw [hv, value, hexp, zpow_add₀ (by decide), zpow_natCast]
    push_cast
    ring
  have hm : m = b.significand * 2 ^ k := by exact_mod_cast hcast
  rw [hm, hk]
  exact h.roundWithAccuracy_eq s k

/-- A product that is a stored number is that number. -/
theorem mul_eq (h : b.Stored) (h₁ : 0 < m₁) (h₂ : 0 < m₂)
    (hv : (m₁ : ℚ) * 2 ^ e₁ * (m₂ * 2 ^ e₂) = b.value) (hbits : 2 ^ 53 ≤ m₁ * m₂) :
    mul .binary64 (.finite .positive m₁ e₁ h₁) (.finite .positive m₂ e₂ h₂)
      = h.number .positive := by
  have hprod : ((m₁ * m₂ : Nat) : ℚ) * 2 ^ (e₁ + e₂) = b.value := by
    rw [← hv, zpow_add₀ (by decide)]
    push_cast
    ring
  exact h.round_of_value .positive hprod
    (exponent_le_of_value (Nat.lt_of_lt_of_le h.bits hbits) hprod)

/-- The quotient is computed with an exponent that leaves no remainder. -/
theorem quotient_exponent_le (h : b.Stored) (h₁ : 0 < m₁) (h₂ : 0 < m₂)
    (hv : (m₁ : ℚ) * 2 ^ e₁ = b.value * (m₂ * 2 ^ e₂)) :
    Format.binary64.targetExponent (totalExponent m₁ e₁ - totalExponent m₂ e₂)
      ≤ b.exponent := by
  have hlow := (two_zpow_log2_le h₁ e₁).1
  have hhigh := mul_lt_mul'' (two_zpow_log2_le h.pos b.exponent).2
    (two_zpow_log2_le h₂ e₂).2 (by positivity) (by positivity)
  rw [hv, value] at hlow
  have hlt := hlow.trans_lt hhigh
  rw [← zpow_add₀ (by decide), zpow_lt_zpow_iff_right₀ (by norm_num)] at hlt
  have htarget := h.targetExponent
  rw [targetExponent_eq] at htarget ⊢
  unfold totalExponent
  omega

/-- A quotient that is a stored number is that number. -/
theorem div_eq (h : b.Stored) (h₁ : 0 < m₁) (h₂ : 0 < m₂)
    (hv : (m₁ : ℚ) * 2 ^ e₁ = b.value * (m₂ * 2 ^ e₂)) :
    div .binary64 (.finite .positive m₁ e₁ h₁) (.finite .positive m₂ e₂ h₂)
      = h.number .positive := by
  generalize htarget : min (e₁ - e₂)
    (Format.binary64.targetExponent (totalExponent m₁ e₁ - totalExponent m₂ e₂)) = t
  have ht : t ≤ b.exponent := by
    rw [← htarget]
    exact (min_le_right _ _).trans (h.quotient_exponent_le h₁ h₂ hv)
  have hmin : t ≤ e₁ - e₂ := htarget ▸ min_le_left _ _
  obtain ⟨j, hj⟩ : ∃ j : Nat, e₁ = t + j + e₂ := ⟨(e₁ - e₂ - t).toNat, by omega⟩
  obtain ⟨k, hk⟩ : ∃ k : Nat, b.exponent = t + k := ⟨(b.exponent - t).toNat, by omega⟩
  -- the shifted dividend is a multiple of the divisor
  have hmul : m₁ <<< j = b.significand * 2 ^ k * m₂ := by
    have hpow : (2 : ℚ) ^ t * 2 ^ e₂ ≠ 0 :=
      mul_ne_zero (zpow_ne_zero t (by decide)) (zpow_ne_zero e₂ (by decide))
    have hcast : ((m₁ * 2 ^ j : Nat) : ℚ) = (b.significand * 2 ^ k * m₂ : Nat) := by
      refine mul_right_cancel₀ hpow ?_
      rw [value, hj, hk, zpow_add₀ (by decide), zpow_add₀ (by decide),
        zpow_add₀ (by decide), zpow_natCast, zpow_natCast] at hv
      push_cast
      linarith
    rw [Nat.shiftLeft_eq]
    exact_mod_cast hcast
  have hshift : (e₁ - e₂ - t).toNat = j := by omega
  have hcore : divCore .binary64 m₁ e₁ m₂ e₂ = (b.significand * 2 ^ k, t, .exact) := by
    rw [divCore]
    simp only [htarget, hshift, hmul, Nat.mul_div_cancel _ h₂, Nat.mul_mod_left]
    rfl
  have hexp : b.exponent - k = t := by omega
  show (let (m, e, acc) := divCore .binary64 m₁ e₁ m₂ e₂
    roundWithAccuracy .binary64 .positive m e acc) = _
  rw [hcore, ← h.roundWithAccuracy_eq .positive k, hexp]

end Binary.Stored

end FormulaBar
