import FormulaBar.Proofs.Literal

/-! # Nonfinite — NaN and the infinities

    The exponent field of a number that is not finite has all of its bits
    set, and the fraction tells NaN from the infinities.  NaN has one bit
    pattern here, so there are three such numbers and no more.

    What is read off digits is never NaN.  Rounding gives zero, a finite
    number or infinity, packing makes none of them NaN, for only NaN has an
    exponent field of ones and a fraction, and a sign changes nothing of
    that. -/

namespace FormulaBar

open Float.Model Float.Model.UnpackedFloat

/-! ## The three numbers -/

/-- What is a zero or a stored number is finite. -/
theorem Reads.isFinite {x : Float} (h : Reads x) : x.isFinite = true := by
  show x.toModel.unpack.isFinite = true
  cases h with
  | zero _ hunpack =>
      rw [hunpack]
      rfl
  | number hb hunpack =>
      rw [hunpack]
      rfl

/-- A number that is not finite has all bits of its exponent field set. -/
theorem biased_of_not_isFinite {x : Float} (h : x.isFinite = false) :
    x.toBits.toNat / 2 ^ 52 % 2 ^ 11 = 2047 := by
  refine Classical.byContradiction fun hne => ?_
  exact Bool.false_ne_true (h.symm.trans ((unpack_eq x).2 hne).isFinite)

/-- Without a fraction the sign is all that is left. -/
theorem eq_infinity_of_bits {x : Float} (hbiased : x.toBits.toNat / 2 ^ 52 % 2 ^ 11 = 2047)
    (hfraction : x.toBits.toNat % 2 ^ 52 = 0) : x = infinity ∨ x = -infinity := by
  have hlt : x.toBits.toNat < 2 ^ 64 := x.toBits.toBitVec.isLt
  have hpositive : infinity.toBits.toNat = 2047 * 2 ^ 52 := by decide +kernel
  have hnegative : (-infinity).toBits.toNat = 2 ^ 63 + 2047 * 2 ^ 52 := by decide +kernel
  by_cases hsign : x.toBits.toNat < 2 ^ 63
  · refine Or.inl (eq_of_toBits_eq (UInt64.toNat_inj.mp ?_))
    omega
  · refine Or.inr (eq_of_toBits_eq (UInt64.toNat_inj.mp ?_))
    omega

/-- With a fraction there is one number only. -/
theorem eq_notANumber_of_bits {x : Float} (hbiased : x.toBits.toNat / 2 ^ 52 % 2 ^ 11 = 2047)
    (hfraction : x.toBits.toNat % 2 ^ 52 ≠ 0) : x = notANumber := by
  have hmantissa := toNat_unpackMantissa x.toBits.toBitVec
  have hall : @unpackExponent .binary64 x.toBits.toBitVec = -1#11 :=
    BitVec.eq_of_toNat_eq ((toNat_unpackExponent x.toBits.toBitVec).trans hbiased)
  have hsome : @unpackMantissa .binary64 x.toBits.toBitVec ≠ 0#52 := by
    intro hzero
    rw [hzero] at hmantissa
    exact hfraction hmantissa.symm
  have hbits : x.toBits.toBitVec = packedNaN .binary64 :=
    x.toModel.valid.eq_packedNaN hall hsome
  have hnan : notANumber.toBits.toBitVec = packedNaN .binary64 := by decide +kernel
  exact eq_of_toBits_eq (UInt64.toBitVec_inj.mp (hbits.trans hnan.symm))

/-- **THREE NUMBERS ARE NOT FINITE**: NaN and the two infinities. -/
theorem eq_of_not_isFinite {x : Float} (h : x.isFinite = false) :
    x = notANumber ∨ x = infinity ∨ x = -infinity := by
  have hbiased := biased_of_not_isFinite h
  by_cases hfraction : x.toBits.toNat % 2 ^ 52 = 0
  · exact Or.inr (eq_infinity_of_bits hbiased hfraction)
  · exact Or.inl (eq_notANumber_of_bits hbiased hfraction)

/-- NaN is not finite. -/
theorem isFinite_of_isNaN {u : UnpackedFloat} (h : u.isNaN = true) : u.isFinite = false := by
  cases u with
  | notANumber => rfl
  | infinity s => rfl
  | zero s => cases h
  | finite s m e hm => cases h

theorem isNaN_notANumber : notANumber.isNaN = true := by decide +kernel

theorem isNaN_infinity : infinity.isNaN = false := by decide +kernel

/-! ## What is packed -/

/-- The bits of NaN have all ones for their exponent, and a fraction. -/
theorem toNat_packComponents_ne (s : Sign) {e : BitVec 11} {m : BitVec 52}
    (h : e.toNat = 2047 → m.toNat = 0) :
    (packComponents .binary64 s e m).toNat ≠ notANumber.toBits.toNat := by
  have hvalue : notANumber.toBits.toNat = 2047 * 2 ^ 52 + 2 ^ 51 := by decide +kernel
  have he := e.isLt
  have hm := m.isLt
  have hs := toNat_toBitVec_le s
  rw [toNat_packComponents, hvalue]
  omega

/-- What is packed is NaN only where it was. -/
theorem isNaN_pack {u : UnpackedFloat} (h : u.isNaN = false) :
    (Float.ofModel (.pack u)).isNaN = false := by
  refine Bool.eq_false_iff.mpr fun hnan => ?_
  have hinfinity : ∀ s, (packedInfinity .binary64 s).toNat ≠ notANumber.toBits.toNat :=
    fun s => toNat_packComponents_ne s fun _ => rfl
  have hbits : (pack .binary64 u).toNat = notANumber.toBits.toNat := by
    rcases eq_of_not_isFinite (isFinite_of_isNaN hnan) with hsame | hsame | hsame
    · exact congrArg (fun x : Float => x.toBits.toNat) hsame
    · rw [hsame, isNaN_infinity] at hnan
      cases hnan
    · rw [hsame] at hnan
      exact absurd hnan (by decide +kernel)
  cases u with
  | notANumber => cases h
  | infinity s => exact hinfinity s hbits
  | zero s => exact toNat_packComponents_ne s (fun _ => rfl) hbits
  | finite s m e hm =>
      rw [UnpackedFloat.pack] at hbits
      simp only at hbits
      split at hbits
      · exact hinfinity s hbits
      · next hroom =>
        split at hbits
        · refine toNat_packComponents_ne s (fun hall => ?_) hbits
          rw [BitVec.toNat_ofNat] at hall
          have hroom : ¬ 2 ^ 11 ≤ (e + 1023 + 52).toNat + 1 := hroom
          have hall : (e + 1023 + 52).toNat % 2 ^ 11 = 2047 := hall
          omega
        · exact toNat_packComponents_ne s (fun hall => absurd hall (by decide)) hbits

/-- Only NaN has NaN as its opposite. -/
theorem isNaN_neg {x : Float} (h : x.isNaN = false) : (-x).isNaN = false := by
  have hunpacked : ∀ u : UnpackedFloat, u.neg.isNaN = u.isNaN := by
    intro u
    cases u with
    | notANumber => rfl
    | infinity s => rfl
    | zero s => rfl
    | finite s m e hm => rfl
  exact isNaN_pack ((hunpacked x.toModel.unpack).trans h)

/-! ## What is read -/

/-- What rounding gives is never NaN. -/
theorem Magnitude.isNaN_eq_false {u : UnpackedFloat} (h : Magnitude u) : u.isNaN = false := by
  cases h with
  | infinity => rfl
  | zero => rfl
  | finite => rfl

/-- What is read off digits is never NaN. -/
theorem Decimal.isNaN_toFloat (d : Decimal) : d.toFloat.isNaN = false := by
  obtain ⟨u, hu, heq⟩ := d.exists_magnitude
  rw [heq]
  exact isNaN_pack hu.isNaN_eq_false

/-- **DIGITS WRITE NUMBERS**: no numeral is read as NaN. -/
theorem Numeral.isNaN_toFloat (n : Numeral) : n.toFloat.isNaN = false := by
  rw [toFloat]
  split
  · exact isNaN_neg n.magnitude.isNaN_toFloat
  · exact n.magnitude.isNaN_toFloat

end FormulaBar
