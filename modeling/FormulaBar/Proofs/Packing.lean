import FormulaBar.Proofs.Rounding

/-! # Packing — stored numbers and their bits

    A finite number is 64 bits: a sign, an exponent field and a fraction.
    They are read as a zero or as a stored number, and packing takes them
    back.  So products and quotients of stored numbers can be computed on
    their values. -/

namespace FormulaBar

open Float.Model Float.Model.UnpackedFloat

/-! ## Bits -/

section

variable (v : BitVec 64)

theorem toNat_unpackMantissa :
    (@unpackMantissa .binary64 v).toNat = v.toNat % 2 ^ 52 := by
  simp [unpackMantissa]

/-- The exponent field is the 11 bits above the fraction. -/
theorem toNat_unpackExponent :
    (@unpackExponent .binary64 v).toNat = v.toNat / 2 ^ 52 % 2 ^ 11 := by
  simp [unpackExponent, Nat.shiftRight_eq_div_pow]

/-- The sign is the highest of the bits. -/
theorem toNat_unpackSign :
    (@unpackSign .binary64 v).toNat = v.toNat / 2 ^ 63 % 2 := by
  simp [unpackSign, Nat.shiftRight_eq_div_pow]

end

/-- Packed, the three fields stand side by side. -/
theorem toNat_packComponents (s : Sign) (e : BitVec 11) (m : BitVec 52) :
    (packComponents .binary64 s e m).toNat
      = s.toBitVec.toNat * 2 ^ 63 + e.toNat * 2 ^ 52 + m.toNat := by
  have he := e.isLt
  have hm := m.isLt
  rw [packComponents, BitVec.toNat_append, BitVec.toNat_append,
    ← Nat.shiftLeft_add_eq_or_of_lt e.isLt, ← Nat.shiftLeft_add_eq_or_of_lt m.isLt,
    Nat.shiftLeft_eq, Nat.shiftLeft_eq]
  omega

theorem toNat_toBitVec_le (s : Sign) : s.toBitVec.toNat ≤ 1 := by
  cases s <;> decide

namespace Binary.Stored

variable {b : Binary}

/-- The bits of a stored number: the leading bit of a significand with all of
    its bits counts for the exponent. -/
theorem toNat_pack (h : b.Stored) (s : Sign) :
    (pack .binary64 (h.number s)).toNat =
      s.toBitVec.toNat * 2 ^ 63 + ((b.exponent + 1074).toNat * 2 ^ 52 + b.significand) := by
  have hbits := h.bits
  have hlow := h.low
  have hhigh := h.high
  have hbiased : (b.exponent + 1023 + 52).toNat = (b.exponent + 1074).toNat + 1 := by omega
  have hroom : ¬ 2 ^ 11 ≤ (b.exponent + 1074).toNat + 1 + 1 := by omega
  show (if 2 ^ 11 ≤ (b.exponent + 1023 + 52).toNat + 1 then packedInfinity .binary64 s
    else if b.significand.log2 + 1 = 53 then
      packComponents .binary64 s (.ofNat 11 (b.exponent + 1023 + 52).toNat)
        (.ofNat 52 b.significand)
    else packComponents .binary64 s 0#11 (.ofNat 52 b.significand)).toNat = _
  rw [hbiased, if_neg hroom]
  split
  · next hlog =>
    -- all bits: the leading one is left out and raises the exponent field
    have hfull : 2 ^ 52 ≤ b.significand :=
      (Nat.le_log2 (Nat.ne_of_gt h.pos)).mp (by omega)
    rw [toNat_packComponents, BitVec.toNat_ofNat, BitVec.toNat_ofNat]
    omega
  · next hlog =>
    -- fewer bits: the exponent is the least one, and its field is zero
    have hleast : b.exponent = -1074 := h.log2_eq.resolve_left (by omega)
    have hlog2 : b.significand.log2 < 52 := by
      have hlt := h.log2_lt
      omega
    have hsmall := (Nat.log2_lt (Nat.ne_of_gt h.pos)).mp hlog2
    rw [toNat_packComponents, BitVec.toNat_ofNat, BitVec.toNat_ofNat, hleast]
    omega

end Binary.Stored

/-! ## Floating-point numbers -/

/-- The sign of a number. -/
def signOf (x : Float) : Sign :=
  if NumberFormat.isNegative x then .negative else .positive

/-- The sign of a number is its highest bit. -/
theorem toNat_signOf (x : Float) : (signOf x).toBitVec.toNat = x.toBits.toNat / 2 ^ 63 := by
  have hlt : x.toBits.toNat < 2 ^ 64 := x.toBits.toBitVec.isLt
  rw [signOf]
  split
  · next h =>
    have hle : 2 ^ 63 ≤ x.toBits.toNat := of_decide_eq_true h
    show 1 = _
    omega
  · next h =>
    have hle : ¬ 2 ^ 63 ≤ x.toBits.toNat := fun hle => h (decide_eq_true hle)
    show 0 = _
    omega

/-- Numbers with the same bits are the same. -/
theorem eq_of_toBits_eq {x y : Float} (h : x.toBits = y.toBits) : x = y := by
  obtain ⟨⟨v, hv⟩⟩ := x
  obtain ⟨⟨w, hw⟩⟩ := y
  have hvw : v = w := h
  subst hvw
  rfl

/-- A number is read off its fields: without the leading bit where the
    exponent field is zero. -/
theorem Binary.ofFloat_eq (x : Float) :
    ofFloat x = if x.toBits.toNat / 2 ^ 52 % 2 ^ 11 = 0 then ⟨x.toBits.toNat % 2 ^ 52, -1074⟩
      else ⟨2 ^ 52 + x.toBits.toNat % 2 ^ 52,
        ((x.toBits.toNat / 2 ^ 52 % 2 ^ 11 : Nat) : Int) - 1075⟩ := rfl

/-- Without a leading bit the exponent is the least. -/
theorem Binary.stored_of_fraction {fraction : Nat} (hpos : 0 < fraction)
    (h : fraction < 2 ^ 52) : Stored ⟨fraction, -1074⟩ :=
  ⟨hpos, by show fraction < 2 ^ 53; omega, Int.le_refl _,
    by show (-1074 : Int) ≤ 971; decide, Or.inr rfl⟩

/-- Every exponent field between the extremes is that of a stored number. -/
theorem Binary.stored_of_biased {fraction biased : Nat} (h : fraction < 2 ^ 52)
    (hlow : 0 < biased) (hhigh : biased < 2047) :
    Stored ⟨2 ^ 52 + fraction, (biased : Int) - 1075⟩ := by
  refine ⟨?_, ?_, ?_, ?_, Or.inl (Nat.le_add_right _ _)⟩
  · exact Nat.add_pos_left (by decide) fraction
  · show 2 ^ 52 + fraction < 2 ^ 53
    omega
  · show -1074 ≤ (biased : Int) - 1075
    omega
  · show (biased : Int) - 1075 ≤ 971
    omega

theorem Binary.Stored.number_eq {b : Binary} {s : Sign} {m : Nat} {e : Int} (hm : 0 < m)
    (h : b.Stored) (hb : b = ⟨m, e⟩) : .finite s m e hm = h.number s := by
  subst hb
  rfl

theorem Binary.Stored.number_congr {b c : Binary} (h : b.Stored) (s : Sign) (hc : c.Stored)
    (heq : c = b) : hc.number s = h.number s := by
  subst heq
  rfl

/-- The number with these parts. -/
def Binary.Stored.toFloat {b : Binary} (h : b.Stored) (s : Sign) : Float :=
  .ofModel (.pack (h.number s))

/-- What a finite number is, read off its bits. -/
inductive Reads (x : Float) : Prop where
  | zero (bits : x.toBits.toNat % 2 ^ 63 = 0) (unpack : x.toModel.unpack = .zero (signOf x))
  | number (h : (Binary.ofFloat x).Stored) (unpack : x.toModel.unpack = h.number (signOf x))

/-- The sign read off the bits is the sign of the number. -/
theorem ofBitVec_unpackSign (x : Float) :
    Sign.ofBitVec (@unpackSign .binary64 x.toBits.toBitVec) = signOf x := by
  have hbit := toNat_unpackSign x.toBits.toBitVec
  have hsign := toNat_signOf x
  have hlt : x.toBits.toNat < 2 ^ 64 := x.toBits.toBitVec.isLt
  have hle : x.toBits.toNat / 2 ^ 63 < 2 := by omega
  have hsame : (@unpackSign .binary64 x.toBits.toBitVec) = (signOf x).toBitVec := by
    refine BitVec.eq_of_toNat_eq ?_
    rw [hbit, hsign]
    exact Nat.mod_eq_of_lt hle
  rw [hsame]
  cases signOf x <;> rfl

/-- What is unpacked, by the exponent field and the fraction. -/
theorem unpack_eq (x : Float) :
    (x.toBits.toNat / 2 ^ 52 % 2 ^ 11 = 2047 → x.toModel.unpack.isFinite = false) ∧
      (x.toBits.toNat / 2 ^ 52 % 2 ^ 11 ≠ 2047 → Reads x) := by
  have hlt : x.toBits.toNat < 2 ^ 64 := x.toBits.toBitVec.isLt
  have hmantissa := toNat_unpackMantissa x.toBits.toBitVec
  have hexponent := toNat_unpackExponent x.toBits.toBitVec
  have hunpack : x.toModel.unpack = unpack .binary64 x.toBits.toBitVec := rfl
  have hnumber : (1#1 ++ @unpackMantissa .binary64 x.toBits.toBitVec).toNat
      = 2 ^ 52 + x.toBits.toNat % 2 ^ 52 := by
    rw [BitVec.toNat_append, ← Nat.shiftLeft_add_eq_or_of_lt (BitVec.isLt _), hmantissa]
    rfl
  rw [UnpackedFloat.unpack] at hunpack
  simp only [ofBitVec_unpackSign, ← BitVec.toNat_inj, hexponent, hmantissa, hnumber] at hunpack
  constructor
  · intro hbiased
    rw [hunpack.trans (if_pos hbiased)]
    split <;> rfl
  intro hbiased
  replace hunpack := hunpack.trans (if_neg hbiased)
  split at hunpack
  · next hzero =>
    -- a zero, or a number without the leading bit
    have hzero : x.toBits.toNat / 2 ^ 52 % 2 ^ 11 = 0 := hzero
    split at hunpack
    · next hfraction =>
      have hfraction : x.toBits.toNat % 2 ^ 52 = 0 := hfraction
      exact .zero (by omega) hunpack
    · next hfraction =>
      have hfraction : ¬ x.toBits.toNat % 2 ^ 52 = 0 := hfraction
      have hb := (Binary.ofFloat_eq x).trans (if_pos hzero)
      have hstored : (Binary.ofFloat x).Stored := by
        rw [hb]
        exact Binary.stored_of_fraction (Nat.pos_of_ne_zero hfraction)
          (Nat.mod_lt _ (by decide))
      refine .number hstored (hunpack.trans (hstored.number_eq _ ?_))
      rw [hb, Binary.mk.injEq]
      refine ⟨rfl, ?_⟩
      show -1074 = ((x.toBits.toNat / 2 ^ 52 % 2 ^ 11 : Nat) : Int) - (1023 + 52) + 1
      omega
  · next hzero =>
    -- a number with the leading bit put back
    have hzero : ¬ x.toBits.toNat / 2 ^ 52 % 2 ^ 11 = 0 := hzero
    have hb := (Binary.ofFloat_eq x).trans (if_neg hzero)
    have hstored : (Binary.ofFloat x).Stored := by
      rw [hb]
      exact Binary.stored_of_biased (Nat.mod_lt _ (by decide)) (by omega) (by omega)
    refine .number hstored (hunpack.trans (hstored.number_eq _ ?_))
    rw [hb, Binary.mk.injEq]
    refine ⟨rfl, ?_⟩
    show _ = ((x.toBits.toNat / 2 ^ 52 % 2 ^ 11 : Nat) : Int) - (1023 + 52)
    omega

/-- **FINITE NUMBERS READ THEIR BITS**: a finite number is a zero, or the
    stored number that its bits are. -/
theorem reads_of_isFinite {x : Float} (h : x.isFinite = true) : Reads x := by
  refine (unpack_eq x).2 fun hbiased => ?_
  exact Bool.false_ne_true (((unpack_eq x).1 hbiased).symm.trans h)

/-- A finite number is packed into its own bits. -/
theorem pack_unpack {x : Float} (h : Reads x) : Float.ofModel (.pack x.toModel.unpack) = x := by
  refine eq_of_toBits_eq (UInt64.toNat_inj.mp ?_)
  have hsign := toNat_signOf x
  have hlt : x.toBits.toNat < 2 ^ 64 := x.toBits.toBitVec.isLt
  show (pack .binary64 x.toModel.unpack).toNat = x.toBits.toNat
  cases h with
  | zero bits hunpack =>
      rw [hunpack]
      show (packComponents .binary64 (signOf x) 0#11 0#52).toNat = _
      rw [toNat_packComponents, hsign, BitVec.toNat_ofNat, BitVec.toNat_ofNat]
      omega
  | number h hunpack =>
      rw [hunpack, h.toNat_pack, hsign, Binary.ofFloat_eq]
      split
      · have hleast : ((-1074 : Int) + 1074).toNat = 0 := rfl
        simp only [hleast]
        omega
      · dsimp only
        omega

namespace Binary.Stored

variable {b : Binary}

/-- The bits of a stored number: its sign, and its exponent and significand
    added up. -/
theorem toNat_toBits (h : b.Stored) (s : Sign) : (h.toFloat s).toBits.toNat =
    s.toBitVec.toNat * 2 ^ 63 + ((b.exponent + 1074).toNat * 2 ^ 52 + b.significand) :=
  h.toNat_pack s

/-- A stored number keeps its sign. -/
theorem signOf_toFloat (h : b.Stored) (s : Sign) : signOf (h.toFloat s) = s := by
  have hbits := h.bits
  have hlow := h.low
  have hhigh := h.high
  have hsign := h.toNat_toBits s
  rw [signOf, NumberFormat.isNegative, hsign]
  cases s with
  | negative => exact if_pos (decide_eq_true (Nat.le_add_right _ _))
  | positive =>
      refine if_neg (fun hle => ?_)
      have hle : 2 ^ 63 ≤ 0 * 2 ^ 63 + ((b.exponent + 1074).toNat * 2 ^ 52 + b.significand) :=
        of_decide_eq_true hle
      omega

/-- The bits of a stored number read as that number. -/
theorem ofFloat_toFloat (h : b.Stored) (s : Sign) : ofFloat (h.toFloat s) = b := by
  have hbits := h.bits
  have hlow := h.low
  have hhigh := h.high
  have hpos := h.pos
  have hle := toNat_toBitVec_le s
  rw [ofFloat_eq, h.toNat_toBits]
  obtain ⟨m, e⟩ := b
  simp only at hbits hlow hhigh hpos ⊢
  rcases h.full with hfull | hleast
  · have hfull : 2 ^ 52 ≤ m := hfull
    rw [if_neg (by omega), Binary.mk.injEq]
    omega
  · have hleast : e = -1074 := hleast
    subst hleast
    split
    · rw [Binary.mk.injEq]
      omega
    · rw [Binary.mk.injEq]
      omega

/-- A packed number is unpacked as it was. -/
theorem unpack_toFloat (h : b.Stored) (s : Sign) :
    (h.toFloat s).toModel.unpack = h.number s := by
  have hbits := h.bits
  have hlow := h.low
  have hhigh := h.high
  have hpos := h.pos
  have hle := toNat_toBitVec_le s
  have hn := h.toNat_toBits s
  have hreads : Reads (h.toFloat s) := (unpack_eq _).2 (by rw [hn]; omega)
  cases hreads with
  | zero bits _ =>
      rw [hn] at bits
      exact absurd bits (by omega)
  | number hstored hunpack =>
      rw [hunpack, h.signOf_toFloat]
      exact h.number_congr s hstored (h.ofFloat_toFloat s)

/-! ## Arithmetic on stored numbers -/

/-- The product of two stored numbers is stored where its value is. -/
theorem mul_toFloat {c d : Binary} (h : b.Stored) (hc : c.Stored) (hd : d.Stored)
    (hv : c.value * d.value = b.value) (hbits : 2 ^ 53 ≤ c.significand * d.significand) :
    hc.toFloat .positive * hd.toFloat .positive = h.toFloat .positive := by
  show Float.ofModel (.pack (mul .binary64 (hc.toFloat .positive).toModel.unpack
    (hd.toFloat .positive).toModel.unpack)) = _
  rw [hc.unpack_toFloat, hd.unpack_toFloat]
  exact congrArg (fun u => Float.ofModel (.pack u)) (h.mul_eq hc.pos hd.pos hv hbits)

/-- The quotient of two stored numbers is stored where its value is. -/
theorem div_toFloat {c d : Binary} (h : b.Stored) (hc : c.Stored) (hd : d.Stored)
    (hv : c.value = b.value * d.value) :
    hc.toFloat .positive / hd.toFloat .positive = h.toFloat .positive := by
  show Float.ofModel (.pack (div .binary64 (hc.toFloat .positive).toModel.unpack
    (hd.toFloat .positive).toModel.unpack)) = _
  rw [hc.unpack_toFloat, hd.unpack_toFloat]
  exact congrArg (fun u => Float.ofModel (.pack u)) (h.div_eq hc.pos hd.pos hv)

end Binary.Stored

end FormulaBar
