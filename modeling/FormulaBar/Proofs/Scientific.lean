import FormulaBar.Proofs.Packing

/-! # Scientific — decimals that are binary numbers already

    A decimal of few digits with a small exponent is read by one product or
    quotient with an entry of the table of powers of ten, any other one by a
    quotient of whole numbers.  Either way, a decimal that is equal to a
    stored number is read as that number. -/

namespace FormulaBar

open Float.Model Float.Model.UnpackedFloat

/-! ## Whole numbers and powers of ten -/

/-- A natural number of at most 53 bits is stored as it is. -/
theorem exists_stored_natCast {n : Nat} (hpos : 0 < n) (hlt : n < 2 ^ 53) :
    ∃ (c : Binary) (hc : c.Stored), c.value = n ∧ 2 ^ 52 ≤ c.significand ∧
      n.toUInt64.toFloat = hc.toFloat .positive := by
  have hlog : n.log2 < 53 := (Nat.log2_lt (Nat.ne_of_gt hpos)).mpr hlt
  obtain ⟨k, hk⟩ : ∃ k : Nat, n.log2 + k = 52 := ⟨52 - n.log2, by omega⟩
  have hlog' := log2_mul_two_pow (Nat.ne_of_gt hpos) k
  have hne : n * 2 ^ k ≠ 0 := Nat.mul_ne_zero (Nat.ne_of_gt hpos) (by simp)
  have hfull : 2 ^ 52 ≤ n * 2 ^ k := (Nat.le_log2 hne).mp (by omega)
  -- shifted up to the full number of bits, with the exponent to match
  have hstored : Binary.Stored ⟨n * 2 ^ k, -(k : Int)⟩ := by
    refine ⟨Nat.pos_of_ne_zero hne, (Nat.log2_lt hne).mp (by omega), ?_, ?_, Or.inl hfull⟩
    · show -1074 ≤ -(k : Int)
      omega
    · show -(k : Int) ≤ 971
      omega
  have hvalue : Binary.value ⟨n * 2 ^ k, -(k : Int)⟩ = n := by
    rw [Binary.value]
    simp
  refine ⟨_, hstored, hvalue, hfull, ?_⟩
  have hnat : n.toUInt64.toNat = n := UInt64.toNat_ofNat_of_lt' (by
    show n < 2 ^ 64
    omega)
  have htarget : Format.binary64.targetExponent (totalExponent n 0) = -(k : Int) := by
    rw [targetExponent_eq, totalExponent]
    omega
  have hround : UnpackedFloat.round .binary64 .positive n 0 = hstored.number .positive := by
    rw [UnpackedFloat.round, htarget, decreaseExponent]
    have hshift : (0 - -(k : Int)).toNat = k := by omega
    simp only [hshift, Nat.shiftLeft_eq]
    refine hstored.round_of_value .positive ?_ (by show 0 - (k : Int) ≤ -(k : Int); omega)
    rw [hvalue]
    simp
  show Float.ofModel (.pack (normalize .binary64 (n.toUInt64.toNat : Int) 0 .positive)) = _
  rw [hnat, UnpackedFloat.normalize, Int.compare_eq_gt.mpr (by omega)]
  exact congrArg (fun u => Float.ofModel (.pack u)) hround

theorem Binary.value_ratio (b : Binary) : b.value * b.ratio.2 = b.ratio.1 := by
  have htwo : (2 : ℚ) ≠ 0 := by decide
  rw [value, ratio, mul_assoc]
  simp only [Nat.pow_eq]
  push_cast
  congr 1
  rw [← zpow_natCast, ← zpow_natCast, ← zpow_add₀ htwo]
  congr 1
  omega

/-- The entries of the table of powers of ten, by their bits. -/
theorem tenPow_bits : ∀ k : Fin Float.exactlyRepresentablePowersOfTen.size,
    let x := Float.exactlyRepresentablePowersOfTen[k]
    x.toBits.toNat / 2 ^ 52 % 2 ^ 11 ≠ 2047 ∧ x.toBits.toNat % 2 ^ 63 ≠ 0 ∧
      NumberFormat.isNegative x = false ∧ 2 ^ 52 ≤ (Binary.ofFloat x).significand ∧
      (Binary.ofFloat x).ratio.1 = 10 ^ k.val * (Binary.ofFloat x).ratio.2 := by
  decide +kernel

/-- The powers of ten up to the twenty-second are stored as they are. -/
theorem exists_stored_tenPow {k : Nat} (hk : k < Float.exactlyRepresentablePowersOfTen.size) :
    ∃ (c : Binary) (hc : c.Stored), c.value = 10 ^ k ∧ 2 ^ 52 ≤ c.significand ∧
      Float.exactlyRepresentablePowersOfTen[k] = hc.toFloat .positive := by
  have hbits := tenPow_bits ⟨k, hk⟩
  simp only [Fin.getElem_fin] at hbits
  generalize Float.exactlyRepresentablePowersOfTen[k] = x at hbits
  obtain ⟨hfinite, hne, hsign, hfull, hratio⟩ := hbits
  have hreads := (unpack_eq x).2 hfinite
  have hpack := pack_unpack hreads
  cases hreads with
  | zero bits _ => exact absurd bits hne
  | number h hunpack =>
      refine ⟨_, h, ?_, hfull, ?_⟩
      · have hden : ((Binary.ofFloat x).ratio.2 : ℚ) ≠ 0 := by
          exact_mod_cast Nat.ne_of_gt (Nat.two_pow_pos _)
        refine mul_right_cancel₀ hden ?_
        rw [Binary.value_ratio]
        exact_mod_cast hratio
      · have hpositive : signOf x = .positive :=
          if_neg (by rw [hsign]; exact Bool.false_ne_true)
        rw [hunpack, hpositive] at hpack
        exact hpack.symm

/-! ## Decimals -/

theorem Decimal.value_pos {b : Binary} (h : b.Stored) {d : Decimal} (hv : d.value = b.value) :
    0 < d.digits := by
  refine Nat.pos_of_ne_zero fun hzero => ?_
  have hpow : (2 : ℚ) ^ b.exponent ≠ 0 := zpow_ne_zero _ (by decide)
  rw [value, hzero, Nat.cast_zero, zero_mul, Binary.value] at hv
  rcases mul_eq_zero.mp hv.symm with hsig | hexp
  · exact Nat.ne_of_gt h.pos (by exact_mod_cast hsig)
  · exact hpow hexp

/-- A decimal that is a stored number has an exponent that is computed with. -/
theorem Decimal.exponent_bounds {b : Binary} (h : b.Stored) {n : Nat} {e : Int}
    (hv : Decimal.value ⟨n, e⟩ = b.value) : -(2048 + (n.log2 : Int)) ≤ e ∧ e ≤ 2048 := by
  have hn : 0 < n := value_pos h hv
  obtain ⟨hlow, hhigh⟩ := two_zpow_log2_le h.pos b.exponent
  obtain ⟨hlow', hhigh'⟩ := two_zpow_log2_le hn e
  have hlog := h.log2_lt
  have hexp := h.low
  have hexp' := h.high
  have hcast : (0 : ℚ) < n := by exact_mod_cast hn
  change (n : ℚ) * 10 ^ e = b.significand * 2 ^ b.exponent at hv
  -- a power of ten is compared with the same power of two
  rcases Int.le_total 0 e with he | he
  · have hpow : (2 : ℚ) ^ e ≤ 10 ^ e := zpow_le_zpow_left₀ he (by norm_num) (by norm_num)
    have hlt : (2 : ℚ) ^ (n.log2 + e) < 2 ^ (b.significand.log2 + 1 + b.exponent) :=
      calc (2 : ℚ) ^ (n.log2 + e) ≤ n * 2 ^ e := hlow'
        _ ≤ n * 10 ^ e := mul_le_mul_of_nonneg_left hpow hcast.le
        _ < 2 ^ (b.significand.log2 + 1 + b.exponent) := hv ▸ hhigh
    rw [zpow_lt_zpow_iff_right₀ (by norm_num)] at hlt
    omega
  · have hpow : (10 : ℚ) ^ e ≤ 2 ^ e := by
      obtain ⟨k, rfl⟩ : ∃ k : Nat, e = -(k : Int) := ⟨(-e).toNat, by omega⟩
      rw [zpow_neg, zpow_neg, zpow_natCast, zpow_natCast]
      exact inv_anti₀ (by positivity) (pow_le_pow_left₀ (by norm_num) (by norm_num) k)
    have hlt : (2 : ℚ) ^ (b.significand.log2 + b.exponent) < 2 ^ (n.log2 + 1 + e) :=
      calc (2 : ℚ) ^ (b.significand.log2 + b.exponent)
          ≤ b.significand * 2 ^ b.exponent := hlow
        _ = n * 10 ^ e := hv.symm
        _ ≤ n * 2 ^ e := mul_le_mul_of_nonneg_left hpow hcast.le
        _ < 2 ^ (n.log2 + 1 + e) := hhigh'
    rw [zpow_lt_zpow_iff_right₀ (by norm_num)] at hlt
    omega

/-- Few digits with a small exponent take the short way: one product or
    quotient of stored numbers. -/
theorem ofScientific_small {b : Binary} (h : b.Stored) {n k : Nat} (s : Bool)
    (hn : n < 2 ^ 53) (hk : k ≤ 22)
    (hv : Decimal.value ⟨n, if s then -(k : Int) else k⟩ = b.value) :
    Float.ofScientific n s k = h.toFloat .positive := by
  have hpos : 0 < n := Decimal.value_pos h hv
  have hsize : k < Float.exactlyRepresentablePowersOfTen.size := Nat.lt_succ_of_le hk
  obtain ⟨c, hc, hcv, hcfull, hnat⟩ := exists_stored_natCast hpos hn
  obtain ⟨d, hd, hdv, hdfull, hten⟩ := exists_stored_tenPow hsize
  rw [Float.ofScientific, dif_pos ⟨hn, hk⟩, hnat, hten]
  cases s with
  | false =>
      refine h.mul_toFloat hc hd ?_ ?_
      · rw [hcv, hdv, ← hv]
        exact (congrArg ((n : ℚ) * ·) (zpow_natCast 10 k)).symm
      · have hle := Nat.mul_le_mul hcfull hdfull
        omega
  | true =>
      have hne : (10 : ℚ) ^ k ≠ 0 := pow_ne_zero k (by decide)
      refine h.div_toFloat hc hd ?_
      rw [hcv, hdv, ← hv]
      show (n : ℚ) = n * 10 ^ (-(k : Int)) * 10 ^ k
      rw [zpow_neg, zpow_natCast, inv_mul_cancel_right₀ hne]

/-- All other decimals take the long way, where the significand of the product
    gets as many bits as a number has. -/
theorem ofScientific_large {b : Binary} (h : b.Stored) {n : Nat} {e : Int}
    (hv : Decimal.value ⟨n, e⟩ = b.value) :
    Float.ofModel (Float.Model.ofScientific n e) = h.toFloat .positive := by
  have hpos : 0 < n := Decimal.value_pos h hv
  obtain ⟨hlow, hhigh⟩ := Decimal.exponent_bounds h hv
  have hfits : ¬ e > 2 ^ Format.binary64.exponentBits := Int.not_lt.mpr hhigh
  have hfits' : ¬ e < -((2 : Int) ^ Format.binary64.exponentBits + n.log2) :=
    Int.not_lt.mpr hlow
  refine congrArg (fun u => Float.ofModel (.pack u)) ?_
  rw [UnpackedFloat.ofScientific, dif_neg (Nat.ne_of_gt hpos), if_neg hfits, if_neg hfits']
  split
  · next he =>
    -- a product with a power of ten
    obtain ⟨k, rfl⟩ := Int.eq_ofNat_of_zero_le he
    refine h.mul_eq _ _ ?_ ?_
    · rw [← hv, Decimal.value, Nat.shiftLeft_eq]
      show ((n * 2 ^ 53 : Nat) : ℚ) * 2 ^ (-(53 : Int)) * ((10 ^ k : Nat) * 2 ^ (0 : Int)) = _
      push_cast
      rw [mul_one, zpow_natCast]
      norm_num
      ring
    · show 2 ^ 53 ≤ n <<< 53 * 10 ^ k
      have hten : 0 < 10 ^ k := Nat.pow_pos (by decide)
      rw [Nat.shiftLeft_eq, Nat.mul_right_comm]
      exact Nat.le_mul_of_pos_left _ (Nat.mul_pos hpos hten)
  · next he =>
    -- a quotient by a power of ten
    obtain ⟨k, rfl⟩ : ∃ k : Nat, e = -(k : Int) := ⟨(-e).toNat, by omega⟩
    have hne : (10 : ℚ) ^ k ≠ 0 := pow_ne_zero k (by decide)
    refine h.div_eq _ _ ?_
    rw [← hv, Int.neg_neg, Int.toNat_natCast, Decimal.value]
    push_cast
    rw [mul_one, mul_one, zpow_neg, zpow_natCast, inv_mul_cancel_right₀ hne]

/-- **BINARY DECIMALS ARE READ EXACTLY**: a decimal that is equal to a stored
    number is read as that number. -/
theorem Decimal.toFloat_of_value {b : Binary} (h : b.Stored) {d : Decimal}
    (hv : d.value = b.value) : d.toFloat = h.toFloat .positive := by
  rw [← d.value_reduce] at hv
  rw [toFloat]
  generalize d.reduce = r at hv
  obtain ⟨n, e⟩ := r
  show Float.ofScientific n (decide (e < 0)) e.natAbs = _
  by_cases hsmall : n < 2 ^ 53 ∧ e.natAbs ≤ 22
  · -- two exact numbers and one operation
    refine ofScientific_small h _ hsmall.1 hsmall.2 ?_
    rw [← hv]
    congr 2
    by_cases he : e < 0
    · rw [decide_eq_true he, if_pos rfl]
      omega
    · rw [decide_eq_false he, if_neg Bool.false_ne_true]
      omega
  · rw [Float.ofScientific, dif_neg hsmall]
    have hexp : (if decide (e < 0) = true then Int.negOfNat e.natAbs else Int.ofNat e.natAbs)
        = e := by
      by_cases he : e < 0
      · rw [decide_eq_true he, if_pos rfl, Int.negOfNat_eq, Int.ofNat_eq_natCast]
        omega
      · rw [decide_eq_false he, if_neg Bool.false_ne_true, Int.ofNat_eq_natCast]
        omega
    simp only [hexp]
    exact ofScientific_large h hv

end FormulaBar
