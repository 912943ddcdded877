import FormulaBar.Expr.Parse
import FormulaBar.Proofs.Scientific
import FormulaBar.Proofs.Standing
import Mathlib.Data.List.TakeDrop

/-! # Literals — numbers that read back from their text

    A number in a tree is written with a minus sign where its sign bit is
    set, digits, and a point with further digits where it has a fraction.
    That text is one number for the lexer, and it reads as the number that
    was written, the sign of a zero included: the digits are found by
    reading them back, and where the search for few digits fails, the exact
    decimal is taken, which needs no rounding. -/

namespace FormulaBar

open Float.Model Float.Model.UnpackedFloat

/-! ## Shortest decimals -/

namespace Decimal

/-- A decimal that reads back is read as the number. -/
theorem toFloat_of_readsBack {d : Decimal} {x : Float} (h : d.readsBack x = true) :
    d.toFloat = x :=
  eq_of_toBits_eq (beq_iff_eq.mp h)

/-- What is found on a grid reads back. -/
theorem readsBack_of_onGrid? {tie : Tie} {x : Float} {n m : Nat} {e : Int} {d : Decimal}
    (h : onGrid? tie x n m e = some d) : d.readsBack x = true := by
  rw [onGrid?] at h
  simp only at h
  split at h
  · next hlower =>
    split at h
    · next hupper =>
      obtain rfl := Option.some.inj h
      exact (Bool.and_eq_true_iff.mp hupper).1
    · obtain rfl := Option.some.inj h
      exact hlower
  · split at h
    · next hupper =>
      obtain rfl := Option.some.inj h
      exact hupper
    · cases h

/-- **SHORTEST DECIMALS READ BACK**: the digits that are written for a stored
    number are read as that number. -/
theorem toFloat_shortest {b : Binary} (h : b.Stored) (tie : Tie) :
    (shortest tie (h.toFloat .positive)).toFloat = h.toFloat .positive := by
  rw [shortest, toFloat_reduce]
  cases hfound : (List.range 17).findSome? _ with
  | none =>
      -- no grid has a neighbour that reads back, and the exact value needs none
      refine toFloat_of_value h ?_
      show (Binary.ofFloat (h.toFloat .positive)).exact.value = b.value
      rw [Binary.value_exact, h.ofFloat_toFloat]
  | some d =>
      obtain ⟨i, -, hi⟩ := List.exists_of_findSome?_eq_some hfound
      exact toFloat_of_readsBack (readsBack_of_onGrid? hi)

end Decimal

/-! ## Digits with a point -/

/-- Digits, and a point in front of those that are a fraction. -/
def pointed (whole fraction : List Char) : List Char :=
  whole ++ if fraction = [] then [] else '.' :: fraction

/-- A text, and a minus sign in front of it. -/
def withSign (negative : Bool) (text : List Char) : List Char :=
  if negative then '-' :: text else text

/-- There are digits, and some of them are in front of the point. -/
structure Digits (whole fraction : List Char) : Prop where
  nonempty : whole ≠ []
  whole : ∀ c ∈ whole, c.isDigit = true
  fraction : ∀ c ∈ fraction, c.isDigit = true

namespace Digits

variable {whole fraction : List Char}

/-- The digits in front of the point are taken up to what follows them. -/
theorem takeWhile_eq (h : Digits whole fraction) {rest : List Char}
    (hrest : rest.takeWhile Char.isDigit = []) :
    (whole ++ rest).takeWhile Char.isDigit = whole := by
  rw [List.takeWhile_append_of_pos h.whole, hrest, List.append_nil]

theorem takeWhile_fraction (h : Digits whole fraction) :
    fraction.takeWhile Char.isDigit = fraction :=
  List.takeWhile_eq_self_iff.mpr h.fraction

/-- The lexer takes digits with a point in full. -/
theorem unsignedNumber_eq (h : Digits whole fraction) :
    unsignedNumber (pointed whole fraction) = pointed whole fraction := by
  rw [pointed]
  by_cases hf : fraction = []
  · rw [if_pos hf, unsignedNumber, h.takeWhile_eq rfl]
    simp
  · have hpoint : ('.' :: fraction).takeWhile Char.isDigit = [] :=
      List.takeWhile_cons_of_neg (by decide)
    rw [if_neg hf, unsignedNumber, h.takeWhile_eq hpoint]
    simp only [List.drop_left, h.takeWhile_fraction]

/-- A number without a sign starts with a digit. -/
theorem head_isDigit (h : Digits whole fraction) :
    ∃ c rest, pointed whole fraction = c :: rest ∧ c.isDigit = true := by
  obtain ⟨c, rest, rfl⟩ := List.exists_cons_of_ne_nil h.nonempty
  exact ⟨c, _, rfl, h.whole c List.mem_cons_self⟩

/-- With a sign it is a number token. -/
theorem isNumber (h : Digits whole fraction) (negative : Bool) :
    IsNumber (withSign negative (pointed whole fraction)) := by
  obtain ⟨c, rest, htext, hc⟩ := h.head_isDigit
  have hnumber := h.unsignedNumber_eq
  rw [htext] at hnumber ⊢
  cases negative with
  | true =>
      refine ⟨List.cons_ne_nil _ _, ?_⟩
      show Pattern.number.ahead ('-' :: c :: rest) = _
      simp only [Pattern.number, hnumber]
      rfl
  | false =>
      refine ⟨List.cons_ne_nil _ _, ?_⟩
      show Pattern.number.ahead (c :: rest) = c :: rest
      simp only [Pattern.number]
      split
      · next heq =>
        obtain ⟨rfl, -⟩ := List.cons.inj heq
        exact absurd hc (by decide)
      · exact hnumber

/-- The sign in front of the digits is split off, and nothing else. -/
theorem splitSign_eq (h : Digits whole fraction) (negative : Bool) :
    Numeral.splitSign (withSign negative (pointed whole fraction))
      = (negative, pointed whole fraction) := by
  obtain ⟨c, rest, htext, hc⟩ := h.head_isDigit
  cases negative with
  | true => rfl
  | false =>
      show Numeral.splitSign (pointed whole fraction) = _
      rw [htext]
      unfold Numeral.splitSign
      split
      · next heq =>
        obtain ⟨rfl, -⟩ := List.cons.inj heq
        exact absurd hc (by decide)
      · next heq =>
        obtain ⟨rfl, -⟩ := List.cons.inj heq
        exact absurd hc (by decide)
      · rfl

/-- The text is read as its digits. -/
theorem ofText?_eq (h : Digits whole fraction) (negative : Bool) :
    Numeral.ofText? (withSign negative (pointed whole fraction))
      = some ⟨negative, whole, fraction, 0⟩ := by
  -- the digits in front of the point, then those behind it
  have hspan : (pointed whole fraction).span Char.isDigit
      = (whole, if fraction = [] then [] else '.' :: fraction) := by
    rw [List.span_eq_takeWhile_dropWhile, pointed, List.dropWhile_append_of_pos h.whole]
    split
    · rw [h.takeWhile_eq rfl]
      rfl
    · rw [h.takeWhile_eq (List.takeWhile_cons_of_neg (by decide))]
      rfl
  have hpoint : Numeral.afterPoint (if fraction = [] then [] else '.' :: fraction)
      = (fraction, []) := by
    split
    · next hf =>
      rw [hf]
      rfl
    · show fraction.span Char.isDigit = _
      rw [List.span_eq_takeWhile_dropWhile, h.takeWhile_fraction,
        List.dropWhile_eq_nil_iff.mpr h.fraction]
  rw [Numeral.ofText?, h.splitSign_eq]
  simp only [hspan, hpoint]
  rw [if_neg fun hnil => h.nonempty hnil.1]
  rfl

end Digits

/-! ## Written numbers -/

/-- Around a point, `whole` and `fraction` are the decimal of the digits `ds`
    with the exponent `e`. -/
structure Shifts (ds : List Char) (e : Int) (whole fraction : List Char) : Prop where
  digits : Digits whole fraction
  decimal : Decimal.reduce
      ⟨Nat.ofDigitChars 10 (whole ++ fraction) 0, 0 - (fraction.length : Int)⟩
    = Decimal.reduce ⟨Nat.ofDigitChars 10 ds 0, e⟩

namespace Shifts

variable {ds : List Char} {e : Int} {k : Nat}

/-- Zeros are digits. -/
theorem isDigit_of_mem_zeros {c : Char} (hc : c ∈ List.replicate k '0') : c.isDigit = true := by
  rw [List.eq_of_mem_replicate hc]
  decide

/-- A power of ten is as many zeros behind the digits, and no fraction. -/
theorem zeros_behind (hne : ds ≠ []) (hds : ∀ c ∈ ds, c.isDigit = true) :
    Shifts ds k (ds ++ List.replicate k '0') [] where
  digits := by
    refine ⟨List.append_ne_nil_of_left_ne_nil hne _, fun c hc => ?_, List.forall_mem_nil _⟩
    exact (List.mem_append.mp hc).elim (hds c) isDigit_of_mem_zeros
  decimal := by
    rw [List.append_nil, Nat.ofDigitChars_append, Nat.ofDigitChars_replicate_zero,
      Nat.mul_comm, Decimal.reduce_shift]
    simp

/-- The digits are cut in front of the last `-e` of them, where there are more. -/
theorem point_between (hk : e + ds.length = k) (hpos : 0 < k) (hlt : k < ds.length)
    (hds : ∀ c ∈ ds, c.isDigit = true) : Shifts ds e (ds.take k) (ds.drop k) where
  digits := by
    refine ⟨fun hnil => ?_, fun c hc => hds c (List.mem_of_mem_take hc),
      fun c hc => hds c (List.mem_of_mem_drop hc)⟩
    have hlength := congrArg List.length hnil
    rw [List.length_take, List.length_nil] at hlength
    omega
  decimal := by
    rw [List.take_append_drop, List.length_drop]
    congr 2
    omega

/-- Where there are no more digits than that, zeros fill up the fraction. -/
theorem zeros_in_front (hk : -(e + ds.length) = k) (hds : ∀ c ∈ ds, c.isDigit = true) :
    Shifts ds e ['0'] (List.replicate k '0' ++ ds) where
  digits := by
    refine ⟨List.cons_ne_nil _ _, by simp, fun c hc => ?_⟩
    exact (List.mem_append.mp hc).elim isDigit_of_mem_zeros (hds c)
  decimal := by
    have hvalue : Nat.ofDigitChars 10 (['0'] ++ (List.replicate k '0' ++ ds)) 0
        = Nat.ofDigitChars 10 ds 0 := by
      rw [List.singleton_append, Nat.ofDigitChars_cons, Nat.ofDigitChars_append,
        Nat.ofDigitChars_replicate_zero]
      rfl
    rw [hvalue, List.length_append, List.length_replicate]
    congr 2
    omega

end Shifts

/-- Digits without an exponent are digits with a point, which shift the
    decimal without changing it. -/
theorem NumberFormat.plain_eq {f : NumberFormat} (hf : f.pointZero = false) {ds : List Char}
    (e : Int) (hne : ds ≠ []) (hds : ∀ c ∈ ds, c.isDigit = true) :
    ∃ whole fraction, f.plain ds e = pointed whole fraction ∧ Shifts ds e whole fraction := by
  have hlength : 0 < ds.length := List.length_pos_iff.mpr hne
  rw [plain]
  simp only [hf, Bool.false_eq_true, if_false, List.append_nil]
  split
  · next he =>
    obtain ⟨k, rfl⟩ := Int.eq_ofNat_of_zero_le he
    exact ⟨ds ++ List.replicate k '0', [], (List.append_nil _).symm, .zeros_behind hne hds⟩
  · next he =>
    split
    · next hplaces =>
      obtain ⟨k, hk⟩ : ∃ k : Nat, e + ds.length = k := ⟨(e + ds.length).toNat, by omega⟩
      have hlt : k < ds.length := by omega
      have hdrop : ds.drop k ≠ [] := fun hnil =>
        Nat.not_le.mpr hlt (List.drop_eq_nil_iff.mp hnil)
      refine ⟨ds.take k, ds.drop k, ?_, .point_between hk (by omega) hlt hds⟩
      rw [hk, Int.toNat_natCast, pointed, if_neg hdrop]
    · next hplaces =>
      obtain ⟨k, hk⟩ : ∃ k : Nat, -(e + ds.length) = (k : Int) :=
        ⟨(-(e + ds.length)).toNat, by omega⟩
      have hfraction : List.replicate k '0' ++ ds ≠ [] :=
        List.append_ne_nil_of_right_ne_nil _ hne
      refine ⟨['0'], List.replicate k '0' ++ ds, ?_, .zeros_in_front hk hds⟩
      rw [hk, Int.toNat_natCast, pointed, if_neg hfraction]
      rfl

namespace Binary.Stored

variable {b : Binary}

/-- Without its sign a stored number is the positive one. -/
theorem abs_toFloat (h : b.Stored) (s : Sign) : (h.toFloat s).abs = h.toFloat .positive := by
  show Float.ofModel (.pack (h.toFloat s).toModel.unpack.abs) = _
  rw [h.unpack_toFloat]
  rfl

/-- The opposite of a positive stored number is the negative one. -/
theorem neg_toFloat (h : b.Stored) : -h.toFloat .positive = h.toFloat .negative := by
  show Float.ofModel (.pack (h.toFloat .positive).toModel.unpack.neg) = _
  rw [h.unpack_toFloat]
  rfl

/-- No stored number is NaN. -/
theorem isNaN_toFloat (h : b.Stored) (s : Sign) : (h.toFloat s).isNaN = false := by
  show (h.toFloat s).toModel.unpack.isNaN = false
  rw [h.unpack_toFloat]
  rfl

theorem isInf_toFloat (h : b.Stored) (s : Sign) : (h.toFloat s).isInf = false := by
  show (h.toFloat s).toModel.unpack.isInf = false
  rw [h.unpack_toFloat]
  rfl

theorem beq_zero_toFloat (h : b.Stored) (s : Sign) : (h.toFloat s == 0) = false := by
  have hzero : (0 : Float).toModel.unpack = .zero .positive := by rfl
  show (h.toFloat s).toModel.unpack.beq (0 : Float).toModel.unpack = false
  rw [h.unpack_toFloat, hzero]
  cases s <;> rfl

end Binary.Stored

/-- The sign bit is set where the sign is negative. -/
theorem isNegative_iff {x : Float} :
    NumberFormat.isNegative x = true ↔ signOf x = .negative := by
  rw [signOf]
  split
  · next h => exact ⟨fun _ => rfl, fun _ => h⟩
  · next h =>
    constructor
    · intro hneg
      exact absurd hneg h
    · intro hsign
      cases hsign

/-- The zero with a sign. -/
def zeroOf (s : Sign) : Float := .ofModel (.pack (.zero s))

/-- Finite numbers are the zeros and the stored numbers. -/
theorem eq_of_isFinite {x : Float} (h : x.isFinite = true) :
    (∃ s, x = zeroOf s) ∨ ∃ (b : Binary) (hb : b.Stored) (s : Sign), x = hb.toFloat s := by
  have hreads := reads_of_isFinite h
  have hpack := pack_unpack hreads
  cases hreads with
  | zero _ hunpack =>
      exact Or.inl ⟨_, hpack.symm.trans (congrArg (fun u => Float.ofModel (.pack u)) hunpack)⟩
  | number hb hunpack =>
      exact Or.inr ⟨_, hb, _,
        hpack.symm.trans (congrArg (fun u => Float.ofModel (.pack u)) hunpack)⟩

/-- Decimals with the same reduced form are the same number. -/
theorem Decimal.toFloat_congr {d d' : Decimal} (h : d.reduce = d'.reduce) :
    d.toFloat = d'.toFloat := by
  rw [← d.toFloat_reduce, h, d'.toFloat_reduce]

/-- The digits that are written for a stored number. -/
theorem writeMagnitude_eq {b : Binary} (h : b.Stored) :
    ∃ whole fraction, Expr.numberFormat.writeMagnitude (h.toFloat .positive)
        = pointed whole fraction ∧ Digits whole fraction ∧
      Decimal.toFloat ⟨Nat.ofDigitChars 10 (whole ++ fraction) 0, 0 - (fraction.length : Int)⟩
        = h.toFloat .positive := by
  have hshortest := Decimal.toFloat_shortest h Expr.numberFormat.tie
  rw [NumberFormat.writeMagnitude, h.isInf_toFloat, h.beq_zero_toFloat]
  simp only [Bool.false_eq_true, if_false]
  generalize Decimal.shortest Expr.numberFormat.tie (h.toFloat .positive) = d at hshortest
  obtain ⟨whole, fraction, htext, hdigits, hreduce⟩ :=
    NumberFormat.plain_eq (f := Expr.numberFormat) rfl d.exponent
      (Nat.toDigits_ne_nil (n := d.digits) (b := 10))
      fun c hc => Nat.isDigit_of_mem_toDigits (by decide) (by decide) hc
  rw [Nat.ofDigitChars_ten_toDigits] at hreduce
  exact ⟨whole, fraction, htext, hdigits, (Decimal.toFloat_congr hreduce).trans hshortest⟩

/-- A numeral with the sign and the digits of a stored number is that number. -/
theorem Binary.Stored.toFloat_of_magnitude {b : Binary} (hb : b.Stored) {s : Sign} {n : Numeral}
    (hsign : n.negative = NumberFormat.isNegative (hb.toFloat s))
    (hvalue : n.magnitude.toFloat = hb.toFloat .positive) : n.toFloat = hb.toFloat s := by
  have hsame := hb.signOf_toFloat s
  rw [Numeral.toFloat, hsign, hvalue]
  cases s with
  | negative =>
      rw [if_pos (isNegative_iff.mpr hsame)]
      exact hb.neg_toFloat
  | positive =>
      rw [if_neg]
      rw [isNegative_iff, hsame]
      exact nofun

/-- What is written for a finite number is its sign and the digits of a
    decimal that reads back. -/
theorem write_eq {x : Float} (h : x.isFinite = true) :
    ∃ whole fraction, (Expr.numberFormat.write x).toList
        = withSign (NumberFormat.isNegative x) (pointed whole fraction) ∧
      Digits whole fraction ∧
      Numeral.toFloat ⟨NumberFormat.isNegative x, whole, fraction, 0⟩ = x := by
  rcases eq_of_isFinite h with ⟨s, rfl⟩ | ⟨b, hb, s, rfl⟩
  · -- either zero is one digit behind its sign
    refine ⟨['0'], [], ?_, ⟨List.cons_ne_nil _ _, by simp, by simp⟩, ?_⟩
    · cases s
      · decide +kernel
      · decide +kernel
    · have hreduce : Decimal.reduce ⟨0, 0⟩ = ⟨0, 0⟩ := by rw [Decimal.reduce, if_pos rfl]
      have hzero : Decimal.toFloat ⟨0, 0⟩ = 0 := by
        rw [Decimal.toFloat, hreduce]
        rfl
      show (if NumberFormat.isNegative (zeroOf s) then -Decimal.toFloat ⟨0, 0⟩
        else Decimal.toFloat ⟨0, 0⟩) = zeroOf s
      rw [hzero]
      cases s
      · decide +kernel
      · decide +kernel
  · -- the sign is written apart from the magnitude
    obtain ⟨whole, fraction, htext, hdigits, hvalue⟩ := writeMagnitude_eq hb
    refine ⟨whole, fraction, ?_, hdigits, ?_⟩
    · rw [NumberFormat.write, hb.isNaN_toFloat, hb.abs_toFloat, htext]
      show (String.ofList _).toList = _
      rw [String.toList_ofList]
      cases NumberFormat.isNegative (hb.toFloat s) with
      | true => rfl
      | false => rfl
    · exact hb.toFloat_of_magnitude (n := ⟨_, whole, fraction, 0⟩) rfl hvalue

/-- **NUMBERS READ BACK**: the text of a finite number is a number token and
    reads as that number, and it starts with a minus sign only where the sign
    bit is set. -/
theorem readLiteral?_write {x : Float} (h : x.isFinite = true) :
    readLiteral? (Expr.numberFormat.write x) = some x ∧
      IsNumber (Expr.numberFormat.write x).toList ∧
      ((Expr.numberFormat.write x).toList.head? = some '-' →
        NumberFormat.isNegative x = true) := by
  obtain ⟨whole, fraction, htext, hdigits, hvalue⟩ := write_eq h
  refine ⟨?_, htext ▸ hdigits.isNumber _, ?_⟩
  · rw [readLiteral?, htext, hdigits.ofText?_eq]
    exact congrArg some hvalue
  · rw [htext]
    intro hhead
    refine Classical.byContradiction fun hpositive => ?_
    obtain ⟨c, rest, hpointed, hc⟩ := hdigits.head_isDigit
    rw [Bool.not_eq_true] at hpositive
    rw [hpositive, withSign, if_neg Bool.false_ne_true, hpointed] at hhead
    obtain rfl := Option.some.inj hhead
    exact absurd hc (by decide)

/-! ## Signs of decimals -/

/-- The number has no minus sign. -/
def Positive : UnpackedFloat → Prop
  | .infinity s => s = .positive
  | .notANumber => True
  | .zero s => s = .positive
  | .finite s _ _ _ => s = .positive

/-- Packed with a positive sign, the highest bit is not set. -/
theorem toNat_packComponents_lt (e : BitVec 11) (m : BitVec 52) :
    (packComponents .binary64 .positive e m).toNat < 2 ^ 63 := by
  have he := e.isLt
  have hm := m.isLt
  rw [toNat_packComponents]
  show 0 * 2 ^ 63 + e.toNat * 2 ^ 52 + m.toNat < 2 ^ 63
  omega

/-- A number without a minus sign has no sign bit. -/
theorem isNegative_pack {u : UnpackedFloat} (h : Positive u) :
    NumberFormat.isNegative (.ofModel (.pack u)) = false := by
  have hlt : (pack .binary64 u).toNat < 2 ^ 63 := by
    cases u with
    | notANumber => exact toNat_packComponents_lt _ _
    | infinity s =>
        obtain rfl : s = .positive := h
        exact toNat_packComponents_lt _ _
    | zero s =>
        obtain rfl : s = .positive := h
        exact toNat_packComponents_lt _ _
    | finite s m e hm =>
        obtain rfl : s = .positive := h
        rw [UnpackedFloat.pack]
        simp only
        split
        · exact toNat_packComponents_lt _ _
        · split
          · exact toNat_packComponents_lt _ _
          · exact toNat_packComponents_lt _ _
  exact decide_eq_false (Nat.not_le.mpr hlt)

/-- What a decimal is rounded to: it has no minus sign and is a number. -/
inductive Magnitude : UnpackedFloat → Prop where
  | infinity : Magnitude (.infinity .positive)
  | zero : Magnitude (.zero .positive)
  | finite {m : Nat} {e : Int} (hm : 0 < m) : Magnitude (.finite .positive m e hm)

/-- What a decimal is rounded to has no minus sign. -/
theorem Magnitude.positive {u : UnpackedFloat} (h : Magnitude u) : Positive u := by
  cases h with
  | infinity => rfl
  | zero => rfl
  | finite => rfl

/-- Rounding gives a number without a minus sign. -/
theorem magnitude_round (m : Nat) (e : Int) (accuracy : Accuracy) :
    Magnitude (roundWithAccuracy .binary64 .positive m e accuracy) := by
  rw [roundWithAccuracy]
  simp only
  split
  · exact .zero
  · exact .finite _

/-- Digits with an exponent are rounded to a number without a minus sign. -/
theorem magnitude_ofScientific (n : Nat) (e : Int) :
    Magnitude (UnpackedFloat.ofScientific .binary64 n e) := by
  rw [UnpackedFloat.ofScientific]
  split
  · exact .zero
  split
  · exact .infinity
  split
  · exact .zero
  split
  · exact magnitude_round _ _ _
  · exact magnitude_round _ _ _

/-- Few digits are a zero or a stored number. -/
theorem unpack_natCast {n : Nat} (hn : n < 2 ^ 53) :
    n.toUInt64.toFloat.toModel.unpack = .zero .positive ∨
      ∃ (c : Binary) (hc : c.Stored), n.toUInt64.toFloat.toModel.unpack
        = hc.number .positive := by
  rcases Nat.eq_zero_or_pos n with rfl | hpos
  · exact Or.inl rfl
  · obtain ⟨c, hc, -, -, hnat⟩ := exists_stored_natCast hpos hn
    exact Or.inr ⟨c, hc, by rw [hnat, hc.unpack_toFloat]⟩

/-- Few digits are multiplied or divided, many are rounded at once. -/
theorem Decimal.exists_magnitude (d : Decimal) :
    ∃ u, Magnitude u ∧ d.toFloat = .ofModel (.pack u) := by
  rw [toFloat]
  generalize d.reduce = r
  obtain ⟨n, e⟩ := r
  show ∃ u, Magnitude u ∧ Float.ofScientific n (decide (e < 0)) e.natAbs = .ofModel (.pack u)
  rw [Float.ofScientific]
  split
  · next hsmall =>
    have hsize : e.natAbs < Float.exactlyRepresentablePowersOfTen.size :=
      Nat.lt_succ_of_le hsmall.2
    obtain ⟨d, hd, -, -, hten⟩ := exists_stored_tenPow hsize
    simp only [hten]
    split
    · refine ⟨_, ?_, rfl⟩
      -- an exact number over a power of ten
      show Magnitude (div .binary64 n.toUInt64.toFloat.toModel.unpack
        (hd.toFloat .positive).toModel.unpack)
      rw [hd.unpack_toFloat]
      rcases unpack_natCast hsmall.1 with hzero | ⟨c, hc, hnumber⟩
      · rw [hzero]
        exact .zero
      · rw [hnumber]
        exact magnitude_round _ _ _
    · refine ⟨_, ?_, rfl⟩
      -- an exact number times a power of ten
      show Magnitude (mul .binary64 n.toUInt64.toFloat.toModel.unpack
        (hd.toFloat .positive).toModel.unpack)
      rw [hd.unpack_toFloat]
      rcases unpack_natCast hsmall.1 with hzero | ⟨c, hc, hnumber⟩
      · rw [hzero]
        exact .zero
      · rw [hnumber]
        exact magnitude_round _ _ _
  · exact ⟨_, magnitude_ofScientific n _, rfl⟩

/-- A decimal has no sign. -/
theorem Decimal.isNegative_toFloat (d : Decimal) :
    NumberFormat.isNegative d.toFloat = false := by
  obtain ⟨u, hu, heq⟩ := d.exists_magnitude
  rw [heq]
  exact isNegative_pack hu.positive

/-- A text that starts without a minus sign is not negative. -/
theorem splitSign_of_ne {text : List Char} (h : text.head? ≠ some '-') :
    (Numeral.splitSign text).1 = false := by
  unfold Numeral.splitSign
  split
  · exact absurd rfl h
  · rfl
  · rfl

/-- A numeral is negative where its text starts with a minus sign. -/
theorem negative_of_ofText? {text : List Char} {n : Numeral}
    (h : Numeral.ofText? text = some n) : n.negative = (Numeral.splitSign text).1 := by
  rw [Numeral.ofText?] at h
  simp only at h
  split at h
  · cases h
  · obtain ⟨exponent, -, rfl⟩ := Option.map_eq_some_iff.mp h
    rfl

/-- A number that is read off a text without a minus sign has none. -/
theorem isNegative_readLiteral? {text : String} {x : Float} (h : readLiteral? text = some x)
    (hsign : text.toList.head? ≠ some '-') : NumberFormat.isNegative x = false := by
  have hfirst := splitSign_of_ne hsign
  rw [readLiteral?] at h
  split at h
  · next n hn =>
    obtain rfl := Option.some.inj h
    rw [Numeral.toFloat, negative_of_ofText? hn, hfirst, if_neg Bool.false_ne_true]
    exact n.magnitude.isNegative_toFloat
  · simp only [hfirst, Bool.false_eq_true, if_false] at h
    split at h
    · obtain rfl := Option.some.inj h
      decide +kernel
    split at h
    · obtain rfl := Option.some.inj h
      decide +kernel
    · cases h

end FormulaBar
