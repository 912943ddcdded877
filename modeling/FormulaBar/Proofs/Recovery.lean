import FormulaBar.Proofs.Agreement

/-! # Recovery — numbers that come back from their text

    A number has a text in one of two layouts, digits with a point or one
    digit in front of the point and an exponent.  Which of them is written
    depends on the size of the number, but either is a numeral with the sign
    and the decimal that were written, and that decimal was found by reading
    it back.  The texts of NaN and of the infinities are no numerals, but
    they are the words that stand for them.

    Only zero loses something.  It is written without a sign, so the
    negative zero comes back as the positive one. -/

namespace FormulaBar

open Float.Model.UnpackedFloat

theorem withSign_eq_append (negative : Bool) (text : List Char) :
    withSign negative text = (if negative then ['-'] else []) ++ text := by
  cases negative with
  | true => rfl
  | false => rfl

namespace NumberFormat

variable {f : NumberFormat}

/-- A written exponent is read, its sign included. -/
theorem exponent?_scientific (lead : Int) :
    Numeral.exponent? ('e' :: ((if lead < 0 then ['-'] else if f.exponentPlus then ['+'] else [])
      ++ Nat.toDigits 10 lead.natAbs)) = some lead := by
  have hdigits : ∀ c ∈ Nat.toDigits 10 lead.natAbs, c.isDigit = true :=
    fun c hc => Nat.isDigit_of_mem_toDigits (by decide) (by decide) hc
  by_cases hlead : lead < 0
  · rw [if_pos hlead, Numeral.exponent?_eq (Or.inl rfl) (Or.inr (Or.inr rfl))
      Nat.toDigits_ne_nil hdigits, if_pos rfl, Nat.ofDigitChars_ten_toDigits]
    exact congrArg some (by omega)
  · have hvalue : (lead.natAbs : Int) = lead := by omega
    rw [if_neg hlead]
    cases f.exponentPlus with
    | true =>
        rw [if_pos rfl, Numeral.exponent?_eq (Or.inl rfl) (Or.inr (Or.inl rfl))
          Nat.toDigits_ne_nil hdigits, if_neg (by decide), Nat.ofDigitChars_ten_toDigits, hvalue]
    | false =>
        rw [if_neg Bool.false_ne_true, Numeral.exponent?_eq (Or.inl rfl) (Or.inl rfl)
          Nat.toDigits_ne_nil hdigits, if_neg (by decide), Nat.ofDigitChars_ten_toDigits, hvalue]

/-- Digits with an exponent are read as the first of them, those behind the
    point, and the exponent. -/
theorem ofText?_scientific {ds : List Char} (hne : ds ≠ [])
    (hds : ∀ c ∈ ds, c.isDigit = true) (lead : Int) (negative : Bool) :
    Numeral.ofText? (withSign negative (f.scientific ds lead))
      = some ⟨negative, ds.take 1, ds.drop 1, lead⟩ := by
  have hexponent := exponent?_scientific (f := f) lead
  obtain ⟨c, rest, rfl⟩ := List.exists_cons_of_ne_nil hne
  obtain ⟨hc, hrest⟩ := List.forall_mem_cons.mp hds
  have hfirst : ∀ d ∈ [c], d.isDigit = true := List.forall_mem_singleton.mpr hc
  have hsign : (if negative then ['-'] else []) = [] ∨
      (if negative then ['-'] else []) = ['+'] ∨ (if negative then ['-'] else []) = ['-'] := by
    cases negative with
    | true => exact Or.inr (Or.inr rfl)
    | false => exact Or.inl rfl
  have hnegative : decide ((if negative then ['-'] else []) = ['-']) = negative := by
    cases negative with
    | true => rfl
    | false => rfl
  rw [withSign_eq_append]
  cases rest with
  | nil =>
      have hread := Numeral.ofText?_whole hsign (List.cons_ne_nil c []) hfirst hexponent
      rw [hnegative] at hread
      exact hread
  | cons d rest =>
      have hread := Numeral.ofText?_point hsign hfirst hrest
        (fun hnil => List.cons_ne_nil _ _ hnil.1) hexponent
      rw [hnegative] at hread
      exact hread

/-- **DECIMALS ARE READ AS WRITTEN**, in either layout. -/
theorem ofText?_writeDecimal (hf : f.pointZero = false) (d : Decimal) (negative : Bool) :
    ∃ n, Numeral.ofText? (withSign negative (f.writeDecimal d)) = some n ∧
      n.negative = negative ∧ n.magnitude.toFloat = d.toFloat := by
  have hne : Nat.toDigits 10 d.digits ≠ [] := Nat.toDigits_ne_nil
  have hds : ∀ c ∈ Nat.toDigits 10 d.digits, c.isDigit = true :=
    fun c hc => Nat.isDigit_of_mem_toDigits (by decide) (by decide) hc
  have hvalue := Nat.ofDigitChars_ten_toDigits (n := d.digits)
  rw [writeDecimal]
  generalize Nat.toDigits 10 d.digits = ds at hne hds hvalue
  split
  · obtain ⟨whole, fraction, htext, hdigits, hreduce⟩ := plain_eq hf d.exponent hne hds
    refine ⟨_, htext ▸ hdigits.ofText?_eq negative, rfl, Decimal.toFloat_congr ?_⟩
    rw [hvalue] at hreduce
    exact hreduce
  · refine ⟨_, ofText?_scientific hne hds _ negative, rfl, ?_⟩
    have hlength : 0 < ds.length := List.length_pos_iff.mpr hne
    refine congrArg Decimal.toFloat ?_
    rw [Numeral.magnitude, List.take_append_drop, hvalue, List.length_drop]
    cases d
    congr 1
    simp only
    omega

/-- The text of a stored number is a numeral of that number. -/
theorem ofText?_write (hf : f.pointZero = false) {b : Binary} (hb : b.Stored) (s : Sign) :
    ∃ n, Numeral.ofText? (f.write (hb.toFloat s)).toList = some n ∧
      n.toFloat = hb.toFloat s := by
  have hshortest := Decimal.toFloat_shortest hb f.tie
  obtain ⟨n, hread, hsign, hvalue⟩ :=
    ofText?_writeDecimal hf (Decimal.shortest f.tie (hb.toFloat .positive))
      (isNegative (hb.toFloat s))
  refine ⟨n, ?_, hb.toFloat_of_magnitude hsign (hvalue.trans hshortest)⟩
  have hnonzero : (hb.toFloat s != 0) = true := by
    rw [bne, hb.beq_zero_toFloat]
    rfl
  rw [write, hb.isNaN_toFloat, hb.abs_toFloat, hnonzero, Bool.or_true, Bool.and_true,
    writeMagnitude, hb.isInf_toFloat, hb.beq_zero_toFloat]
  show Numeral.ofText? (String.ofList _).toList = some n
  rw [String.toList_ofList, ← hread, withSign_eq_append]
  rfl

end NumberFormat

/-- **NUMBERS COME BACK FROM THEIR TEXT**: every number but the negative zero
    counts as itself where its text is read, NaN as NaN and an infinity as
    that infinity, and the negative zero counts as zero.  So nothing that
    reads numbers can tell a number from its text, but for the sign of a
    zero. -/
theorem parseNumber_formatNumber (x : Float) :
    (x ≠ -0.0 → parseNumber (formatNumber x) = x ∧
      SameInArithmetic (some (.text (formatNumber x))) (some (.number x))) ∧
    (x = -0.0 → parseNumber (formatNumber x) = 0.0 ∧
      SameInArithmetic (some (.text (formatNumber x))) (some (.number 0.0))) := by
  have hsame : ∀ {y : Float}, parseNumber (formatNumber x) = y →
      SameInArithmetic (some (.text (formatNumber x))) (some (.number y)) :=
    fun h => sameInArithmetic_of_numberOf h
  constructor
  · intro h
    have hvalue : parseNumber (formatNumber x) = x := by
      cases hfinite : x.isFinite with
      | true =>
          rcases eq_of_isFinite hfinite with ⟨s, rfl⟩ | ⟨b, hb, s, rfl⟩
          · cases s with
            | positive => decide +kernel
            | negative => exact absurd (by decide +kernel) h
          · obtain ⟨n, hread, hvalue⟩ := NumberFormat.ofText?_write (f := valueFormat) rfl hb s
            exact (parseNumber_of_ofText? hread).trans hvalue
      | false =>
          rcases eq_of_not_isFinite hfinite with rfl | rfl | rfl
          · decide +kernel
          · decide +kernel
          · decide +kernel
    exact ⟨hvalue, hsame hvalue⟩
  · rintro rfl
    have hvalue : parseNumber (formatNumber (-0.0)) = 0.0 := by decide +kernel
    exact ⟨hvalue, hsame hvalue⟩

/-- Below a millionth an exponent is written, and zero loses its sign. -/
theorem parseNumber_formatNumber_small :
    formatNumber (-2.5e-7) = "-2.5e-7" ∧ parseNumber (formatNumber (-2.5e-7)) = -2.5e-7 ∧
    executeOperator "*" [some (.text (formatNumber (-2.5e-7))), some (.number 4)]
      = executeOperator "*" [some (.number (-2.5e-7)), some (.number 4)] ∧
    formatNumber (-0.0) = "0" ∧ parseNumber (formatNumber (-0.0)) = 0.0 := by
  have hne : (-2.5e-7 : Float) ≠ -0.0 := by decide +kernel
  obtain ⟨hvalue, hsame⟩ := (parseNumber_formatNumber (-2.5e-7)).1 hne
  obtain ⟨hzero, -⟩ := (parseNumber_formatNumber (-0.0)).2 rfl
  exact ⟨by decide +kernel, hvalue, hsame.operator "*" (by decide) [] [some (.number 4)],
    by decide +kernel, hzero⟩

end FormulaBar
