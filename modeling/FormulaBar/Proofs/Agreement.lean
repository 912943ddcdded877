import FormulaBar.Proofs.Nonfinite
import FormulaBar.Proofs.Reading
import FormulaBar.Proofs.Shape
import FormulaBar.Value.Function
import FormulaBar.Value.Operator

/-! # Agreement — one number for a literal and for its text

    A number token and a text in arithmetic are read by readers of their
    own, and before it is read a text loses the blanks around it.  The texts
    of number tokens are numerals, though, no character of a numeral is
    blank, and a numeral is read in the same way by both.

    A numeral is never NaN, so NaN in arithmetic means one thing only: a
    text that is no numeral and none of the words for infinity.

    What operators and functions make of their parameters depends on the
    numbers that these count as.  So a text may take the place of a number
    that it counts as. -/

namespace FormulaBar

/-! ## Blanks around a text -/

theorem dropWhile_of_forall {p : Char → Bool} {text : List Char} (h : ∀ c ∈ text, p c = false) :
    text.dropWhile p = text := by
  cases text with
  | nil => rfl
  | cons c text =>
      refine List.dropWhile_cons_of_neg ?_
      rw [h c List.mem_cons_self]
      exact Bool.false_ne_true

/-- A text without blanks is not trimmed. -/
theorem trim_of_forall {text : List Char} (h : ∀ c ∈ text, isBlank c = false) :
    trim text = text := by
  have hreverse : ∀ c ∈ text.reverse, isBlank c = false :=
    fun c hc => h c (List.mem_reverse.mp hc)
  rw [trim, dropWhile_of_forall h, dropWhile_of_forall hreverse, List.reverse_reverse]

/-- No digit is blank. -/
theorem isBlank_of_isDigit {c : Char} (h : c.isDigit = true) : isBlank c = false := by
  simp only [Char.isDigit, Bool.and_eq_true, decide_eq_true_eq] at h
  have hlow : 48 ≤ c.toNat := h.1
  have hhigh : c.toNat ≤ 57 := h.2
  have hapart : ∀ range ∈ blankRanges, range.2 < 48 ∨ 57 < range.1 := by decide
  refine Bool.eq_false_iff.mpr fun hblank => ?_
  obtain ⟨range, hrange, hin⟩ := List.any_eq_true.mp hblank
  rw [Bool.and_eq_true, decide_eq_true_eq, decide_eq_true_eq] at hin
  have hside := hapart range hrange
  omega

theorem isBlank_of_mem_sign {sign : List Char} (h : sign = [] ∨ sign = ['+'] ∨ sign = ['-']) :
    ∀ c ∈ sign, isBlank c = false := by
  rcases h with rfl | rfl | rfl
  · exact List.forall_mem_nil _
  · exact List.forall_mem_singleton.mpr (by decide)
  · exact List.forall_mem_singleton.mpr (by decide)

/-- No character of a numeral is blank. -/
theorem MatchesNumericText.isBlank_eq_false {text : List Char} (h : MatchesNumericText text) :
    ∀ c ∈ text, isBlank c = false := by
  have hdigits : ∀ {digits : List Char}, (∀ c ∈ digits, c.isDigit = true) →
      ∀ c ∈ digits, isBlank c = false := fun hall c hc => isBlank_of_isDigit (hall c hc)
  cases h with
  | @intro sign mantissa exponent hsign hmantissa hexponent =>
      have hfirst : ∀ c ∈ mantissa, isBlank c = false := by
        cases hmantissa with
        | whole hne hwhole hpoint hfraction =>
            refine List.forall_mem_append.mpr ⟨hdigits hwhole, List.forall_mem_append.mpr
              ⟨?_, hdigits hfraction⟩⟩
            rcases hpoint with rfl | rfl
            · exact List.forall_mem_nil _
            · exact List.forall_mem_singleton.mpr (by decide)
        | fraction hne hfraction =>
            exact List.forall_mem_cons.mpr ⟨by decide, hdigits hfraction⟩
      have hlast : ∀ c ∈ exponent, isBlank c = false := by
        cases hexponent with
        | none => exact List.forall_mem_nil _
        | some hmark hsign' hne hall =>
            refine List.forall_mem_cons.mpr ⟨?_, List.forall_mem_append.mpr
              ⟨isBlank_of_mem_sign hsign', hdigits hall⟩⟩
            rcases hmark with rfl | rfl
            · decide
            · decide
      exact List.forall_mem_append.mpr ⟨isBlank_of_mem_sign hsign,
        List.forall_mem_append.mpr ⟨hfirst, hlast⟩⟩

theorem MatchesNumericText.ne_nil {text : List Char} (h : MatchesNumericText text) :
    text ≠ [] := by
  rintro rfl
  exact absurd (Numeral.isSome_ofText?_iff.mpr h) (by decide)

/-! ## Texts in arithmetic -/

/-- What is left of a text without its blanks is a numeral or a word. -/
theorem parseNumber_of_ne {text : String} (h : trim text.toList ≠ []) :
    parseNumber text = ((Numeral.ofText? (trim text.toList)).map Numeral.toFloat).getD
      (if String.ofList (trim text.toList) ∈ ["Infinity", "+Infinity"] then infinity
        else if String.ofList (trim text.toList) = "-Infinity" then -infinity
        else notANumber) := by
  rw [parseNumber]
  split
  · next hnil => exact absurd hnil h
  · cases Numeral.ofText? (trim text.toList) with
    | some n => rfl
    | none => rfl

/-- A numeral in a text counts as its own number, whatever the reader tries
    besides. -/
theorem parseNumber_of_ofText? {text : String} {n : Numeral}
    (h : Numeral.ofText? text.toList = some n) : parseNumber text = n.toFloat := by
  have hmatch : MatchesNumericText text.toList := by
    rw [← Numeral.isSome_ofText?_iff, h]
    rfl
  have htrim := trim_of_forall hmatch.isBlank_eq_false
  rw [parseNumber_of_ne (by rw [htrim]; exact hmatch.ne_nil), htrim, h]
  rfl

/-- **NAN IS WHAT WRITES NO NUMBER**: a text counts as NaN exactly where it is
    not blank, no numeral and none of the words for infinity. -/
theorem isNaN_parseNumber_iff (text : String) : (parseNumber text).isNaN = true ↔
    trim text.toList ≠ [] ∧ ¬ MatchesNumericText (trim text.toList) ∧
      String.ofList (trim text.toList) ∉ ["Infinity", "+Infinity", "-Infinity"] := by
  have hzero : (0 : Float).isNaN = false := by decide +kernel
  by_cases hblank : trim text.toList = []
  · -- a blank text counts as zero
    have hvalue : parseNumber text = 0 := by
      rw [parseNumber, hblank]
    rw [hvalue, hzero]
    exact ⟨nofun, fun h => absurd hblank h.1⟩
  · rw [parseNumber_of_ne hblank, ← Numeral.isSome_ofText?_iff]
    generalize String.ofList (trim text.toList) = word
    cases Numeral.ofText? (trim text.toList) with
    | some n =>
        constructor
        · intro h
          exact absurd (n.isNaN_toFloat.symm.trans h) Bool.false_ne_true
        · intro h
          exact absurd rfl h.2.1
    | none =>
        -- no numeral, so only the words for infinity are left
        show (if word ∈ ["Infinity", "+Infinity"] then infinity
          else if word = "-Infinity" then -infinity else notANumber).isNaN = true ↔ _
        have hmem : word ∈ ["Infinity", "+Infinity", "-Infinity"] ↔
            word ∈ ["Infinity", "+Infinity"] ∨ word = "-Infinity" := by
          simp only [List.mem_cons, List.not_mem_nil, or_false, or_assoc]
        rw [hmem]
        split
        · next hword =>
          rw [isNaN_infinity]
          exact ⟨nofun, fun h => absurd (Or.inl hword) h.2.2⟩
        · next hword =>
          split
          · next hlast =>
            rw [isNaN_neg isNaN_infinity]
            exact ⟨nofun, fun h => absurd (Or.inr hlast) h.2.2⟩
          · next hlast =>
            rw [isNaN_notANumber]
            exact ⟨fun _ => ⟨hblank, Bool.false_ne_true, fun h => h.elim hword hlast⟩, fun _ => rfl⟩

/-! ## Parameters -/

/-- One parameter is as good as the other wherever numbers are read: among the
    parameters of any operator but the one that joins texts, and of any
    function but the one that takes a text. -/
structure SameInArithmetic (p q : Option Value) : Prop where
  operator : ∀ symbol, symbol ≠ "&" → ∀ before after,
    executeOperator symbol (before ++ p :: after) = executeOperator symbol (before ++ q :: after)
  function : ∀ name, Function.ofName? name ≠ some .upper → ∀ before after,
    executeFunction name (before ++ p :: after) = executeFunction name (before ++ q :: after)

/-- No symbol but the one joins texts. -/
theorem Operator.ofSymbol?_eq_concat {symbol : String}
    (h : ofSymbol? symbol = some .concat) : symbol = "&" := by
  unfold ofSymbol? at h
  split at h
  · rfl
  · cases h
  · cases h
  · cases h
  · cases h
  · cases h

section

variable {op : Operator} {f : Float → Float → Float}

/-- Arithmetic takes its two parameters for the numbers that they count as. -/
theorem Operator.apply_pair (hf : op.arithmetic? = some f) (p q : Option Value) :
    op.apply [p, q] = some (.number (f (Value.numberOf p) (Value.numberOf q))) := by
  unfold apply
  rw [hf]

/-- Arithmetic has no value for fewer or for more than two parameters. -/
theorem Operator.apply_of_length_ne (hf : op.arithmetic? = some f) {ps : List (Option Value)}
    (h : ps.length ≠ 2) : op.apply ps = none := by
  unfold apply
  rw [hf]
  cases ps with
  | nil => rfl
  | cons p ps =>
      cases ps with
      | nil => rfl
      | cons q ps =>
          cases ps with
          | nil => exact absurd rfl h
          | cons r ps => rfl

/-- Arithmetic sees of its parameters how many they are and their numbers. -/
theorem Operator.apply_congr (hf : op.arithmetic? = some f) {ps qs : List (Option Value)}
    (h : ps.map Value.numberOf = qs.map Value.numberOf) : op.apply ps = op.apply qs := by
  have hlength : ps.length = qs.length := by
    rw [← List.length_map Value.numberOf, h, List.length_map]
  by_cases hpair : ps.length = 2
  · obtain ⟨p, q, rfl⟩ := List.length_eq_two.mp hpair
    obtain ⟨p', q', rfl⟩ := List.length_eq_two.mp (hlength.symm.trans hpair)
    obtain ⟨hfirst, hrest⟩ := List.cons.inj h
    obtain ⟨hsecond, -⟩ := List.cons.inj hrest
    rw [apply_pair hf, apply_pair hf, hfirst, hsecond]
  · rw [apply_of_length_ne hf hpair, apply_of_length_ne hf (hlength ▸ hpair)]

end

/-- Every operator but the one that joins texts has an arithmetic. -/
theorem Operator.exists_arithmetic? {op : Operator} (h : op ≠ .concat) :
    ∃ f, op.arithmetic? = some f := by
  cases op with
  | concat => exact absurd rfl h
  | add => exact ⟨_, rfl⟩
  | subtract => exact ⟨_, rfl⟩
  | multiply => exact ⟨_, rfl⟩
  | divide => exact ⟨_, rfl⟩

/-- `ROUND` sees the number of its first parameter. -/
theorem Function.apply_round_congr {ps qs : List (Option Value)}
    (h : ps.map Value.numberOf = qs.map Value.numberOf) :
    Function.round.apply ps = Function.round.apply qs := by
  have hnumbers : ∀ params, Function.round.apply params
      = (params.map Value.numberOf).head?.map fun x => .number (roundHalfUp x) := by
    intro params
    cases params with
    | nil => rfl
    | cons first params => rfl
  rw [hnumbers, hnumbers, h]

/-- Parameters that count as the same number are as good as each other. -/
theorem sameInArithmetic_of_numberOf {p q : Option Value}
    (h : Value.numberOf p = Value.numberOf q) : SameInArithmetic p q := by
  -- arithmetic looks at nothing but the numbers that parameters count as
  have hparams : ∀ before after, (before ++ p :: after).map Value.numberOf
      = (before ++ q :: after).map Value.numberOf := by
    intro before after
    rw [List.map_append, List.map_append, List.map_cons, List.map_cons, h]
  constructor
  · intro symbol hsymbol before after
    rw [executeOperator, executeOperator]
    cases hop : Operator.ofSymbol? symbol with
    | none => rfl
    | some op =>
        have hne : op ≠ .concat := by
          rintro rfl
          exact hsymbol (Operator.ofSymbol?_eq_concat hop)
        obtain ⟨f, hf⟩ := Operator.exists_arithmetic? hne
        exact Operator.apply_congr hf (hparams before after)
  · intro name hname before after
    rw [executeFunction, executeFunction]
    cases hf : Function.ofName? name with
    | none => rfl
    | some f =>
        cases f with
        | round => exact Function.apply_round_congr (hparams before after)
        | upper => exact absurd hf hname

/-- **LITERALS AND NUMERIC TEXTS AGREE**: a text that the lexer takes in full
    as a number is a literal, of the number that the text counts as, and takes
    the place of the literal wherever numbers are read.  And a text counts as
    NaN exactly where it is not blank, no numeral and no word for infinity. -/
theorem literal_eq_parseNumber :
    (∀ v : String, MatchesNumber v.toList →
      Pattern.number.ahead v.toList = v.toList ∧
      readLiteral? v = some (parseNumber v) ∧
      (∀ start stop, parse [⟨.number, v, start, stop⟩] = .ok (.number (parseNumber v))) ∧
      SameInArithmetic (some (.text v)) (some (.number (parseNumber v)))) ∧
    ∀ text : String, (parseNumber text).isNaN = true ↔
      trim text.toList ≠ [] ∧ ¬ MatchesNumericText (trim text.toList) ∧
        String.ofList (trim text.toList) ∉ ["Infinity", "+Infinity", "-Infinity"] := by
  refine ⟨?_, isNaN_parseNumber_iff⟩
  intro v h
  obtain ⟨n, hread⟩ := Option.isSome_iff_exists.mp (Numeral.isSome_ofText?_iff.mpr h.numericText)
  have hliteral : readLiteral? v = some (parseNumber v) := by
    rw [readLiteral?, hread, parseNumber_of_ofText? hread]
  refine ⟨(isNumber_iff.mpr h).2, hliteral, ?_, sameInArithmetic_of_numberOf rfl⟩
  intro start stop
  have hoperand : Grammar.Operand true 0 (significant [⟨.number, v, start, stop⟩])
      (.number (parseNumber v)) := .number (t := ⟨.number, v, start, stop⟩) rfl hliteral
  exact parse_of_derives (by decide) (.operand hoperand)

/-- A sign and a bare point are read in both, an exponent without digits is
    read in neither. -/
theorem literal_eq_parseNumber_half :
    MatchesNumber "-.50".toList ∧ readLiteral? "-.50" = some (-0.5) ∧
    parseNumber "-.50" = -0.5 ∧
    executeOperator "+" [some (.text "-.50"), some (.number 1)]
      = executeOperator "+" [some (.number (parseNumber "-.50")), some (.number 1)] ∧
    (parseNumber "2e").isNaN = true := by
  obtain ⟨hagree, hnan⟩ := literal_eq_parseNumber
  have htext : "-.50".toList = ['-', '.', '5', '0'] := by decide
  have hmatch : MatchesNumber "-.50".toList := by
    rw [htext]
    show MatchesNumber (['-'] ++ ([] ++ (['.'] ++ ['5', '0'])))
    refine .intro (Or.inr rfl) (List.forall_mem_nil _) (Or.inr rfl) (List.cons_ne_nil '5' ['0']) ?_
    intro c hc
    rcases List.mem_cons.mp hc with rfl | hc
    · rfl
    · rw [List.mem_singleton.mp hc]
      rfl
  have hvalue : parseNumber "-.50" = -0.5 := by decide +kernel
  obtain ⟨-, hliteral, -, hsame⟩ := hagree "-.50" hmatch
  refine ⟨hmatch, hvalue ▸ hliteral, hvalue,
    hsame.operator "+" (by decide) [] [some (.number 1)], (hnan "2e").mpr ⟨?_, ?_, ?_⟩⟩
  · decide +kernel
  · rw [← Numeral.isSome_ofText?_iff]
    decide +kernel
  · decide +kernel

end FormulaBar
