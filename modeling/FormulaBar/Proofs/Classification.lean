import FormulaBar.Decimal.Numeral
import FormulaBar.Token.Lexer
import Mathlib.Data.List.TakeDrop
import Mathlib.Data.List.TakeWhile

/-! # Classification — the rules of the lexer, taken apart

    Each branch of `classify` is one rule, and a rule says everything that
    holds at the cursor where it decides: what it tests itself and that no
    rule tried earlier applied.  Whatever is to be known about the tokens of
    formulas is read off these rules.  A number token in particular takes
    digits with at most one point among them, which is a numeral. -/

namespace FormulaBar

/-- The class of the latest significant token. -/
def History.latestKind? (history : History) : Option Token.Kind :=
  history.previous?.map (·.kind)

/-! ## Rules -/

/-- Neither a quote nor the text behind one starts at the cursor, which
    stands in front of `c`. -/
structure OutsideText (cursor : Cursor) (history : History) (c : Char) : Prop where
  peek : cursor.peek? = some c
  not_quote : c ≠ '"'
  not_behind : history.latestKind? ≠ some .startQuote

/-- Besides, neither a number nor an operator starts there. -/
structure OutsideChain (cursor : Cursor) (history : History) (c : Char) : Prop
    extends OutsideText cursor history c where
  no_number : cursor.match? .number = none
  no_operator : c ∉ operatorChars

/-- Besides, no name starts there. -/
structure OutsideNames (cursor : Cursor) (history : History) (c : Char) : Prop
    extends OutsideChain cursor history c where
  no_reference : history.previous?.any (·.isBracket '[') = true →
    referenceAhead? cursor = none
  no_identifier : cursor.match? .identifier = none

/-- The rules that name the class and the length of the token at a cursor,
    one for each branch of `classify`. -/
inductive Rule (cursor : Cursor) (history : History) : Token.Kind → Nat → Prop where
  | atEnd (hend : cursor.peek? = none) : Rule cursor history .error 0
  | endQuote (hc : cursor.peek? = some '"')
      (hopen : history.latestKind? = some .string ∨
        history.latestKind? = some .startQuote) :
      Rule cursor history .endQuote 1
  | startQuote (hc : cursor.peek? = some '"')
      (hclosed : ¬ (history.latestKind? = some .string ∨
        history.latestKind? = some .startQuote)) :
      Rule cursor history .startQuote 1
  | string {c : Char} (hc : cursor.peek? = some c) (hquote : c ≠ '"')
      (hbehind : history.latestKind? = some .startQuote) :
      Rule cursor history .string (Pattern.quotedText.ahead cursor.rest).length
  | number {c : Char} {text : List Char} (hc : OutsideText cursor history c)
      (hmatch : cursor.match? .number = some text)
      (hminus : c = '-' → history.latestKind? = some .operator) :
      Rule cursor history .number text.length
  /-- A minus sign in front of a number, but not behind an operator. -/
  | minus {text : List Char} (hc : OutsideText cursor history '-')
      (hmatch : cursor.match? .number = some text)
      (hminus : history.latestKind? ≠ some .operator) :
      Rule cursor history .operator 1
  | operator {c : Char} (hc : OutsideText cursor history c)
      (hmatch : cursor.match? .number = none) (hmem : c ∈ operatorChars) :
      Rule cursor history .operator 1
  | referenceName {c : Char} {name : List Char} (hc : OutsideChain cursor history c)
      (hopener : history.previous?.any (·.isBracket '[') = true)
      (hname : referenceAhead? cursor = some name) :
      Rule cursor history .referenceName name.length
  | functionName {c : Char} {name : List Char} (hc : OutsideChain cursor history c)
      (hmatch : cursor.match? .identifier = some name)
      (hparen : (cursor.advance name.length).peek? = some '(') :
      Rule cursor history .functionName name.length
  | unfinishedFormula {c : Char} {name : List Char}
      (hc : OutsideChain cursor history c)
      (hmatch : cursor.match? .identifier = some name)
      (hparen : (cursor.advance name.length).peek? ≠ some '(') :
      Rule cursor history .unfinishedFormula name.length
  | bracket {c : Char} (hc : OutsideNames cursor history c)
      (hmem : c ∈ bracketChars) : Rule cursor history .bracket 1
  | comma (hc : OutsideNames cursor history ',') : Rule cursor history .comma 1
  | whitespace {c : Char} {spaces : List Char} (hc : OutsideNames cursor history c)
      (hbracket : c ∉ bracketChars) (hcomma : c ≠ ',')
      (hmatch : cursor.match? .spaces = some spaces) :
      Rule cursor history .whitespace spaces.length
  | error {c : Char} (hc : OutsideNames cursor history c) (hbracket : c ∉ bracketChars)
      (hcomma : c ≠ ',') (hmatch : cursor.match? .spaces = none) :
      Rule cursor history .error 1

/-- Every answer of the classifier is by a rule. -/
theorem rule_of_classify (cursor : Cursor) (history : History) :
    Rule cursor history (classify cursor history).1 (classify cursor history).2 := by
  rw [classify]
  -- the branches in their order; what they exclude is collected on the way
  split
  · next hend => exact .atEnd hend
  · next c hc =>
      simp only
      split
      · next hquote =>
          subst hquote
          split
          · next hopen => exact .endQuote hc hopen
          · next hclosed => exact .startQuote hc hclosed
      next hquote =>
      split
      · next hbehind => exact .string hc hquote hbehind
      next hbehind =>
      have htext : OutsideText cursor history c := ⟨hc, hquote, hbehind⟩
      split
      · next text hmatch =>
          split
          · next hminus =>
              obtain ⟨rfl, hminus⟩ := hminus
              exact .minus htext hmatch hminus
          · next hminus =>
              refine .number htext hmatch fun hdash => ?_
              -- a minus sign that is part of the number is behind an operator
              exact Classical.byContradiction fun hkind => hminus ⟨hdash, hkind⟩
      next hnumber =>
      have hnumber : cursor.match? .number = none :=
        Option.eq_none_iff_forall_ne_some.mpr hnumber
      split
      · next hoperator => exact .operator htext hnumber hoperator
      next hoperator =>
      have hchain : OutsideChain cursor history c := ⟨htext, hnumber, hoperator⟩
      split
      · next name hname =>
          by_cases hopener : history.previous?.any (·.isBracket '[') = true
          · rw [if_pos hopener] at hname
            exact .referenceName hchain hopener hname
          · rw [if_neg hopener] at hname
            cases hname
      next hreference =>
      split
      · next name hmatch =>
          split
          · next hparen => exact .functionName hchain hmatch hparen
          · next hparen => exact .unfinishedFormula hchain hmatch hparen
      next hidentifier =>
      have hnames : OutsideNames cursor history c := by
        refine ⟨hchain, fun hopener => ?_, ?_⟩
        · rw [if_pos hopener] at hreference
          exact Option.eq_none_iff_forall_ne_some.mpr hreference
        · exact Option.eq_none_iff_forall_ne_some.mpr hidentifier
      split
      · next hbracket => exact .bracket hnames hbracket
      next hbracket =>
      split
      · next hcomma => exact .comma (hcomma ▸ hnames)
      next hcomma =>
      split
      · next spaces hmatch => exact .whitespace hnames hbracket hcomma hmatch
      · next hspaces =>
          have hspaces := Option.eq_none_iff_forall_ne_some.mpr hspaces
          exact .error hnames hbracket hcomma hspaces

/-! ## Number tokens -/

theorem Cursor.match?_eq_some {cursor : Cursor} {p : Pattern} {text : List Char} :
    cursor.match? p = some text ↔ p.ahead cursor.rest = text ∧ text ≠ [] := by
  rw [Cursor.match?]
  split
  · next hnil =>
      rw [hnil]
      constructor
      · intro h
        cases h
      · rintro ⟨rfl, h⟩
        exact absurd rfl h
  · next hne =>
      rw [Option.some.injEq]
      constructor
      · rintro rfl
        exact ⟨rfl, hne⟩
      · exact And.left

/-- Digits, or digits with a point and at least one digit behind it. -/
inductive Unsigned : List Char → Prop where
  | whole {digits : List Char} (h : ∀ c ∈ digits, c.isDigit = true) : Unsigned digits
  | point {whole fraction : List Char} (hwhole : ∀ c ∈ whole, c.isDigit = true)
      (hfraction : ∀ c ∈ fraction, c.isDigit = true) (hne : fraction ≠ []) :
      Unsigned (whole ++ '.' :: fraction)

theorem unsigned_unsignedNumber (text : List Char) : Unsigned (unsignedNumber text) := by
  have hdigits : ∀ l : List Char, ∀ c ∈ l.takeWhile Char.isDigit, c.isDigit = true :=
    fun l c hc => List.mem_takeWhile_imp hc
  rw [unsignedNumber]
  split
  · next rest _ =>
      split
      · exact .whole (hdigits text)
      · next hne => exact .point (hdigits text) (hdigits rest) hne
  · exact .whole (hdigits text)

/-- No sign stands in front of an unsigned number. -/
theorem Unsigned.splitSign_eq {text : List Char} (h : Unsigned text) :
    Numeral.splitSign text = (false, text) := by
  have hsign : ∀ c rest, c.isDigit = true ∨ c = '.' →
      Numeral.splitSign (c :: rest) = (false, c :: rest) := by
    intro c rest hc
    rw [Numeral.splitSign]
    · intro rest' heq
      obtain ⟨rfl, -⟩ := List.cons.inj heq
      exact absurd hc (by decide)
    · intro rest' heq
      obtain ⟨rfl, -⟩ := List.cons.inj heq
      exact absurd hc (by decide)
  cases h with
  | whole h =>
      cases text with
      | nil => rfl
      | cons c rest => exact hsign c rest (Or.inl (h c List.mem_cons_self))
  | @point whole fraction hwhole _ _ =>
      cases whole with
      | nil => exact hsign '.' fraction (Or.inr rfl)
      | cons c rest => exact hsign c _ (Or.inl (hwhole c List.mem_cons_self))

/-- Digits are taken off the front as far as they go. -/
theorem span_digits {digits : List Char} (h : ∀ c ∈ digits, c.isDigit = true)
    (rest : List Char) (hrest : rest.takeWhile Char.isDigit = []) :
    (digits ++ rest).span Char.isDigit = (digits, rest) := by
  have hdrop := List.takeWhile_append_dropWhile (p := Char.isDigit) (l := rest)
  rw [hrest, List.nil_append] at hdrop
  rw [List.span_eq_takeWhile_dropWhile, List.takeWhile_append_of_pos h,
    List.dropWhile_append_of_pos h, hrest, hdrop, List.append_nil]

/-- What is left behind its sign being unsigned, a text is a numeral. -/
theorem Unsigned.isSome_ofText? {text body : List Char} {negative : Bool}
    (h : Unsigned body) (hne : body ≠ [])
    (hsign : Numeral.splitSign text = (negative, body)) :
    (Numeral.ofText? text).isSome = true := by
  rw [Numeral.ofText?, hsign]
  cases h with
  | whole h =>
      have hspan := span_digits h [] rfl
      rw [List.append_nil] at hspan
      simp only [hspan, Numeral.afterPoint]
      rw [if_neg fun h => hne h.1]
      rfl
  | @point whole fraction hwhole hfraction hfne =>
      have hspan := span_digits hwhole ('.' :: fraction) rfl
      have hspan' := span_digits hfraction [] rfl
      rw [List.append_nil] at hspan'
      simp only [hspan, Numeral.afterPoint, hspan']
      rw [if_neg fun h => hfne h.2]
      rfl

/-- The pattern of numbers takes an unsigned number, or a minus sign with a
    nonempty one behind it. -/
theorem ahead_number (text : List Char) :
    Unsigned (Pattern.number.ahead text) ∨
      ∃ body, Pattern.number.ahead text = '-' :: body ∧ body ≠ [] ∧ Unsigned body := by
  simp only [Pattern.number]
  split
  · next rest =>
      split
      · exact Or.inl (.whole fun c hc => by cases hc)
      · next hne => exact Or.inr ⟨_, rfl, hne, unsigned_unsignedNumber rest⟩
  · exact Or.inl (unsigned_unsignedNumber _)

/-- **NUMBER TOKENS ARE LITERALS**: what the pattern of numbers takes off a
    text reads as a number. -/
theorem isSome_readLiteral? {cursor : Cursor} {text : List Char}
    (h : cursor.match? .number = some text) :
    (readLiteral? (String.ofList text)).isSome = true := by
  obtain ⟨rfl, hne⟩ := Cursor.match?_eq_some.mp h
  have hnumeral : (Numeral.ofText? (Pattern.number.ahead cursor.rest)).isSome = true := by
    rcases ahead_number cursor.rest with hunsigned | ⟨body, heq, hbody, hunsigned⟩
    · exact hunsigned.isSome_ofText? hne hunsigned.splitSign_eq
    · rw [heq]
      exact hunsigned.isSome_ofText? hbody rfl
  obtain ⟨n, hn⟩ := Option.isSome_iff_exists.mp hnumeral
  rw [readLiteral?, String.toList_ofList, hn]
  rfl

end FormulaBar
