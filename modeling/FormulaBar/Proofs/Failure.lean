import FormulaBar.Proofs.Phrase

/-! # Failure — why a reader stops

    A reader that fails says what it missed, and what it says is so: some
    token among those at hand asks for something that is not right behind
    it, or a value or a parenthesis is missing at some place, or the levels
    are used up.  These are the faults of the tokens, one for each message
    of a reader.  The messages of the parser itself, that nothing is there
    and that a token is left, are none of them.

    So a sequence without a fault of some kind is never refused for it.
    Whether a reader succeeds or fails, it stops at an end of the tokens. -/

namespace FormulaBar

/-- What is wrong with tokens from the first of them on, and the error that
    says so. -/
inductive Fault : List Token → ParseError → Prop where
  /-- The levels are used up. -/
  | level {tokens : List Token} : Fault tokens .tooDeep
  /-- No value starts. -/
  | value {tokens : List Token} (h : tokens.head?.any Grammar.startsOperand = false) :
      Fault tokens (.missingValue tokens.head?)
  /-- The text of a number is no numeral. -/
  | number {t : Token} {rest : List Token} (kind : t.kind = .number)
      (literal : readLiteral? t.text = none) : Fault (t :: rest) (.badNumber t.text)
  /-- A start quote without a text behind it. -/
  | startQuote {quote t : Token} {rest : List Token} (hquote : quote.kind = .startQuote)
      (ht : t.kind ≠ .string ∧ t.kind ≠ .endQuote) :
      Fault (quote :: t :: rest) (.missingQuote t)
  /-- A string without an end quote behind it. -/
  | string {string t : Token} {rest : List Token} (hstring : string.kind = .string)
      (ht : t.kind ≠ .endQuote) : Fault (string :: t :: rest) (.missingQuote t)
  /-- A bracket without a reference name behind it. -/
  | bracket {opener : Token} {rest : List Token} (hopener : opener.isBracket '[' = true)
      (h : rest.head?.any (·.kind == .referenceName) = false) :
      Fault (opener :: rest) (.missingName rest.head?)
  /-- A reference name without its bracket. -/
  | referenceName {name : Token} {rest : List Token} (hname : name.kind = .referenceName)
      (h : rest.head?.any (·.isBracket ']') = false) :
      Fault (name :: rest) (.missingBracket ']' rest.head?)
  /-- A function name without its parenthesis. -/
  | functionName {name : Token} {rest : List Token} (hname : name.kind = .functionName)
      (h : rest.head?.any (·.isBracket '(') = false) :
      Fault (name :: rest) (.missingBracket '(' rest.head?)
  /-- No parenthesis closes. -/
  | parenthesis {tokens : List Token} (h : tokens.head?.any (·.isBracket ')') = false) :
      Fault tokens (.missingBracket ')' tokens.head?)

namespace Outcome

variable {α β : Type} {tokens tokens' : List Token}

/-- The outcome stops at an end of the tokens, and where it failed there is
    its fault among them. -/
def Explained (tokens : List Token) : Outcome α → Prop
  | .done _ rest => rest <:+ tokens
  | .failed error rest _ => rest <:+ tokens ∧ ∃ l, l <:+ tokens ∧ Fault l error

/-- What some tokens explain is explained with more of them in front. -/
theorem Explained.mono {o : Outcome α} (h : o.Explained tokens) (hsuffix : tokens <:+ tokens') :
    o.Explained tokens' := by
  cases o with
  | done value rest => exact List.IsSuffix.trans h hsuffix
  | failed error rest levels =>
      obtain ⟨hrest, l, hl, hfault⟩ := h
      exact ⟨hrest.trans hsuffix, l, hl.trans hsuffix, hfault⟩

/-- An outcome is explained whatever its value is mapped to. -/
theorem Explained.map {o : Outcome α} (f : α → β) (h : o.Explained tokens) :
    (o.map f).Explained tokens := by
  cases o with
  | done value rest => exact h
  | failed error rest levels => exact h

theorem Explained.enclose {o : Outcome α} (h : o.Explained tokens) :
    o.enclose.Explained tokens := by
  cases o with
  | done value rest => exact h
  | failed error rest levels => exact h

/-- What goes on stops at an end of what is left. -/
theorem Explained.andThen {o : Outcome α} {f : α → List Token → Outcome β}
    (h : o.Explained tokens) (hf : ∀ value rest, (f value rest).Explained rest) :
    (o.andThen f).Explained tokens := by
  cases o with
  | done value rest => exact (hf value rest).mono h
  | failed error rest levels => exact h

end Outcome

/-! ## Brackets, texts and references -/

section

open Outcome

variable {tokens rest : List Token}

/-- A bracket that is missing is what a token in front of it asks for. -/
theorem expectBracket_explained {b : Char} (hrest : rest <:+ tokens)
    (hfault : rest.head?.any (·.isBracket b) = false →
      ∃ l, l <:+ tokens ∧ Fault l (.missingBracket b rest.head?)) :
    (expectBracket b rest).Explained tokens := by
  cases rest with
  | nil => exact ⟨hrest, hfault rfl⟩
  | cons t tail =>
      by_cases ht : t.isBracket b = true
      · rw [expectBracket, if_pos ht]
        exact (List.suffix_cons t tail).trans hrest
      · rw [expectBracket, if_neg ht]
        exact ⟨hrest, hfault (Bool.eq_false_iff.mpr ht)⟩

/-- A closing parenthesis that is missing is missed where it is. -/
theorem expectBracket_closeParen (tokens : List Token) :
    (expectBracket ')' tokens).Explained tokens :=
  expectBracket_explained (List.suffix_refl tokens)
    fun h => ⟨tokens, List.suffix_refl tokens, .parenthesis h⟩

/-- An end quote that is missing is missed where the text ends. -/
theorem closeQuote_explained {text : String} (hrest : rest <:+ tokens)
    (hfault : ∀ t tail, rest = t :: tail → t.kind ≠ .endQuote →
      ∃ l, l <:+ tokens ∧ Fault l (.missingQuote t)) :
    (closeQuote text rest).Explained tokens := by
  cases rest with
  | nil => exact hrest
  | cons t tail =>
      by_cases ht : t.kind = .endQuote
      · rw [closeQuote, if_pos ht]
        exact (List.suffix_cons t tail).trans hrest
      · rw [closeQuote, if_neg ht]
        exact ⟨hrest, hfault t tail rfl ht⟩

/-- Behind a start quote. -/
theorem textBody_explained {quote : Token} (hquote : quote.kind = .startQuote)
    (rest : List Token) : (textBody rest).Explained (quote :: rest) := by
  have hrest := List.suffix_cons quote rest
  cases rest with
  | nil => exact hrest
  | cons t tail =>
      by_cases ht : t.kind = .string
      · rw [textBody, if_pos ht]
        refine closeQuote_explained ((List.suffix_cons t tail).trans hrest) ?_
        rintro u tail rfl hu
        exact ⟨t :: u :: tail, hrest, .string ht hu⟩
      · rw [textBody, if_neg ht]
        refine closeQuote_explained hrest ?_
        rintro u tail heq hu
        obtain ⟨rfl, rfl⟩ := List.cons.inj heq
        exact ⟨_, List.suffix_refl _, .startQuote hquote ⟨ht, hu⟩⟩

/-- Behind the bracket that opens a reference. -/
theorem referenceBody_explained {opener : Token} (hopener : opener.isBracket '[' = true)
    (rest : List Token) : (referenceBody rest).Explained (opener :: rest) := by
  have hrest := List.suffix_cons opener rest
  cases rest with
  | nil => exact ⟨hrest, _, List.suffix_refl _, .bracket hopener rfl⟩
  | cons t tail =>
      by_cases ht : t.kind = .referenceName
      · rw [referenceBody, if_pos ht]
        refine Explained.map _ (expectBracket_explained ?_ fun h => ?_)
        · exact (List.suffix_cons t tail).trans hrest
        · exact ⟨t :: tail, hrest, .referenceName ht h⟩
      · rw [referenceBody, if_neg ht]
        exact ⟨hrest, _, List.suffix_refl _, .bracket hopener (by simpa using ht)⟩

end

/-! ## Loops -/

/-- Whatever a reader makes of any tokens is explained by them. -/
def Reader.Explains {α : Type} (r : Reader α) : Prop :=
  ∀ tokens, (r.read tokens).Explained tokens

open Outcome

/-- The loop over operators fails for its operands only. -/
theorem links_explained {operand : Reader Expr} (h : operand.Explains)
    (read : List (String × Expr)) (tokens : List Token) :
    (links operand read tokens).Explained tokens := by
  fun_induction links operand read tokens with
  | case1 => exact List.suffix_refl []
  | case2 read t rest ht e rest' hread _ ih =>
      have hoperand := h rest
      rw [hread] at hoperand
      exact (ih.mono hoperand).mono (List.suffix_cons t rest)
  | case3 read t rest ht error rest' levels hread =>
      have hoperand := h rest
      rw [hread] at hoperand
      exact Explained.mono hoperand (List.suffix_cons t rest)
  | case4 read t rest ht => exact List.suffix_refl _

/-- The loop over arguments fails for one of them or for the parenthesis
    behind. -/
theorem argumentList_explained {inner : Reader Expr} (h : inner.Explains)
    (read : List Expr) (tokens : List Token) :
    (argumentList inner read tokens).Explained tokens := by
  fun_induction argumentList inner read tokens with
  | case1 read tokens error rest levels hread =>
      have hinner := h tokens
      rw [hread] at hinner
      exact hinner
  | case2 read tokens e hread =>
      exact ⟨List.nil_suffix, [], List.nil_suffix, .parenthesis rfl⟩
  | case3 read tokens e t rest hread _ ht ih =>
      have hinner := h tokens
      rw [hread] at hinner
      exact ih.mono ((List.suffix_cons t rest).trans hinner)
  | case4 read tokens e t rest hread _ ht =>
      have hinner := h tokens
      rw [hread] at hinner
      exact ((expectBracket_closeParen (t :: rest)).map _).mono hinner

/-- Behind a function name. -/
theorem callArguments_explained {inner : Reader Expr} (h : inner.Explains) {name : Token}
    (hname : name.kind = .functionName) (rest : List Token) :
    (callArguments inner rest).Explained (name :: rest) := by
  refine Explained.andThen (expectBracket_explained (List.suffix_cons name rest) ?_) ?_
  · exact fun hopener => ⟨_, List.suffix_refl _, .functionName hname hopener⟩
  · intro _ rest
    cases rest with
    | nil => exact argumentList_explained h [] []
    | cons t tail =>
        by_cases ht : t.isBracket ')' = true
        · simp only [if_pos ht]
          exact List.suffix_cons t tail
        · simp only [if_neg ht]
          exact argumentList_explained h [] (t :: tail)

/-! ## Operands and expressions -/

/-- **ONE LEVEL IS EXPLAINED**: an operand is explained where the inner
    expressions are. -/
theorem operand_explained {inner : Reader Expr} (h : inner.Explains) :
    (operandReader inner).Explains := by
  intro tokens
  show (operand inner tokens).Explained tokens
  cases tokens with
  | nil => exact ⟨List.nil_suffix, [], List.nil_suffix, .value rfl⟩
  | cons t rest =>
      by_cases hstart : Grammar.startsOperand t = true
      · simp only [Grammar.startsOperand, Bool.or_eq_true, beq_iff_eq] at hstart
        rcases hstart with (((ht | ht) | ht) | ht) | ht
        · cases hvalue : readLiteral? t.text with
          | some value =>
              rw [Grammar.operand_number inner rest ht hvalue]
              exact List.suffix_cons t rest
          | none =>
              simp only [operand, if_pos ht, hvalue]
              exact ⟨List.suffix_cons t rest, _, List.suffix_refl _, .number ht hvalue⟩
        · rw [Grammar.operand_startQuote inner rest ht]
          exact textBody_explained ht rest
        · rw [Grammar.operand_functionName inner rest ht]
          exact (callArguments_explained h ht rest).map _
        · rw [Grammar.operand_openParen inner rest ht]
          refine Explained.mono (Explained.andThen (h rest) fun e rest => ?_)
            (List.suffix_cons t rest)
          exact (expectBracket_closeParen rest).map _
        · rw [Grammar.operand_openBracket inner rest ht]
          exact referenceBody_explained ht rest
      · -- what starts no operand is refused where it stands
        have hread : operand inner (t :: rest) =
            .failed (.missingValue (some t)) (t :: rest) 0 := by
          simp only [Grammar.startsOperand, Bool.or_eq_true, beq_iff_eq, not_or] at hstart
          obtain ⟨⟨⟨⟨hnumber, hquote⟩, hname⟩, hparen⟩, hbracket⟩ := hstart
          rw [operand, if_neg hnumber, if_neg hquote, if_neg hname, if_neg hparen,
            if_neg hbracket]
        rw [hread]
        exact ⟨List.suffix_refl _, t :: rest, List.suffix_refl _,
          .value (Bool.eq_false_iff.mpr hstart)⟩

/-- **FAILURES ARE EXPLAINED**: an expression is read up to an end of the
    tokens, and where that fails they have the fault that the error names. -/
theorem expression_explained (n : Nat) : (expression n).Explains := by
  induction n with
  | zero =>
      intro tokens
      exact ⟨List.suffix_refl tokens, tokens, List.suffix_refl tokens, .level⟩
  | succ n ih =>
      intro tokens
      refine Explained.enclose (Explained.andThen (operand_explained ih tokens) ?_)
      intro first rest
      exact (links_explained (operand_explained ih) [] rest).map _

/-- A failure inside of another phrase leaves one more level open. -/
theorem Outcome.enclose_eq_failed {α : Type} {o : Outcome α} {error : ParseError}
    {rest : List Token} {levels : Nat} :
    o.enclose = .failed error rest levels ↔
      ∃ n, o = .failed error rest n ∧ n + 1 = levels := by
  cases o <;> simp [enclose, and_assoc]

/-- A failure inside of an expression leaves its level open. -/
theorem levels_pos_of_failed {n : Nat} {tokens rest : List Token} {error : ParseError}
    {levels : Nat} (h : (expression n).read tokens = .failed error rest levels) :
    0 < levels := by
  cases n with
  | zero =>
      cases h
      exact Nat.one_pos
  | succ n =>
      obtain ⟨inner, -, rfl⟩ := Outcome.enclose_eq_failed.mp h
      exact Nat.succ_pos inner

/-! ## Errors of the parser -/

/-- Where significant tokens have no tree, a token is left behind an
    expression, or they have a fault. -/
theorem fault_of_parse {tokens : List Token} {error : ParseError}
    (h : parse tokens = .error error) (hne : significant tokens ≠ []) :
    (∃ t, error = .trailing t) ∨ ∃ l, l <:+ significant tokens ∧ Fault l error := by
  rw [parse_of_significant_ne_nil hne] at h
  have hexplained := expression_explained maxLevels (significant tokens)
  cases hread : (expression maxLevels).read (significant tokens) with
  | done e rest =>
      rw [hread] at h
      cases rest with
      | nil => cases h
      | cons t rest => exact Or.inl ⟨t, (Except.error.inj h).symm⟩
  | failed error' rest levels =>
      rw [hread] at h hexplained
      obtain rfl := Except.error.inj h
      exact Or.inr hexplained.2

end FormulaBar
