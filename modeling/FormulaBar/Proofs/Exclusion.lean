import FormulaBar.Proofs.Failure
import FormulaBar.Proofs.Succession

/-! # Exclusion — failures that no formula causes

    The parser has messages for faults that the tokens of a formula do not
    have.  A token that asks for something right behind it was chosen with
    that in view: a function name with its parenthesis, a reference name
    with its bracket, a string with the quote that ends it.  What follows a
    start quote is a string or an end quote, and a number is a literal.

    Whitespace that is left out of the tokens puts nothing else behind them,
    since what is granted is no whitespace.  And each failure has its fault
    among the tokens, wherever in the recursion it happens.  So these four
    messages are left for sequences that are no tokens of a formula. -/

namespace FormulaBar

/-! ## What stands behind a significant token -/

/-- A number reads, and what asks for a token behind it has that token, or
    is the last one where the parser allows for it. -/
structure Supplied (t : Token) (rest : List Token) : Prop where
  number : t.kind = .number → (readLiteral? t.text).isSome = true
  startQuote : t.kind = .startQuote →
    rest.head?.all (fun u => u.kind == .string || u.kind == .endQuote) = true
  string : t.kind = .string → rest.head?.all (·.kind == .endQuote) = true
  referenceName : t.kind = .referenceName → rest.head?.any (·.isBracket ']') = true
  functionName : t.kind = .functionName → rest.head?.any (·.isBracket '(') = true

/-- A number token read off a text reads as a number. -/
theorem Next.isSome_readLiteral? {m : Memory} {t : Token} {rest : List Char}
    (h : Next m t rest) (hk : t.kind = .number) : (readLiteral? t.text).isSome = true := by
  obtain ⟨cursor, history, n, -, -, htake, hrule⟩ := h.exists_rule_take
  rw [hk] at hrule
  cases hrule with
  | number _ hmatch _ =>
      have hreads := FormulaBar.isSome_readLiteral? hmatch
      rwa [← take_of_match? hmatch, ← htake, String.ofList_toList] at hreads

section

variable {t : Token} {tokens rest : List Token} {p : Token → Bool}

/-- What is right behind and no whitespace is the next significant token. -/
theorem all_head?_significant (hp : ∀ u, p u = true → u.kind ≠ .whitespace)
    (h : tokens.head?.all p = true) : (significant tokens).head?.all p = true := by
  cases tokens with
  | nil => rfl
  | cons u us =>
      rw [significant_cons_of_kind us (hp u h)]
      exact h

/-- What is right behind and no whitespace is there without the whitespace. -/
theorem any_head?_significant (hp : ∀ u, p u = true → u.kind ≠ .whitespace)
    (h : tokens.head?.any p = true) : (significant tokens).head?.any p = true := by
  cases tokens with
  | nil => cases h
  | cons u us =>
      rw [significant_cons_of_kind us (hp u h)]
      exact h

/-- A place among the significant tokens is a place among all of them. -/
theorem exists_split_of_suffix (h : t :: rest <:+ significant tokens) :
    ∃ before after, tokens = before ++ t :: after ∧ significant after = rest := by
  obtain ⟨init, hinit⟩ := h
  obtain ⟨front, back, rfl, -, hback⟩ := List.filter_eq_append_iff.mp hinit.symm
  obtain ⟨skipped, after, rfl, -, -, hafter⟩ := List.filter_eq_cons_iff.mp hback
  exact ⟨front ++ skipped, after, (List.append_assoc _ _ _).symm, hafter⟩

/-- A string or an end quote is right behind a start quote, if anything is. -/
theorem Lexed.startQuote_behind {before after : List Token}
    (h : Lexed .other (before ++ t :: after) []) (hk : t.kind = .startQuote) :
    after.head?.all (fun u => u.kind == .string || u.kind == .endQuote) = true := by
  have hafter := h.next_of_append.2
  rw [Memory.after_of_kind hk (by decide), Token.memory_of_startQuote hk] at hafter
  cases after with
  | nil => rfl
  | cons u us => simpa using hafter.1.kind_of_quote

/-- In the tokens of a formula each token has what it asks for. -/
theorem Lexed.supplied (h : Lexed .other tokens []) (hsuffix : t :: rest <:+ significant tokens) :
    Supplied t rest := by
  obtain ⟨before, after, rfl, rfl⟩ := exists_split_of_suffix hsuffix
  have hplace := h.inPlace
  have hbracket : ∀ b u, Token.isBracket u b = true → u.kind ≠ .whitespace := by
    intro b u hb
    rw [Token.kind_of_isBracket hb]
    decide
  exact
    { number := h.next_of_append.1.isSome_readLiteral?
      startQuote := fun hk => all_head?_significant
        (fun u hu hspace => by simp [hspace] at hu) (h.startQuote_behind hk)
      string := fun hk => all_head?_significant
        (fun u hu hspace => by simp [hspace] at hu) (hplace.string hk).2
      referenceName := fun hk =>
        any_head?_significant (hbracket ']') (hplace.referenceName hk).2
      functionName := fun hk => any_head?_significant (hbracket '(') (hplace.functionName hk) }

end

/-! ## Messages by their starts -/

namespace ParseError

/-- How the messages start that no formula is refused with. -/
def excludedStarts : List String :=
  ["Invalid number", "Expected closing quote", "Expected '('", "Expected ']'"]

/-- A formula may be refused with it: its message starts like none of these. -/
def Possible (error : ParseError) : Prop :=
  ∀ start ∈ excludedStarts, ¬ start.toList <+: error.message.toList

/-- Only the fixed start of a message has to differ from theirs. -/
theorem not_prefix_append {fixed rest : String}
    (h : ∀ start ∈ excludedStarts,
      ¬ start.toList.take fixed.toList.length <+: fixed.toList) :
    ∀ start ∈ excludedStarts, ¬ start.toList <+: (fixed ++ rest).toList := by
  intro start hstart hprefix
  rw [String.toList_append] at hprefix
  have htake := (List.take_prefix fixed.toList.length start.toList).trans hprefix
  refine h start hstart (List.prefix_of_prefix_length_le htake (List.prefix_append _ _) ?_)
  exact List.length_take_le _ _

theorem possible_missingValue (found : Option Token) : (missingValue found).Possible :=
  not_prefix_append (by decide)

theorem possible_missingName (found : Option Token) : (missingName found).Possible :=
  not_prefix_append (by decide)

theorem possible_trailing (t : Token) : (trailing t).Possible :=
  not_prefix_append (by decide)

theorem possible_missingParenthesis (found : Option Token) : (missingBracket ')' found).Possible :=
  not_prefix_append (by decide)

/-- A formula may be refused for its depth. -/
theorem possible_tooDeep : tooDeep.Possible := by
  unfold Possible
  decide

/-- A formula may be refused for being empty. -/
theorem possible_emptyExpression : emptyExpression.Possible := by
  unfold Possible
  decide

end ParseError

/-! ## Failures of formulas -/

/-- Where the first token has what it asks for, its faults are others. -/
theorem Fault.possible {tokens : List Token} {error : ParseError} (h : Fault tokens error)
    (hsupplied : ∀ t rest, tokens = t :: rest → Supplied t rest) : error.Possible := by
  cases h with
  | level => exact ParseError.possible_tooDeep
  | value _ => exact ParseError.possible_missingValue _
  | number hk hliteral =>
      have hreads := (hsupplied _ _ rfl).number hk
      rw [hliteral] at hreads
      cases hreads
  | startQuote hk ht =>
      have hnext := (hsupplied _ _ rfl).startQuote hk
      simp [ht] at hnext
  | string hk ht =>
      have hnext := (hsupplied _ _ rfl).string hk
      simp [ht] at hnext
  | bracket _ _ => exact ParseError.possible_missingName _
  | referenceName hk hnone =>
      cases hnone.symm.trans ((hsupplied _ _ rfl).referenceName hk)
  | functionName hk hnone =>
      cases hnone.symm.trans ((hsupplied _ _ rfl).functionName hk)
  | parenthesis _ => exact ParseError.possible_missingParenthesis _

/-- **FAILURES THAT NO FORMULA CAUSES**: the tokens of a formula are never
    refused for a number, for a quote that does not close a text, for the
    parenthesis behind a function name or for the bracket behind a reference
    name. -/
theorem message_of_parse_formula (formula : String) :
    ∃ tokens, tokenize formula = .ok tokens ∧
      ∀ error, parse tokens = .error error →
        ∀ start ∈ ["Invalid number", "Expected closing quote", "Expected '('", "Expected ']'"],
          ¬ start.toList <+: error.message.toList := by
  obtain ⟨tokens, htokens⟩ := exists_tokenize formula
  refine ⟨tokens, htokens, fun error herror => ?_⟩
  show error.Possible
  by_cases hne : significant tokens = []
  · rw [parse_of_significant_eq_nil hne] at herror
    obtain rfl := Except.error.inj herror
    exact ParseError.possible_emptyExpression
  · rcases fault_of_parse herror hne with ⟨t, rfl⟩ | ⟨l, hl, hfault⟩
    · exact ParseError.possible_trailing t
    · refine hfault.possible fun t rest heq => ?_
      exact (lexed_of_tokenize htokens).1.supplied (heq ▸ hl)

/-- A group that is left open is refused, and for the value in it. -/
theorem message_of_openGroup :
    ∃ tokens, tokenize "(" = .ok tokens ∧ parse tokens = .error (.missingValue none) ∧
      ∀ start ∈ ["Invalid number", "Expected closing quote", "Expected '('", "Expected ']'"],
        ¬ start.toList <+: (ParseError.missingValue none).message.toList := by
  obtain ⟨tokens, htokens, hmessage⟩ := message_of_parse_formula "("
  have hscan : tokenize "(" = .ok [⟨.bracket, "(", 0, 0⟩] := by decide +kernel
  obtain rfl := Except.ok.inj (htokens.symm.trans hscan)
  exact ⟨_, htokens, rfl, hmessage _ rfl⟩

/-- Other sequences of tokens may be refused so. -/
example : parse [⟨.functionName, "SUM", 0, 2⟩] = .error (.missingBracket '(' none) := rfl

end FormulaBar
