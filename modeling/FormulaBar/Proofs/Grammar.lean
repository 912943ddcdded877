import FormulaBar.Expr.Parse

/-! # Grammar — which tokens derive which tree

    The grammar of formulas as an inductive relation between significant
    tokens and trees, independent of the way in which they are read:

    * expression = operand (OPERATOR operand)*
    * operand = NUMBER | text | reference | call | "(" expression ")"
    * text = START_QUOTE STRING? END_QUOTE
    * reference = "[" REFERENCE_NAME "]"
    * call = FUNCTION_NAME "(" (expression ("," expression)*)? ")"

    The flag of a phrase says whether the phrase ends the whole sequence:
    only there may the end quote of a text be missing.  The number bounds
    how deep expressions nest, an expression inside of no other counting
    as one. -/

namespace FormulaBar

namespace Token

/-- A token is a bracket by its class and its text. -/
theorem isBracket_iff {t : Token} {b : Char} :
    t.isBracket b = true ↔ t.kind = .bracket ∧ t.text.toList = [b] := by
  simp [isBracket]

theorem kind_of_isBracket {t : Token} {b : Char} (h : t.isBracket b = true) :
    t.kind = .bracket :=
  (isBracket_iff.mp h).1

/-- A token is at most one bracket. -/
theorem isBracket_unique {t : Token} {b c : Char} (hb : t.isBracket b = true)
    (hc : t.isBracket c = true) : b = c := by
  have h := (isBracket_iff.mp hb).2.symm.trans (isBracket_iff.mp hc).2
  exact List.singleton_inj.mp h

/-- A token of another class is no bracket. -/
theorem isBracket_of_kind {t : Token} (b : Char) (h : t.kind ≠ .bracket) :
    t.isBracket b = false := by
  cases hb : t.isBracket b with
  | false => rfl
  | true => exact absurd (kind_of_isBracket hb) h

/-- A token that is one bracket is no other. -/
theorem isBracket_of_ne {t : Token} {b : Char} (c : Char)
    (hb : t.isBracket b = true) (hne : b ≠ c) : t.isBracket c = false := by
  cases hc : t.isBracket c with
  | false => rfl
  | true => exact absurd (isBracket_unique hb hc) hne

end Token

/-- The tokens that count for the tree. -/
def significant (tokens : List Token) : List Token :=
  tokens.filter Token.isSignificant

namespace Grammar

/-- What stands between the quotes of a text: nothing, or one string. -/
inductive Body : List Token → String → Prop where
  | empty : Body [] ""
  | string {t : Token} (kind : t.kind = .string) : Body [t] t.text

mutual

/-- The operands, inside of which at most `n` levels nest. -/
inductive Operand : Bool → Nat → List Token → Expr → Prop where
  | number {final : Bool} {n : Nat} {t : Token} {value : Float}
      (kind : t.kind = .number) (literal : readLiteral? t.text = some value) :
      Operand final n [t] (.number value)
  | text {final : Bool} {n : Nat} {quote endQuote : Token}
      {body : List Token} {text : String} (hquote : quote.kind = .startQuote)
      (hbody : Body body text) (hend : endQuote.kind = .endQuote) :
      Operand final n (quote :: (body ++ [endQuote])) (.text text)
  /-- A text without an end quote ends the whole sequence. -/
  | openText {n : Nat} {quote : Token} {body : List Token} {text : String}
      (hquote : quote.kind = .startQuote) (hbody : Body body text) :
      Operand true n (quote :: body) (.text text)
  | reference {final : Bool} {n : Nat} {opener name closer : Token}
      (hopener : opener.isBracket '[' = true) (hname : name.kind = .referenceName)
      (hcloser : closer.isBracket ']' = true) :
      Operand final n [opener, name, closer] (.reference name.text)
  /-- An empty list of arguments opens no level. -/
  | emptyCall {final : Bool} {n : Nat} {name opener closer : Token}
      (hname : name.kind = .functionName) (hopener : opener.isBracket '(' = true)
      (hcloser : closer.isBracket ')' = true) :
      Operand final n [name, opener, closer] (.call name.text [])
  | call {final : Bool} {n : Nat} {name opener closer : Token}
      {inner : List Token} {arguments : List Expr}
      (hname : name.kind = .functionName) (hopener : opener.isBracket '(' = true)
      (hinner : Arguments n inner arguments)
      (hcloser : closer.isBracket ')' = true) :
      Operand final n (name :: opener :: (inner ++ [closer]))
        (.call name.text arguments)
  /-- A group leaves no node. -/
  | group {final : Bool} {n : Nat} {opener closer : Token}
      {inner : List Token} {e : Expr} (hopener : opener.isBracket '(' = true)
      (hinner : Expression false n inner e)
      (hcloser : closer.isBracket ')' = true) :
      Operand final n (opener :: (inner ++ [closer])) e

/-- One or more operators, each with its operand. -/
inductive Links : Bool → Nat → List Token → List (String × Expr) → Prop where
  | single {final : Bool} {n : Nat} {operator : Token} {tokens : List Token}
      {e : Expr} (hoperator : operator.kind = .operator)
      (hoperand : Operand final n tokens e) :
      Links final n (operator :: tokens) [(operator.text, e)]
  | cons {final : Bool} {n : Nat} {operator : Token}
      {tokens rest : List Token} {e : Expr} {links : List (String × Expr)}
      (hoperator : operator.kind = .operator)
      (hoperand : Operand false n tokens e) (hrest : Links final n rest links) :
      Links final n (operator :: (tokens ++ rest)) ((operator.text, e) :: links)

/-- One or more expressions, separated by commas. -/
inductive Arguments : Nat → List Token → List Expr → Prop where
  | single {n : Nat} {tokens : List Token} {e : Expr}
      (h : Expression false n tokens e) : Arguments n tokens [e]
  | cons {n : Nat} {tokens rest : List Token} {comma : Token} {e : Expr}
      {es : List Expr} (h : Expression false n tokens e)
      (hcomma : comma.kind = .comma) (hrest : Arguments n rest es) :
      Arguments n (tokens ++ comma :: rest) (e :: es)

/-- The expressions in which at most `n` levels nest, themselves included. -/
inductive Expression : Bool → Nat → List Token → Expr → Prop where
  /-- An operand without operators is itself. -/
  | operand {final : Bool} {n : Nat} {tokens : List Token} {e : Expr}
      (h : Operand final n tokens e) : Expression final (n + 1) tokens e
  /-- A chain keeps all operators and operands in their order. -/
  | chain {final : Bool} {n : Nat} {tokens rest : List Token} {first : Expr}
      {links : List (String × Expr)} (hfirst : Operand false n tokens first)
      (hrest : Links final n rest links) :
      Expression final (n + 1) (tokens ++ rest) (.chain first links)

end

/-! ## First tokens -/

/-- Whether an operand may start with the token. -/
def startsOperand (t : Token) : Bool :=
  t.kind == .number || t.kind == .startQuote || t.kind == .functionName
    || t.isBracket '(' || t.isBracket '['

/-- What starts an operand closes no parenthesis. -/
theorem not_closes_of_startsOperand {t : Token} (h : startsOperand t = true) :
    t.isBracket ')' = false := by
  simp only [startsOperand, Bool.or_eq_true, beq_iff_eq] at h
  rcases h with (((h | h) | h) | h) | h
  · exact Token.isBracket_of_kind _ (by rw [h]; decide)
  · exact Token.isBracket_of_kind _ (by rw [h]; decide)
  · exact Token.isBracket_of_kind _ (by rw [h]; decide)
  · exact Token.isBracket_of_ne _ h (by decide)
  · exact Token.isBracket_of_ne _ h (by decide)

/-- An operand has a first token, which starts one. -/
theorem Operand.starts {final : Bool} {n : Nat} {tokens : List Token} {e : Expr}
    (h : Operand final n tokens e) :
    ∃ t rest, tokens = t :: rest ∧ startsOperand t = true := by
  cases h with
  | number kind _ => exact ⟨_, _, rfl, by simp [startsOperand, kind]⟩
  | text hquote _ _ => exact ⟨_, _, rfl, by simp [startsOperand, hquote]⟩
  | openText hquote _ => exact ⟨_, _, rfl, by simp [startsOperand, hquote]⟩
  | reference hopener _ _ => exact ⟨_, _, rfl, by simp [startsOperand, hopener]⟩
  | emptyCall hname _ _ => exact ⟨_, _, rfl, by simp [startsOperand, hname]⟩
  | call hname _ _ _ => exact ⟨_, _, rfl, by simp [startsOperand, hname]⟩
  | group hopener _ _ => exact ⟨_, _, rfl, by simp [startsOperand, hopener]⟩

/-- An operand has a token. -/
theorem Operand.ne_nil {final : Bool} {n : Nat} {tokens : List Token} {e : Expr}
    (h : Operand final n tokens e) : tokens ≠ [] := by
  obtain ⟨t, rest, rfl, -⟩ := h.starts
  exact List.cons_ne_nil t rest

/-- An expression has a first token, which starts an operand. -/
theorem Expression.starts {final : Bool} {n : Nat} {tokens : List Token}
    {e : Expr} (h : Expression final n tokens e) :
    ∃ t rest, tokens = t :: rest ∧ startsOperand t = true := by
  cases h with
  | operand h => exact h.starts
  | chain hfirst _ =>
      obtain ⟨t, rest, rfl, ht⟩ := hfirst.starts
      exact ⟨t, _, rfl, ht⟩

/-- The arguments of a call have a first token, which starts an operand. -/
theorem Arguments.starts {n : Nat} {tokens : List Token} {es : List Expr}
    (h : Arguments n tokens es) :
    ∃ t rest, tokens = t :: rest ∧ startsOperand t = true := by
  cases h with
  | single h => exact h.starts
  | cons h _ _ =>
      obtain ⟨t, rest, rfl, ht⟩ := h.starts
      exact ⟨t, _, rfl, ht⟩

end Grammar

end FormulaBar
