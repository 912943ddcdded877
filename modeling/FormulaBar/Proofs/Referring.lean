import FormulaBar.Proofs.Dependence
import FormulaBar.Proofs.Printing
import FormulaBar.Proofs.Shape

/-! # Referring — the names that a reference can have

    Any name may be put between brackets, but not every name is read as one
    there.  Quotes, operators and numbers are looked for before reference
    names, so none of them may start the name, and a bracket ends it.

    Where the name is read, it is the printed form of a reference, and of
    that the tokens, their tree and their value are known.  Conversely,
    tokens that have a reference as their tree have a well-formed tree, and
    this is what the name of a well-formed reference fulfils. -/

namespace FormulaBar

/-- The names that a reference can have. -/
structure Referable (name : String) : Prop where
  nonempty : name ≠ ""
  no_bracket : '[' ∉ name.toList ∧ ']' ∉ name.toList
  no_quote : name.toList.head? ≠ some '"'
  no_operator : ∀ c, name.toList.head? = some c → c ∉ ['&', '*', '-', '+', '=', '/']
  no_number : ∀ number, number <+: name.toList → ¬ MatchesNumber number

/-- The lexer reads the name between brackets, and they ask no more of it. -/
theorem referable_iff {name : String} : Referable name ↔ IsReferenceName name.toList := by
  constructor
  · intro h
    refine ⟨fun hnil => h.nonempty (String.toList_eq_nil_iff.mp hnil), ?_, h.no_quote,
      h.no_operator, ahead_number_eq_nil_iff.mpr h.no_number⟩
    intro c hc
    constructor
    · rintro rfl
      exact h.no_bracket.1 hc
    · rintro rfl
      exact h.no_bracket.2 hc
  · intro h
    refine ⟨?_, ⟨fun hmem => (h.no_bracket _ hmem).1 rfl, fun hmem => (h.no_bracket _ hmem).2 rfl⟩,
      h.no_quote, h.no_operator, ahead_number_eq_nil_iff.mp h.no_number⟩
    rintro rfl
    exact h.nonempty rfl

/-- The name between brackets, as three tokens. -/
def bracketed (name : String) : List Token :=
  [⟨.bracket, "[", 0, 0⟩, ⟨.referenceName, name, 1, name.length⟩,
    ⟨.bracket, "]", name.length + 1, name.length + 1⟩]

/-- They are the tokens that a reference is printed with. -/
theorem place_reference (name : String) :
    place 0 (Expr.reference name).tokens = bracketed name := by
  have hopener : (String.singleton '[').length = 1 := rfl
  have hplus : 1 + name.length = name.length + 1 := by omega
  show [(⟨_, _, _, _⟩ : Token), ⟨_, _, _, _⟩, ⟨_, _, _, _⟩] = _
  simp only [Token.ofChar, Token.ofText, hopener, Nat.zero_add, hplus]
  rfl

theorem display_reference (name : String) :
    (Expr.reference name).display = "[" ++ name ++ "]" := by
  refine String.toList_inj.mp ?_
  rw [Expr.toList_display]
  simp [Expr.tokens, Token.toList_ofChar, Token.ofText]

/-- A bracket opens what is read in it, so the name of a reference stands. -/
theorem isReferenceName_of_parse {formula name : String} {tokens : List Token}
    (h : tokenize formula = .ok tokens) (he : parse tokens = .ok (.reference name)) :
    IsReferenceName name.toList := by
  have hwell := (derives_of_parse he).wellFormed (inTurn_of_standing (standing_of_parse h he))
  exact hwell

/-- The three tokens are a reference, whatever the name. -/
theorem derives_bracketed (name : String) (final : Bool) :
    Grammar.Expression final 1 (significant (bracketed name)) (.reference name) := by
  have hopener : Token.isBracket ⟨.bracket, "[", 0, 0⟩ '[' = true := by decide
  have htext : "]".toList = [']'] := by decide
  have hcloser : Token.isBracket ⟨.bracket, "]", name.length + 1, name.length + 1⟩ ']' = true :=
    Token.isBracket_iff.mpr ⟨rfl, htext⟩
  have hname : Token.kind ⟨.referenceName, name, 1, name.length⟩ = .referenceName := rfl
  exact .operand (.reference hopener hname hcloser)

theorem parse_bracketed (name : String) : parse (bracketed name) = .ok (.reference name) :=
  parse_of_derives (by decide) (derives_bracketed name true)

theorem evaluate_of_parse_reference {name : String} {tokens : List Token}
    (h : parse tokens = .ok (.reference name)) (inputs : Inputs) :
    evaluate inputs tokens = inputs[name]? := by
  rw [evaluate, evaluateLogged, h]
  show ((Expr.reference name).run inputs []).1 = inputs[name]?
  rw [Expr.run]
  cases inputs[name]? with
  | some value => rfl
  | none => rfl

/-- **THE NAMES OF REFERENCES**: exactly the names that are not empty, have no
    bracket in them and start neither with a quote nor with an operator nor
    with a number are read between brackets.  Each of these has no
    diagnostics, is the one reference used and has the value of its input; no
    other name is the name of a reference. -/
theorem reads_between_brackets (name : String) :
    ∃ tokens, tokenize ("[" ++ name ++ "]") = .ok tokens ∧
      (tokens = bracketed name ↔ Referable name) ∧
      (Referable name → diagnose tokens = [] ∧ referencesUsed tokens = [name] ∧
        ∀ inputs, evaluate inputs tokens = inputs[name]?) ∧
      (¬ Referable name → parse tokens ≠ .ok (.reference name)) := by
  by_cases h : Referable name
  · have hname := referable_iff.mp h
    have htokens := Expr.tokenize_display (e := .reference name) hname trivial
    rw [display_reference, place_reference] at htokens
    have hparse := parse_bracketed name
    have hused : referencesUsed (bracketed name) = [name] := by
      rw [referencesUsed_eq, referenceNames_of_parse hparse]
      rfl
    refine ⟨_, htokens, ⟨fun _ => h, fun _ => rfl⟩, fun _ => ⟨?_, hused, ?_⟩,
      fun hnot => absurd h hnot⟩
    · exact diagnose_of_closed (derives_bracketed name false)
    · exact evaluate_of_parse_reference hparse
  · have htokens := tokenize_eq_ok ("[" ++ name ++ "]")
    have hother : parse (tokensOf ("[" ++ name ++ "]")) ≠ .ok (.reference name) :=
      fun hparse => h (referable_iff.mpr (isReferenceName_of_parse htokens hparse))
    refine ⟨_, htokens, ⟨?_, fun h' => absurd h' h⟩, fun h' => absurd h' h, fun _ => hother⟩
    intro htokens'
    exact absurd (htokens' ▸ parse_bracketed name) hother

/-- A digit may stand in a name, but not at its start. -/
theorem reads_between_brackets_digit :
    Referable "B 1" ∧ ¬ Referable "1 B" ∧
    (∃ tokens, tokenize "[B 1]" = .ok tokens ∧ tokens = bracketed "B 1" ∧
      diagnose tokens = [] ∧ referencesUsed tokens = ["B 1"] ∧
      ∀ inputs, evaluate inputs tokens = inputs["B 1"]?) ∧
    ∃ tokens, tokenize "[1 B]" = .ok tokens ∧ tokens ≠ bracketed "1 B" ∧
      parse tokens ≠ .ok (.reference "1 B") := by
  have hletter : Referable "B 1" := by
    have htext : "B 1".toList = ['B', ' ', '1'] := by decide
    rw [referable_iff, htext]
    refine ⟨List.cons_ne_nil _ _, by simp, by simp, ?_, rfl⟩
    intro c hc
    obtain rfl := Option.some.inj hc
    decide
  have hdigit : ¬ Referable "1 B" := by
    intro h
    have hmatch : MatchesNumber ['1'] := by
      show MatchesNumber ([] ++ ([] ++ ([] ++ ['1'])))
      refine .intro (Or.inl rfl) (List.forall_mem_nil _) (Or.inl rfl) (List.cons_ne_nil _ _) ?_
      intro c hc
      rw [List.mem_singleton.mp hc]
      rfl
    have hfront : ['1'] <+: "1 B".toList := by decide
    exact h.no_number ['1'] hfront hmatch
  refine ⟨hletter, hdigit, ?_, ?_⟩
  · obtain ⟨tokens, htokens, hiff, hreads, -⟩ := reads_between_brackets "B 1"
    exact ⟨tokens, htokens, hiff.mpr hletter, hreads hletter⟩
  · obtain ⟨tokens, htokens, hiff, -, hother⟩ := reads_between_brackets "1 B"
    exact ⟨tokens, htokens, fun heq => hdigit (hiff.mp heq), hother hdigit⟩

end FormulaBar
