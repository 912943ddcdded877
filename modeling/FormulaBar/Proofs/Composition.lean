import FormulaBar.Expr.Evaluate
import FormulaBar.Proofs.Phrase
import FormulaBar.Proofs.Stretch

/-! # Composition — the value of a formula made of formulas

    Formulas may be put together as texts.  Where neither of them ends
    inside of a quoted text, an operator between a formula and another one
    in parentheses combines their values, and a name in front of formulas
    in parentheses is a call with their values: the tokens of the parts are
    tokens of the whole, and so are their trees.

    A chain is folded from the left and has no precedence.  That is why only
    the formula behind the operator needs its parentheses. -/

namespace FormulaBar

/-! ## Values of trees -/

namespace Expr

/-- The value of a tree. -/
def value (inputs : Inputs) (e : Expr) : Option Value :=
  (e.evaluate inputs).value

variable {inputs : Inputs}

mutual

/-- Values do not depend on the records made earlier. -/
theorem run_fst (e : Expr) (log : List Record) :
    (e.run inputs log).1 = e.value inputs :=
  match e with
  | .number _ => rfl
  | .text _ => rfl
  | .reference name => by
      show (Expr.run inputs log (.reference name)).1 = (Expr.run inputs [] (.reference name)).1
      rw [run, run]
      cases inputs[name]? with
      | none => rfl
      | some value => rfl
  | .chain first links => by
      show (Expr.run inputs log (.chain first links)).1 =
        (Expr.run inputs [] (.chain first links)).1
      rw [run, run]
      show (runLinks inputs (first.run inputs log).1 (first.run inputs log).2 links).1 =
        (runLinks inputs (first.run inputs []).1 (first.run inputs []).2 links).1
      rw [runLinks_fst links, runLinks_fst links, run_fst first log, run_fst first []]
  | .call name arguments => by
      show (Expr.run inputs log (.call name arguments)).1 =
        (Expr.run inputs [] (.call name arguments)).1
      rw [run, run]
      show executeFunction name (runArguments inputs [] log arguments).1 =
        executeFunction name (runArguments inputs [] [] arguments).1
      rw [runArguments_fst arguments, runArguments_fst arguments]

/-- A chain combines the value so far with that of each further operand. -/
theorem runLinks_fst (links : List (String × Expr)) (acc : Option Value)
    (log : List Record) :
    (runLinks inputs acc log links).1 =
      links.foldl (fun acc link => executeOperator link.1 [acc, link.2.value inputs]) acc :=
  match links with
  | [] => rfl
  | (operator, operand) :: links => by
      rw [runLinks]
      show (runLinks inputs (executeOperator operator [acc, (operand.run inputs log).1])
        (operatorRecords operator [acc, (operand.run inputs log).1]
          ++ (operand.run inputs log).2) links).1 = _
      rw [runLinks_fst links, run_fst operand log, List.foldl_cons]

/-- The values of the arguments are those of each by itself. -/
theorem runArguments_fst (arguments : List Expr) (params : List (Option Value))
    (log : List Record) :
    (runArguments inputs params log arguments).1 =
      params.reverse ++ arguments.map (·.value inputs) :=
  match arguments with
  | [] => (List.append_nil _).symm
  | argument :: arguments => by
      rw [runArguments]
      show (runArguments inputs ((argument.run inputs log).1 :: params)
        (argument.run inputs log).2 arguments).1 = _
      rw [runArguments_fst arguments, run_fst argument log, List.reverse_cons,
        List.append_assoc]
      rfl

end

/-- **CHAINS FOLD FROM THE LEFT**: each operator combines all that is in
    front of it with the one operand behind it. -/
theorem value_chain (first : Expr) (links : List (String × Expr)) :
    (Expr.chain first links).value inputs =
      links.foldl (fun acc link => executeOperator link.1 [acc, link.2.value inputs])
        (first.value inputs) := by
  show (runLinks inputs (first.run inputs []).1 (first.run inputs []).2 links).1 = _
  rw [runLinks_fst]
  rfl

/-- One more operator combines the value of the chain with its operand. -/
theorem value_chain_concat (first : Expr) (links : List (String × Expr))
    (operator : String) (e : Expr) :
    (Expr.chain first (links ++ [(operator, e)])).value inputs =
      executeOperator operator [(first.ofLinks links).value inputs, e.value inputs] := by
  have hfirst : (first.ofLinks links).value inputs =
      links.foldl (fun acc link => executeOperator link.1 [acc, link.2.value inputs])
        (first.value inputs) := by
    cases links with
    | nil => rfl
    | cons link links => exact value_chain first (link :: links)
  rw [value_chain, List.foldl_append, hfirst]
  rfl

/-- The value of a call is what its function makes of the values of its
    arguments. -/
theorem value_call (name : String) (arguments : List Expr) :
    (Expr.call name arguments).value inputs =
      executeFunction name (arguments.map (·.value inputs)) := by
  show executeFunction name (runArguments inputs [] [] arguments).1 = _
  rw [runArguments_fst]
  rfl

end Expr

/-! ## Formulas -/

/-- The tokens of a formula. -/
def tokensOf (formula : String) : List Token :=
  (tokenize formula).toOption.getD []

/-- Every formula has tokens. -/
theorem tokenize_eq_ok (formula : String) : tokenize formula = .ok (tokensOf formula) := by
  obtain ⟨tokens, h⟩ := exists_tokenize formula
  rw [tokensOf, h]
  rfl

/-- The tokens of a formula are those that the lexer gives. -/
theorem tokensOf_eq {formula : String} {tokens : List Token}
    (h : tokenize formula = .ok tokens) : tokensOf formula = tokens := by
  rw [tokensOf, h]
  rfl

theorem spell_tokensOf (formula : String) : spell (tokensOf formula) = formula.toList :=
  (lexed_of_tokenize (tokenize_eq_ok formula)).2

/-- The value of a formula. -/
def valueOf (inputs : Inputs) (formula : String) : Option Value :=
  evaluate inputs (tokensOf formula)

/-- The value of a formula with a tree is the value of the tree. -/
theorem valueOf_of_parse {inputs : Inputs} {formula : String} {e : Expr}
    (h : parse (tokensOf formula) = .ok e) : valueOf inputs formula = e.value inputs := by
  rw [valueOf, evaluate, evaluateLogged, h]
  rfl

/-- Tokens that are parsed to trees of one value, or neither to a tree, have one
    value. -/
theorem evaluate_of_values {tokens tokens' : List Token} {inputs : Inputs}
    (h : ∀ e, parse tokens = .ok e →
      ∃ e', parse tokens' = .ok e' ∧ e'.value inputs = e.value inputs)
    (h' : ∀ e', parse tokens' = .ok e' → ∃ e, parse tokens = .ok e) :
    evaluate inputs tokens' = evaluate inputs tokens := by
  rw [evaluate, evaluate, evaluateLogged, evaluateLogged]
  cases he : parse tokens with
  | ok e =>
      obtain ⟨e', he', hvalue⟩ := h e he
      rw [he']
      exact hvalue
  | error error =>
      cases he' : parse tokens' with
      | ok e' =>
          obtain ⟨e, hok⟩ := h' e' he'
          cases he.symm.trans hok
      | error error' => rfl

/-- A formula that may be a part of another one: it has a tree, and does not
    end inside of a quoted text. -/
structure Composable (formula : String) : Prop where
  parses : ∃ e, parse (tokensOf formula) = .ok e
  closed : endsInText (tokensOf formula) = false

/-! ## Parts -/

/-- What is in mind behind some tokens is in mind behind the last significant
    one. -/
theorem Memory.afterAll_eq (m : Memory) (ts : List Token) :
    m.afterAll ts = ((significant ts).getLast?.map Token.memory).getD m := by
  induction ts generalizing m with
  | nil => rfl
  | cons t ts ih =>
      rw [Memory.afterAll_cons, ih]
      by_cases hk : t.kind = .whitespace
      · rw [significant_cons_of_whitespace ts hk, Memory.after_of_whitespace hk]
      · rw [significant_cons_of_kind ts hk, Memory.after_of_kind rfl hk, List.getLast?_cons]
        cases (significant ts).getLast? with
        | none => rfl
        | some u => rfl

/-- Behind a value nothing is in mind. -/
theorem Token.memory_of_producesValue {t : Token} (h : t.producesValue = true) :
    t.memory = .other := by
  simp only [producesValue, Bool.or_eq_true, beq_iff_eq] at h
  rcases h with ((h | h) | h) | h
  · exact memory_of_kind h (by decide)
  · exact memory_of_kind h (by decide)
  · exact memory_of_isBracket h (by decide)
  · exact memory_of_isBracket h (by decide)

/-- Tokens that may be a part of a formula, with their tree. -/
structure Part (ts : List Token) (e : Expr) : Prop where
  standing : Standing .other ts none
  derives : Grammar.Expression false maxLevels (significant ts) e

theorem Composable.part {formula : String} (h : Composable formula) :
    ∃ e, parse (tokensOf formula) = .ok e ∧ Part (tokensOf formula) e := by
  obtain ⟨e, he⟩ := h.parses
  refine ⟨e, he, standing_of_parse (tokenize_eq_ok formula) he, ?_⟩
  exact (derives_of_parse he).of_closed (Grammar.closed_significant h.closed)

namespace Part

variable {ts : List Token} {e : Expr}

/-- Nothing is in mind behind a part. -/
theorem memory (h : Part ts e) : Memory.afterAll .other ts = .other := by
  obtain ⟨init, t, hsplit, ht⟩ := h.derives.endsValue
  rw [Memory.afterAll_eq, hsplit, List.getLast?_concat]
  exact Token.memory_of_producesValue ht

/-- A part stands in front of any character that ends a number and is no
    space. -/
theorem in_front (h : Part ts e) {c : Char} (hc : endsNumber (some c) = true ∧ c ≠ ' ') :
    Standing .other ts (some c) :=
  h.standing.in_front hc (by rw [h.memory]; decide)

end Part

/-! ## An operator between two formulas -/

/-- The formula, an operator, and another formula in parentheses. -/
def infixTokens (ts : List Token) (operator : Char) (us : List Token) : List Token :=
  ts ++ .ofChar .operator operator :: .ofChar .bracket '(' :: (us ++ [.ofChar .bracket ')'])

/-- Every operator ends a number, and none is a space. -/
theorem endsNumber_of_operator {operator : Char} (h : operator ∈ operatorChars) :
    endsNumber (some operator) = true ∧ operator ≠ ' ' := by
  have hall : operatorChars.all (fun c => endsNumber (some c) && c != ' ') = true := by decide
  have hc := List.all_eq_true.mp hall operator h
  simpa using hc

/-- Two parts stand with an operator between them, the second in parentheses.
    -/
theorem standing_infixTokens {ts us : List Token} {e e' : Expr} {operator : Char}
    (h : Part ts e) (h' : Part us e') (hoperator : operator ∈ operatorChars) :
    Standing .other (infixTokens ts operator us) none := by
  have hclose : Standing .other [Token.ofChar .bracket ')'] none :=
    ⟨stands_bracket (by decide) (by decide), trivial⟩
  have hinner : Standing .other (us ++ [.ofChar .bracket ')']) none := by
    refine standing_append.mpr ⟨h'.in_front (by decide), ?_⟩
    rw [h'.memory]
    exact hclose
  refine standing_append.mpr ⟨?_, ?_⟩
  · rw [spell_cons, Token.toList_ofChar]
    exact h.in_front (endsNumber_of_operator hoperator)
  · rw [h.memory]
    refine ⟨.operator rfl (Token.toList_ofChar .operator operator) hoperator (by decide)
      (by decide), ?_⟩
    rw [Memory.after_ofChar (by decide), Token.memory_of_operator rfl]
    refine ⟨stands_bracket (by decide) (by decide), ?_⟩
    rw [Memory.after_ofChar (by decide), Token.memory_ofChar (by decide)]
    exact hinner

namespace Grammar

/-- Links that end in front of an operator go on with it and one more operand.
    -/
theorem Links.concat {final : Bool} {n : Nat} {phrase tokens : List Token}
    {links : List (String × Expr)} {operator : Token} {e : Expr}
    (h : Links false n phrase links) (hoperator : operator.kind = .operator)
    (hoperand : Operand final n tokens e) :
    Links final n (phrase ++ operator :: tokens) (links ++ [(operator.text, e)]) :=
  match h with
  | .single hfirst hop => .cons hfirst hop (.single hoperator hoperand)
  | .cons hfirst hop hmore => by
      rw [List.cons_append, List.append_assoc]
      exact .cons hfirst hop (hmore.concat hoperator hoperand)

/-- An operator and an operand behind an expression prolong its chain. -/
theorem Expression.concat {final : Bool} {n : Nat} {phrase tokens : List Token} {e e' : Expr}
    {operator : Token} (h : Expression false (n + 1) phrase e)
    (hoperator : operator.kind = .operator) (hoperand : Operand final n tokens e') :
    ∃ first links, first.ofLinks links = e ∧
      Expression final (n + 1) (phrase ++ operator :: tokens)
        (.chain first (links ++ [(operator.text, e')])) := by
  cases h with
  | operand h => exact ⟨e, [], rfl, .chain h (.single hoperator hoperand)⟩
  | chain hfirst hmore =>
      refine ⟨_, _, hmore.ofLinks _, ?_⟩
      rw [List.append_assoc]
      exact .chain hfirst (hmore.concat hoperator hoperand)

end Grammar

/-- What the tokens of the combined formula derive has the combined value. -/
theorem derives_infixTokens {ts us : List Token} {e e' : Expr} (operator : Char)
    (h : Part ts e) (h' : Part us e') :
    ∃ first links, first.ofLinks links = e ∧
      Grammar.Expression true (maxLevels + 1) (significant (infixTokens ts operator us))
        (.chain first (links ++ [(String.singleton operator, e')])) := by
  have hgroup : Grammar.Operand true maxLevels
      (.ofChar .bracket '(' :: (significant us ++ [.ofChar .bracket ')'])) e' :=
    .group (Token.isBracket_ofChar '(') h'.derives (Token.isBracket_ofChar ')')
  have hsplit : significant (infixTokens ts operator us) = significant ts ++
      .ofChar .operator operator ::
        .ofChar .bracket '(' :: (significant us ++ [.ofChar .bracket ')']) := by
    rw [infixTokens, significant_append, significant_ofChar _ _ (by decide),
      significant_ofChar _ _ (by decide), significant_append]
    rfl
  rw [hsplit]
  exact (h.derives.mono (Nat.le_succ maxLevels)).concat rfl hgroup

/-! ## A call with formulas as arguments -/

/-- Tokens side by side, with commas between them. -/
def separated (parts : List (List Token)) : List Token :=
  [Token.ofChar .comma ','].intercalate parts

theorem separated_cons_cons (ts us : List Token) (parts : List (List Token)) :
    separated (ts :: us :: parts) = ts ++ .ofChar .comma ',' :: separated (us :: parts) := by
  rw [separated, List.intercalate_cons_cons, List.append_assoc]
  rfl

/-- Parts with commas between them spell their texts with commas between them.
    -/
theorem spell_separated (parts : List (List Token)) :
    spell (separated parts) = [','].intercalate (parts.map spell) := by
  induction parts with
  | nil => rfl
  | cons ts parts ih =>
      cases parts with
      | nil =>
          rw [separated, List.intercalate_singleton]
          exact (List.intercalate_singleton).symm
      | cons us parts =>
          rw [separated_cons_cons, spell_append, spell_cons, Token.toList_ofChar, ih]
          simp only [List.map_cons, List.intercalate_cons_cons, List.append_assoc]

/-- The parts stand with commas between them and a parenthesis behind, and
    nothing is in mind there. -/
theorem standing_separated {parts : List (List Token)} {es : List Expr}
    (h : List.Forall₂ Part parts es) : Standing .other (separated parts) (some ')') ∧
      Memory.afterAll .other (separated parts) = .other := by
  induction h with
  | nil => exact ⟨trivial, rfl⟩
  | @cons ts e parts es hpart h ih =>
      cases parts with
      | nil =>
          rw [separated, List.intercalate_singleton]
          exact ⟨hpart.in_front (by decide), hpart.memory⟩
      | cons us parts =>
          have hcomma : Memory.after .other (.ofChar .comma ',') = .other := by
            rw [Memory.after_ofChar (by decide)]
            rfl
          rw [separated_cons_cons]
          constructor
          · refine standing_append.mpr ⟨?_, ?_⟩
            · rw [spell_cons, Token.toList_ofChar]
              exact hpart.in_front (by decide)
            · rw [hpart.memory]
              refine ⟨.comma rfl (Token.toList_ofChar .comma ',') (by decide), ?_⟩
              rw [hcomma]
              exact ih.1
          · rw [Memory.afterAll_append, hpart.memory, Memory.afterAll_cons, hcomma]
            exact ih.2

/-- Parts with commas between them derive their trees as arguments. -/
theorem derives_separated {parts : List (List Token)} {es : List Expr}
    (h : List.Forall₂ Part parts es) (hne : parts ≠ []) :
    Grammar.Arguments maxLevels (significant (separated parts)) es := by
  induction h with
  | nil => exact absurd rfl hne
  | @cons ts e parts es hpart h ih =>
      cases parts with
      | nil =>
          cases h
          rw [separated, List.intercalate_singleton]
          exact .single hpart.derives
      | cons us parts =>
          rw [separated_cons_cons, significant_append, significant_ofChar _ _ (by decide)]
          exact .cons hpart.derives rfl (ih (List.cons_ne_nil us parts))

/-- A name, and the parts in parentheses. -/
def callTokens (name : String) (parts : List (List Token)) : List Token :=
  .ofText .functionName name :: .ofChar .bracket '(' ::
    (separated parts ++ [.ofChar .bracket ')'])

/-- Parts stand as the arguments of a call. -/
theorem standing_callTokens {name : String} {parts : List (List Token)} {es : List Expr}
    (hname : isIdentifier name.toList = true) (h : List.Forall₂ Part parts es) :
    Standing .other (callTokens name parts) none := by
  obtain ⟨hstanding, hmemory⟩ := standing_separated h
  refine ⟨.functionName rfl hname (by decide) rfl, ?_⟩
  rw [Memory.after_ofText (by decide), Token.memory_of_kind (k := .functionName) rfl (by decide)]
  refine ⟨stands_bracket (by decide) (by decide), ?_⟩
  rw [Memory.after_ofChar (by decide), Token.memory_ofChar (by decide)]
  refine standing_append.mpr ⟨hstanding, ?_⟩
  rw [hmemory]
  exact ⟨stands_bracket (by decide) (by decide), trivial⟩

/-- Parts as the arguments of a call derive the call of their trees. -/
theorem derives_callTokens (name : String) {parts : List (List Token)} {es : List Expr}
    (h : List.Forall₂ Part parts es) :
    Grammar.Expression true (maxLevels + 1) (significant (callTokens name parts))
      (.call name es) := by
  have hopener := Token.isBracket_ofChar '('
  have hcloser := Token.isBracket_ofChar ')'
  have hsplit : significant (callTokens name parts) = .ofText .functionName name ::
      .ofChar .bracket '(' :: (significant (separated parts) ++ [.ofChar .bracket ')']) := by
    rw [callTokens, significant_ofText _ _ (by decide), significant_ofChar _ _ (by decide),
      significant_append]
    rfl
  rw [hsplit]
  cases h with
  | nil => exact .operand (.emptyCall rfl hopener hcloser)
  | cons hpart h =>
      have hinner := derives_separated (.cons hpart h) (List.cons_ne_nil _ _)
      exact .operand (.call rfl hopener hinner hcloser)

/-! ## Combined formulas -/

/-- The formula has a tree and the value `v`, unless it is nested too
    deeply. -/
def HasValue (inputs : Inputs) (formula : String) (v : Option Value) : Prop :=
  ((∃ e, parse (tokensOf formula) = .ok e) ∧ valueOf inputs formula = v) ∨
    ∃ error, parse (tokensOf formula) = .error error ∧
      error.message = "Formula is nested too deeply"

/-- Standing tokens that derive a tree are those of the formula they spell. -/
theorem hasValue_of_standing {formula : String} {ts : List Token} {n : Nat} {e : Expr}
    (h : Standing .other ts none) (hformula : formula.toList = spell ts)
    (hd : Grammar.Expression true n (significant ts) e) (inputs : Inputs) :
    HasValue inputs formula (e.value inputs) := by
  have htokens : tokensOf formula = place 0 ts :=
    tokensOf_eq (tokenize_of_lexed (Standing.lexed h) hformula)
  have hd' : Grammar.Expression true n (significant (tokensOf formula)) e := by
    rw [htokens]
    exact hd.of_lexemes (map_lexeme_significant (map_lexeme_place 0 ts))
  rcases parse_of_derives_deep hd' with hok | hdeep
  · exact Or.inl ⟨⟨e, hok⟩, valueOf_of_parse hok⟩
  · exact Or.inr ⟨.tooDeep, hdeep, rfl⟩

/-- Composable formulas are parts whose trees have their values. -/
theorem exists_parts {formulas : List String} (h : ∀ s ∈ formulas, Composable s)
    (inputs : Inputs) : ∃ es, List.Forall₂ Part (formulas.map tokensOf) es ∧
      es.map (·.value inputs) = formulas.map (valueOf inputs) := by
  induction formulas with
  | nil => exact ⟨[], .nil, rfl⟩
  | cons s formulas ih =>
      obtain ⟨hs, hrest⟩ := List.forall_mem_cons.mp h
      obtain ⟨e, he, hpart⟩ := hs.part
      obtain ⟨es, hparts, hvalues⟩ := ih hrest
      refine ⟨e :: es, .cons hpart hparts, ?_⟩
      rw [List.map_cons, List.map_cons, hvalues, valueOf_of_parse he]

/-- **VALUES COMPOSE**: for formulas that have a tree and do not end inside of
    a quoted text, an operator in front of one in parentheses combines their
    values, and a name in front of any number of them in parentheses is a
    call with their values, unless the formula gets nested too deeply. -/
theorem hasValue_composed (inputs : Inputs) :
    (∀ s t operator, Composable s → Composable t → operator ∈ operatorChars →
      HasValue inputs (s ++ String.singleton operator ++ "(" ++ t ++ ")")
        (executeOperator (String.singleton operator)
          [valueOf inputs s, valueOf inputs t])) ∧
    (∀ name formulas, isIdentifier name.toList = true → (∀ s ∈ formulas, Composable s) →
      HasValue inputs (name ++ "(" ++ ",".intercalate formulas ++ ")")
        (executeFunction name (formulas.map (valueOf inputs)))) := by
  constructor
  · intro s t operator hs ht hoperator
    obtain ⟨e, he, hpart⟩ := hs.part
    obtain ⟨e', he', hpart'⟩ := ht.part
    obtain ⟨first, links, hfirst, hd⟩ := derives_infixTokens operator hpart hpart'
    rw [valueOf_of_parse he, valueOf_of_parse he', ← hfirst, ← Expr.value_chain_concat]
    refine hasValue_of_standing (standing_infixTokens hpart hpart' hoperator) ?_ hd inputs
    simp [infixTokens, Token.toList_ofChar, spell_tokensOf]
  · intro name formulas hname hformulas
    obtain ⟨es, hparts, hvalues⟩ := exists_parts hformulas inputs
    rw [← hvalues, ← Expr.value_call]
    refine hasValue_of_standing (standing_callTokens hname hparts) ?_
      (derives_callTokens name hparts) inputs
    have hspells : (formulas.map tokensOf).map spell = formulas.map String.toList := by
      rw [List.map_map]
      exact List.map_congr_left fun s _ => spell_tokensOf s
    simp [callTokens, Token.toList_ofChar, spell_separated, hspells, String.toList_intercalate,
      Token.ofText]

/-- A formula is composable where its tokens have a tree and do not end inside
    of a text. -/
theorem composable_of_tokens {formula : String}
    (h : ∃ tokens, tokenize formula = .ok tokens ∧ (parse tokens).isOk = true ∧
      endsInText tokens = false) : Composable formula := by
  obtain ⟨tokens, htokens, hok, hclosed⟩ := h
  obtain rfl := tokensOf_eq htokens
  refine ⟨?_, hclosed⟩
  cases he : parse (tokensOf formula) with
  | ok e => exact ⟨e, rfl⟩
  | error error =>
      rw [he] at hok
      cases hok

/-- What is in front of the operator is folded first, and blanks do not
    matter. -/
theorem hasValue_chain_over_group :
    Composable "[A]-[B] " ∧ Composable "[A]" ∧ '/' ∈ operatorChars ∧
      isIdentifier "round_1".toList = true ∧
      HasValue {} ("[A]-[B] " ++ String.singleton '/' ++ "(" ++ "[A]" ++ ")")
        (executeOperator (String.singleton '/') [valueOf {} "[A]-[B] ", valueOf {} "[A]"]) ∧
      HasValue {} ("round_1" ++ "(" ++ ",".intercalate ["[A]-[B] ", "[A]"] ++ ")")
        (executeFunction "round_1" (["[A]-[B] ", "[A]"].map (valueOf {}))) := by
  have hs : Composable "[A]-[B] " :=
    composable_of_tokens ⟨[⟨.bracket, "[", 0, 0⟩, ⟨.referenceName, "A", 1, 1⟩,
      ⟨.bracket, "]", 2, 2⟩, ⟨.operator, "-", 3, 3⟩, ⟨.bracket, "[", 4, 4⟩,
      ⟨.referenceName, "B", 5, 5⟩, ⟨.bracket, "]", 6, 6⟩, ⟨.whitespace, " ", 7, 7⟩],
      by decide +kernel, by decide +kernel, by decide⟩
  have ht : Composable "[A]" :=
    composable_of_tokens ⟨[⟨.bracket, "[", 0, 0⟩, ⟨.referenceName, "A", 1, 1⟩,
      ⟨.bracket, "]", 2, 2⟩], by decide +kernel, by decide +kernel, by decide⟩
  have hboth : ∀ s ∈ ["[A]-[B] ", "[A]"], Composable s :=
    List.forall_mem_cons.mpr ⟨hs, List.forall_mem_singleton.mpr ht⟩
  obtain ⟨hpair, hcall⟩ := hasValue_composed {}
  exact ⟨hs, ht, by decide, by decide, hpair _ _ '/' hs ht (by decide),
    hcall "round_1" _ (by decide) hboth⟩

end FormulaBar
