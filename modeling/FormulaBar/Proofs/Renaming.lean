import FormulaBar.Proofs.Composition
import FormulaBar.Proofs.LetterCase

/-! # Renaming — names of functions in other cases

    A formula keeps its tokens where letters in names of functions change
    their case, up to the texts of these names.  Nothing that comes later
    looks at these texts but the function that is called, and that compares
    them in upper case.

    Tokens, diagnostics and trees are therefore compared with all names in
    upper case: what has one of them in common with another formula is the
    same for both. -/

namespace FormulaBar

variable {f : String → String}

/-! ## Diagnostics -/

namespace Token

/-- Names have no part in whether a value ends here. -/
@[simp] theorem producesValue_mapName (f : String → String) (t : Token) :
    (t.mapName f).producesValue = t.producesValue := by
  simp only [producesValue, kind_mapName, isBracket_mapName]

/-- Names have no part in whether a value may start here. -/
@[simp] theorem allowsValue_mapName (f : String → String) (t : Token) :
    (t.mapName f).allowsValue = t.allowsValue := by
  simp only [allowsValue, kind_mapName, isBracket_mapName]

end Token

namespace Context

/-- The context, with the latest token changed where it is the name of a
    function. -/
def mapName (f : String → String) (s : Context) : Context where
  frames := s.frames
  previous := s.previous.map fun p => (p.1, p.2.mapName f)

variable (f) (s : Context) (i : Nat) (t : Token)

@[simp] theorem producesValue_mapName : (s.mapName f).producesValue = s.producesValue := by
  rw [producesValue, producesValue, mapName, Option.any_map]
  simp only [Token.producesValue_mapName]

@[simp] theorem allowsValue_mapName : (s.mapName f).allowsValue = s.allowsValue := by
  rw [allowsValue, allowsValue, mapName, Option.all_map]
  simp only [Token.allowsValue_mapName]

/-- The kind of the previous token stays under other names. -/
@[simp] theorem isBehind_mapName (k : Token.Kind) :
    (s.mapName f).isBehind k = s.isBehind k := by
  rw [isBehind, isBehind, mapName, Option.any_map]
  simp only [Token.kind_mapName]

@[simp] theorem innermost_mapName : (s.mapName f).innermost = s.innermost := rfl

@[simp] theorem inParentheses_mapName : (s.mapName f).inParentheses = s.inParentheses := rfl

@[simp] theorem atEmptyCall_mapName : (s.mapName f).atEmptyCall = s.atEmptyCall := by
  simp only [atEmptyCall, mapName, Option.any_map]

/-- A token leaves the same frames under another name. -/
theorem framesAfter_mapName :
    (s.mapName f).framesAfter i (t.mapName f) = s.framesAfter i t := by
  simp only [framesAfter, Token.kind_mapName, Token.isBracket_mapName, isBehind_mapName,
    innermost_mapName, inParentheses_mapName]
  rfl

/-- The context behind a renamed token is the renamed context behind the
    token. -/
theorem after_mapName : (s.mapName f).after i (t.mapName f) = (s.after i t).mapName f := by
  rw [after, framesAfter_mapName]
  rfl

/-- No diagnostic shows the name of a function. -/
theorem causes_mapName (isLast : Bool) :
    (s.mapName f).causes (t.mapName f) isLast = s.causes t isLast := by
  by_cases hk : t.kind = .functionName
  · simp only [causes, Token.kind_mapName, hk, allowsValue_mapName]
  · rw [Token.mapName_of_ne hk]
    simp only [causes, bracketCauses, producesValue_mapName, allowsValue_mapName,
      isBehind_mapName, innermost_mapName, inParentheses_mapName, atEmptyCall_mapName]

/-- The pass finds the same in renamed tokens. -/
theorem diagnose_mapName (found : List Diagnostic) (tokens : List Token) :
    (s.mapName f).diagnose i found (tokens.map (Token.mapName f))
      = s.diagnose i found tokens := by
  induction tokens generalizing s i found with
  | nil => rfl
  | cons t rest ih =>
      rw [List.map_cons, diagnose, diagnose, Token.isSignificant_mapName, List.isEmpty_map,
        causes_mapName, after_mapName, ih, ih]

end Context

/-- **DIAGNOSTICS IGNORE NAMES**: what a function is called is no matter of
    the diagnostics. -/
theorem diagnose_mapName (f : String → String) (tokens : List Token) :
    diagnose (tokens.map (Token.mapName f)) = diagnose tokens :=
  Context.diagnose_mapName f {} 0 [] tokens

/-! ## Values -/

namespace Expr

variable {inputs : Inputs}

mutual

/-- A tree keeps its value where each name keeps its function. -/
theorem value_mapNames (hf : ∀ name, Function.ofName? (f name) = Function.ofName? name)
    (e : Expr) : (e.mapNames f).value inputs = e.value inputs :=
  match e with
  | .number _ => rfl
  | .text _ => rfl
  | .reference _ => rfl
  | .chain first links => by
      rw [mapNames, value_chain, value_chain, value_mapNames hf first]
      exact foldl_linksMapNames hf links _
  | .call name arguments => by
      rw [mapNames, value_call, value_call, map_value_argumentsMapNames hf arguments,
        executeFunction, executeFunction, hf]

/-- A chain has its value under names of the same functions. -/
theorem foldl_linksMapNames (hf : ∀ name, Function.ofName? (f name) = Function.ofName? name)
    (links : List (String × Expr)) (acc : Option Value) :
    (linksMapNames f links).foldl
        (fun acc link => executeOperator link.1 [acc, link.2.value inputs]) acc =
      links.foldl (fun acc link => executeOperator link.1 [acc, link.2.value inputs]) acc :=
  match links with
  | [] => rfl
  | (operator, operand) :: links => by
      rw [linksMapNames, List.foldl_cons, List.foldl_cons, value_mapNames hf operand]
      exact foldl_linksMapNames hf links _

/-- Arguments have their values under names of the same functions. -/
theorem map_value_argumentsMapNames
    (hf : ∀ name, Function.ofName? (f name) = Function.ofName? name) (arguments : List Expr) :
    (argumentsMapNames f arguments).map (·.value inputs) = arguments.map (·.value inputs) :=
  match arguments with
  | [] => rfl
  | argument :: arguments => by
      rw [argumentsMapNames, List.map_cons, List.map_cons, value_mapNames hf argument,
        map_value_argumentsMapNames hf arguments]

end

end Expr

/-- Tokens that are the same but for the names of functions are parsed to
    trees that are the same but for these. -/
theorem parse_of_lexemeBy {tokens tokens' : List Token} {e : Expr}
    (h : tokens'.map (Token.lexemeBy f) = tokens.map (Token.lexemeBy f))
    (he : parse tokens = .ok e) :
    ∃ e', parse tokens' = .ok e' ∧ e'.mapNames f = e.mapNames f := by
  obtain ⟨e', he', hsame⟩ := (derives_of_parse he).of_lexemesBy (map_lexemeBy_significant h)
  exact ⟨e', parse_of_derives (Nat.le_refl _) he', hsame⟩

/-- **VALUES IGNORE NAMES** that have the same function. -/
theorem evaluate_of_lexemeBy (hf : ∀ name, Function.ofName? (f name) = Function.ofName? name)
    {tokens tokens' : List Token}
    (h : tokens'.map (Token.lexemeBy f) = tokens.map (Token.lexemeBy f)) (inputs : Inputs) :
    evaluate inputs tokens' = evaluate inputs tokens := by
  refine evaluate_of_values ?_ ?_
  · intro e he
    obtain ⟨e', he', hsame⟩ := parse_of_lexemeBy h he
    refine ⟨e', he', ?_⟩
    rw [← Expr.value_mapNames hf e', hsame, Expr.value_mapNames hf e]
  · intro e' he'
    obtain ⟨e, he, -⟩ := parse_of_lexemeBy h.symm he'
    exact ⟨e, he⟩

/-! ## Names in upper case -/

/-- The text with its letters in upper case, letters beyond ASCII aside. -/
def capitalize (text : String) : String :=
  .ofList (capitals text.toList)

/-- Texts are the same in upper case where they have the same letters. -/
theorem capitalize_eq_iff {a b : String} :
    capitalize a = capitalize b ↔ SameLetters a.toList b.toList :=
  String.ofList_inj

theorem toUpper_toUpper (c : Char) : c.toUpper.toUpper = c.toUpper := by
  rcases toUpper_cases c with ⟨hsame, -⟩ | ⟨hlow, hhigh, hnat⟩
  · rw [hsame, hsame]
  · rcases toUpper_cases c.toUpper with ⟨hsame, -⟩ | ⟨hlow', -, -⟩
    · exact hsame
    · omega

/-- The upper case that names are compared in does not see the case. -/
theorem upperChar_toUpper (c : Char) : upperChar c.toUpper = upperChar c := by
  rcases toUpper_cases c with ⟨hsame, -⟩ | ⟨hlow, hhigh, hnat⟩
  · rw [hsame]
  · have hsmall : c.toNat < 0x80 := by omega
    have hcapital : c.toUpper.toNat < 0x80 := by omega
    rw [upperChar, upperChar, if_pos hsmall, if_pos hcapital, toUpper_toUpper]

/-- A name in upper case calls the same function. -/
theorem ofName?_capitalize (name : String) :
    Function.ofName? (capitalize name) = Function.ofName? name := by
  have hupper : upperCase (capitalize name) = upperCase name := by
    rw [upperCase, upperCase, capitalize, String.toList_ofList, capitals, List.flatMap_map]
    simp only [upperChar_toUpper]
  rw [Function.ofName?, Function.ofName?, hupper]

/-! ## Formulas -/

/-- The text is that of the token, but for the cases of letters where the
    token is the name of a function. -/
structure Token.Recases (t : Token) (text : String) : Prop where
  letters : SameLetters text.toList t.text.toList
  others : t.kind ≠ .functionName → text = t.text

/-- A token may keep its text. -/
theorem Token.recases_self (t : Token) : t.Recases t.text :=
  ⟨rfl, fun _ => rfl⟩

/-- The formula `s'` is `s` with other cases of letters in the names of its
    functions. -/
def Recased (s s' : String) : Prop :=
  ∃ texts, List.Forall₂ Token.Recases (tokensOf s) texts ∧ s' = String.join texts

/-- The token `u` is `t`, but for the cases of letters in the name of a
    function. -/
structure Token.Agrees (t u : Token) : Prop where
  kind : u.kind = t.kind
  start : u.start = t.start
  stop : u.stop = t.stop
  text : t.Recases u.text

namespace Token.Agrees

variable {t u : Token}

/-- Only names of functions change. -/
theorem eq_of_ne (h : t.Agrees u) (hk : t.kind ≠ .functionName) : u = t := by
  obtain ⟨hkind, hstart, hstop, -, hothers⟩ := h
  cases u
  cases t
  rw [Token.mk.injEq]
  exact ⟨hkind, hothers hk, hstart, hstop⟩

/-- Tokens that agree are equal once their names are in upper case. -/
theorem mapName_eq (h : t.Agrees u) : u.mapName capitalize = t.mapName capitalize := by
  by_cases hk : t.kind = .functionName
  · rw [mapName_of_eq hk, mapName_of_eq (h.kind.trans hk), Token.mk.injEq]
    exact ⟨h.kind, capitalize_eq_iff.mpr h.text.letters, h.start, h.stop⟩
  · rw [h.eq_of_ne hk]

theorem length_eq (h : t.Agrees u) : u.text.length = t.text.length := by
  rw [← String.length_toList, ← String.length_toList, h.text.letters.length_eq]

/-- What is in mind behind tokens that agree is the same. -/
theorem after_eq (h : t.Agrees u) (m : Memory) : m.after u = m.after t := by
  by_cases hk : t.kind = .functionName
  · rw [Memory.after_of_kind hk (by decide), Memory.after_of_kind (h.kind.trans hk) (by decide),
      memory_of_kind hk (by decide), memory_of_kind (h.kind.trans hk) (by decide)]
  · rw [h.eq_of_ne hk]

/-- Where one of two tokens that agree is in place, the other is. -/
theorem placeAt_eq (h : t.Agrees u) {n : Nat} (ht : t.placeAt n = t) : u.placeAt n = u := by
  have hstart : n = t.start := congrArg Token.start ht
  have hstop : n + t.text.length - 1 = t.stop := congrArg Token.stop ht
  rw [← h.length_eq, ← h.stop] at hstop
  rw [← h.start] at hstart
  cases u
  rw [placeAt, Token.mk.injEq]
  exact ⟨rfl, rfl, hstart, hstop⟩

end Token.Agrees

section

variable {ts us : List Token}

/-- Lists of tokens that agree are equal once their names are in upper case.
    -/
theorem map_mapName_of_agrees (h : List.Forall₂ Token.Agrees ts us) :
    us.map (Token.mapName capitalize) = ts.map (Token.mapName capitalize) := by
  induction h with
  | nil => rfl
  | cons h _ ih => rw [List.map_cons, List.map_cons, h.mapName_eq, ih]

/-- The texts of tokens that agree have the same letters. -/
theorem sameLetters_spell (h : List.Forall₂ Token.Agrees ts us) :
    SameLetters (spell us) (spell ts) := by
  induction h with
  | nil => rfl
  | cons h _ ih =>
      rw [SameLetters, spell_cons, spell_cons, capitals_append, capitals_append,
        h.text.letters, ih]

/-- **RECASED TOKENS ARE READ**: where tokens are read off a text, the tokens
    that agree with them are read off theirs. -/
theorem Lexed.of_agrees {m : Memory} {rest : List Char} (h : List.Forall₂ Token.Agrees ts us)
    (hlexed : Lexed m ts rest) : Lexed m us rest := by
  induction h generalizing m with
  | nil => exact trivial
  | cons h hs ih =>
      refine ⟨hlexed.1.of_sameLetters h.kind h.text.letters ?_, h.after_eq m ▸ ih hlexed.2⟩
      rw [SameLetters, capitals_append, capitals_append, sameLetters_spell hs]

/-- They stand where the tokens stand. -/
theorem place_of_agrees {n : Nat} (h : List.Forall₂ Token.Agrees ts us) (hts : place n ts = ts) :
    place n us = us := by
  induction h generalizing n with
  | nil => rfl
  | @cons t u ts us h _ ih =>
      obtain ⟨ht, hrest⟩ := List.cons.inj hts
      rw [← h.length_eq] at hrest
      rw [place, h.placeAt_eq ht, ih hrest]

/-- Recased texts are the texts of tokens that agree with the ones given. -/
theorem exists_agrees {texts : List String} (h : List.Forall₂ Token.Recases ts texts) :
    ∃ us, List.Forall₂ Token.Agrees ts us ∧ spell us = texts.flatMap String.toList := by
  induction h with
  | nil => exact ⟨[], .nil, rfl⟩
  | @cons t text ts texts h _ ih =>
      obtain ⟨us, hus, hspell⟩ := ih
      refine ⟨{ t with text } :: us, .cons ⟨rfl, rfl, rfl, h⟩ hus, ?_⟩
      rw [spell_cons, hspell, List.flatMap_cons]

end

/-- **NAMES OF FUNCTIONS IGNORE CASE**: where letters in names of functions
    change their case, the tokens keep their classes and spans, and their
    texts but for these names; the diagnostics and the value for any inputs
    stay the same. -/
theorem recased_formula {s s' : String} (h : Recased s s') :
    ∃ tokens tokens', tokenize s = .ok tokens ∧ tokenize s' = .ok tokens' ∧
      List.Forall₂ Token.Agrees tokens tokens' ∧ diagnose tokens' = diagnose tokens ∧
      ∀ inputs, evaluate inputs tokens' = evaluate inputs tokens := by
  obtain ⟨texts, htexts, rfl⟩ := h
  obtain ⟨us, hagrees, hspell⟩ := exists_agrees htexts
  have htokens := tokenize_eq_ok s
  obtain ⟨hlexed, hs⟩ := lexed_of_tokenize htokens
  have hplace : place 0 (tokensOf s) = tokensOf s :=
    Except.ok.inj ((tokenize_of_lexed hlexed hs.symm).symm.trans htokens)
  have htext : (String.join texts).toList = spell us := by rw [String.toList_join, hspell]
  have htokens' := tokenize_of_lexed (hlexed.of_agrees hagrees) htext
  rw [place_of_agrees hagrees hplace] at htokens'
  have hmap := map_mapName_of_agrees hagrees
  refine ⟨tokensOf s, us, htokens, htokens', hagrees, ?_, ?_⟩
  · rw [← diagnose_mapName capitalize us, hmap, diagnose_mapName]
  · refine evaluate_of_lexemeBy ofName?_capitalize ?_
    have hlexemes := congrArg (List.map Token.lexeme) hmap
    rwa [List.map_map, List.map_map] at hlexemes

/-- Each of the names may change, one inside of the other included. -/
theorem recased_formula_nested :
    Recased "Upper(round(2.5))" "UPPER(rOUND(2.5))" ∧
    ∃ tokens tokens', tokenize "Upper(round(2.5))" = .ok tokens ∧
      tokenize "UPPER(rOUND(2.5))" = .ok tokens' ∧ diagnose tokens' = diagnose tokens ∧
      ∀ inputs, evaluate inputs tokens' = evaluate inputs tokens := by
  have htokens : tokensOf "Upper(round(2.5))" =
      [⟨.functionName, "Upper", 0, 4⟩, ⟨.bracket, "(", 5, 5⟩, ⟨.functionName, "round", 6, 10⟩,
        ⟨.bracket, "(", 11, 11⟩, ⟨.number, "2.5", 12, 14⟩, ⟨.bracket, ")", 15, 15⟩,
        ⟨.bracket, ")", 16, 16⟩] := by decide +kernel
  have hupper : Token.Recases ⟨.functionName, "Upper", 0, 4⟩ "UPPER" :=
    ⟨by decide, fun hk => absurd rfl hk⟩
  have hround : Token.Recases ⟨.functionName, "round", 6, 10⟩ "rOUND" :=
    ⟨by decide, fun hk => absurd rfl hk⟩
  have hrecased : Recased "Upper(round(2.5))" "UPPER(rOUND(2.5))" := by
    refine ⟨["UPPER", "(", "rOUND", "(", "2.5", ")", ")"], ?_, by decide⟩
    rw [htokens]
    exact .cons hupper (.cons (Token.recases_self _) (.cons hround (.cons (Token.recases_self _)
      (.cons (Token.recases_self _) (.cons (Token.recases_self _)
        (.cons (Token.recases_self _) .nil))))))
  obtain ⟨tokens, tokens', hread, hread', -, hdiagnose, hevaluate⟩ := recased_formula hrecased
  exact ⟨hrecased, tokens, tokens', hread, hread', hdiagnose, hevaluate⟩

end FormulaBar
