import FormulaBar.Proofs.Memory
import FormulaBar.Proofs.Reading

/-! # Phrase — what a derivation does not depend on

    A phrase of the grammar derives its tree wherever its tokens stand, with
    any larger number of levels, and, where it does not end inside of a
    text, in front of further tokens as well as at the end.  So a phrase
    may be taken out of one formula and put into another.  Nor does the
    shape of the tree depend on the names of the functions in it.

    The number of levels matters to the parser in one way only: with too few
    of them it fails, and with that one message. -/

namespace FormulaBar

/-! ## Lexemes -/

/-- What a token says, wherever it stands. -/
def Token.lexeme (t : Token) : Token.Kind × String :=
  (t.kind, t.text)

namespace Token

variable {t u : Token}

theorem kind_of_lexeme (h : t.lexeme = u.lexeme) : t.kind = u.kind :=
  congrArg Prod.fst h

theorem text_of_lexeme (h : t.lexeme = u.lexeme) : t.text = u.text :=
  congrArg Prod.snd h

theorem isBracket_of_lexeme (h : t.lexeme = u.lexeme) (b : Char) :
    t.isBracket b = u.isBracket b := by
  rw [isBracket, isBracket, kind_of_lexeme h, text_of_lexeme h]

theorem isSignificant_of_lexeme (h : t.lexeme = u.lexeme) :
    t.isSignificant = u.isSignificant := by
  rw [isSignificant, isSignificant, kind_of_lexeme h]

end Token

/-- Placing tokens somewhere else does not change what they say. -/
@[simp] theorem map_lexeme_place (n : Nat) (ts : List Token) :
    (place n ts).map Token.lexeme = ts.map Token.lexeme := by
  induction ts generalizing n with
  | nil => rfl
  | cons t ts ih =>
      rw [place, List.map_cons, List.map_cons, ih]
      rfl

/-! ## Names of functions -/

/-- The token, with its text changed where it is the name of a function. -/
def Token.mapName (f : String → String) (t : Token) : Token :=
  if t.kind = .functionName then { t with text := f t.text } else t

/-- What the token says then. -/
def Token.lexemeBy (f : String → String) (t : Token) : Token.Kind × String :=
  (t.mapName f).lexeme

namespace Token

variable {f : String → String} {t u : Token}

/-- Of a name of a function the text is changed, and nothing else. -/
theorem mapName_of_eq (h : t.kind = .functionName) : t.mapName f = { t with text := f t.text } :=
  if_pos h

/-- A token that is no name of a function stays as it is. -/
theorem mapName_of_ne (h : t.kind ≠ .functionName) : t.mapName f = t := if_neg h

@[simp] theorem kind_mapName (f : String → String) (t : Token) : (t.mapName f).kind = t.kind := by
  rw [mapName]
  split
  · rfl
  · rfl

/-- No bracket comes or goes with the names of functions. -/
@[simp] theorem isBracket_mapName (f : String → String) (t : Token) (b : Char) :
    (t.mapName f).isBracket b = t.isBracket b := by
  by_cases hk : t.kind = .functionName
  · rw [isBracket, isBracket, kind_mapName, hk]
    rfl
  · rw [mapName_of_ne hk]

/-- What a token says up to the names of functions tells its class. -/
theorem kind_of_lexemeBy (h : t.lexemeBy f = u.lexemeBy f) : t.kind = u.kind := by
  have hkind := kind_of_lexeme h
  rwa [kind_mapName, kind_mapName] at hkind

@[simp] theorem isSignificant_mapName (f : String → String) (t : Token) :
    (t.mapName f).isSignificant = t.isSignificant := by
  rw [isSignificant, isSignificant, kind_mapName]

/-- Tokens that say the same up to such names are significant together. -/
theorem isSignificant_of_lexemeBy (h : t.lexemeBy f = u.lexemeBy f) :
    t.isSignificant = u.isSignificant := by
  rw [← isSignificant_mapName f t, ← isSignificant_mapName f u]
  exact isSignificant_of_lexeme h

/-- Tokens that say the same up to such names are the same brackets. -/
theorem isBracket_of_lexemeBy (h : t.lexemeBy f = u.lexemeBy f) (b : Char) :
    t.isBracket b = u.isBracket b := by
  rw [← isBracket_mapName f t, ← isBracket_mapName f u]
  exact isBracket_of_lexeme h b

/-- Outside of names of functions it tells the text. -/
theorem text_of_lexemeBy {k : Kind} (h : t.lexemeBy f = u.lexemeBy f) (hu : u.kind = k)
    (hk : k ≠ .functionName) : t.text = u.text := by
  have hne : u.kind ≠ .functionName := hu.symm ▸ hk
  have htext := text_of_lexeme h
  rwa [mapName_of_ne hne, mapName_of_ne (kind_of_lexemeBy h ▸ hne)] at htext

/-- Of a name of a function it tells what becomes of the name. -/
theorem name_of_lexemeBy (h : t.lexemeBy f = u.lexemeBy f) (hu : u.kind = .functionName) :
    f t.text = f u.text := by
  have htext := text_of_lexeme h
  rwa [mapName_of_eq hu, mapName_of_eq ((kind_of_lexemeBy h).trans hu)] at htext

/-- With names left as they are it is what the token says. -/
theorem lexemeBy_id : lexemeBy id = lexeme := by
  funext t
  rw [lexemeBy, mapName]
  split
  · rfl
  · rfl

end Token

/-- Tokens that say the same up to names of functions have significant tokens
    that do. -/
theorem map_lexemeBy_significant {f : String → String} {ts us : List Token}
    (h : ts.map (Token.lexemeBy f) = us.map (Token.lexemeBy f)) :
    (significant ts).map (Token.lexemeBy f) = (significant us).map (Token.lexemeBy f) := by
  induction us generalizing ts with
  | nil => rw [List.map_eq_nil_iff.mp h]
  | cons u us ih =>
      obtain ⟨t, ts, rfl, ht, hts⟩ := List.map_eq_cons_iff.mp h
      have hsig := Token.isSignificant_of_lexemeBy ht
      by_cases hu : u.isSignificant = true
      · rw [significant, significant, List.filter_cons_of_pos hu,
          List.filter_cons_of_pos (hsig.trans hu), List.map_cons, List.map_cons, ht]
        exact congrArg _ (ih hts)
      · rw [significant, significant, List.filter_cons_of_neg hu,
          List.filter_cons_of_neg (hsig ▸ hu)]
        exact ih hts

/-- Tokens that say the same have significant tokens that do. -/
theorem map_lexeme_significant {ts us : List Token}
    (h : ts.map Token.lexeme = us.map Token.lexeme) :
    (significant ts).map Token.lexeme = (significant us).map Token.lexeme := by
  rw [← Token.lexemeBy_id] at h ⊢
  exact map_lexemeBy_significant h

namespace Expr

variable (f : String → String)

mutual

/-- The tree, with the names of the functions in it changed. -/
def mapNames : Expr → Expr
  | .number value => .number value
  | .text value => .text value
  | .reference name => .reference name
  | .chain first links => .chain first.mapNames (linksMapNames links)
  | .call name arguments => .call (f name) (argumentsMapNames arguments)

def linksMapNames : List (String × Expr) → List (String × Expr)
  | [] => []
  | (operator, operand) :: links => (operator, operand.mapNames) :: linksMapNames links

def argumentsMapNames : List Expr → List Expr
  | [] => []
  | argument :: arguments => argument.mapNames :: argumentsMapNames arguments

end

mutual

/-- With names left as they are a tree stays as it is. -/
theorem mapNames_id (e : Expr) : e.mapNames id = e :=
  match e with
  | .number _ => rfl
  | .text _ => rfl
  | .reference _ => rfl
  | .chain first links => by rw [mapNames, mapNames_id first, linksMapNames_id links]
  | .call name arguments => by rw [mapNames, argumentsMapNames_id arguments, id]

theorem linksMapNames_id (links : List (String × Expr)) : linksMapNames id links = links :=
  match links with
  | [] => rfl
  | (operator, operand) :: links => by
      rw [linksMapNames, mapNames_id operand, linksMapNames_id links]

theorem argumentsMapNames_id (arguments : List Expr) : argumentsMapNames id arguments = arguments :=
  match arguments with
  | [] => rfl
  | argument :: arguments => by
      rw [argumentsMapNames, mapNames_id argument, argumentsMapNames_id arguments]

end

end Expr

namespace Grammar

section

variable {f : String → String}

/-- The body of a text does not depend on names of functions. -/
theorem Body.of_lexemesBy {body l : List Token} {text : String} (h : Body body text)
    (hl : l.map (Token.lexemeBy f) = body.map (Token.lexemeBy f)) : Body l text := by
  cases h with
  | empty =>
      rw [List.map_eq_nil_iff.mp hl]
      exact .empty
  | string kind =>
      obtain ⟨t, rfl, ht⟩ := List.map_eq_singleton_iff.mp hl
      rw [← Token.text_of_lexemeBy ht kind (by decide)]
      exact .string ((Token.kind_of_lexemeBy ht).trans kind)

mutual

/-- Tokens that say the same but for the names of functions derive trees that
    are the same but for these names. -/
theorem Operand.of_lexemesBy {final : Bool} {n : Nat} {phrase l : List Token} {e : Expr}
    (h : Operand final n phrase e)
    (hl : l.map (Token.lexemeBy f) = phrase.map (Token.lexemeBy f)) :
    ∃ e', Operand final n l e' ∧ e'.mapNames f = e.mapNames f :=
  match h with
  | .number kind literal => by
      obtain ⟨t, rfl, ht⟩ := List.map_eq_singleton_iff.mp hl
      rw [← Token.text_of_lexemeBy ht kind (by decide)] at literal
      exact ⟨_, .number ((Token.kind_of_lexemeBy ht).trans kind) literal, rfl⟩
  -- the tokens are cut as the phrase is, piece by piece
  | .text hquote hbody hend => by
      obtain ⟨quote, _, rfl, hq, htail⟩ := List.map_eq_cons_iff.mp hl
      rw [List.map_append] at htail
      obtain ⟨body, closing, rfl, hmap, hclosing⟩ := List.map_eq_append_iff.mp htail
      obtain ⟨endQuote, rfl, hlast⟩ := List.map_eq_singleton_iff.mp hclosing
      exact ⟨_, .text ((Token.kind_of_lexemeBy hq).trans hquote) (hbody.of_lexemesBy hmap)
        ((Token.kind_of_lexemeBy hlast).trans hend), rfl⟩
  | .openText hquote hbody => by
      obtain ⟨quote, _, rfl, hq, htail⟩ := List.map_eq_cons_iff.mp hl
      exact ⟨_, .openText ((Token.kind_of_lexemeBy hq).trans hquote) (hbody.of_lexemesBy htail),
        rfl⟩
  | .reference hopener hname hcloser => by
      obtain ⟨opener, _, rfl, ho, htail⟩ := List.map_eq_cons_iff.mp hl
      obtain ⟨name, _, rfl, hn, hlast⟩ := List.map_eq_cons_iff.mp htail
      obtain ⟨closer, rfl, hc⟩ := List.map_eq_singleton_iff.mp hlast
      rw [← Token.text_of_lexemeBy hn hname (by decide)]
      exact ⟨_, .reference ((Token.isBracket_of_lexemeBy ho _).trans hopener)
        ((Token.kind_of_lexemeBy hn).trans hname)
        ((Token.isBracket_of_lexemeBy hc _).trans hcloser), rfl⟩
  | .emptyCall hname hopener hcloser => by
      obtain ⟨name, _, rfl, hn, htail⟩ := List.map_eq_cons_iff.mp hl
      obtain ⟨opener, _, rfl, ho, hlast⟩ := List.map_eq_cons_iff.mp htail
      obtain ⟨closer, rfl, hc⟩ := List.map_eq_singleton_iff.mp hlast
      refine ⟨_, .emptyCall ((Token.kind_of_lexemeBy hn).trans hname)
        ((Token.isBracket_of_lexemeBy ho _).trans hopener)
        ((Token.isBracket_of_lexemeBy hc _).trans hcloser), ?_⟩
      rw [Expr.mapNames, Expr.mapNames, Token.name_of_lexemeBy hn hname]
  | .call hname hopener hinner hcloser => by
      obtain ⟨name, _, rfl, hn, htail⟩ := List.map_eq_cons_iff.mp hl
      obtain ⟨opener, _, rfl, ho, hrest⟩ := List.map_eq_cons_iff.mp htail
      rw [List.map_append] at hrest
      obtain ⟨inner, closing, rfl, hmap, hclosing⟩ := List.map_eq_append_iff.mp hrest
      obtain ⟨closer, rfl, hc⟩ := List.map_eq_singleton_iff.mp hclosing
      obtain ⟨arguments, harguments, hsame⟩ := hinner.of_lexemesBy hmap
      refine ⟨_, .call ((Token.kind_of_lexemeBy hn).trans hname)
        ((Token.isBracket_of_lexemeBy ho _).trans hopener) harguments
        ((Token.isBracket_of_lexemeBy hc _).trans hcloser), ?_⟩
      rw [Expr.mapNames, Expr.mapNames, Token.name_of_lexemeBy hn hname, hsame]
  | .group hopener hinner hcloser => by
      obtain ⟨opener, _, rfl, ho, htail⟩ := List.map_eq_cons_iff.mp hl
      rw [List.map_append] at htail
      obtain ⟨inner, closing, rfl, hmap, hclosing⟩ := List.map_eq_append_iff.mp htail
      obtain ⟨closer, rfl, hc⟩ := List.map_eq_singleton_iff.mp hclosing
      obtain ⟨e', he', hsame⟩ := hinner.of_lexemesBy hmap
      exact ⟨e', .group ((Token.isBracket_of_lexemeBy ho _).trans hopener) he'
        ((Token.isBracket_of_lexemeBy hc _).trans hcloser), hsame⟩

/-- So do operators with their operands, link by link. -/
theorem Links.of_lexemesBy {final : Bool} {n : Nat} {phrase l : List Token}
    {links : List (String × Expr)} (h : Links final n phrase links)
    (hl : l.map (Token.lexemeBy f) = phrase.map (Token.lexemeBy f)) :
    ∃ links', Links final n l links' ∧ Expr.linksMapNames f links' = Expr.linksMapNames f links :=
  match h with
  | .single hoperator hoperand => by
      obtain ⟨operator, _, rfl, ho, htail⟩ := List.map_eq_cons_iff.mp hl
      obtain ⟨e', he', hsame⟩ := hoperand.of_lexemesBy htail
      refine ⟨_, .single ((Token.kind_of_lexemeBy ho).trans hoperator) he', ?_⟩
      rw [Token.text_of_lexemeBy ho hoperator (by decide)]
      exact congrArg (fun e => [(_, e)]) hsame
  | .cons hoperator hoperand hmore => by
      obtain ⟨operator, _, rfl, ho, htail⟩ := List.map_eq_cons_iff.mp hl
      rw [List.map_append] at htail
      obtain ⟨first, more, rfl, hfirst, hrest⟩ := List.map_eq_append_iff.mp htail
      obtain ⟨e', he', hsame⟩ := hoperand.of_lexemesBy hfirst
      obtain ⟨links', hlinks', hsame'⟩ := hmore.of_lexemesBy hrest
      refine ⟨_, .cons ((Token.kind_of_lexemeBy ho).trans hoperator) he' hlinks', ?_⟩
      rw [Token.text_of_lexemeBy ho hoperator (by decide), Expr.linksMapNames,
        Expr.linksMapNames, hsame, hsame']

/-- So do arguments, one by one. -/
theorem Arguments.of_lexemesBy {n : Nat} {phrase l : List Token} {es : List Expr}
    (h : Arguments n phrase es)
    (hl : l.map (Token.lexemeBy f) = phrase.map (Token.lexemeBy f)) :
    ∃ es', Arguments n l es' ∧ Expr.argumentsMapNames f es' = Expr.argumentsMapNames f es :=
  match h with
  | .single h => by
      obtain ⟨e', he', hsame⟩ := h.of_lexemesBy hl
      exact ⟨_, .single he', congrArg (fun e => [e]) hsame⟩
  | .cons h hcomma hmore => by
      rw [List.map_append] at hl
      obtain ⟨first, tail, rfl, hfirst, htail⟩ := List.map_eq_append_iff.mp hl
      obtain ⟨comma, more, rfl, hc, hrest⟩ := List.map_eq_cons_iff.mp htail
      obtain ⟨e', he', hsame⟩ := h.of_lexemesBy hfirst
      obtain ⟨es', hes', hsame'⟩ := hmore.of_lexemesBy hrest
      refine ⟨_, .cons he' ((Token.kind_of_lexemeBy hc).trans hcomma) hes', ?_⟩
      rw [Expr.argumentsMapNames, Expr.argumentsMapNames, hsame, hsame']

/-- Tokens that say the same up to names of functions derive trees that are
    the same up to these. -/
theorem Expression.of_lexemesBy {final : Bool} {n : Nat} {phrase l : List Token} {e : Expr}
    (h : Expression final n phrase e)
    (hl : l.map (Token.lexemeBy f) = phrase.map (Token.lexemeBy f)) :
    ∃ e', Expression final n l e' ∧ e'.mapNames f = e.mapNames f :=
  match h with
  | .operand h => by
      obtain ⟨e', he', hsame⟩ := h.of_lexemesBy hl
      exact ⟨e', .operand he', hsame⟩
  | .chain hfirst hmore => by
      rw [List.map_append] at hl
      obtain ⟨first, more, rfl, hfirst', hmore'⟩ := List.map_eq_append_iff.mp hl
      obtain ⟨e', he', hsame⟩ := hfirst.of_lexemesBy hfirst'
      obtain ⟨links', hlinks', hsame'⟩ := hmore.of_lexemesBy hmore'
      refine ⟨_, .chain he' hlinks', ?_⟩
      rw [Expr.mapNames, Expr.mapNames, hsame, hsame']

end

end

/-- Where the tokens of a body stand does not matter. -/
theorem Body.of_lexemes {body l : List Token} {text : String} (h : Body body text)
    (hl : l.map Token.lexeme = body.map Token.lexeme) : Body l text := by
  rw [← Token.lexemeBy_id] at hl
  exact h.of_lexemesBy hl

/-- A phrase derives its tree wherever its tokens stand. -/
theorem Expression.of_lexemes {final : Bool} {n : Nat} {phrase l : List Token} {e : Expr}
    (h : Expression final n phrase e) (hl : l.map Token.lexeme = phrase.map Token.lexeme) :
    Expression final n l e := by
  rw [← Token.lexemeBy_id] at hl
  obtain ⟨e', he', hsame⟩ := h.of_lexemesBy hl
  rw [Expr.mapNames_id, Expr.mapNames_id] at hsame
  exact hsame ▸ he'

end Grammar

/-! ## Levels -/

namespace Grammar

/-- More levels do no harm. -/
theorem Expression.mono {n m : Nat} {phrase : List Token} {e : Expr}
    (h : Expression false n phrase e) (hm : n ≤ m) : Expression false m phrase e := by
  -- in front of a parenthesis the phrase is read as an inner one
  have hclosed := endsChain_of_isBracket (t := ⟨.bracket, ")", 0, 0⟩) (b := ')') [] (by decide)
  have hread := h.read hm (by intro hfinal; cases hfinal) hclosed
  obtain ⟨phrase', hsplit, hphrase⟩ := expression_sound m hread
  rw [List.append_cancel_right hsplit]
  exact hphrase

end Grammar

namespace Outcome

variable {α β : Type}

/-- The same outcome, unless the levels do not suffice for the first. -/
def Within (o o' : Outcome α) : Prop :=
  o = o' ∨ ∃ rest levels, o = .failed .tooDeep rest levels

theorem within_refl (o : Outcome α) : o.Within o := Or.inl rfl

/-- Within an outcome that is within another one an outcome is within that. -/
theorem Within.trans {o o' o'' : Outcome α} (h : o.Within o') (h' : o'.Within o'') :
    o.Within o'' := by
  rcases h with rfl | hdeep
  · exact h'
  · exact Or.inr hdeep

/-- What is made of a value does not change where the outcome is within. -/
theorem Within.map {o o' : Outcome α} (f : α → β) (h : o.Within o') :
    (o.map f).Within (o'.map f) := by
  rcases h with rfl | ⟨rest, levels, rfl⟩
  · exact within_refl _
  · exact Or.inr ⟨rest, levels, rfl⟩

/-- One level more around both changes nothing. -/
theorem Within.enclose {o o' : Outcome α} (h : o.Within o') :
    o.enclose.Within o'.enclose := by
  rcases h with rfl | ⟨rest, levels, rfl⟩
  · exact within_refl _
  · exact Or.inr ⟨rest, levels + 1, rfl⟩

/-- Of two readers one behind the other, both may be given more levels. -/
theorem Within.andThen {o o' : Outcome α} {f f' : α → List Token → Outcome β}
    (h : o.Within o')
    (hf : ∀ value rest, o = .done value rest → (f value rest).Within (f' value rest)) :
    (o.andThen f).Within (o'.andThen f') := by
  rcases h with rfl | ⟨rest, levels, rfl⟩
  · cases o with
    | done value rest => exact hf value rest rfl
    | failed => exact within_refl _
  · exact Or.inr ⟨rest, levels, rfl⟩

end Outcome

/-- Both readers agree, unless the levels do not suffice for the first. -/
def Reader.Within {α : Type} (r r' : Reader α) : Prop :=
  ∀ tokens, (r.read tokens).Within (r'.read tokens)

/-- Behind an operator an operand is read, and then more of them. -/
theorem links_operator (operand : Reader Expr) (read : List (String × Expr)) {t : Token}
    (rest : List Token) (ht : t.kind = .operator) :
    links operand read (t :: rest) = (operand.read rest).andThen fun e rest =>
      links operand ((t.text, e) :: read) rest := by
  rw [links, if_pos ht]
  split
  · next h =>
    conv_rhs => rw [h]
    rfl
  · next h =>
    conv_rhs => rw [h]
    rfl

/-- Behind an argument a comma asks for another one, and anything else has to
    close the list. -/
theorem argumentList_eq (inner : Reader Expr) (read : List Expr) (tokens : List Token) :
    argumentList inner read tokens = (inner.read tokens).andThen fun e rest =>
      match rest with
      | [] => .failed (.missingBracket ')' none) [] 0
      | t :: rest =>
          if t.kind = .comma then argumentList inner (e :: read) rest
          else (expectBracket ')' (t :: rest)).map fun _ => (e :: read).reverse := by
  rw [argumentList]
  split
  · next h =>
    conv_rhs => rw [h]
    rfl
  · next h =>
    conv_rhs => rw [h]
    rfl
  · next h =>
    conv_rhs => rw [h]
    rfl

/-- With a reader of operands that is given more levels, so is that of the
    links. -/
theorem links_within {operand operand' : Reader Expr} (h : operand.Within operand')
    (read : List (String × Expr)) (tokens : List Token) :
    (links operand read tokens).Within (links operand' read tokens) := by
  cases tokens with
  | nil =>
      rw [links, links]
      exact Outcome.within_refl _
  | cons t rest =>
      by_cases ht : t.kind = .operator
      · rw [links_operator _ _ _ ht, links_operator _ _ _ ht]
        refine (h rest).andThen fun e rest' hread => ?_
        have hshorter := operand.leavesBelow rest e rest' hread
        exact links_within h ((t.text, e) :: read) rest'
      · rw [links, links, if_neg ht, if_neg ht]
        exact Outcome.within_refl _
termination_by tokens.length
decreasing_by simp only [List.length_cons]; omega

/-- The same for a list of arguments. -/
theorem argumentList_within {inner inner' : Reader Expr} (h : inner.Within inner')
    (read : List Expr) (tokens : List Token) :
    (argumentList inner read tokens).Within (argumentList inner' read tokens) := by
  rw [argumentList_eq inner, argumentList_eq inner']
  refine (h tokens).andThen fun e rest hread => ?_
  have hshorter := inner.leavesBelow tokens e rest hread
  cases rest with
  | nil => exact Outcome.within_refl _
  | cons t rest =>
      by_cases ht : t.kind = .comma
      · simp only [if_pos ht]
        exact argumentList_within h (e :: read) rest
      · simp only [if_neg ht]
        exact Outcome.within_refl _
termination_by tokens.length
decreasing_by simp only [List.length_cons] at hshorter; omega

/-- The same for what stands behind the name of a function. -/
theorem callArguments_within {inner inner' : Reader Expr} (h : inner.Within inner')
    (tokens : List Token) :
    (callArguments inner tokens).Within (callArguments inner' tokens) := by
  refine (Outcome.within_refl _).andThen fun _ rest _ => ?_
  cases rest with
  | nil => exact argumentList_within h [] []
  | cons t rest =>
      by_cases ht : t.isBracket ')' = true
      · simp only [if_pos ht]
        exact Outcome.within_refl _
      · simp only [if_neg ht]
        exact argumentList_within h [] (t :: rest)

/-- The same for an operand. -/
theorem operand_within {inner inner' : Reader Expr} (h : inner.Within inner') :
    (operandReader inner).Within (operandReader inner') := by
  intro tokens
  show (operand inner tokens).Within (operand inner' tokens)
  cases tokens with
  | nil => exact Outcome.within_refl _
  | cons t rest =>
      -- only calls and groups read expressions
      rw [operand, operand]
      split
      · exact Outcome.within_refl _
      split
      · exact Outcome.within_refl _
      split
      · exact (callArguments_within h rest).map _
      split
      · exact (h rest).andThen fun _ _ _ => Outcome.within_refl _
      · exact Outcome.within_refl _

/-- One level more changes an outcome only where levels were missing. -/
theorem expression_within_succ (n : Nat) : (expression n).Within (expression (n + 1)) := by
  induction n with
  | zero => exact fun tokens => Or.inr ⟨tokens, 1, rfl⟩
  | succ n ih =>
      intro tokens
      refine Outcome.Within.enclose ?_
      refine (operand_within ih tokens).andThen fun first rest _ => ?_
      exact (links_within (operand_within ih) [] rest).map _

/-- A reader with few levels agrees with one that has more of them, unless it
    runs out. -/
theorem expression_within {m n : Nat} (h : m ≤ n) :
    (expression m).Within (expression n) := by
  induction h with
  | refl => exact fun tokens => Outcome.within_refl _
  | step _ ih => exact fun tokens => (ih tokens).trans (expression_within_succ _ tokens)

/-- A sequence that derives a tree with some number of levels has that tree,
    or is nested too deeply. -/
theorem parse_of_derives_deep {tokens : List Token} {n : Nat} {e : Expr}
    (h : Grammar.Expression true n (significant tokens) e) :
    parse tokens = .ok e ∨ parse tokens = .error .tooDeep := by
  obtain ⟨t, rest, hcons, -⟩ := h.starts
  have hne : significant tokens ≠ [] := by
    rw [hcons]
    exact List.cons_ne_nil t rest
  have hread := h.read (Nat.le_max_left n maxLevels) (fun _ => rfl) Grammar.endsChain_nil
  rw [List.append_nil] at hread
  rw [parse_of_significant_ne_nil hne]
  rcases expression_within (Nat.le_max_right n maxLevels) (significant tokens) with
    heq | ⟨_, _, hdeep⟩
  · rw [heq, hread]
    exact Or.inl rfl
  · rw [hdeep]
    exact Or.inr rfl

/-! ## The end of a phrase -/

/-- Whether the tokens end inside of a text that has no end quote. -/
def endsInText (tokens : List Token) : Bool :=
  (significant tokens).getLast?.any fun t => t.kind == .startQuote || t.kind == .string

namespace Grammar

/-- The phrase does not end inside of a text. -/
def Closed (phrase : List Token) : Prop :=
  ∀ init t, phrase = init ++ [t] → t.kind ≠ .startQuote ∧ t.kind ≠ .string

/-- Tokens that do not end in a text have significant tokens that do not. -/
theorem closed_significant {tokens : List Token} (h : endsInText tokens = false) :
    Closed (significant tokens) := by
  intro init t hsplit
  rw [endsInText, hsplit, List.getLast?_concat, Option.any_some] at h
  simpa using h

/-- The end of the whole is the end of its second part. -/
theorem Closed.right {l l' : List Token} (h : Closed (l ++ l')) : Closed l' := by
  intro init t hsplit
  exact h (l ++ init) t (by rw [hsplit, List.append_assoc])

/-- A text with no end quote is not closed. -/
theorem not_closed_of_body {quote : Token} {body : List Token} {text : String}
    (hquote : quote.kind = .startQuote) (hbody : Body body text) :
    ¬ Closed (quote :: body) := by
  intro h
  cases hbody with
  | empty => exact (h [] quote rfl).1 hquote
  | string kind => exact (h [quote] _ rfl).2 kind

/-- An operand that does not end inside of a text may stand in front of
    further tokens. -/
theorem Operand.of_closed {n : Nat} {phrase : List Token} {e : Expr}
    (h : Operand true n phrase e) (hclosed : Closed phrase) : Operand false n phrase e := by
  cases h with
  | number kind literal => exact .number kind literal
  | text hquote hbody hend => exact .text hquote hbody hend
  | openText hquote hbody => exact absurd hclosed (not_closed_of_body hquote hbody)
  | reference hopener hname hcloser => exact .reference hopener hname hcloser
  | emptyCall hname hopener hcloser => exact .emptyCall hname hopener hcloser
  | call hname hopener hinner hcloser => exact .call hname hopener hinner hcloser
  | group hopener hinner hcloser => exact .group hopener hinner hcloser

/-- So may links, whose last operand is the one at the end. -/
theorem Links.of_closed {n : Nat} {phrase : List Token} {links : List (String × Expr)}
    (h : Links true n phrase links) (hclosed : Closed phrase) : Links false n phrase links :=
  match h with
  | .single hoperator hoperand =>
      .single hoperator (hoperand.of_closed (Closed.right (l := [_]) hclosed))
  | .cons hoperator hoperand hmore =>
      .cons hoperator hoperand (hmore.of_closed (Closed.right (l := _ :: _) hclosed))

/-- A phrase that does not end inside of a text may stand in front of further
    tokens. -/
theorem Expression.of_closed {n : Nat} {phrase : List Token} {e : Expr}
    (h : Expression true n phrase e) (hclosed : Closed phrase) :
    Expression false n phrase e := by
  cases h with
  | operand h => exact .operand (h.of_closed hclosed)
  | chain hfirst hmore => exact .chain hfirst (hmore.of_closed hclosed.right)

/-- The tokens end in one that ends a value. -/
def EndsValue (phrase : List Token) : Prop :=
  ∃ init t, phrase = init ++ [t] ∧ t.producesValue = true

/-- What stands in front does not matter to how tokens end. -/
theorem EndsValue.append_left {l' : List Token} (h : EndsValue l') (l : List Token) :
    EndsValue (l ++ l') := by
  obtain ⟨init, t, rfl, ht⟩ := h
  exact ⟨l ++ init, t, (List.append_assoc l init [t]).symm, ht⟩

/-- A token behind which a value ends is a sequence that does. -/
theorem endsValue_singleton {t : Token} (h : t.producesValue = true) : EndsValue [t] :=
  ⟨[], t, rfl, h⟩

/-- Behind a closing bracket a value ends. -/
theorem producesValue_of_isBracket {t : Token} {b : Char} (h : t.isBracket b = true)
    (hb : b = ')' ∨ b = ']') : t.producesValue = true := by
  rcases hb with rfl | rfl <;> simp [Token.producesValue, h]

/-- An operand with all its quotes ends in a value. -/
theorem Operand.endsValue {n : Nat} {phrase : List Token} {e : Expr}
    (h : Operand false n phrase e) : EndsValue phrase := by
  cases h with
  | number kind _ => exact endsValue_singleton (by simp [Token.producesValue, kind])
  | text _ _ hend =>
      exact (endsValue_singleton (by simp [Token.producesValue, hend])).append_left (_ :: _)
  | reference _ _ hcloser =>
      exact (endsValue_singleton
        (producesValue_of_isBracket hcloser (Or.inr rfl))).append_left [_, _]
  | emptyCall _ _ hcloser =>
      exact (endsValue_singleton
        (producesValue_of_isBracket hcloser (Or.inl rfl))).append_left [_, _]
  | call _ _ _ hcloser =>
      exact (endsValue_singleton
        (producesValue_of_isBracket hcloser (Or.inl rfl))).append_left (_ :: _ :: _)
  | group _ _ hcloser =>
      exact (endsValue_singleton
        (producesValue_of_isBracket hcloser (Or.inl rfl))).append_left (_ :: _)

/-- Links end in the value of their last operand. -/
theorem Links.endsValue {n : Nat} {phrase : List Token} {links : List (String × Expr)}
    (h : Links false n phrase links) : EndsValue phrase :=
  match h with
  | .single _ hoperand => hoperand.endsValue.append_left [_]
  | .cons _ _ hmore => hmore.endsValue.append_left (_ :: _)

/-- An expression ends in a value. -/
theorem Expression.endsValue {n : Nat} {phrase : List Token} {e : Expr}
    (h : Expression false n phrase e) : EndsValue phrase := by
  cases h with
  | operand h => exact h.endsValue
  | chain _ hmore => exact hmore.endsValue.append_left _

end Grammar

end FormulaBar
