import FormulaBar.Proofs.Composition

/-! # Opacity — what stands between quotes does not matter

    The lexer has no mode for quoted texts: it knows a text by the token
    behind it, and looks for a bracket through whatever comes.  Still no
    content of a text reaches the structure of a formula that has a tree.
    Another text between two quotes leaves all other tokens, the
    diagnostics and the tree as they are, but for that one text.

    Texts are counted from the left, in a tree as among the tokens: the
    start quote with `k` start quotes in front of it starts the text number
    `k` of the tree. -/

namespace FormulaBar

/-! ## The texts of a tree -/

namespace Expr

mutual

/-- The number of texts in a tree. -/
def textCount : Expr → Nat
  | .number _ => 0
  | .text _ => 1
  | .reference _ => 0
  | .chain first links => first.textCount + linkTextCount links
  | .call _ arguments => argumentTextCount arguments

/-- The number of texts in the links of a chain. -/
def linkTextCount : List (String × Expr) → Nat
  | [] => 0
  | (_, operand) :: links => operand.textCount + linkTextCount links

/-- The number of texts in the arguments of a call. -/
def argumentTextCount : List Expr → Nat
  | [] => 0
  | argument :: arguments => argument.textCount + argumentTextCount arguments

end

mutual

/-- The tree with its text number `k` changed to `v`. -/
def setText (v : String) : Expr → Nat → Expr
  | .number value, _ => .number value
  | .text value, k => if k = 0 then .text v else .text value
  | .reference name, _ => .reference name
  | .chain first links, k =>
      if k < first.textCount then .chain (first.setText v k) links
      else .chain first (setLinkText v links (k - first.textCount))
  | .call name arguments, k => .call name (setArgumentText v arguments k)

/-- The links with their text number `k` changed to `v`. -/
def setLinkText (v : String) : List (String × Expr) → Nat → List (String × Expr)
  | [], _ => []
  | (operator, operand) :: links, k =>
      if k < operand.textCount then (operator, operand.setText v k) :: links
      else (operator, operand) :: setLinkText v links (k - operand.textCount)

/-- The arguments with their text number `k` changed to `v`. -/
def setArgumentText (v : String) : List Expr → Nat → List Expr
  | [], _ => []
  | argument :: arguments, k =>
      if k < argument.textCount then argument.setText v k :: arguments
      else argument :: setArgumentText v arguments (k - argument.textCount)

end

end Expr

/-- The number of start quotes among the tokens. -/
def quotes (tokens : List Token) : Nat :=
  tokens.countP (·.kind == .startQuote)

theorem quotes_append (ts us : List Token) : quotes (ts ++ us) = quotes ts + quotes us :=
  List.countP_append

theorem quotes_cons_of_eq {t : Token} (ts : List Token) (h : t.kind = .startQuote) :
    quotes (t :: ts) = quotes ts + 1 :=
  List.countP_cons_of_pos (beq_iff_eq.mpr h)

theorem quotes_cons_of_ne {t : Token} (ts : List Token) (h : t.kind ≠ .startQuote) :
    quotes (t :: ts) = quotes ts :=
  List.countP_cons_of_neg (by simpa using h)

theorem kind_ne_of_eq {t : Token} {k : Token.Kind} (h : t.kind = k) (hk : k ≠ .startQuote) :
    t.kind ≠ .startQuote := h ▸ hk

theorem kind_ne_of_isBracket {t : Token} {b : Char} (h : t.isBracket b = true) :
    t.kind ≠ .startQuote := by
  rw [Token.kind_of_isBracket h]
  decide

namespace Grammar

/-- There is no start quote inside a text. -/
theorem Body.quotes_eq {body : List Token} {text : String} (h : Body body text) :
    quotes body = 0 := by
  cases h with
  | empty => rfl
  | string kind =>
      rw [quotes_cons_of_ne [] (by rw [kind]; decide)]
      rfl

/-- Inside a text there is nothing but strings. -/
theorem Body.kind_of_mem {body : List Token} {text : String} {t : Token}
    (h : Body body text) (ht : t ∈ body) : t.kind = .string := by
  cases h with
  | empty => cases ht
  | string kind =>
      obtain rfl := List.mem_singleton.mp ht
      exact kind

/-- Brackets and what is between them have the start quotes between them. -/
theorem quotes_enclosed {inner : List Token} {opener closer : Token} {b c : Char}
    (hopener : opener.isBracket b = true) (hcloser : closer.isBracket c = true) :
    quotes (opener :: (inner ++ [closer])) = quotes inner := by
  rw [quotes_cons_of_ne _ (kind_ne_of_isBracket hopener), quotes_append,
    quotes_cons_of_ne _ (kind_ne_of_isBracket hcloser)]
  rfl

mutual

/-- Each start quote of a phrase starts one text of its tree. -/
theorem Operand.quotes_eq {final : Bool} {n : Nat} {phrase : List Token} {e : Expr}
    (h : Operand final n phrase e) : quotes phrase = e.textCount :=
  match h with
  | .number kind _ => quotes_cons_of_ne [] (by rw [kind]; decide)
  | .text hquote hbody hend => by
      rw [quotes_cons_of_eq _ hquote, quotes_append, hbody.quotes_eq,
        quotes_cons_of_ne _ (by rw [hend]; decide)]
      rfl
  | .openText hquote hbody => by
      rw [quotes_cons_of_eq _ hquote, hbody.quotes_eq]
      rfl
  | .reference hopener hname hcloser => by
      rw [quotes_cons_of_ne _ (kind_ne_of_isBracket hopener),
        quotes_cons_of_ne _ (by rw [hname]; decide),
        quotes_cons_of_ne _ (kind_ne_of_isBracket hcloser)]
      rfl
  | .emptyCall hname hopener hcloser => by
      rw [quotes_cons_of_ne _ (by rw [hname]; decide)]
      rw [quotes_cons_of_ne _ (kind_ne_of_isBracket hopener),
        quotes_cons_of_ne _ (kind_ne_of_isBracket hcloser)]
      rfl
  | .call hname hopener hinner hcloser => by
      rw [quotes_cons_of_ne _ (by rw [hname]; decide), quotes_enclosed hopener hcloser]
      exact hinner.quotes_eq
  | .group hopener hinner hcloser => by
      rw [quotes_enclosed hopener hcloser]
      exact hinner.quotes_eq

/-- The links of a chain have as many texts as their tokens have start quotes.
    -/
theorem Links.quotes_eq {final : Bool} {n : Nat} {phrase : List Token}
    {links : List (String × Expr)} (h : Links final n phrase links) :
    quotes phrase = Expr.linkTextCount links :=
  match h with
  | .single hoperator hoperand => by
      rw [quotes_cons_of_ne _ (by rw [hoperator]; decide)]
      exact hoperand.quotes_eq
  | .cons hoperator hoperand hmore => by
      rw [quotes_cons_of_ne _ (by rw [hoperator]; decide), quotes_append,
        hoperand.quotes_eq, hmore.quotes_eq]
      rfl

/-- The arguments of a call have as many texts as their tokens have start
    quotes. -/
theorem Arguments.quotes_eq {n : Nat} {phrase : List Token} {es : List Expr}
    (h : Arguments n phrase es) : quotes phrase = Expr.argumentTextCount es :=
  match h with
  | .single h => h.quotes_eq
  | .cons h hcomma hmore => by
      rw [quotes_append, quotes_cons_of_ne _ (by rw [hcomma]; decide), h.quotes_eq,
        hmore.quotes_eq]
      rfl

/-- A tree has as many texts as the tokens that derive it have start quotes.
    -/
theorem Expression.quotes_eq {final : Bool} {n : Nat} {phrase : List Token} {e : Expr}
    (h : Expression final n phrase e) : quotes phrase = e.textCount :=
  match h with
  | .operand h => h.quotes_eq
  | .chain hfirst hmore => by
      rw [quotes_append, hfirst.quotes_eq, hmore.quotes_eq]
      rfl

end

/-! ## Another text in a phrase -/

/-- What is behind a start quote: a body, then the end quote or, at the end
    of the sequence, nothing.  Any other body in its place, with the text
    `v`, makes `P` true. -/
def Fillable (final : Bool) (after : List Token) (P : List Token → String → Prop) : Prop :=
  ∃ body rest text, after = body ++ rest ∧ Body body text ∧
    ((final = true ∧ rest = []) ∨ ∃ t, rest.head? = some t ∧ t.kind = .endQuote) ∧
    ∀ body' v, Body body' v → P (body' ++ rest) v

/-- What is made true by any other text makes its consequences true. -/
theorem Fillable.imp {final : Bool} {after : List Token} {P Q : List Token → String → Prop}
    (h : Fillable final after P) (hPQ : ∀ after' v, P after' v → Q after' v) :
    Fillable final after Q := by
  obtain ⟨body, rest, text, hsplit, hbody, hrest, hfill⟩ := h
  exact ⟨body, rest, text, hsplit, hbody, hrest, fun body' v h => hPQ _ _ (hfill body' v h)⟩

/-- In front of further tokens the text has its end quote. -/
theorem Fillable.append {final : Bool} {after : List Token}
    {P Q : List Token → String → Prop} (h : Fillable false after P) (more : List Token)
    (hPQ : ∀ after' v, P after' v → Q (after' ++ more) v) :
    Fillable final (after ++ more) Q := by
  obtain ⟨body, rest, text, rfl, hbody, hrest, hfill⟩ := h
  rcases hrest with ⟨hfalse, -⟩ | ⟨t, hhead, ht⟩
  · cases hfalse
  · refine ⟨body, rest ++ more, text, List.append_assoc _ _ _, hbody, Or.inr ⟨t, ?_, ht⟩, ?_⟩
    · rw [List.head?_append, hhead]
      rfl
    · intro body' v h
      rw [← List.append_assoc]
      exact hPQ _ _ (hfill body' v h)

section

variable {t quote : Token} {l l' before after : List Token}

/-- A start quote among tokens of which the first is none is further behind. -/
theorem exists_before_of_cons (ht : t.kind ≠ .startQuote) (hquote : quote.kind = .startQuote)
    (h : t :: l = before ++ quote :: after) :
    ∃ before', before = t :: before' ∧ l = before' ++ quote :: after := by
  cases before with
  | nil =>
      obtain ⟨rfl, -⟩ := List.cons.inj h
      exact absurd hquote ht
  | cons u before' =>
      obtain ⟨rfl, htail⟩ := List.cons.inj h
      exact ⟨before', rfl, htail⟩

/-- A start quote in two parts is in one of them. -/
theorem split_of_append (h : l ++ l' = before ++ quote :: after) :
    (∃ after', l = before ++ quote :: after' ∧ after = after' ++ l') ∨
      ∃ before', before = l ++ before' ∧ l' = before' ++ quote :: after := by
  rcases List.append_eq_append_iff.mp h with ⟨before', rfl, htail⟩ | ⟨more, rfl, htail⟩
  · exact Or.inr ⟨before', rfl, htail⟩
  · cases more with
    | nil => exact Or.inr ⟨[], by simp, htail.symm⟩
    | cons u after' =>
        obtain ⟨rfl, rfl⟩ := List.cons.inj htail
        exact Or.inl ⟨after', rfl, rfl⟩

/-- A start quote is not the last token where that is another one. -/
theorem split_of_concat (ht : t.kind ≠ .startQuote) (hquote : quote.kind = .startQuote)
    (h : l ++ [t] = before ++ quote :: after) :
    ∃ after', l = before ++ quote :: after' ∧ after = after' ++ [t] := by
  rcases split_of_append h with hleft | ⟨before', -, hright⟩
  · exact hleft
  · obtain ⟨_, -, hnil⟩ := exists_before_of_cons ht hquote hright
    exact absurd hnil.symm (List.append_ne_nil_of_right_ne_nil _ (List.cons_ne_nil _ _))

/-- A start quote in a phrase is one of those that its tree counts. -/
theorem quotes_lt (hquote : quote.kind = .startQuote) (h : l = before ++ quote :: after) :
    quotes before < quotes l := by
  rw [h, quotes_append, quotes_cons_of_eq _ hquote]
  omega

/-- Tokens without start quotes do not split at one. -/
theorem ne_of_quotes_eq_zero (hquote : quote.kind = .startQuote) (hl : quotes l = 0) :
    l ≠ before ++ quote :: after := by
  intro h
  have hlt := quotes_lt hquote h
  omega

end

/-- The first texts of a chain are those of its first operand. -/
theorem setText_chain_of_lt {first : Expr} {k : Nat} (links : List (String × Expr))
    (v : String) (h : k < first.textCount) :
    (Expr.chain first links).setText v k = .chain (first.setText v k) links :=
  if_pos h

/-- Behind the texts of the first operand come those of the links. -/
theorem setText_chain_add (first : Expr) (links : List (String × Expr)) (v : String)
    (k : Nat) : (Expr.chain first links).setText v (first.textCount + k)
      = .chain first (Expr.setLinkText v links k) := by
  have hnot : ¬ first.textCount + k < first.textCount := by omega
  rw [Expr.setText, if_neg hnot, Nat.add_sub_cancel_left]

theorem setLinkText_cons_of_lt {e : Expr} {k : Nat} (operator : String)
    (links : List (String × Expr)) (v : String) (h : k < e.textCount) :
    Expr.setLinkText v ((operator, e) :: links) k = (operator, e.setText v k) :: links :=
  if_pos h

theorem setLinkText_cons_add (operator : String) (e : Expr) (links : List (String × Expr))
    (v : String) (k : Nat) : Expr.setLinkText v ((operator, e) :: links) (e.textCount + k)
      = (operator, e) :: Expr.setLinkText v links k := by
  have hnot : ¬ e.textCount + k < e.textCount := by omega
  rw [Expr.setLinkText, if_neg hnot, Nat.add_sub_cancel_left]

theorem setArgumentText_cons_of_lt {e : Expr} {k : Nat} (es : List Expr) (v : String)
    (h : k < e.textCount) : Expr.setArgumentText v (e :: es) k = e.setText v k :: es :=
  if_pos h

theorem setArgumentText_cons_add (e : Expr) (es : List Expr) (v : String) (k : Nat) :
    Expr.setArgumentText v (e :: es) (e.textCount + k)
      = e :: Expr.setArgumentText v es k := by
  have hnot : ¬ e.textCount + k < e.textCount := by omega
  rw [Expr.setArgumentText, if_neg hnot, Nat.add_sub_cancel_left]

mutual

/-- Any other text behind a start quote of an operand makes the operand with
    that text. -/
theorem Operand.fillable {final : Bool} {n : Nat} {phrase : List Token} {e : Expr}
    (h : Operand final n phrase e) {quote : Token} {before after : List Token}
    (hquote : quote.kind = .startQuote) (hsplit : phrase = before ++ quote :: after) :
    Fillable final after fun after' v =>
      Operand final n (before ++ quote :: after') (e.setText v (quotes before)) :=
  match h with
  -- no start quote, no text to change
  | .number kind literal => by
      have hphrase : Operand final n _ _ := .number kind literal
      exact absurd hsplit (ne_of_quotes_eq_zero hquote hphrase.quotes_eq)
  -- the first token is the start quote, and there is none inside
  | .text hstart hbody hend => by
      cases before with
      | nil =>
          obtain ⟨rfl, rfl⟩ := List.cons.inj hsplit
          refine ⟨_, _, _, rfl, hbody, Or.inr ⟨_, rfl, hend⟩, fun body' v h => ?_⟩
          exact .text hquote h hend
      | cons t before =>
          obtain ⟨after, hinner, -⟩ :=
            split_of_concat (by rw [hend]; decide) hquote (List.cons.inj hsplit).2
          exact absurd hinner (ne_of_quotes_eq_zero hquote hbody.quotes_eq)
  | .openText hstart hbody => by
      cases before with
      | nil =>
          obtain ⟨rfl, rfl⟩ := List.cons.inj hsplit
          refine ⟨_, [], _, (List.append_nil _).symm, hbody, Or.inl ⟨rfl, rfl⟩,
            fun body' v h => ?_⟩
          rw [List.append_nil]
          exact .openText hquote h
      | cons t before =>
          have hinner := (List.cons.inj hsplit).2
          exact absurd hinner (ne_of_quotes_eq_zero hquote hbody.quotes_eq)
  | .reference hopener hname hcloser => by
      have hphrase : Operand final n _ _ := .reference hopener hname hcloser
      exact absurd hsplit (ne_of_quotes_eq_zero hquote hphrase.quotes_eq)
  | .emptyCall hname hopener hcloser => by
      have hphrase : Operand final n _ _ := .emptyCall hname hopener hcloser
      exact absurd hsplit (ne_of_quotes_eq_zero hquote hphrase.quotes_eq)
  -- a start quote of the call is one of its arguments
  | .call hname hopener hinner hcloser => by
      obtain ⟨_, rfl, hbehind⟩ :=
        exists_before_of_cons (by rw [hname]; decide) hquote hsplit
      obtain ⟨_, rfl, henclosed⟩ :=
        exists_before_of_cons (kind_ne_of_isBracket hopener) hquote hbehind
      obtain ⟨after, hphrase, rfl⟩ :=
        split_of_concat (kind_ne_of_isBracket hcloser) hquote henclosed
      rw [quotes_cons_of_ne _ (by rw [hname]; decide),
        quotes_cons_of_ne _ (kind_ne_of_isBracket hopener)]
      refine (hinner.fillable hquote hphrase).append [_] fun after' v h => ?_
      have hcall : Operand final n _ _ := .call hname hopener h hcloser
      rwa [List.append_assoc] at hcall
  | .group hopener hinner hcloser => by
      obtain ⟨_, rfl, henclosed⟩ :=
        exists_before_of_cons (kind_ne_of_isBracket hopener) hquote hsplit
      obtain ⟨after, hphrase, rfl⟩ :=
        split_of_concat (kind_ne_of_isBracket hcloser) hquote henclosed
      rw [quotes_cons_of_ne _ (kind_ne_of_isBracket hopener)]
      refine (hinner.fillable hquote hphrase).append [_] fun after' v h => ?_
      have hgroup : Operand final n _ _ := .group hopener h hcloser
      rwa [List.append_assoc] at hgroup

/-- Any other text behind a start quote of the links makes the links with that
    text. -/
theorem Links.fillable {final : Bool} {n : Nat} {phrase : List Token}
    {links : List (String × Expr)} (h : Links final n phrase links)
    {quote : Token} {before after : List Token}
    (hquote : quote.kind = .startQuote) (hsplit : phrase = before ++ quote :: after) :
    Fillable final after fun after' v =>
      Links final n (before ++ quote :: after')
        (Expr.setLinkText v links (quotes before)) :=
  match h with
  | .single hoperator hoperand => by
      have hoperator' := kind_ne_of_eq hoperator (by decide)
      obtain ⟨before, rfl, hphrase⟩ := exists_before_of_cons hoperator' hquote hsplit
      have hlt := hoperand.quotes_eq ▸ quotes_lt hquote hphrase
      refine (hoperand.fillable hquote hphrase).imp fun after' v h => ?_
      rw [quotes_cons_of_ne _ hoperator', setLinkText_cons_of_lt _ _ _ hlt]
      exact .single hoperator h
  | .cons hoperator hoperand hmore => by
      have hoperator' := kind_ne_of_eq hoperator (by decide)
      obtain ⟨_, rfl, hbehind⟩ := exists_before_of_cons hoperator' hquote hsplit
      rw [quotes_cons_of_ne _ hoperator']
      -- the text is in this operand, or in one of the links behind it
      rcases split_of_append hbehind with ⟨after, hphrase, rfl⟩ | ⟨before, rfl, hphrase⟩
      · have hlt := hoperand.quotes_eq ▸ quotes_lt hquote hphrase
        refine (hoperand.fillable hquote hphrase).append _ fun after' v h => ?_
        have hlinks := Links.cons hoperator h hmore
        rw [List.append_assoc] at hlinks
        rw [setLinkText_cons_of_lt _ _ _ hlt]
        exact hlinks
      · refine (hmore.fillable hquote hphrase).imp fun after' v h => ?_
        have hlinks := Links.cons hoperator hoperand h
        rw [quotes_append, hoperand.quotes_eq, setLinkText_cons_add]
        rwa [← List.append_assoc] at hlinks

/-- Any other text behind a start quote of the arguments makes the arguments
    with that text. -/
theorem Arguments.fillable {n : Nat} {phrase : List Token} {es : List Expr}
    (h : Arguments n phrase es) {quote : Token} {before after : List Token}
    (hquote : quote.kind = .startQuote) (hsplit : phrase = before ++ quote :: after) :
    Fillable false after fun after' v =>
      Arguments n (before ++ quote :: after')
        (Expr.setArgumentText v es (quotes before)) :=
  match h with
  | .single h => by
      have hlt := h.quotes_eq ▸ quotes_lt hquote hsplit
      refine (h.fillable hquote hsplit).imp fun after' v h => ?_
      rw [setArgumentText_cons_of_lt _ _ hlt]
      exact .single h
  | .cons h hcomma hmore => by
      have hcomma' := kind_ne_of_eq hcomma (by decide)
      rcases split_of_append hsplit with ⟨after, hphrase, rfl⟩ | ⟨_, rfl, hbehind⟩
      · have hlt := h.quotes_eq ▸ quotes_lt hquote hphrase
        refine (h.fillable hquote hphrase).append _ fun after' v h => ?_
        have hargs := Arguments.cons h hcomma hmore
        rw [List.append_assoc] at hargs
        rw [setArgumentText_cons_of_lt _ _ hlt]
        exact hargs
      · obtain ⟨before, rfl, hphrase⟩ := exists_before_of_cons hcomma' hquote hbehind
        refine (hmore.fillable hquote hphrase).imp fun after' v h' => ?_
        have hargs := Arguments.cons h hcomma h'
        rw [quotes_append, h.quotes_eq, quotes_cons_of_ne _ hcomma',
          setArgumentText_cons_add]
        rwa [← List.cons_append, ← List.append_assoc] at hargs

/-- Another text may stand behind any start quote of an expression. -/
theorem Expression.fillable {final : Bool} {n : Nat} {phrase : List Token} {e : Expr}
    (h : Expression final n phrase e) {quote : Token} {before after : List Token}
    (hquote : quote.kind = .startQuote) (hsplit : phrase = before ++ quote :: after) :
    Fillable final after fun after' v =>
      Expression final n (before ++ quote :: after') (e.setText v (quotes before)) :=
  match h with
  | .operand h => (h.fillable hquote hsplit).imp fun _ _ h => .operand h
  | .chain hfirst hmore => by
      rcases split_of_append hsplit with ⟨after, hphrase, rfl⟩ | ⟨before, rfl, hphrase⟩
      · have hlt := hfirst.quotes_eq ▸ quotes_lt hquote hphrase
        refine (hfirst.fillable hquote hphrase).append _ fun after' v h => ?_
        have hchain := Expression.chain h hmore
        rw [List.append_assoc] at hchain
        rw [setText_chain_of_lt _ _ hlt]
        exact hchain
      · refine (hmore.fillable hquote hphrase).imp fun after' v h => ?_
        have hchain := Expression.chain hfirst h
        rw [quotes_append, hfirst.quotes_eq, setText_chain_add]
        rwa [← List.append_assoc] at hchain

end

end Grammar

/-! ## Diagnostics behind a text -/

open Grammar

/-- All start quotes are significant. -/
theorem quotes_significant (tokens : List Token) : quotes (significant tokens) = quotes tokens := by
  induction tokens with
  | nil => rfl
  | cons t ts ih =>
      by_cases hk : t.kind = .whitespace
      · rw [significant_cons_of_whitespace ts hk, ih,
          quotes_cons_of_ne ts (kind_ne_of_eq hk (by decide))]
      · rw [significant_cons_of_kind ts hk, quotes, quotes, List.countP_cons, List.countP_cons]
        exact congrArg (· + _) ih

/-- The token with index `i` starts a text that ends the tokens without an
    end quote. -/
def OpensAt (tokens : List Token) (i : Nat) : Prop :=
  ∃ before quote rest text, tokens = before ++ quote :: rest ∧ quote.kind = .startQuote ∧
    Body (significant rest) text ∧ before.length = i

/-- Which text is open is a matter of the kinds and the texts of the tokens.
    -/
theorem OpensAt.of_lexemes {ts us : List Token} {i : Nat} (h : OpensAt ts i)
    (hl : us.map Token.lexeme = ts.map Token.lexeme) : OpensAt us i := by
  obtain ⟨before, quote, rest, text, rfl, hquote, hbody, rfl⟩ := h
  rw [List.map_append] at hl
  obtain ⟨before', tail, rfl, hbefore, htail⟩ := List.map_eq_append_iff.mp hl
  obtain ⟨quote', rest', rfl, hquote', hrest⟩ := List.map_eq_cons_iff.mp htail
  refine ⟨before', quote', rest', text, rfl, (Token.kind_of_lexeme hquote').trans hquote,
    hbody.of_lexemes (map_lexeme_significant hrest), ?_⟩
  have hlength := congrArg List.length hbefore
  rwa [List.length_map, List.length_map] at hlength

/-- Only the last of the start quotes opens a text that nothing closes. -/
theorem eq_of_last_quote {before before' rest rest' : List Token} {quote quote' : Token}
    (h : before ++ quote :: rest = before' ++ quote' :: rest')
    (hquote : quote.kind = .startQuote) (hquote' : quote'.kind = .startQuote)
    (hrest : quotes rest = 0) (hrest' : quotes rest' = 0) : before = before' := by
  rcases split_of_append h with ⟨more, -, hmore⟩ | ⟨more, rfl, hmore⟩
  · exact absurd hmore (ne_of_quotes_eq_zero hquote hrest')
  · cases more with
    | nil => exact (List.append_nil before).symm
    | cons t more =>
        have htail := (List.cons.inj hmore).2
        exact absurd htail (ne_of_quotes_eq_zero hquote' hrest)

/-- A formula with a tree and an open text lacks the end quote of that text
    and nothing else. -/
theorem diagnose_of_opensAt {tokens : List Token} {e : Expr} {i : Nat}
    (he : parse tokens = .ok e) (h : OpensAt tokens i) :
    diagnose tokens = [⟨i, .missingClose '"'⟩] := by
  obtain ⟨before, quote, rest, text, hsplit, hquote, hbody, rfl⟩ := h
  rcases diagnose_of_derives (derives_of_parse he) with hnil | hfound
  · -- the frame of the quote is still there at the end
    have hframes := (diagnose_eq_nil_iff.mp hnil).2
    have hentry : entries before.length (quote :: rest)
        = (before.length, quote) :: entries (before.length + 1) rest :=
      if_pos (by simp [Token.isSignificant, hquote])
    rw [hsplit, entries_append, Nat.zero_add, hentry, Context.run_append,
      Context.run_cons] at hframes
    have hinner : ∀ s, Context.Balanced 0 s (entries (before.length + 1) rest) :=
      hbody.balanced (map_snd_entries (before.length + 1) rest)
    rw [(hinner _).frames, Context.frames_after, Context.framesAfter_startQuote _ hquote]
      at hframes
    cases hframes
  · obtain ⟨before', quote', rest', text', hsplit', hquote', hbody', hdiagnose⟩ := hfound
    have hrest : quotes rest = 0 := (quotes_significant rest).symm.trans hbody.quotes_eq
    have hrest' : quotes rest' = 0 := (quotes_significant rest').symm.trans hbody'.quotes_eq
    rw [eq_of_last_quote (hsplit.symm.trans hsplit') hquote hquote' hrest hrest', hdiagnose]

/-- With a tree, a text without an end quote is all that can be reported. -/
theorem diagnose_eq_nil_or_opensAt {tokens : List Token} {e : Expr}
    (he : parse tokens = .ok e) : diagnose tokens = [] ∨ ∃ i, OpensAt tokens i := by
  rcases diagnose_of_derives (derives_of_parse he) with hnil | hfound
  · exact Or.inl hnil
  · obtain ⟨before, quote, rest, text, hsplit, hquote, hbody, -⟩ := hfound
    exact Or.inr ⟨_, before, quote, rest, text, hsplit, hquote, hbody, rfl⟩

/-- The index `i` of a token, where `count` tokens right behind index `quote`
    are replaced by `count'` others. -/
def renumber (quote count count' i : Nat) : Nat :=
  if i ≤ quote then i else i - count + count'

/-- What follows the body of a text. -/
def ClosesText (rest : List Token) : Prop :=
  rest = [] ∨ ∃ t, rest.head? = some t ∧ t.kind = .endQuote

section

variable {before rest body body' : List Token} {quote : Token} {text v : String}

/-- Which text is open at the end does not depend on another text. -/
theorem OpensAt.refill {i : Nat} (h : OpensAt (before ++ quote :: (body ++ rest)) i)
    (hquote : quote.kind = .startQuote) (hbody : Body body text) (hbody' : Body body' v)
    (hrest : ClosesText rest) : OpensAt (before ++ quote :: (body' ++ rest))
      (renumber before.length body.length body'.length i) := by
  obtain ⟨init, opened, last, s, hsplit, hopened, hlast, rfl⟩ := h
  have hzero : quotes last = 0 := (quotes_significant last).symm.trans hlast.quotes_eq
  rcases hrest with rfl | ⟨t, hhead, ht⟩
  · rw [List.append_nil] at hsplit
    have hinit := eq_of_last_quote hsplit hquote hopened hbody.quotes_eq hzero
    rw [← hinit, renumber, if_pos (Nat.le_refl _), List.append_nil]
    refine ⟨before, quote, body', v, rfl, hquote, ?_, rfl⟩
    cases hbody' with
    | empty => exact .empty
    | string kind =>
        rw [significant_cons_of_kind [] (by rw [kind]; decide)]
        exact .string kind
  · obtain ⟨tail, rfl⟩ := List.head?_eq_some_iff.mp hhead
    -- nothing is behind an open text, so the end quote is in front of it
    have hbehind : (before ++ quote :: body) ++ t :: tail = init ++ opened :: last := by
      rw [← hsplit, List.append_assoc, List.cons_append]
    rcases split_of_append hbehind with ⟨more, -, rfl⟩ | ⟨more, hinit, hmore⟩
    · rw [significant_append, significant_cons_of_kind tail (by rw [ht]; decide)] at hlast
      have hstring := hlast.kind_of_mem (List.mem_append_right _ List.mem_cons_self)
      rw [ht] at hstring
      cases hstring
    · refine ⟨before ++ quote :: body' ++ more, opened, last, s, ?_, hopened, hlast, ?_⟩
      · rw [hmore]
        simp
      · rw [hinit, renumber, if_neg]
        · simp only [List.length_append, List.length_cons]
          omega
        · simp only [List.length_append, List.length_cons]
          omega

/-- The diagnostics do not depend on another text, up to the indices behind
    it. -/
theorem diagnose_refill {tokens tokens' : List Token} {e e' : Expr}
    (he : parse tokens = .ok e) (he' : parse tokens' = .ok e')
    (hsplit : tokens = before ++ quote :: (body ++ rest))
    (hsplit' : tokens'.map Token.lexeme
      = (before ++ quote :: (body' ++ rest)).map Token.lexeme)
    (hquote : quote.kind = .startQuote) (hbody : Body body text) (hbody' : Body body' v)
    (hrest : ClosesText rest) : diagnose tokens' = (diagnose tokens).map fun d =>
      ⟨renumber before.length body.length body'.length d.token, d.cause⟩ := by
  have hopens : ∀ {i}, OpensAt tokens i →
      OpensAt tokens' (renumber before.length body.length body'.length i) := by
    intro i h
    rw [hsplit] at h
    exact (h.refill hquote hbody hbody' hrest).of_lexemes hsplit'
  rcases diagnose_eq_nil_or_opensAt he with hnil | ⟨i, hi⟩
  · rw [hnil]
    rcases diagnose_eq_nil_or_opensAt he' with hnil' | ⟨i, hi⟩
    · exact hnil'
    · -- a text left open by the new tokens would be open in the old ones
      have hback := (hi.of_lexemes hsplit'.symm).refill hquote hbody' hbody hrest
      rw [← hsplit] at hback
      cases hnil.symm.trans (diagnose_of_opensAt he hback)
  · rw [diagnose_of_opensAt he hi, diagnose_of_opensAt he' (hopens hi)]
    rfl

end

/-! ## Another text in a formula -/

/-- The string between the quotes of a text, if any. -/
def stringTokens (v : String) : List Token :=
  if v = "" then [] else [.ofText .string v]

/-- A string, if any, is the inside of a text. -/
theorem body_stringTokens (v : String) : Body (stringTokens v) v := by
  rw [stringTokens]
  by_cases hv : v = ""
  · rw [if_pos hv, hv]
    exact .empty
  · rw [if_neg hv]
    exact Body.string (t := .ofText .string v) rfl

/-- The inside of a text spells the text. -/
theorem spell_body {body : List Token} {text : String} (h : Body body text) :
    spell body = text.toList := by
  cases h with
  | empty => rfl
  | string _ => rw [spell_cons, spell_nil, List.append_nil]

/-- Behind the inside of a text a text or its start quote is in mind. -/
theorem afterAll_body {body : List Token} {text : String} (h : Body body text) :
    Memory.afterAll .quote body = .text ∨ Memory.afterAll .quote body = .quote := by
  cases h with
  | empty => exact Or.inr rfl
  | string kind =>
      refine Or.inl ?_
      rw [Memory.afterAll_cons, Memory.after_of_kind kind (by decide),
        Token.memory_of_string kind, Memory.afterAll_nil]

/-- Behind the string of a text its end quote stands, or nothing. -/
theorem closesText_of_standing {ts : List Token} (h : Standing .text ts none)
    (hnext : (spell ts).head?.all (· == '"') = true) : ClosesText ts := by
  cases ts with
  | nil => exact Or.inl rfl
  | cons t ts =>
      refine Or.inr ⟨t, rfl, ?_⟩
      have hstart : t.text.toList.head? = some '"' := by
        obtain ⟨c, text, htext⟩ := List.exists_cons_of_ne_nil h.1.nonempty
        rw [spell_cons, htext] at hnext
        rw [htext]
        exact congrArg some (beq_iff_eq.mp hnext)
      -- with the string in mind, the lexer ends the text
      obtain ⟨history, hm⟩ := exists_memory .text
      have hlexed : Lexed .text (t :: ts) [] := Standing.lexed h
      have hclassified := hlexed.1.classified ⟨[], t.text.toList ++ (spell ts ++ [])⟩ history
        rfl hm
      rw [classify_quote (by rw [Cursor.peek?, List.head?_append, hstart]; rfl), hm,
        if_pos (Or.inl rfl)] at hclassified
      exact (congrArg Prod.fst hclassified).symm

/-- Behind a start quote there are a body without quotes and what closes the
    text. -/
theorem exists_body_of_standing {ts : List Token} (h : Standing .quote ts none) :
    ∃ body rest text, ts = body ++ rest ∧ Body body text ∧ '"' ∉ text.toList ∧
      ClosesText rest := by
  cases ts with
  | nil => exact ⟨[], [], "", rfl, .empty, by decide, Or.inl rfl⟩
  | cons t ts =>
      have hshape := h.1.shape
      cases hk : t.kind with
      | endQuote => exact ⟨[], t :: ts, "", rfl, .empty, by decide, Or.inr ⟨t, rfl, hk⟩⟩
      | string =>
          rw [hk] at hshape
          obtain ⟨-, hquote, -, hends⟩ := hshape
          have hafter : Memory.after .quote t = .text := by
            rw [Memory.after_of_kind hk (by decide), Token.memory_of_string hk]
          have hrest := h.2
          rw [hafter] at hrest
          rw [Option.or_none] at hends
          exact ⟨[t], ts, t.text, rfl, .string hk, hquote, closesText_of_standing hrest hends⟩
      | _ =>
          rw [hk] at hshape
          simp at hshape

/-- What closes a text starts with its quote. -/
theorem head?_of_closesText {m : Memory} {rest : List Token} (h : Standing m rest none)
    (hrest : ClosesText rest) : (spell rest).head?.all (· == '"') = true := by
  rcases hrest with rfl | ⟨t, hhead, ht⟩
  · rfl
  · obtain ⟨ts, rfl⟩ := List.head?_eq_some_iff.mp hhead
    have hshape := h.1.shape
    rw [ht] at hshape
    rw [spell_cons, hshape.1]
    rfl

/-- The tokens around a text stand with another text between them as
    well. -/
theorem standing_refill {before body rest : List Token} {quote : Token} {v : String}
    (h : Standing .other (before ++ quote :: (body ++ rest)) none)
    (hquote : quote.kind = .startQuote) (hrest : ClosesText rest) (hv : '"' ∉ v.toList) :
    Standing .other (before ++ quote :: (stringTokens v ++ rest)) none := by
  obtain ⟨hbefore, hstart, hinner⟩ := standing_append.mp h
  have hclosing := (standing_append.mp hinner).2
  have hshape := hstart.shape
  rw [hquote] at hshape
  obtain ⟨hquoteText, hclosed⟩ := hshape
  -- the rest stands behind any body, as an end quote does
  have hrest' : ∀ m, m = .text ∨ m = .quote → Standing m rest none := by
    intro m hm
    rcases hrest with rfl | ⟨t, hhead, ht⟩
    · exact trivial
    · obtain ⟨ts, rfl⟩ := List.head?_eq_some_iff.mp hhead
      obtain ⟨hend, htail⟩ := hclosing
      have hshape := hend.shape
      rw [ht] at hshape
      refine ⟨.endQuote ht hshape.1 hm, ?_⟩
      rw [Memory.after_of_kind ht (by decide)] at htail ⊢
      exact htail
  refine standing_append.mpr ⟨?_, .startQuote hquote hquoteText hclosed, ?_⟩
  · rw [spell_cons, hquoteText] at hbefore ⊢
    exact hbefore
  · rw [Memory.after_of_kind hquote (by decide), Token.memory_of_startQuote hquote]
    refine standing_append.mpr ⟨?_, hrest' _ (afterAll_body (body_stringTokens v))⟩
    rw [stringTokens]
    by_cases hempty : v = ""
    · rw [if_pos hempty]
      exact trivial
    · rw [if_neg hempty]
      refine ⟨.string rfl ⟨?_, hv⟩ rfl ?_, trivial⟩
      · exact fun hnil => hempty (String.toList_eq_nil_iff.mp hnil)
      · rw [spell_nil, Option.or_none]
        exact head?_of_closesText hclosing hrest

/-- The formula with the text behind the start quote changed to `v`, up to
    the end quote or the end of the formula. -/
def replaceText (formula : String) (quote : Token) (v : String) : String :=
  .ofList (formula.toList.take (quote.stop + 1) ++ v.toList
    ++ (formula.toList.drop (quote.stop + 1)).dropWhile (· != '"'))

/-- A token starts behind what the tokens in front of it spell. -/
theorem span_of_place {n : Nat} {ts before after : List Token} {t : Token}
    (h : place n ts = before ++ t :: after) :
    t.start = n + (spell before).length ∧ t.stop = t.start + t.text.length - 1 := by
  induction before generalizing n ts with
  | nil =>
      cases ts with
      | nil => cases h
      | cons u us =>
          obtain ⟨rfl, -⟩ := List.cons.inj h
          exact ⟨rfl, rfl⟩
  | cons b before ih =>
      cases ts with
      | nil => cases h
      | cons u us =>
          obtain ⟨rfl, htail⟩ := List.cons.inj h
          obtain ⟨hstart, hstop⟩ := ih htail
          refine ⟨?_, hstop⟩
          rw [hstart, spell_cons, List.length_append, String.length_toList, Nat.add_assoc]
          rfl

/-- A token ends where the texts up to its own end. -/
theorem stop_of_tokensOf {formula : String} {before after : List Token} {t : Token}
    (h : tokensOf formula = before ++ t :: after) (ht : t.text ≠ "") :
    t.stop + 1 = (spell (before ++ [t])).length := by
  obtain ⟨ts, _, _, _, hplace⟩ := steps_of_tokenizeWith (tokenize_eq_ok formula)
  obtain ⟨hstart, hstop⟩ := span_of_place (hplace.symm.trans h)
  have hpos := length_pos_of_ne ht
  rw [hstop, hstart, spell_append, spell_cons, spell_nil, List.length_append,
    List.append_nil, String.length_toList]
  omega

/-- Another text stands between the same tokens. -/
theorem toList_replaceText {formula v text : String} {before body rest : List Token}
    {quote : Token} (h : tokensOf formula = before ++ quote :: (body ++ rest))
    (hquote : quote.text.toList = ['"']) (hbody : Body body text) (htext : '"' ∉ text.toList)
    (hrest : (spell rest).head?.all (· == '"') = true) :
    (replaceText formula quote v).toList
      = spell (before ++ quote :: (stringTokens v ++ rest)) := by
  have hne : quote.text ≠ "" := by
    rintro hempty
    rw [hempty] at hquote
    cases hquote
  have hformula : formula.toList = spell (before ++ [quote]) ++ (text.toList ++ spell rest) := by
    rw [← spell_tokensOf, h, ← spell_body hbody]
    simp
  have hrun : ∀ c ∈ text.toList, (c != '"') = true := by
    intro c hc
    exact bne_iff_ne.mpr fun heq => htext (heq ▸ hc)
  have hstop : (spell rest).dropWhile (· != '"') = spell rest := by
    cases hspell : spell rest with
    | nil => rfl
    | cons c tail =>
        rw [hspell] at hrest
        exact List.dropWhile_cons_of_neg (by simpa using hrest)
  rw [replaceText, String.toList_ofList, stop_of_tokensOf h hne, hformula, List.take_left,
    List.drop_left, List.dropWhile_append_of_pos hrun, hstop]
  simp [spell_body (body_stringTokens v)]

/-- What closes a text closes it without whitespace. -/
theorem ClosesText.significant {rest : List Token} (h : ClosesText rest) :
    ClosesText (significant rest) := by
  rcases h with rfl | ⟨t, hhead, ht⟩
  · exact Or.inl rfl
  · obtain ⟨ts, rfl⟩ := List.head?_eq_some_iff.mp hhead
    rw [significant_cons_of_kind ts (by rw [ht]; decide)]
    exact Or.inr ⟨t, rfl, ht⟩

/-- There is no whitespace to leave out inside a text. -/
theorem significant_body {body : List Token} {text : String} (h : Body body text) :
    significant body = body := by
  cases h with
  | empty => rfl
  | string kind => exact significant_cons_of_kind [] (by rw [kind]; decide)

/-- Behind a start quote a body and what closes it are cut in one way. -/
theorem body_unique {body body' rest rest' : List Token} {text text' : String}
    (h : body ++ rest = body' ++ rest') (hbody : Body body text) (hbody' : Body body' text')
    (hrest : ClosesText rest) (hrest' : ClosesText rest') : body = body' ∧ rest = rest' := by
  -- a string closes no text, so a body of one string is not cut before it
  have hstring : ∀ {t : Token} {ts : List Token}, t.kind = .string →
      ¬ ClosesText (t :: ts) := by
    rintro t ts ht (hnil | ⟨u, hu, hend⟩)
    · cases hnil
    · obtain rfl := Option.some.inj hu
      cases ht.symm.trans hend
  cases hbody with
  | empty =>
      cases hbody' with
      | empty => exact ⟨rfl, h⟩
      | string kind =>
          obtain rfl : rest = _ :: rest' := h
          exact absurd hrest (hstring kind)
  | string kind =>
      cases hbody' with
      | empty =>
          obtain rfl : _ :: rest = rest' := h
          exact absurd hrest' (hstring kind)
      | string kind' =>
          obtain ⟨rfl, rfl⟩ := List.cons.inj h
          exact ⟨rfl, rfl⟩

/-- **TEXTS ARE OPAQUE**: where a formula has a tree, the text behind any of
    its start quotes may be changed to any text without quotes.  The tokens
    are the same but for the string, which is there unless the text is
    empty, and so are the diagnostics, up to the indices behind it; the tree
    is the same but for that text. -/
theorem replaceText_opaque {formula : String} {before after : List Token} {quote : Token}
    {e : Expr} (v : String) (he : parse (tokensOf formula) = .ok e)
    (hsplit : tokensOf formula = before ++ quote :: after)
    (hquote : quote.kind = .startQuote) (hv : '"' ∉ v.toList) :
    ∃ body rest text, after = body ++ rest ∧ Body body text ∧ ClosesText rest ∧
      (tokensOf (replaceText formula quote v)).map Token.lexeme
        = (before ++ quote :: (stringTokens v ++ rest)).map Token.lexeme ∧
      diagnose (tokensOf (replaceText formula quote v))
        = (diagnose (tokensOf formula)).map (fun d =>
          ⟨renumber before.length body.length (stringTokens v).length d.token, d.cause⟩) ∧
      quotes before < e.textCount ∧ e.setText text (quotes before) = e ∧
      parse (tokensOf (replaceText formula quote v)) = .ok (e.setText v (quotes before)) := by
  have hstanding := standing_of_parse (tokenize_eq_ok formula) he
  rw [hsplit] at hstanding
  obtain ⟨-, hstart, hinner⟩ := standing_append.mp hstanding
  rw [Memory.after_of_kind hquote (by decide), Token.memory_of_startQuote hquote] at hinner
  obtain ⟨body, rest, text, rfl, hbody, htext, hrest⟩ := exists_body_of_standing hinner
  have hshape := hstart.shape
  rw [hquote] at hshape
  -- the tokens of the new formula, by what stands and what it spells
  have hspell := toList_replaceText (v := v) hsplit hshape.1 hbody htext
    (head?_of_closesText (standing_append.mp hinner).2 hrest)
  have htokens := tokensOf_eq (tokenize_of_lexed
    (Standing.lexed (standing_refill hstanding hquote hrest hv)) hspell)
  have hlexemes : (tokensOf (replaceText formula quote v)).map Token.lexeme
      = (before ++ quote :: (stringTokens v ++ rest)).map Token.lexeme := by
    rw [htokens, map_lexeme_place]
  -- the derivation, with another body at the same place
  have hsignificant : ∀ {b s}, Body b s → significant (before ++ quote :: (b ++ rest))
      = significant before ++ quote :: (b ++ significant rest) := by
    intro b s hb
    rw [significant_append, significant_cons_of_kind _ (by rw [hquote]; decide),
      significant_append, significant_body hb]
  have hderives := derives_of_parse he
  rw [hsplit, hsignificant hbody] at hderives
  have hcount : quotes (significant before) < e.textCount := by
    rw [← hderives.quotes_eq]
    exact quotes_lt hquote rfl
  obtain ⟨body', rest', text', hcut, hbody', hrest', hfill⟩ := hderives.fillable hquote rfl
  have hclosing : ClosesText rest' := by
    rcases hrest' with ⟨-, hnil⟩ | hend
    · exact Or.inl hnil
    · exact Or.inr hend
  obtain ⟨rfl, rfl⟩ := body_unique hcut hbody hbody' hrest.significant hclosing
  rw [quotes_significant] at hcount hfill
  have hparse : parse (tokensOf (replaceText formula quote v))
      = .ok (e.setText v (quotes before)) := by
    refine parse_of_derives (Nat.le_refl _)
      ((hfill _ v (body_stringTokens v)).of_lexemes ?_)
    rw [← hsignificant (body_stringTokens v)]
    exact map_lexeme_significant hlexemes
  refine ⟨body, rest, text, rfl, hbody, hrest, hlexemes, ?_, hcount, ?_, hparse⟩
  · exact diagnose_refill he hparse hsplit hlexemes hquote hbody (body_stringTokens v) hrest
  · exact (hfill body text hbody).unique hderives

/-- Brackets, commas and operators between quotes stay a text, and the
    diagnostic behind them moves by the one token more. -/
theorem replaceText_brackets :
    ∃ before quote after e, parse (tokensOf "[A]&\"\"&\"y") = .ok e ∧
      tokensOf "[A]&\"\"&\"y" = before ++ quote :: after ∧ quote.kind = .startQuote ∧
      '"' ∉ "],(1+".toList ∧
      replaceText "[A]&\"\"&\"y" quote "],(1+" = "[A]&\"],(1+\"&\"y" ∧
      diagnose (tokensOf "[A]&\"],(1+\"&\"y") = [⟨8, .missingClose '"'⟩] ∧
      parse (tokensOf "[A]&\"],(1+\"&\"y")
        = .ok (.chain (.reference "A") [("&", .text "],(1+"), ("&", .text "y")]) := by
  obtain ⟨tokens, htokens, hsplit⟩ : ∃ tokens, tokenize "[A]&\"\"&\"y" = .ok tokens ∧
      tokens = [⟨.bracket, "[", 0, 0⟩, ⟨.referenceName, "A", 1, 1⟩, ⟨.bracket, "]", 2, 2⟩,
        ⟨.operator, "&", 3, 3⟩] ++ ⟨.startQuote, "\"", 4, 4⟩ ::
        [⟨.endQuote, "\"", 5, 5⟩, ⟨.operator, "&", 6, 6⟩, ⟨.startQuote, "\"", 7, 7⟩,
        ⟨.string, "y", 8, 8⟩] :=
    ⟨_, by decide +kernel, rfl⟩
  rw [← tokensOf_eq htokens] at hsplit
  have he : parse (tokensOf "[A]&\"\"&\"y")
      = .ok (.chain (.reference "A") [("&", .text ""), ("&", .text "y")]) := by
    rw [hsplit]
    exact parse_of_derives (n := 1) (by decide)
      (.chain (.reference rfl rfl rfl) (.cons rfl (.text rfl .empty rfl)
        (.single rfl (.openText rfl (.string rfl)))))
  have hreplace : replaceText "[A]&\"\"&\"y" ⟨.startQuote, "\"", 4, 4⟩ "],(1+"
      = "[A]&\"],(1+\"&\"y" := by decide +kernel
  obtain ⟨body, rest, text, hafter, hbody, -, -, hdiagnose, -, -, hparse⟩ :=
    replaceText_opaque "],(1+" he hsplit rfl (by decide)
  have hempty : body = [] := by
    cases hbody with
    | empty => rfl
    | string kind =>
        obtain ⟨rfl, -⟩ := List.cons.inj hafter
        cases kind
  rw [hreplace, hsplit, hempty] at hdiagnose
  rw [hreplace] at hparse
  exact ⟨_, _, _, _, he, hsplit, rfl, by decide, hreplace, hdiagnose, hparse⟩

end FormulaBar
