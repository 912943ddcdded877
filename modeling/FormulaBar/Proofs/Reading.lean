import FormulaBar.Proofs.Grammar

/-! # Reading — the parser accepts exactly the grammar

    A reader that succeeds has taken a phrase of the grammar off the front
    of the tokens (soundness), and a phrase is read in full whatever
    follows it, as long as no operator follows that could prolong it
    (completeness).  Both go level by level: the loops over operators and
    arguments are treated for an arbitrary reader of the inner expressions,
    and the number of levels is the induction that closes them. -/

namespace FormulaBar

/-! ## Outcomes that are done -/

namespace Outcome

variable {α β : Type}

/-- A mapped outcome is done where the outcome is, with what the value is
    mapped to. -/
theorem map_eq_done {o : Outcome α} {f : α → β} {value : β} {rest : List Token} :
    o.map f = .done value rest ↔ ∃ a, o = .done a rest ∧ f a = value := by
  cases o with
  | done a r =>
      constructor
      · intro h
        obtain ⟨rfl, rfl⟩ := Outcome.done.inj h
        exact ⟨a, rfl, rfl⟩
      · rintro ⟨a', h, rfl⟩
        obtain ⟨rfl, rfl⟩ := Outcome.done.inj h
        rfl
  | failed => simp [map]

/-- Two readers in a row are done where the first is and the second is done
    with what the first left. -/
theorem andThen_eq_done {o : Outcome α} {f : α → List Token → Outcome β}
    {value : β} {rest : List Token} :
    o.andThen f = .done value rest ↔
      ∃ a r, o = .done a r ∧ f a r = .done value rest := by
  cases o with
  | done a r =>
      constructor
      · intro h
        exact ⟨a, r, rfl, h⟩
      · rintro ⟨a', r', h, hf⟩
        obtain ⟨rfl, rfl⟩ := Outcome.done.inj h
        exact hf
  | failed => simp [andThen]

theorem enclose_eq_done {o : Outcome α} {value : α} {rest : List Token} :
    o.enclose = .done value rest ↔ o = .done value rest := by
  cases o <;> simp [enclose]

end Outcome

/-- A bracket is read where it is the first of the tokens. -/
theorem expectBracket_eq_done {b : Char} {tokens rest : List Token} {u : Unit} :
    expectBracket b tokens = .done u rest ↔
      ∃ t, t.isBracket b = true ∧ tokens = t :: rest := by
  unfold expectBracket
  cases tokens with
  | nil => simp
  | cons t tail =>
      by_cases ht : t.isBracket b = true
      · simp only [if_pos ht, Outcome.done.injEq, true_and, List.cons.injEq]
        constructor
        · rintro rfl
          exact ⟨t, ht, rfl, rfl⟩
        · rintro ⟨_, _, _, h⟩
          exact h
      · simp only [if_neg ht]
        constructor
        · intro h
          cases h
        · rintro ⟨t', ht', h⟩
          obtain ⟨rfl, rfl⟩ := List.cons.inj h
          exact absurd ht' ht

/-- A bracket in front of the tokens is read, and nothing else. -/
theorem expectBracket_cons {b : Char} {t : Token} (rest : List Token)
    (ht : t.isBracket b = true) : expectBracket b (t :: rest) = .done () rest :=
  expectBracket_eq_done.mpr ⟨t, ht, rfl⟩

/-- A text ends at an end quote or behind the last of the tokens. -/
theorem closeQuote_eq_done {text : String} {tokens rest : List Token} {e : Expr}
    (h : closeQuote text tokens = .done e rest) :
    e = .text text ∧ ((tokens = [] ∧ rest = []) ∨
      ∃ t, t.kind = .endQuote ∧ tokens = t :: rest) := by
  unfold closeQuote at h
  split at h
  · obtain ⟨rfl, rfl⟩ := Outcome.done.inj h
    exact ⟨rfl, Or.inl ⟨rfl, rfl⟩⟩
  · next t tail =>
      split at h
      · next ht =>
          obtain ⟨rfl, rfl⟩ := Outcome.done.inj h
          exact ⟨rfl, Or.inr ⟨t, ht, rfl⟩⟩
      · cases h

namespace Grammar

/-! ## Soundness -/

/-- Behind a start quote stand a body and the end quote, or a body that
    ends the sequence. -/
theorem textBody_eq_done {tokens rest : List Token} {e : Expr}
    (h : textBody tokens = .done e rest) :
    ∃ body text, Body body text ∧ e = .text text ∧
      ((tokens = body ∧ rest = []) ∨
        ∃ t, t.kind = .endQuote ∧ tokens = body ++ t :: rest) := by
  unfold textBody at h
  split at h
  · obtain ⟨he, hrest⟩ := closeQuote_eq_done h
    exact ⟨[], "", .empty, he, hrest⟩
  · next t tail =>
      split at h
      · next ht =>
          obtain ⟨he, hrest⟩ := closeQuote_eq_done h
          refine ⟨[t], t.text, .string ht, he, ?_⟩
          rcases hrest with ⟨rfl, rfl⟩ | ⟨q, hq, rfl⟩
          · exact Or.inl ⟨rfl, rfl⟩
          · exact Or.inr ⟨q, hq, rfl⟩
      · obtain ⟨he, hrest⟩ := closeQuote_eq_done h
        exact ⟨[], "", .empty, he, hrest⟩

/-- A successful read takes a phrase off the front; the phrase ends the
    sequence where nothing is left. -/
def Sound {α : Type} (read : List Token → Outcome α)
    (Phrase : Bool → List Token → α → Prop) : Prop :=
  ∀ {tokens value rest}, read tokens = .done value rest →
    ∃ phrase, tokens = phrase ++ rest ∧ Phrase rest.isEmpty phrase value

/-- The links of a chain have at least one token. -/
theorem Links.isEmpty_eq_false {final : Bool} {n : Nat} {phrase : List Token}
    {links : List (String × Expr)} (h : Links final n phrase links)
    (rest : List Token) : (phrase ++ rest).isEmpty = false := by
  cases h with
  | single _ _ => rfl
  | cons _ _ _ => rfl

/-- An operand with links behind it is a chain. -/
theorem Links.ofLinks {final : Bool} {n : Nat} {phrase : List Token}
    {links : List (String × Expr)} (h : Links final n phrase links)
    (first : Expr) : first.ofLinks links = .chain first links := by
  cases h with
  | single _ _ => rfl
  | cons _ _ _ => rfl

/-- The loop over operators reads links, or stops at once. -/
theorem links_sound {operand : Reader Expr} {n : Nat}
    (hoperand : Sound operand.read (Operand · n))
    {read links : List (String × Expr)} {tokens rest : List Token}
    (h : FormulaBar.links operand read tokens = .done links rest) :
    (links = read.reverse ∧ tokens = rest) ∨
      ∃ phrase new, links = read.reverse ++ new ∧ tokens = phrase ++ rest ∧
        Links rest.isEmpty n phrase new := by
  fun_induction FormulaBar.links operand read tokens with
  | case1 read =>
      obtain ⟨rfl, rfl⟩ := Outcome.done.inj h
      exact Or.inl ⟨rfl, rfl⟩
  | case2 read t tail ht e rest' hread _ ih =>
      -- only the last operand may end the sequence
      obtain ⟨phrase, rfl, hphrase⟩ := hoperand hread
      rcases ih h with ⟨rfl, rfl⟩ | ⟨more, new, rfl, rfl, hmore⟩
      · refine Or.inr ⟨t :: phrase, [(t.text, e)], ?_, rfl, ?_⟩
        · exact List.reverse_cons
        · exact .single ht hphrase
      · rw [hmore.isEmpty_eq_false] at hphrase
        refine Or.inr ⟨t :: (phrase ++ more), (t.text, e) :: new, ?_, ?_, ?_⟩
        · simp
        · simp
        · exact .cons ht hphrase hmore
  | case3 => cases h
  | case4 read t tail _ =>
      obtain ⟨rfl, rfl⟩ := Outcome.done.inj h
      exact Or.inl ⟨rfl, rfl⟩

/-- The loop over arguments reads arguments and the parenthesis behind
    them. -/
theorem argumentList_sound {inner : Reader Expr} {n : Nat}
    (hinner : Sound inner.read (Expression · n))
    {read arguments : List Expr} {tokens rest : List Token}
    (h : argumentList inner read tokens = .done arguments rest) :
    ∃ phrase new closer, arguments = read.reverse ++ new ∧
      tokens = phrase ++ closer :: rest ∧ closer.isBracket ')' = true ∧
      Arguments n phrase new := by
  fun_induction argumentList inner read tokens with
  | case1 => cases h
  | case2 => cases h
  | case3 read tokens e t tail hread _ ht ih =>
      obtain ⟨phrase, rfl, hphrase⟩ := hinner hread
      obtain ⟨more, new, closer, rfl, rfl, hcloser, hmore⟩ := ih h
      refine ⟨phrase ++ t :: more, e :: new, closer, ?_, ?_, hcloser, ?_⟩
      · simp
      · simp
      · exact .cons hphrase ht hmore
  | case4 read tokens e t tail hread _ ht =>
      obtain ⟨phrase, rfl, hphrase⟩ := hinner hread
      obtain ⟨_, hclose, rfl⟩ := Outcome.map_eq_done.mp h
      obtain ⟨closer, hcloser, hrest⟩ := expectBracket_eq_done.mp hclose
      refine ⟨phrase, [e], closer, List.reverse_cons, ?_, hcloser, .single hphrase⟩
      rw [hrest]

/-- The parentheses of a call with its arguments, or with nothing, inside. -/
theorem callArguments_sound {inner : Reader Expr} {n : Nat}
    (hinner : Sound inner.read (Expression · n))
    {arguments : List Expr} {tokens rest : List Token}
    (h : callArguments inner tokens = .done arguments rest) :
    ∃ opener phrase closer, tokens = opener :: (phrase ++ closer :: rest) ∧
      opener.isBracket '(' = true ∧ closer.isBracket ')' = true ∧
      ((phrase = [] ∧ arguments = []) ∨ Arguments n phrase arguments) := by
  rw [callArguments] at h
  obtain ⟨_, tail, hopen, htail⟩ := Outcome.andThen_eq_done.mp h
  obtain ⟨opener, hopener, rfl⟩ := expectBracket_eq_done.mp hopen
  cases tail with
  | nil =>
      obtain ⟨phrase, new, closer, rfl, hsplit, hcloser, hargs⟩ :=
        argumentList_sound hinner htail
      exact ⟨opener, phrase, closer, by rw [hsplit], hopener, hcloser, Or.inr hargs⟩
  | cons t tail =>
      simp only at htail
      split at htail
      · next ht =>
          obtain ⟨rfl, rfl⟩ := Outcome.done.inj htail
          exact ⟨opener, [], t, rfl, hopener, ht, Or.inl ⟨rfl, rfl⟩⟩
      · obtain ⟨phrase, new, closer, rfl, hsplit, hcloser, hargs⟩ :=
          argumentList_sound hinner htail
        exact ⟨opener, phrase, closer, by rw [hsplit], hopener, hcloser, Or.inr hargs⟩

/-- What is read of a reference behind its bracket is a name and the closing
    bracket. -/
theorem referenceBody_eq_done {tokens rest : List Token} {e : Expr}
    (h : referenceBody tokens = .done e rest) :
    ∃ name closer, tokens = name :: closer :: rest ∧ e = .reference name.text ∧
      name.kind = .referenceName ∧ closer.isBracket ']' = true := by
  unfold referenceBody at h
  split at h
  · cases h
  · next t tail =>
      split at h
      · next ht =>
          obtain ⟨_, hclose, rfl⟩ := Outcome.map_eq_done.mp h
          obtain ⟨closer, hcloser, rfl⟩ := expectBracket_eq_done.mp hclose
          exact ⟨t, closer, rfl, rfl, ht, hcloser⟩
      · cases h

/-- Each branch of the reader takes one form of operand. -/
theorem operand_sound {inner : Reader Expr} {n : Nat}
    (hinner : Sound inner.read (Expression · n)) :
    Sound (operand inner) (Operand · n) := by
  intro tokens e rest h
  unfold operand at h
  split at h
  · cases h
  next t tail =>
  split at h
  · next ht =>
      split at h
      · next value hvalue =>
          obtain ⟨rfl, rfl⟩ := Outcome.done.inj h
          exact ⟨[t], rfl, .number ht hvalue⟩
      · cases h
  split at h
  · next ht =>
      obtain ⟨body, text, hbody, rfl, hrest⟩ := textBody_eq_done h
      rcases hrest with ⟨rfl, rfl⟩ | ⟨q, hq, rfl⟩
      · exact ⟨t :: tail, by simp, .openText ht hbody⟩
      · exact ⟨t :: (body ++ [q]), by simp, .text ht hbody hq⟩
  split at h
  · next ht =>
      obtain ⟨arguments, hargs, rfl⟩ := Outcome.map_eq_done.mp h
      obtain ⟨opener, phrase, closer, rfl, hopener, hcloser, hphrase⟩ :=
        callArguments_sound hinner hargs
      rcases hphrase with ⟨rfl, rfl⟩ | hphrase
      · exact ⟨[t, opener, closer], rfl, .emptyCall ht hopener hcloser⟩
      · refine ⟨t :: opener :: (phrase ++ [closer]), by simp, ?_⟩
        exact .call ht hopener hphrase hcloser
  split at h
  · next ht =>
      obtain ⟨a, tail', hread, h⟩ := Outcome.andThen_eq_done.mp h
      obtain ⟨_, hclose, rfl⟩ := Outcome.map_eq_done.mp h
      obtain ⟨closer, hcloser, rfl⟩ := expectBracket_eq_done.mp hclose
      obtain ⟨phrase, rfl, hphrase⟩ := hinner hread
      exact ⟨t :: (phrase ++ [closer]), by simp, .group ht hphrase hcloser⟩
  split at h
  · next ht =>
      obtain ⟨name, closer, rfl, rfl, hname, hcloser⟩ := referenceBody_eq_done h
      exact ⟨[t, name, closer], rfl, .reference ht hname hcloser⟩
  · cases h

/-- **ONE LEVEL IS SOUND**: over a sound reader of the inner expressions, what
    a level reads derives its tree one level higher. -/
theorem level_sound {inner : Reader Expr} {n : Nat}
    (hinner : Sound inner.read (Expression · n)) :
    Sound (level inner) (Expression · (n + 1)) := by
  intro tokens e rest h
  rw [level] at h
  obtain ⟨first, tail, hfirst, h⟩ :=
    Outcome.andThen_eq_done.mp (Outcome.enclose_eq_done.mp h)
  obtain ⟨links, hlinks, rfl⟩ := Outcome.map_eq_done.mp h
  obtain ⟨phrase, rfl, hphrase⟩ := operand_sound hinner hfirst
  have hoperand : Sound (operandReader inner).read (Operand · n) := operand_sound hinner
  -- without links the operand is the expression, and may end the sequence
  rcases links_sound hoperand hlinks with ⟨rfl, rfl⟩ | ⟨more, new, hnew, rfl, hmore⟩
  · exact ⟨phrase, rfl, .operand hphrase⟩
  · rw [hmore.isEmpty_eq_false] at hphrase
    obtain rfl : links = new := hnew
    rw [hmore.ofLinks]
    exact ⟨phrase ++ more, by simp, .chain hphrase hmore⟩

/-- **Soundness**: what a reader of expressions takes is an expression. -/
theorem expression_sound (n : Nat) : Sound (expression n).read (Expression · n) := by
  induction n with
  | zero => intro _ _ _ h; cases h
  | succ n ih => exact level_sound ih

/-! ## Completeness -/

/-- Whether no operator starts the tokens, so that they prolong no chain. -/
def EndsChain (rest : List Token) : Prop :=
  ∀ t, rest.head? = some t → t.kind ≠ .operator

theorem endsChain_nil : EndsChain [] := by
  intro t h
  cases h

/-- A token that is no operator ends a chain. -/
theorem endsChain_of_kind {t : Token} {k : Token.Kind} (rest : List Token)
    (ht : t.kind = k) (hk : k ≠ .operator) : EndsChain (t :: rest) := by
  intro t' ht'
  obtain rfl := Option.some.inj ht'
  rw [ht]
  exact hk

theorem endsChain_of_isBracket {t : Token} {b : Char} (rest : List Token)
    (ht : t.isBracket b = true) : EndsChain (t :: rest) :=
  endsChain_of_kind rest (Token.kind_of_isBracket ht) (by decide)

/-- The loop over operators stops where the chain ends, with the links it has
    read. -/
theorem links_stop (operand : Reader Expr) (read : List (String × Expr))
    {rest : List Token} (h : EndsChain rest) :
    FormulaBar.links operand read rest = .done read.reverse rest := by
  cases rest with
  | nil => rw [FormulaBar.links]
  | cons t rest =>
      rw [FormulaBar.links]
      exact if_neg (h t rfl)

/-- The loop over operators takes an operator and the operand behind it. -/
theorem links_step {operand : Reader Expr} (read : List (String × Expr))
    {t : Token} {tokens rest : List Token} {e : Expr} (ht : t.kind = .operator)
    (h : operand.read tokens = .done e rest) :
    FormulaBar.links operand read (t :: tokens)
      = FormulaBar.links operand ((t.text, e) :: read) rest := by
  rw [FormulaBar.links, if_pos ht]
  split
  · next e' rest' h' =>
      obtain ⟨rfl, rfl⟩ := Outcome.done.inj (h.symm.trans h')
      rfl
  · next h' => cases h.symm.trans h'

/-- The loop over arguments ends at the closing parenthesis behind one. -/
theorem argumentList_last {inner : Reader Expr} (read : List Expr)
    {closer : Token} {tokens rest : List Token} {e : Expr}
    (hcloser : closer.isBracket ')' = true)
    (h : inner.read tokens = .done e (closer :: rest)) :
    argumentList inner read tokens = .done (e :: read).reverse rest := by
  rw [argumentList]
  split
  · next h' => cases h.symm.trans h'
  · next h' => cases (Outcome.done.inj (h.symm.trans h')).2
  · next h' =>
      obtain ⟨rfl, heq⟩ := Outcome.done.inj (h.symm.trans h')
      obtain ⟨rfl, rfl⟩ := List.cons.inj heq
      have hcomma : closer.kind ≠ .comma := by
        rw [Token.kind_of_isBracket hcloser]
        decide
      rw [if_neg hcomma, expectBracket_cons rest hcloser]
      rfl

/-- The loop over arguments goes on behind a comma. -/
theorem argumentList_step {inner : Reader Expr} (read : List Expr)
    {comma : Token} {tokens rest : List Token} {e : Expr}
    (hcomma : comma.kind = .comma)
    (h : inner.read tokens = .done e (comma :: rest)) :
    argumentList inner read tokens = argumentList inner (e :: read) rest := by
  rw [argumentList]
  split
  · next h' => cases h.symm.trans h'
  · next h' => cases (Outcome.done.inj (h.symm.trans h')).2
  · next h' =>
      obtain ⟨rfl, heq⟩ := Outcome.done.inj (h.symm.trans h')
      obtain ⟨rfl, rfl⟩ := List.cons.inj heq
      exact if_pos hcomma

/-- A call may have no arguments. -/
theorem callArguments_empty (inner : Reader Expr) {opener closer : Token}
    (rest : List Token) (hopener : opener.isBracket '(' = true)
    (hcloser : closer.isBracket ')' = true) :
    callArguments inner (opener :: closer :: rest) = .done [] rest := by
  rw [callArguments, expectBracket_cons _ hopener]
  exact if_pos hcloser

/-- A call that is not closed at once has a list of arguments. -/
theorem callArguments_cons (inner : Reader Expr) {opener t : Token}
    (rest : List Token) (hopener : opener.isBracket '(' = true)
    (ht : t.isBracket ')' = false) :
    callArguments inner (opener :: t :: rest) = argumentList inner [] (t :: rest) := by
  rw [callArguments, expectBracket_cons _ hopener]
  exact if_neg (by rw [ht]; exact Bool.false_ne_true)

/-- A text with its end quote is read up to it. -/
theorem textBody_closed {body : List Token} {text : String} (hbody : Body body text)
    {q : Token} (rest : List Token) (hq : q.kind = .endQuote) :
    textBody (body ++ q :: rest) = .done (.text text) rest := by
  have hclose : ∀ s, closeQuote s (q :: rest) = .done (.text s) rest :=
    fun s => if_pos hq
  cases hbody with
  | empty =>
      show (if q.kind = .string then _ else closeQuote "" (q :: rest)) = _
      rw [if_neg (by rw [hq]; decide), hclose]
  | string kind =>
      rw [List.cons_append, textBody, if_pos kind]
      exact hclose _

/-- A text without an end quote is read up to the end. -/
theorem textBody_open {body : List Token} {text : String} (hbody : Body body text) :
    textBody body = .done (.text text) [] := by
  cases hbody with
  | empty => rfl
  | string kind => exact if_pos kind

/-- The reader of operands at a token of each class. -/
theorem operand_number (inner : Reader Expr) {t : Token} {value : Float}
    (rest : List Token) (ht : t.kind = .number)
    (hvalue : readLiteral? t.text = some value) :
    operand inner (t :: rest) = .done (.number value) rest := by
  simp only [operand, ht, hvalue, if_true]

theorem operand_startQuote (inner : Reader Expr) {t : Token} (rest : List Token)
    (ht : t.kind = .startQuote) : operand inner (t :: rest) = textBody rest := by
  simp [operand, ht]

theorem operand_functionName (inner : Reader Expr) {t : Token} (rest : List Token)
    (ht : t.kind = .functionName) :
    operand inner (t :: rest) = (callArguments inner rest).map (.call t.text) := by
  simp [operand, ht]

theorem operand_openParen (inner : Reader Expr) {t : Token} (rest : List Token)
    (ht : t.isBracket '(' = true) :
    operand inner (t :: rest) = (inner.read rest).andThen fun e rest =>
      (expectBracket ')' rest).map fun _ => e := by
  simp [operand, Token.kind_of_isBracket ht, ht]

theorem operand_openBracket (inner : Reader Expr) {t : Token} (rest : List Token)
    (ht : t.isBracket '[' = true) :
    operand inner (t :: rest) = referenceBody rest := by
  simp [operand, Token.kind_of_isBracket ht, ht,
    Token.isBracket_of_ne '(' ht (by decide)]

mutual

/-- An operand is read in full.  A text without an end quote has nothing
    behind it. -/
theorem Operand.read {final : Bool} {n : Nat} {phrase : List Token} {e : Expr}
    (h : Operand final n phrase e) {m : Nat} (hm : n ≤ m) {rest : List Token}
    (hfinal : final = true → rest = []) :
    operand (expression m) (phrase ++ rest) = .done e rest :=
  match h with
  | .number kind literal => operand_number _ rest kind literal
  | .text hquote hbody hend => by
      rw [List.cons_append, List.append_assoc, operand_startQuote _ _ hquote]
      exact textBody_closed hbody rest hend
  | .openText hquote hbody => by
      rw [hfinal rfl, List.append_nil, operand_startQuote _ _ hquote]
      exact textBody_open hbody
  | .reference hopener hname hcloser => by
      rw [List.cons_append, operand_openBracket _ _ hopener]
      show referenceBody (_ :: _ :: rest) = _
      rw [referenceBody, if_pos hname, expectBracket_cons _ hcloser]
      rfl
  | .emptyCall hname hopener hcloser => by
      rw [List.cons_append, operand_functionName _ _ hname]
      show (callArguments _ (_ :: _ :: rest)).map _ = _
      rw [callArguments_empty _ rest hopener hcloser]
      rfl
  | .call hname hopener hinner hcloser => by
      -- arguments start no closing parenthesis, so the loop is entered
      obtain ⟨t, tail, htail, ht⟩ := hinner.starts
      have hargs := hinner.read hm [] hcloser rest
      rw [List.cons_append, operand_functionName _ _ hname, List.cons_append,
        List.append_assoc]
      rw [htail] at hargs ⊢
      rw [List.cons_append, callArguments_cons _ _ hopener (not_closes_of_startsOperand ht)]
      rw [show t :: (tail ++ ([_] ++ rest)) = t :: tail ++ _ :: rest from rfl, hargs]
      rfl
  | .group hopener hinner hcloser => by
      have hclosed := endsChain_of_isBracket rest hcloser
      rw [List.cons_append, operand_openParen _ _ hopener, List.append_assoc,
        List.singleton_append, hinner.read hm (by intro h; cases h) hclosed]
      show (expectBracket ')' (_ :: rest)).map _ = _
      rw [expectBracket_cons rest hcloser]
      rfl

/-- The links of a chain are read by every reader with as many levels, and
    added to those already read. -/
theorem Links.read {final : Bool} {n : Nat} {phrase : List Token}
    {links : List (String × Expr)} (h : Links final n phrase links) {m : Nat}
    (hm : n ≤ m) {rest : List Token} (hfinal : final = true → rest = [])
    (hrest : EndsChain rest) (read : List (String × Expr)) :
    FormulaBar.links (operandReader (expression m)) read (phrase ++ rest)
      = .done (read.reverse ++ links) rest :=
  match h with
  | .single hoperator hoperand => by
      rw [List.cons_append, links_step read hoperator (hoperand.read hm hfinal),
        links_stop _ _ hrest, List.reverse_cons]
  | .cons hoperator hoperand hmore => by
      rw [List.cons_append, List.append_assoc,
        links_step read hoperator (hoperand.read hm (by intro h; cases h)),
        hmore.read hm hfinal hrest, List.reverse_cons, List.append_assoc]
      rfl

/-- The arguments of a call are read up to its parenthesis by every reader
    with as many levels, and added to those already read. -/
theorem Arguments.read {n : Nat} {phrase : List Token} {es : List Expr}
    (h : Arguments n phrase es) {m : Nat} (hm : n ≤ m) (read : List Expr)
    {closer : Token} (hcloser : closer.isBracket ')' = true) (rest : List Token) :
    argumentList (expression m) read (phrase ++ closer :: rest)
      = .done (read.reverse ++ es) rest :=
  match h with
  | .single h => by
      have hclosed := endsChain_of_isBracket rest hcloser
      rw [argumentList_last read hcloser (h.read hm (by intro h; cases h) hclosed),
        List.reverse_cons]
  | .cons h hcomma hmore => by
      rw [List.append_assoc, List.cons_append, argumentList_step read hcomma
          (h.read hm (by intro h; cases h) (endsChain_of_kind _ hcomma (by decide))),
        hmore.read hm _ hcloser rest, List.reverse_cons, List.append_assoc]
      rfl

/-- **Completeness**: an expression is read in full by every reader with
    enough levels, where no operator follows. -/
theorem Expression.read {final : Bool} {n : Nat} {phrase : List Token} {e : Expr}
    (h : Expression final n phrase e) {m : Nat} (hm : n ≤ m) {rest : List Token}
    (hfinal : final = true → rest = []) (hrest : EndsChain rest) :
    (expression m).read (phrase ++ rest) = .done e rest := by
  match h, m, hm with
  | .operand h, m + 1, hm =>
      show level (expression m) _ = _
      rw [level, h.read (Nat.le_of_succ_le_succ hm) hfinal]
      show ((FormulaBar.links _ [] rest).map _).enclose = _
      rw [links_stop _ _ hrest]
      rfl
  | .chain hfirst hmore, m + 1, hm =>
      show level (expression m) _ = _
      rw [level, List.append_assoc,
        hfirst.read (Nat.le_of_succ_le_succ hm) (by intro h; cases h)]
      show ((FormulaBar.links _ [] (_ ++ rest)).map _).enclose = _
      rw [hmore.read (Nat.le_of_succ_le_succ hm) hfinal hrest]
      show Outcome.done (Expr.ofLinks _ _) rest = _
      rw [List.reverse_nil, List.nil_append, hmore.ofLinks]

end

/-! ## The parser and the grammar -/

/-- Two derivations of the same tokens derive the same tree, however many
    levels they allow. -/
theorem Expression.unique {m n : Nat} {phrase : List Token} {e e' : Expr}
    (h : Expression true m phrase e) (h' : Expression true n phrase e') : e = e' := by
  -- one reader with levels enough for both reads either tree
  have hread := h.read (Nat.le_max_left m n) (fun _ => rfl) endsChain_nil
  have hread' := h'.read (Nat.le_max_right m n) (fun _ => rfl) endsChain_nil
  exact (Outcome.done.inj (hread.symm.trans hread')).1

end Grammar

/-- The result of the parser where a reading of all tokens ends so. -/
def Outcome.result : Outcome Expr → Except ParseError Expr
  | .done e [] => .ok e
  | .done _ (t :: _) => .error (.trailing t)
  | .failed error _ _ => .error error

/-- A formula has a tree where the reader is done with no tokens left. -/
theorem Outcome.result_eq_ok {o : Outcome Expr} {e : Expr} :
    o.result = .ok e ↔ o = .done e [] := by
  cases o with
  | done e' rest =>
      cases rest with
      | nil => simp [result]
      | cons t rest => simp [result]
  | failed => simp [result]

/-- A formula without significant tokens is empty to the parser. -/
theorem parse_of_significant_eq_nil {tokens : List Token}
    (h : significant tokens = []) : parse tokens = .error .emptyExpression := by
  have hempty : (Parser.ofTokens tokens).tokens.isEmpty = true :=
    List.isEmpty_iff.mpr h
  rw [parse, Parser.parse, if_pos hempty]

/-- The parser reads the significant tokens as an expression of the most
    levels. -/
theorem parse_of_significant_ne_nil {tokens : List Token}
    (h : significant tokens ≠ []) :
    parse tokens = ((expression maxLevels).read (significant tokens)).result := by
  have hempty : ¬ (Parser.ofTokens tokens).tokens.isEmpty = true :=
    fun hnil => h (List.isEmpty_iff.mp hnil)
  have hrest : (expression (maxLevels - (Parser.ofTokens tokens).depth)).read
      (Parser.ofTokens tokens).rest
        = (expression maxLevels).read (significant tokens) := rfl
  rw [parse, Parser.parse, if_neg hempty, hrest]
  cases (expression maxLevels).read (significant tokens) with
  | done e rest =>
      cases rest with
      | nil => rfl
      | cons t rest => rfl
  | failed => rfl

/-- A formula has a tree where its significant tokens are read as one
    expression, with none left. -/
theorem parse_eq_ok_iff {tokens : List Token} {e : Expr} :
    parse tokens = .ok e ↔ significant tokens ≠ [] ∧
      (expression maxLevels).read (significant tokens) = .done e [] := by
  by_cases h : significant tokens = []
  · rw [parse_of_significant_eq_nil h]
    constructor
    · intro hok
      cases hok
    · rintro ⟨hne, -⟩
      exact absurd h hne
  · rw [parse_of_significant_ne_nil h, Outcome.result_eq_ok]
    exact (and_iff_right h).symm

/-- A tree of the parser is derived by the significant tokens, within the
    levels that may nest. -/
theorem derives_of_parse {tokens : List Token} {e : Expr}
    (h : parse tokens = .ok e) :
    Grammar.Expression true maxLevels (significant tokens) e := by
  obtain ⟨phrase, hsplit, hphrase⟩ :=
    Grammar.expression_sound maxLevels (parse_eq_ok_iff.mp h).2
  rw [hsplit, List.append_nil]
  exact hphrase

/-- A formula whose significant tokens derive a tree has that tree, if the
    levels are enough. -/
theorem parse_of_derives {tokens : List Token} {e : Expr} {n : Nat}
    (hn : n ≤ maxLevels) (h : Grammar.Expression true n (significant tokens) e) :
    parse tokens = .ok e := by
  have hread := h.read hn (fun _ => rfl) Grammar.endsChain_nil
  rw [List.append_nil] at hread
  obtain ⟨t, rest, hcons, -⟩ := h.starts
  exact parse_eq_ok_iff.mpr ⟨by rw [hcons]; exact List.cons_ne_nil t rest, hread⟩

/-- **THE GRAMMAR OF FORMULAS**: a sequence of tokens has a tree exactly
    where some significant tokens are in it and these derive the tree with
    at most 256 levels, and no derivation gives them another tree. -/
theorem parse_eq_ok_iff_derives (tokens : List Token) :
    (∀ e, parse tokens = .ok e ↔ significant tokens ≠ [] ∧
      Grammar.Expression true 256 (significant tokens) e) ∧
    (∀ m n e e', Grammar.Expression true m (significant tokens) e →
      Grammar.Expression true n (significant tokens) e' → e = e') := by
  constructor
  · intro e
    constructor
    · intro h
      exact ⟨(parse_eq_ok_iff.mp h).1, derives_of_parse h⟩
    · rintro ⟨-, h⟩
      exact parse_of_derives (Nat.le_refl _) h
  · intro m n e e' h h'
    exact h.unique h'

/-- The tokens of `F(1,2)` are read, and what derives from them is the tree
    that is read. -/
theorem parse_eq_ok_iff_derives_call :
    ∃ tokens e, tokens = [⟨.functionName, "F", 0, 0⟩, ⟨.bracket, "(", 1, 1⟩,
        ⟨.number, "1", 2, 2⟩, ⟨.comma, ",", 3, 3⟩, ⟨.number, "2", 4, 4⟩, ⟨.bracket, ")", 5, 5⟩] ∧
      e = .call "F" [.number 1, .number 2] ∧ parse tokens = .ok e ∧
      ∀ n e', Grammar.Expression true n (significant tokens) e' → e' = e := by
  obtain ⟨tokens, htokens⟩ : ∃ tokens : List Token, tokens = [⟨.functionName, "F", 0, 0⟩,
      ⟨.bracket, "(", 1, 1⟩, ⟨.number, "1", 2, 2⟩, ⟨.comma, ",", 3, 3⟩,
      ⟨.number, "2", 4, 4⟩, ⟨.bracket, ")", 5, 5⟩] := ⟨_, rfl⟩
  obtain ⟨hread, hunique⟩ := parse_eq_ok_iff_derives tokens
  obtain ⟨hne, hcall⟩ : significant tokens ≠ [] ∧ Grammar.Expression true 256
      (significant tokens) (.call "F" [.number 1, .number 2]) := by
    rw [htokens]
    exact ⟨List.cons_ne_nil _ _, .operand (.call rfl rfl
      (.cons (.operand (.number rfl (by decide +kernel))) rfl
        (.single (.operand (.number rfl (by decide +kernel))))) rfl)⟩
  exact ⟨tokens, _, htokens, rfl, (hread _).mpr ⟨hne, hcall⟩,
    fun n e' h => hunique n 256 e' _ h hcall⟩

end FormulaBar
