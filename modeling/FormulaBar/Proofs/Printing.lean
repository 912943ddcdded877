import FormulaBar.Proofs.Literal
import FormulaBar.Proofs.Opacity
import FormulaBar.Proofs.Gap

/-! # Printing — trees that read back from their printed form

    The printed form of a tree puts each chain in parentheses, and that is
    all a reader needs: its tokens stand where the printer put them, whatever
    is around a part, and they derive the tree.  What a tree has to fulfil
    for that is no more than what every tree of a formula fulfils, as long
    as its numbers are finite and the parentheses do not nest too deeply.

    A number with a minus sign is the delicate case.  Only right behind an
    operator is the sign a part of the number, so only there may such a
    number stand. -/

namespace FormulaBar

/-! ## Trees of formulas -/

namespace Expr

mutual

/-- What every tree of a formula has.  The flag says whether a number with
    its sign bit set may stand here: only behind an operator of a chain. -/
def WellFormed (signed : Bool) : Expr → Prop
  | .number value => NumberFormat.isNegative value = true → signed = true
  | .text value => '"' ∉ value.toList
  | .reference name => IsReferenceName name.toList
  | .chain first links => first.WellFormed false ∧ links ≠ [] ∧ LinksWellFormed links
  | .call name arguments =>
      isIdentifier name.toList = true ∧ ArgumentsWellFormed arguments

/-- The links of a chain are well-formed where each operator is one character
    and each operand is well-formed behind it. -/
def LinksWellFormed : List (String × Expr) → Prop
  | [] => True
  | (operator, operand) :: links =>
      (∃ c ∈ operatorChars, operator.toList = [c]) ∧ operand.WellFormed true ∧
        LinksWellFormed links

/-- The arguments of a call are well-formed where each one is. -/
def ArgumentsWellFormed : List Expr → Prop
  | [] => True
  | argument :: arguments => argument.WellFormed false ∧ ArgumentsWellFormed arguments

end

mutual

/-- All numbers of the tree are finite. -/
def Finite : Expr → Prop
  | .number value => value.isFinite = true
  | .text _ => True
  | .reference _ => True
  | .chain first links => first.Finite ∧ LinksFinite links
  | .call _ arguments => ArgumentsFinite arguments

def LinksFinite : List (String × Expr) → Prop
  | [] => True
  | (_, operand) :: links => operand.Finite ∧ LinksFinite links

def ArgumentsFinite : List Expr → Prop
  | [] => True
  | argument :: arguments => argument.Finite ∧ ArgumentsFinite arguments

end

/-! ## The tokens of the printed form -/

mutual

/-- The tokens of the printed form. -/
def tokens : Expr → List Token
  | .number value => [.ofText .number (numberFormat.write value)]
  | .text value =>
      .ofChar .startQuote '"' :: (stringTokens value ++ [.ofChar .endQuote '"'])
  | .reference name =>
      [.ofChar .bracket '[', .ofText .referenceName name, .ofChar .bracket ']']
  | .chain first links =>
      .ofChar .bracket '(' :: (first.tokens ++ (linkTokens links ++ [.ofChar .bracket ')']))
  | .call name arguments =>
      .ofText .functionName name :: .ofChar .bracket '(' ::
        (argumentTokens arguments ++ [.ofChar .bracket ')'])

/-- The tokens of the links of a chain: each operator between two spaces, then
    its operand. -/
def linkTokens : List (String × Expr) → List Token
  | [] => []
  | (operator, operand) :: links =>
      .ofChar .whitespace ' ' :: .ofText .operator operator :: .ofChar .whitespace ' ' ::
        (operand.tokens ++ linkTokens links)

/-- The tokens of the arguments of a call, a comma and a space between two of
    them. -/
def argumentTokens : List Expr → List Token
  | [] => []
  | [argument] => argument.tokens
  | argument :: arguments =>
      argument.tokens ++
        .ofChar .comma ',' :: .ofChar .whitespace ' ' :: argumentTokens arguments

end

/-- The tokens inside a text literal spell its value. -/
theorem spell_stringTokens (v : String) : spell (stringTokens v) = v.toList :=
  spell_body (body_stringTokens v)

mutual

/-- They spell the printed form. -/
theorem spell_tokens (e : Expr) : spell e.tokens = e.pieces.flatMap String.toList :=
  match e with
  | .number value => by simp [tokens, pieces, Token.ofText]
  | .text value => by
      simp [tokens, pieces, Token.toList_ofChar, spell_stringTokens]
  | .reference name => by simp [tokens, pieces, Token.toList_ofChar, Token.ofText]
  | .chain first links => by
      simp [tokens, pieces, Token.toList_ofChar, spell_tokens first, spell_linkTokens links]
  | .call name arguments => by
      simp [tokens, pieces, Token.toList_ofChar, Token.ofText, spell_argumentTokens arguments]

/-- The tokens of the links spell what is printed of them. -/
theorem spell_linkTokens (links : List (String × Expr)) :
    spell (linkTokens links) = (linkPieces links).flatMap String.toList :=
  match links with
  | [] => rfl
  | (operator, operand) :: links => by
      simp [linkTokens, linkPieces, Token.toList_ofChar, Token.ofText, spell_tokens operand,
        spell_linkTokens links]

/-- The tokens of the arguments spell what is printed of them. -/
theorem spell_argumentTokens (arguments : List Expr) :
    spell (argumentTokens arguments) = (argumentPieces arguments).flatMap String.toList :=
  match arguments with
  | [] => rfl
  | [argument] => spell_tokens argument
  | argument :: second :: arguments => by
      simp [argumentTokens, argumentPieces, Token.toList_ofChar, spell_tokens argument,
        spell_argumentTokens (second :: arguments)]

end

/-- The printed form is what its tokens spell. -/
theorem toList_display (e : Expr) : e.display.toList = spell e.tokens := by
  rw [display, String.toList_join, spell_tokens]

/-! ## They stand -/

/-- The tokens stand wherever a value may be read, and nothing is in mind
    behind them. -/
def Placed (m : Memory) (ts : List Token) (next : Option Char) : Prop :=
  Standing m ts next ∧ m.afterAll ts = .other

/-- In front of a value an operator is in mind, or else nothing; in front of
    one with a minus sign it is an operator. -/
def Ready (m : Memory) (signed : Bool) : Prop :=
  m = .operator ∨ m = .other ∧ signed = false

/-- In front of a value nothing is in mind but an operator, if anything. -/
theorem Ready.ne {m m' : Memory} {signed : Bool} (h : Ready m signed)
    (hm : m' ≠ .operator ∧ m' ≠ .other) : m ≠ m' := by
  rcases h with rfl | ⟨rfl, -⟩
  · exact hm.1.symm
  · exact hm.2.symm

/-- Two parts are placed one behind the other, the first in front of the
    second's first character. -/
theorem Placed.append {m : Memory} {ts us : List Token} {next : Option Char}
    (h : Placed m ts ((spell us).head?.or next)) (h' : Placed .other us next) :
    Placed m (ts ++ us) next := by
  refine ⟨standing_append.mpr ⟨h.1, h.2.symm ▸ h'.1⟩, ?_⟩
  rw [Memory.afterAll_append, h.2, h'.2]

/-- A token that stands in front of a placed part is placed with it. -/
theorem Placed.cons {m : Memory} {t : Token} {ts : List Token} {next : Option Char}
    (h : Stands m ((spell ts).head?.or next) t) (h' : Placed (m.after t) ts next) :
    Placed m (t :: ts) next :=
  ⟨⟨h, h'.1⟩, h'.2⟩

/-- What follows a value does not prolong a number. -/
theorem endsNumber_or {text : List Char} {next : Option Char}
    (h : ∀ c, text.head? = some c → endsNumber (some c) = true)
    (hnext : endsNumber next = true) : endsNumber (text.head?.or next) = true := by
  cases hhead : text.head? with
  | none => exact hnext
  | some c => exact h c hhead

/-- A printed part starts with no space. -/
def StartsPart (ts : List Token) : Prop :=
  ∃ c, (spell ts).head? = some c ∧ c ≠ ' '

theorem StartsPart.append {ts : List Token} (h : StartsPart ts) (us : List Token) :
    StartsPart (ts ++ us) := by
  obtain ⟨c, hhead, hc⟩ := h
  exact ⟨c, by rw [spell_append, List.head?_append, hhead]; rfl, hc⟩

/-- A printed expression starts with a character that is no space. -/
theorem startsPart_tokens (e : Expr) {signed : Bool} (h : e.WellFormed signed)
    (hf : e.Finite) : StartsPart e.tokens := by
  cases e with
  | number value =>
      obtain ⟨-, ⟨hne, hahead⟩, -⟩ := readLiteral?_write hf
      obtain ⟨c, text, htext⟩ := List.exists_cons_of_ne_nil hne
      refine ⟨c, ?_, ?_⟩
      · show (spell [Token.ofText .number (numberFormat.write value)]).head? = some c
        rw [spell_cons, spell_nil, List.append_nil]
        exact congrArg List.head? htext
      · -- no number starts with a space
        rintro rfl
        rw [htext, ahead_number_cons text (by decide) (by decide) (by decide)] at hahead
        cases hahead
  | text value => exact ⟨'"', by rw [tokens, spell_cons, Token.toList_ofChar]; rfl, by decide⟩
  | reference name =>
      exact ⟨'[', by rw [tokens, spell_cons, Token.toList_ofChar]; rfl, by decide⟩
  | chain first links =>
      exact ⟨'(', by rw [tokens, spell_cons, Token.toList_ofChar]; rfl, by decide⟩
  | call name arguments =>
      have hname : isIdentifier name.toList = true := h.1
      cases hlist : name.toList with
      | nil =>
          rw [hlist] at hname
          cases hname
      | cons c text =>
          rw [hlist] at hname
          have hc := (Bool.and_eq_true_iff.mp hname).1
          refine ⟨c, ?_, ne_of_startsName hc (by decide)⟩
          rw [tokens, spell_cons]
          show (name.toList ++ _).head? = some c
          rw [hlist]
          rfl

/-- Printed arguments start with a character that is no space. -/
theorem startsPart_argumentTokens (arguments : List Expr) (hne : arguments ≠ [])
    (h : ArgumentsWellFormed arguments) (hf : ArgumentsFinite arguments) :
    StartsPart (argumentTokens arguments) := by
  cases arguments with
  | nil => exact absurd rfl hne
  | cons argument arguments =>
      have hpart := startsPart_tokens argument h.1 hf.1
      cases arguments with
      | nil => exact hpart
      | cons second arguments => exact hpart.append _

/-- A single space stands outside texts and references, in front of anything
    but another space. -/
theorem stands_space {m : Memory} {next : Option Char} (hm : m ≠ .quote ∧ m ≠ .bracket)
    (hnext : next ≠ some ' ') : Stands m next (.ofChar .whitespace ' ') := by
  have htext := Token.toList_ofChar .whitespace ' '
  refine .whitespace rfl ⟨?_, ?_⟩ hm hnext
  · rw [htext]
    exact List.cons_ne_nil _ _
  · rw [htext]
    exact fun c hc => List.mem_singleton.mp hc

/-- No space comes next in front of a part. -/
theorem StartsPart.ne_space {ts : List Token} (h : StartsPart ts) (next : Option Char) :
    (spell ts).head?.or next ≠ some ' ' := by
  obtain ⟨c, hhead, hc⟩ := h
  rw [hhead]
  exact fun heq => hc (Option.some.inj heq)

/-- What is printed of links ends a number in front of it. -/
theorem head?_linkTokens {links : List (String × Expr)} {c : Char}
    (h : (spell (linkTokens links)).head? = some c) : endsNumber (some c) = true := by
  cases links with
  | nil => cases h
  | cons link links =>
      rw [linkTokens, spell_cons, Token.toList_ofChar] at h
      obtain rfl := Option.some.inj h
      decide

/-- The inside of a text literal without quotes stands between its quotes. -/
theorem standing_stringTokens {v : String} (hv : '"' ∉ v.toList) :
    Standing .quote (stringTokens v) (some '"') := by
  rw [stringTokens]
  split
  · exact trivial
  · next hempty =>
    refine ⟨.string rfl ⟨?_, hv⟩ rfl rfl, trivial⟩
    exact fun hnil => hempty (String.toList_eq_nil_iff.mp hnil)

/-- A text without quotes is placed outside texts. -/
theorem placed_text {m : Memory} {value : String} {next : Option Char}
    (h : '"' ∉ value.toList) (hm : m ≠ .text ∧ m ≠ .quote) :
    Placed m (Expr.text value).tokens next := by
  have hquote := Token.toList_ofChar .startQuote '"'
  have hend := Token.toList_ofChar .endQuote '"'
  have hopened := afterAll_body (body_stringTokens value)
  refine .cons (.startQuote rfl hquote hm) ?_
  rw [Memory.after_ofChar (by decide), Token.memory_of_startQuote rfl]
  constructor
  · refine standing_append.mpr ⟨?_, .endQuote rfl hend hopened, trivial⟩
    rw [spell_cons, hend]
    exact standing_stringTokens h
  · rw [Memory.afterAll_append, Memory.afterAll_cons, Memory.after_ofChar (by decide)]
    rfl

/-- A reference to a proper name is placed outside texts and references. -/
theorem placed_reference {m : Memory} {name : String} {next : Option Char}
    (h : IsReferenceName name.toList) (hm : m ≠ .quote ∧ m ≠ .bracket) :
    Placed m (Expr.reference name).tokens next := by
  refine .cons (stands_bracket (by decide) hm) ?_
  rw [Memory.after_ofChar (by decide), Token.memory_of_openBracket (Token.isBracket_ofChar '[')]
  refine .cons (.referenceName rfl h rfl ?_) ?_
  · rw [spell_cons, Token.toList_ofChar]
    rfl
  · rw [Memory.after_ofText (by decide), Token.memory_of_kind (k := .referenceName) rfl
      (by decide)]
    refine .cons (stands_bracket (by decide) (by decide)) ?_
    rw [Memory.after_ofChar (by decide), Token.memory_ofChar (by decide)]
    exact ⟨trivial, rfl⟩

/-- A parenthesis closes what is in front of it. -/
theorem placed_closer {next : Option Char} : Placed .other [.ofChar .bracket ')'] next := by
  refine .cons (stands_bracket (by decide) (by decide)) ?_
  rw [Memory.after_ofChar (by decide), Token.memory_ofChar (by decide)]
  exact ⟨trivial, rfl⟩

/-- Between parentheses a part stands in front of the closing one. -/
theorem placed_parentheses {m : Memory} {ts : List Token} {next : Option Char}
    (hm : m ≠ .quote ∧ m ≠ .bracket) (h : Placed .other ts (some ')')) :
    Placed m (.ofChar .bracket '(' :: (ts ++ [.ofChar .bracket ')'])) next := by
  refine .cons (stands_bracket (by decide) hm) ?_
  rw [Memory.after_ofChar (by decide), Token.memory_ofChar (by decide)]
  refine Placed.append ?_ placed_closer
  rw [spell_cons, Token.toList_ofChar]
  exact h

mutual

/-- A printed part stands where a value may be read. -/
theorem placed_tokens (e : Expr) {signed : Bool} {m : Memory} {next : Option Char}
    (h : e.WellFormed signed) (hf : e.Finite) (hm : Ready m signed)
    (hnext : endsNumber next = true) : Placed m e.tokens next :=
  match e with
  | .number value => by
      obtain ⟨-, hnumber, hminus⟩ := readLiteral?_write hf
      refine .cons (.number rfl hnumber (hm.ne (by decide)) ?_ hnext) ?_
      · -- only a number with its sign bit set is written with a minus sign
        intro hhead
        obtain rfl : signed = true := h (hminus hhead)
        exact hm.resolve_right fun hother => nomatch hother.2
      · rw [Memory.after_ofText (by decide), Token.memory_of_kind (k := .number) rfl
          (by decide)]
        exact ⟨trivial, rfl⟩
  | .text _ => placed_text h ⟨hm.ne (by decide), hm.ne (by decide)⟩
  | .reference _ => placed_reference h ⟨hm.ne (by decide), hm.ne (by decide)⟩
  | .chain first links => by
      obtain ⟨hfirst, -, hlinks⟩ := h
      obtain ⟨hfirst', hlinks'⟩ := hf
      rw [tokens, ← List.append_assoc]
      refine placed_parentheses ⟨hm.ne (by decide), hm.ne (by decide)⟩ (Placed.append ?_ ?_)
      · exact placed_tokens first hfirst hfirst' (Or.inr ⟨rfl, rfl⟩)
          (endsNumber_or (fun c => head?_linkTokens) (by decide))
      · exact placed_linkTokens links hlinks hlinks' (by decide)
  | .call name arguments => by
      refine .cons (.functionName rfl h.1 ⟨hm.ne (by decide), hm.ne (by decide)⟩ ?_) ?_
      · rw [spell_cons, Token.toList_ofChar]
        rfl
      · rw [Memory.after_ofText (by decide), Token.memory_of_kind (k := .functionName) rfl
          (by decide)]
        exact placed_parentheses (by decide) (placed_argumentTokens arguments h.2 hf (by decide))

/-- So do the links of a chain, behind its first operand. -/
theorem placed_linkTokens (links : List (String × Expr)) {next : Option Char}
    (h : LinksWellFormed links) (hf : LinksFinite links) (hnext : endsNumber next = true) :
    Placed .other (linkTokens links) next :=
  match links with
  | [] => ⟨trivial, rfl⟩
  | (operator, operand) :: links => by
      obtain ⟨⟨c, hc, htext⟩, hoperand, hlinks⟩ := h
      have hpart := (startsPart_tokens operand hoperand hf.1).append (linkTokens links)
      refine .cons (stands_space (by decide) ?_) ?_
      · rw [spell_cons]
        show (operator.toList ++ _).head?.or next ≠ some ' '
        rw [htext]
        exact fun heq => (endsNumber_of_operator hc).2 (Option.some.inj heq)
      rw [Memory.after_of_whitespace rfl]
      refine .cons (.operator rfl htext hc (by decide) (by decide)) ?_
      rw [Memory.after_ofText (by decide), Token.memory_of_operator rfl]
      refine .cons (stands_space (by decide) (hpart.ne_space next)) ?_
      rw [Memory.after_of_whitespace rfl]
      exact .append (placed_tokens operand hoperand hf.1 (Or.inl rfl)
          (endsNumber_or (fun c => head?_linkTokens) hnext))
        (placed_linkTokens links hlinks hf.2 hnext)

/-- And arguments, behind the parenthesis of their call or a comma. -/
theorem placed_argumentTokens (arguments : List Expr) {next : Option Char}
    (h : ArgumentsWellFormed arguments) (hf : ArgumentsFinite arguments)
    (hnext : endsNumber next = true) : Placed .other (argumentTokens arguments) next :=
  match arguments with
  | [] => ⟨trivial, rfl⟩
  | [argument] => placed_tokens argument h.1 hf.1 (Or.inr ⟨rfl, rfl⟩) hnext
  | argument :: second :: arguments => by
      have hcomma := Token.toList_ofChar .comma ','
      have hpart := startsPart_argumentTokens (second :: arguments) (List.cons_ne_nil _ _) h.2 hf.2
      refine Placed.append ?_ (.cons (.comma rfl hcomma (by decide)) ?_)
      · rw [spell_cons, hcomma]
        exact placed_tokens argument h.1 hf.1 (Or.inr ⟨rfl, rfl⟩) rfl
      rw [Memory.after_ofChar (by decide), Token.memory_of_kind (k := .comma) rfl (by decide)]
      refine .cons (stands_space (by decide) (hpart.ne_space next)) ?_
      rw [Memory.after_of_whitespace rfl]
      exact placed_argumentTokens (second :: arguments) h.2 hf.2 hnext

end

/-! ## They derive the tree -/

mutual

/-- How deep the parentheses of the printed form nest. -/
def depth : Expr → Nat
  | .number _ => 0
  | .text _ => 0
  | .reference _ => 0
  | .chain first links => max first.depth (linkDepth links) + 1
  | .call _ arguments => argumentDepth arguments

/-- The levels of parentheses in the deepest operand of the links. -/
def linkDepth : List (String × Expr) → Nat
  | [] => 0
  | (_, operand) :: links => max operand.depth (linkDepth links)

/-- The levels of parentheses in the deepest argument, the call's own counted.
    -/
def argumentDepth : List Expr → Nat
  | [] => 0
  | argument :: arguments => max (argument.depth + 1) (argumentDepth arguments)

end

mutual

/-- The printed form derives the tree as one operand: a chain is a group. -/
theorem operand_tokens (e : Expr) {signed final : Bool} {n : Nat} (h : e.WellFormed signed)
    (hf : e.Finite) (hn : e.depth ≤ n) : Grammar.Operand final n (significant e.tokens) e :=
  match e with
  | .number value => by
      rw [tokens, significant_ofText _ _ (by decide)]
      exact .number rfl (readLiteral?_write hf).1
  | .text value => by
      rw [tokens, significant_ofChar _ _ (by decide), significant_append,
        significant_body (body_stringTokens value)]
      exact .text rfl (body_stringTokens value) rfl
  | .reference name => by
      rw [tokens, significant_ofChar _ _ (by decide), significant_ofText _ _ (by decide)]
      have hname : (Token.ofText .referenceName name).kind = .referenceName := rfl
      exact .reference (Token.isBracket_ofChar '[') hname (Token.isBracket_ofChar ']')
  -- the parentheses around a chain take one level
  | .chain first links => by
      obtain ⟨hfirst, hne, hlinks⟩ := h
      obtain ⟨k, rfl⟩ := Nat.exists_eq_succ_of_ne_zero (n := n) (by rw [depth] at hn; omega)
      have hle := Nat.le_of_succ_le_succ hn
      rw [tokens, significant_ofChar _ _ (by decide), ← List.append_assoc, significant_append,
        significant_append]
      refine .group (Token.isBracket_ofChar '(') ?_ (Token.isBracket_ofChar ')')
      exact .chain (operand_tokens first hfirst hf.1 (Nat.le_trans (Nat.le_max_left _ _) hle))
        (links_tokens links hne hlinks hf.2 (Nat.le_trans (Nat.le_max_right _ _) hle))
  | .call name arguments => by
      have hname : (Token.ofText .functionName name).kind = .functionName := rfl
      have hopener := Token.isBracket_ofChar '('
      have hcloser := Token.isBracket_ofChar ')'
      rw [tokens, significant_ofText _ _ (by decide), significant_ofChar _ _ (by decide),
        significant_append]
      cases arguments with
      | nil => exact .emptyCall hname hopener hcloser
      | cons argument arguments =>
          exact .call hname hopener
            (arguments_tokens (argument :: arguments) (List.cons_ne_nil _ _) h.2 hf hn) hcloser

/-- The printed links derive the links. -/
theorem links_tokens (links : List (String × Expr)) (hne : links ≠ []) {final : Bool} {n : Nat}
    (h : LinksWellFormed links) (hf : LinksFinite links) (hn : linkDepth links ≤ n) :
    Grammar.Links final n (significant (linkTokens links)) links :=
  match links with
  | [] => absurd rfl hne
  | (operator, operand) :: links => by
      have hspace : (Token.ofChar .whitespace ' ').kind = .whitespace := rfl
      have hoperator : (Token.ofText .operator operator).kind = .operator := rfl
      have hfirst : ∀ final, Grammar.Operand final n (significant operand.tokens) operand :=
        fun _ => operand_tokens operand h.2.1 hf.1 (Nat.le_trans (Nat.le_max_left _ _) hn)
      rw [linkTokens, significant_cons_of_whitespace _ hspace, significant_ofText _ _ (by decide),
        significant_cons_of_whitespace _ hspace, significant_append]
      cases links with
      | nil =>
          rw [linkTokens]
          show Grammar.Links final n (_ :: (significant operand.tokens ++ [])) _
          rw [List.append_nil]
          exact .single hoperator (hfirst final)
      | cons link links =>
          exact .cons hoperator (hfirst false)
            (links_tokens (link :: links) (List.cons_ne_nil _ _) h.2.2 hf.2
              (Nat.le_trans (Nat.le_max_right _ _) hn))

/-- The printed arguments derive the arguments. -/
theorem arguments_tokens (arguments : List Expr) (hne : arguments ≠ []) {n : Nat}
    (h : ArgumentsWellFormed arguments) (hf : ArgumentsFinite arguments)
    (hn : argumentDepth arguments ≤ n) :
    Grammar.Arguments n (significant (argumentTokens arguments)) arguments :=
  match arguments with
  | [] => absurd rfl hne
  | argument :: arguments => by
      have hle : argument.depth + 1 ≤ n := Nat.le_trans (Nat.le_max_left _ _) hn
      obtain ⟨k, rfl⟩ := Nat.exists_eq_succ_of_ne_zero (n := n) (by omega)
      have hfirst : Grammar.Expression false (k + 1) (significant argument.tokens) argument :=
        .operand (operand_tokens argument h.1 hf.1 (Nat.le_of_succ_le_succ hle))
      cases arguments with
      | nil => exact .single hfirst
      | cons second arguments =>
          rw [argumentTokens, significant_append, significant_ofChar _ _ (by decide),
            significant_cons_of_whitespace _ rfl]
          · exact .cons hfirst rfl (arguments_tokens (second :: arguments)
              (List.cons_ne_nil _ _) h.2 hf.2 (Nat.le_trans (Nat.le_max_right _ _) hn))
          · exact nofun

end

/-- The lexer reads the printed form as the tokens of the tree, in place. -/
theorem tokenize_display {e : Expr} (h : e.WellFormed false) (hf : e.Finite) :
    tokenize e.display = .ok (place 0 e.tokens) :=
  tokenize_of_lexed
    (Standing.lexed (placed_tokens e h hf (Or.inr ⟨rfl, rfl⟩) rfl).1) e.toList_display

/-- The tokens of the printed form derive the tree. -/
theorem derives_display {e : Expr} (h : e.WellFormed false) (hf : e.Finite) (final : Bool) :
    Grammar.Expression final (e.depth + 1) (significant (place 0 e.tokens)) e :=
  (Grammar.Expression.operand (operand_tokens e h hf (Nat.le_refl _))).of_lexemes
    (map_lexeme_significant (map_lexeme_place 0 e.tokens))

end Expr

/-- Tokens that derive a tree have no diagnostics where they do not end inside
    of a text. -/
theorem diagnose_of_closed {tokens : List Token} {n : Nat} {e : Expr}
    (h : Grammar.Expression false n (significant tokens) e) : diagnose tokens = [] := by
  have hsettles : Context.Settles false tokens.length {} (entries 0 tokens) :=
    h.settles (map_snd_entries 0 tokens) (indexed_entries tokens) rfl
  have hvalue := hsettles.readsValue
  exact diagnose_eq_nil_iff.mpr ⟨hvalue.quiet, hvalue.frames⟩

/-- A formula that derives a tree has it where its parentheses do not nest too
    deeply. -/
theorem parse_of_nesting {formula : String} {tokens : List Token} {n : Nat} {e : Expr}
    (h : tokenize formula = .ok tokens)
    (hd : ∀ final, Grammar.Expression final n (significant tokens) e)
    (hnesting : ∀ p, nestingAt (significant tokens) p ≤ 255) : parse tokens = .ok e := by
  obtain ⟨t, rest, hcons, -⟩ := (hd true).starts
  have hne : significant tokens ≠ [] := by
    rw [hcons]
    exact List.cons_ne_nil t rest
  refine (parse_of_derives_deep (hd true)).resolve_right fun hdeep => ?_
  obtain ⟨p, -, hobstacle, -⟩ :=
    (parse_eq_error_iff_obstacleAt? h (diagnose_of_closed (hd false)) hne .tooDeep).mp hdeep
  have hroom : ¬ maxLevels ≤ nestingAt (significant tokens) p :=
    Nat.not_le.mpr (Nat.lt_succ_of_le (hnesting p))
  exact (obstacleAt?_of_room hroom).2 hobstacle

/-- No more parentheses are open than there are tokens. -/
theorem nestingAt_le_length (tokens : List Token) (p : Nat) :
    nestingAt tokens p ≤ tokens.length := by
  -- each open bracket is a token in front of the position
  have hopen : (openBrackets tokens p).length ≤ (tokens.take p).length := by
    induction p with
    | zero => exact Nat.zero_le _
    | succ p ih =>
        have hmono : (tokens.take p).length ≤ (tokens.take (p + 1)).length := by
          rw [List.length_take, List.length_take]
          omega
        rw [openBrackets]
        split
        · next hbracket =>
          have hp : p < tokens.length := by
            rcases Bool.or_eq_true_iff.mp hbracket with h | h
            · obtain ⟨t, ht, -⟩ := bracketAt_iff.mp h
              exact (List.getElem?_eq_some_iff.mp ht).1
            · obtain ⟨t, ht, -⟩ := bracketAt_iff.mp h
              exact (List.getElem?_eq_some_iff.mp ht).1
          rw [List.length_take] at ih ⊢
          rw [List.length_cons]
          omega
        split
        · rw [List.length_tail]
          omega
        · exact Nat.le_trans ih hmono
  exact Nat.le_trans (Nat.le_trans (List.countP_le_length) hopen)
    (by rw [List.length_take]; exact Nat.min_le_right p _)

/-! ## Trees of formulas are well-formed -/

/-- Each of the significant tokens stands somewhere, with what is in mind
    behind the one in front of it. -/
def InTurn : Memory → List Token → Prop
  | _, [] => True
  | m, t :: ts => (∃ next, Stands m next t) ∧ InTurn t.memory ts

/-- Tokens that stand are still each in turn when the whitespace is left out.
    -/
theorem inTurn_of_standing {m : Memory} {ts : List Token} {next : Option Char}
    (h : Standing m ts next) : InTurn m (significant ts) := by
  induction ts generalizing m with
  | nil => exact trivial
  | cons t ts ih =>
      have htail := ih h.2
      by_cases hk : t.kind = .whitespace
      · rw [significant_cons_of_whitespace ts hk]
        rwa [Memory.after_of_whitespace hk] at htail
      · rw [significant_cons_of_kind ts hk]
        rw [Memory.after_of_kind rfl hk] at htail
        exact ⟨⟨_, h.1⟩, htail⟩

theorem InTurn.left {m : Memory} {ts us : List Token} (h : InTurn m (ts ++ us)) :
    InTurn m ts := by
  induction ts generalizing m with
  | nil => exact trivial
  | cons t ts ih => exact ⟨h.1, ih h.2⟩

/-- The second of two parts in turn is in turn, behind what the first leaves
    in mind. -/
theorem InTurn.right {m : Memory} {ts us : List Token} (h : InTurn m (ts ++ us)) :
    ∃ m', InTurn m' us := by
  induction ts generalizing m with
  | nil => exact ⟨m, h⟩
  | cons t ts ih => exact ih h.2

theorem Expr.WellFormed.signed {e : Expr} (h : e.WellFormed false) (signed : Bool) :
    e.WellFormed signed := by
  cases e with
  | number value => exact fun hneg => absurd (h hneg) Bool.false_ne_true
  | text value => exact h
  | reference name => exact h
  | chain first links => exact h
  | call name arguments => exact h

namespace Grammar

/-- A text read from tokens in turn has no quote in it. -/
theorem Body.text_wellFormed {m : Memory} {body : List Token} {text : String}
    (h : Body body text) (hs : InTurn m body) : '"' ∉ text.toList := by
  cases h with
  | empty => decide
  | string kind =>
      obtain ⟨⟨next, hstands⟩, -⟩ := hs
      have hshape := hstands.shape
      rw [kind] at hshape
      exact hshape.2.1

theorem Links.ne_nil {final : Bool} {n : Nat} {phrase : List Token}
    {links : List (String × Expr)} (h : Links final n phrase links) : links ≠ [] := by
  cases h with
  | single => exact List.cons_ne_nil _ _
  | cons => exact List.cons_ne_nil _ _

mutual

/-- Where an operator is in mind, a number may have a minus sign, and in no
    other place. -/
theorem Operand.wellFormed {final : Bool} {n : Nat} {phrase : List Token} {e : Expr}
    (h : Operand final n phrase e) {m : Memory} {signed : Bool} (hs : InTurn m phrase)
    (hm : m = .operator → signed = true) : e.WellFormed signed :=
  match h with
  | .number kind literal => by
      obtain ⟨⟨next, hstands⟩, -⟩ := hs
      have hshape := hstands.shape
      rw [kind] at hshape
      intro hneg
      -- a sign bit comes from a minus sign, which has an operator in mind
      refine hm (hshape.2.2.1 (Classical.byContradiction fun hminus => ?_))
      exact Bool.false_ne_true ((isNegative_readLiteral? literal hminus).symm.trans hneg)
  | .text hquote hbody hend => hbody.text_wellFormed hs.2.left
  | .openText hquote hbody => hbody.text_wellFormed hs.2
  | .reference hopener hname hcloser => by
      obtain ⟨-, ⟨next, hstands⟩, -⟩ := hs
      have hshape := hstands.shape
      rw [hname] at hshape
      exact hshape.1
  | .emptyCall hname hopener hcloser => by
      obtain ⟨⟨next, hstands⟩, -⟩ := hs
      have hshape := hstands.shape
      rw [hname] at hshape
      exact ⟨hshape.1, trivial⟩
  | .call hname hopener hinner hcloser => by
      obtain ⟨⟨next, hstands⟩, -, hinside⟩ := hs
      have hshape := hstands.shape
      rw [hname] at hshape
      rw [Token.memory_of_isBracket hopener (by decide)] at hinside
      exact ⟨hshape.1, hinner.wellFormed hinside.left⟩
  | .group hopener hinner hcloser => by
      obtain ⟨-, hinside⟩ := hs
      rw [Token.memory_of_isBracket hopener (by decide)] at hinside
      exact (hinner.wellFormed hinside.left).signed signed

/-- Links derived from tokens in turn are well-formed. -/
theorem Links.wellFormed {final : Bool} {n : Nat} {phrase : List Token}
    {links : List (String × Expr)} (h : Links final n phrase links) {m : Memory}
    (hs : InTurn m phrase) : Expr.LinksWellFormed links :=
  match h with
  | .single hoperator hoperand => by
      obtain ⟨⟨next, hstands⟩, hbehind⟩ := hs
      have hshape := hstands.shape
      rw [hoperator] at hshape
      exact ⟨hshape.1, hoperand.wellFormed hbehind fun _ => rfl, trivial⟩
  | .cons hoperator hoperand hmore => by
      obtain ⟨⟨next, hstands⟩, hbehind⟩ := hs
      have hshape := hstands.shape
      rw [hoperator] at hshape
      obtain ⟨m', hrest⟩ := hbehind.right
      exact ⟨hshape.1, hoperand.wellFormed hbehind.left fun _ => rfl, hmore.wellFormed hrest⟩

/-- Arguments derived from tokens in turn are well-formed. -/
theorem Arguments.wellFormed {n : Nat} {phrase : List Token} {es : List Expr}
    (h : Arguments n phrase es) (hs : InTurn .other phrase) : Expr.ArgumentsWellFormed es :=
  match h with
  | .single h => ⟨h.wellFormed hs, trivial⟩
  | .cons h hcomma hmore => by
      obtain ⟨m', -, hrest⟩ := hs.right
      rw [Token.memory_of_kind hcomma (by decide)] at hrest
      exact ⟨h.wellFormed hs.left, hmore.wellFormed hrest⟩

/-- Where nothing is in mind, an expression derives a well-formed tree. -/
theorem Expression.wellFormed {final : Bool} {n : Nat} {phrase : List Token} {e : Expr}
    (h : Expression final n phrase e) (hs : InTurn .other phrase) : e.WellFormed false :=
  match h with
  | .operand h => h.wellFormed hs nofun
  | .chain hfirst hmore => by
      obtain ⟨m', hrest⟩ := hs.right
      exact ⟨hfirst.wellFormed hs.left nofun, hmore.ne_nil, hmore.wellFormed hrest⟩

end

end Grammar

/-- **TREES READ BACK FROM THEIR PRINTED FORM**: a well-formed tree with finite
    numbers is the tree of its printed form, unless its parentheses nest too
    deeply there, and every tree of a formula is well-formed. -/
theorem parse_display :
    (∀ e : Expr, e.WellFormed false → e.Finite →
      ∃ tokens, tokenize e.display = .ok tokens ∧
        ((∀ p, nestingAt (significant tokens) p ≤ 255) → parse tokens = .ok e)) ∧
    (∀ formula tokens e, tokenize formula = .ok tokens → parse tokens = .ok e →
      e.WellFormed false) := by
  constructor
  · intro e h hf
    have htokens := Expr.tokenize_display h hf
    exact ⟨_, htokens, parse_of_nesting htokens (Expr.derives_display h hf)⟩
  · intro formula tokens e h he
    exact (derives_of_parse he).wellFormed (inTurn_of_standing (standing_of_parse h he))

/-- A negative number reads back behind an operator, the minus sign of the
    operator in front of it included. -/
theorem parse_display_of_negative :
    ∃ e : Expr, e = .chain (.call "f" [.text "a", .reference "B 1"]) [("-", .number (-2.5))] ∧
      e.WellFormed false ∧ e.Finite ∧ e.display = "(f(\"a\", [B 1]) - -2.5)" ∧
      ∃ tokens, tokenize e.display = .ok tokens ∧
        (∀ p, nestingAt (significant tokens) p ≤ 255) ∧ parse tokens = .ok e := by
  obtain ⟨e, he⟩ : ∃ e : Expr,
      e = .chain (.call "f" [.text "a", .reference "B 1"]) [("-", .number (-2.5))] := ⟨_, rfl⟩
  have hreference : IsReferenceName "B 1".toList := by
    have hlist : "B 1".toList = ['B', ' ', '1'] := by decide
    rw [hlist]
    refine ⟨by decide, by simp, by decide, fun c hc => ?_, by decide⟩
    obtain rfl := Option.some.inj hc
    decide
  have htext : '"' ∉ "a".toList := by decide
  have hnumber : (-2.5 : Float).isFinite = true := by decide +kernel
  have hwell : e.WellFormed false := by
    rw [he]
    exact ⟨⟨by decide, htext, hreference, trivial⟩, List.cons_ne_nil _ _,
      ⟨'-', by decide, by decide⟩, fun _ => rfl, trivial⟩
  have hfinite : e.Finite := by
    rw [he]
    exact ⟨⟨trivial, trivial, trivial⟩, hnumber, trivial⟩
  obtain ⟨hreads, htrees⟩ := parse_display
  obtain ⟨tokens, htokens, hparse⟩ := hreads e hwell hfinite
  have hshort : (significant tokens).length ≤ 255 := by
    rw [← tokensOf_eq htokens, tokensOf_eq (Expr.tokenize_display hwell hfinite), he]
    decide +kernel
  have hnesting := fun p => Nat.le_trans (nestingAt_le_length (significant tokens) p) hshort
  exact ⟨e, he, htrees _ _ _ htokens (hparse hnesting), hfinite, by rw [he]; decide +kernel,
    tokens, htokens, hnesting, hparse hnesting⟩

end FormulaBar
