import FormulaBar.Proofs.Coverage

/-! # Memory — what the lexer keeps in mind

    The classifier looks at the text ahead and at the latest significant
    token, and of that token five things matter.  A scan is therefore a run
    of a machine with five states over the text, and the tokens of a formula
    are those that this machine reads.  What it reads off a part of the
    formula depends on its state in front of the part and on the text
    behind it, and on nothing else. -/

namespace FormulaBar

/-- What the classifier needs to know of the tokens behind the cursor. -/
inductive Memory where
  /-- A start quote was read. -/
  | quote
  /-- The string behind a start quote was read. -/
  | text
  | operator
  /-- The bracket that opens a reference was read. -/
  | bracket
  | other
deriving DecidableEq

/-- What a significant token leaves in mind. -/
def Token.memory (t : Token) : Memory :=
  if t.kind = .startQuote then .quote
  else if t.kind = .string then .text
  else if t.kind = .operator then .operator
  else if t.isBracket '[' then .bracket
  else .other

/-- What is in mind behind one more token. -/
def Memory.after (m : Memory) (t : Token) : Memory :=
  if t.isSignificant then t.memory else m

/-- What is in mind behind some tokens. -/
def Memory.afterAll (m : Memory) (ts : List Token) : Memory :=
  ts.foldl Memory.after m

/-- What is in mind behind a history; at the start of a formula it is what
    most tokens leave. -/
def History.memory (history : History) : Memory :=
  (history.previous?.map Token.memory).getD .other

namespace Token

variable {t : Token}

theorem memory_of_startQuote (h : t.kind = .startQuote) : t.memory = .quote := if_pos h

theorem memory_of_string (h : t.kind = .string) : t.memory = .text := by
  simp [memory, h]

theorem memory_of_operator (h : t.kind = .operator) : t.memory = .operator := by
  simp [memory, h]

/-- An opening square bracket is kept in mind, for a reference name may follow
    it. -/
theorem memory_of_openBracket (h : t.isBracket '[' = true) : t.memory = .bracket := by
  simp [memory, h, kind_of_isBracket h]

/-- Any other bracket leaves nothing to be kept in mind. -/
theorem memory_of_isBracket {b : Char} (h : t.isBracket b = true) (hb : b ≠ '[') :
    t.memory = .other := by
  simp [memory, kind_of_isBracket h, isBracket_of_ne '[' h hb]

/-- A token of another class leaves nothing to be kept in mind. -/
theorem memory_of_kind {k : Kind} (h : t.kind = k)
    (hk : k ≠ .startQuote ∧ k ≠ .string ∧ k ≠ .operator ∧ k ≠ .bracket) :
    t.memory = .other := by
  simp [memory, h, hk, isBracket_of_kind '[' (h ▸ hk.2.2.2)]

/-- What is in mind says of which class the token is. -/
theorem kind_of_memory (t : Token) :
    match t.memory with
    | .quote => t.kind = .startQuote
    | .text => t.kind = .string
    | .operator => t.kind = .operator
    | .bracket => t.isBracket '[' = true
    | .other => True := by
  by_cases hquote : t.kind = .startQuote
  · rw [memory_of_startQuote hquote]
    exact hquote
  by_cases htext : t.kind = .string
  · rw [memory_of_string htext]
    exact htext
  by_cases hoperator : t.kind = .operator
  · rw [memory_of_operator hoperator]
    exact hoperator
  by_cases hbracket : t.isBracket '[' = true
  · rw [memory_of_openBracket hbracket]
    exact hbracket
  · have hother : t.memory = .other := by
      rw [memory, if_neg hquote, if_neg htext, if_neg hoperator, if_neg hbracket]
    rw [hother]
    trivial

/-- A quote is in mind behind a start quote only. -/
theorem memory_eq_quote : t.memory = .quote ↔ t.kind = .startQuote := by
  refine ⟨fun h => ?_, memory_of_startQuote⟩
  have hkind := t.kind_of_memory
  rwa [h] at hkind

/-- A text is in mind behind a string only. -/
theorem memory_eq_text : t.memory = .text ↔ t.kind = .string := by
  refine ⟨fun h => ?_, memory_of_string⟩
  have hkind := t.kind_of_memory
  rwa [h] at hkind

/-- An operator is in mind behind an operator only. -/
theorem memory_eq_operator : t.memory = .operator ↔ t.kind = .operator := by
  refine ⟨fun h => ?_, memory_of_operator⟩
  have hkind := t.kind_of_memory
  rwa [h] at hkind

/-- A bracket is in mind behind an opening square bracket only. -/
theorem memory_eq_bracket : t.memory = .bracket ↔ t.isBracket '[' = true := by
  refine ⟨fun h => ?_, memory_of_openBracket⟩
  have hkind := t.kind_of_memory
  rwa [h] at hkind

end Token

namespace Memory

variable {m : Memory} {t : Token}

/-- A significant token is what is in mind behind it. -/
theorem after_of_significant (h : t.isSignificant = true) : m.after t = t.memory := if_pos h

/-- Spaces leave in mind what was there. -/
theorem after_of_whitespace (h : t.kind = .whitespace) : m.after t = m := by
  simp [after, Token.isSignificant, h]

/-- A token of a class that is not spaces is what is in mind behind it. -/
theorem after_of_kind {k : Token.Kind} (h : t.kind = k) (hk : k ≠ .whitespace) :
    m.after t = t.memory :=
  after_of_significant (by simp [Token.isSignificant, h, hk])

@[simp] theorem afterAll_nil (m : Memory) : m.afterAll [] = m := rfl

@[simp] theorem afterAll_cons (m : Memory) (t : Token) (ts : List Token) :
    m.afterAll (t :: ts) = (m.after t).afterAll ts := rfl

@[simp] theorem afterAll_append (m : Memory) (ts us : List Token) :
    m.afterAll (ts ++ us) = (m.afterAll ts).afterAll us :=
  List.foldl_append

end Memory

namespace History

variable {history : History}

/-- One more token in the history does to what is in mind what it does in a
    scan. -/
theorem memory_cons (t : Token) (history : History) :
    History.memory (t :: history) = history.memory.after t := by
  rw [memory, previous?, Memory.after]
  by_cases ht : t.isSignificant = true
  · rw [List.find?_cons_of_pos ht, if_pos ht]
    rfl
  · rw [List.find?_cons_of_neg ht, if_neg ht]
    rfl

/-- What is in mind is said by the latest significant token. -/
theorem memory_iff {P : Token → Prop} {m : Memory} (hm : m ≠ .other)
    (hP : ∀ t : Token, t.memory = m ↔ P t) :
    history.memory = m ↔ ∃ t, history.previous? = some t ∧ P t := by
  rw [memory]
  cases history.previous? with
  | none => simp [hm.symm]
  | some t => simp [hP t]

/-- The latest class is that of the latest significant token. -/
theorem latestKind?_eq_some_iff {k : Token.Kind} :
    history.latestKind? = some k ↔ ∃ t, history.previous? = some t ∧ t.kind = k :=
  Option.map_eq_some_iff

/-- The three classes that the rules ask for can be read off what is in mind:
    here that of start quotes. -/
theorem latestKind?_startQuote :
    history.latestKind? = some .startQuote ↔ history.memory = .quote := by
  rw [latestKind?_eq_some_iff, memory_iff (by decide) fun _ => Token.memory_eq_quote]

/-- The same for strings, behind which a quote ends the text. -/
theorem latestKind?_string :
    history.latestKind? = some .string ↔ history.memory = .text := by
  rw [latestKind?_eq_some_iff, memory_iff (by decide) fun _ => Token.memory_eq_text]

/-- The same for operators, behind which a minus sign belongs to a number. -/
theorem latestKind?_operator :
    history.latestKind? = some .operator ↔ history.memory = .operator := by
  rw [latestKind?_eq_some_iff, memory_iff (by decide) fun _ => Token.memory_eq_operator]

/-- Whether a reference name may come can be read off what is in mind. -/
theorem any_isBracket_iff :
    history.previous?.any (·.isBracket '[') = true ↔ history.memory = .bracket := by
  rw [memory_iff (by decide) fun _ => Token.memory_eq_bracket, Option.any_eq_true]

end History

/-! ## Classification by memory -/

/-- Whether a reference name is ahead depends on the text ahead only. -/
theorem referenceAhead?_congr {c c' : Cursor} (h : c.rest = c'.rest) :
    referenceAhead? c = referenceAhead? c' := by
  simp only [referenceAhead?, Cursor.match?, Cursor.peek?, Cursor.rest_advance, h]

/-- The classifier knows of the history only what is in mind. -/
theorem classify_congr {c c' : Cursor} {history history' : History}
    (hrest : c.rest = c'.rest) (hmemory : history.memory = history'.memory) :
    classify c history = classify c' history' := by
  have hquote : history.latestKind? = some .startQuote ↔
      history'.latestKind? = some .startQuote := by
    rw [History.latestKind?_startQuote, History.latestKind?_startQuote, hmemory]
  have htext : history.latestKind? = some .string ↔ history'.latestKind? = some .string := by
    rw [History.latestKind?_string, History.latestKind?_string, hmemory]
  have hoperator : history.latestKind? = some .operator ↔
      history'.latestKind? = some .operator := by
    rw [History.latestKind?_operator, History.latestKind?_operator, hmemory]
  have hbracket : history.previous?.any (·.isBracket '[')
      = history'.previous?.any (·.isBracket '[') := by
    rw [Bool.eq_iff_iff, History.any_isBracket_iff, History.any_isBracket_iff, hmemory]
  simp only [History.latestKind?] at hquote htext hoperator
  simp only [classify, Cursor.match?, Cursor.peek?, Cursor.rest_advance,
    referenceAhead?_congr hrest, hrest, hquote, htext, ne_eq, hoperator, hbracket]

/-- No rule takes more than is ahead. -/
theorem Rule.length_le {cursor : Cursor} {history : History} {k : Token.Kind} {n : Nat}
    (h : Rule cursor history k n) : n ≤ cursor.rest.length := by
  have hmatch : ∀ {p : Pattern} {text : List Char}, cursor.match? p = some text →
      text.length ≤ cursor.rest.length := by
    intro p text htext
    obtain ⟨rfl, -⟩ := Cursor.match?_eq_some.mp htext
    exact (p.ahead_isPrefix _).length_le
  have hpeek : ∀ {c : Char}, cursor.peek? = some c → 1 ≤ cursor.rest.length := by
    intro c hc
    obtain ⟨tail, htail⟩ := List.head?_eq_some_iff.mp hc
    rw [htail]
    exact Nat.succ_le_succ (Nat.zero_le _)
  cases h with
  | atEnd => exact Nat.zero_le _
  | endQuote hc _ => exact hpeek hc
  | startQuote hc _ => exact hpeek hc
  | string => exact (Pattern.quotedText.ahead_isPrefix _).length_le
  | number _ htext _ => exact hmatch htext
  | minus hc _ _ => exact hpeek hc.peek
  | operator hc _ _ => exact hpeek hc.peek
  | referenceName _ _ hname => exact hmatch (Option.filter_eq_some_iff.mp hname).1
  | functionName _ htext _ => exact hmatch htext
  | unfinishedFormula _ htext _ => exact hmatch htext
  | bracket hc _ => exact hpeek hc.peek
  | comma hc => exact hpeek hc.peek
  | whitespace _ _ _ htext => exact hmatch htext
  | error hc _ _ _ => exact hpeek hc.peek

/-! ## Tokens read by memory -/

/-- With `m` in mind the lexer takes the token `t` off the front of its text
    and of `rest` behind it. -/
structure Next (m : Memory) (t : Token) (rest : List Char) : Prop where
  nonempty : t.text ≠ ""
  classified : ∀ (cursor : Cursor) (history : History),
    cursor.rest = t.text.toList ++ rest → history.memory = m →
    classify cursor history = (t.kind, t.text.length)

/-- With `m` in mind the lexer reads the tokens `ts` off the front of their
    text and of `rest` behind it. -/
def Lexed : Memory → List Token → List Char → Prop
  | _, [], _ => True
  | m, t :: ts, rest => Next m t (spell ts ++ rest) ∧ Lexed (m.after t) ts rest

/-- Tokens are read one part behind the other: the first in front of the text
    of the second, the second with what the first leaves in mind. -/
theorem lexed_append {m : Memory} {ts us : List Token} {rest : List Char} :
    Lexed m (ts ++ us) rest ↔ Lexed m ts (spell us ++ rest) ∧ Lexed (m.afterAll ts) us rest := by
  induction ts generalizing m with
  | nil => exact (and_iff_right trivial).symm
  | cons t ts ih =>
      rw [List.cons_append, Lexed, Lexed, ih, spell_append, List.append_assoc, and_assoc]
      rfl

namespace Lexer

variable {l l' last : Lexer} {t : Token} {ts : List Token}

/-- A step of a scan keeps in mind the token it takes. -/
theorem Step.memory (h : Step classify l l' t) :
    l'.history.memory = l.history.memory.after t := by
  rw [h.history, History.memory_cons]
  rfl

/-- A step of a scan takes a token that is the next one for what is in mind.
    -/
theorem Step.next_token (h : Step classify l l' t) :
    Next l.history.memory t l'.cursor.rest := by
  obtain ⟨n, hclassify, htake⟩ := h.classified
  have hrule : Rule l.cursor l.history t.kind n := by
    have hrule := rule_of_classify l.cursor l.history
    rwa [hclassify] at hrule
  have hlength : n = t.text.length := by
    rw [← String.length_toList, htake, List.length_take, Nat.min_eq_left hrule.length_le]
  refine ⟨h.nonempty, fun cursor history hrest hmemory => ?_⟩
  rw [classify_congr (hrest.trans h.rest.symm) hmemory, hclassify, hlength]

/-- The tokens that steps take are read, with what is in mind in front of
    them. -/
theorem Steps.lexed (h : Steps classify l ts last) :
    Lexed l.history.memory ts last.cursor.rest := by
  induction h with
  | nil => exact trivial
  | cons h hsteps ih =>
      rw [h.memory] at ih
      exact ⟨hsteps.rest ▸ h.next_token, ih⟩

/-- Tokens that are read in front of a text are taken by steps, which end in
    front of that text. -/
theorem exists_steps {rest : List Char} (h : Lexed l.history.memory ts rest)
    (hrest : l.cursor.rest = spell ts ++ rest) :
    ∃ last, Steps classify l ts last ∧ last.cursor.rest = rest := by
  induction ts generalizing l with
  | nil => exact ⟨l, .nil, hrest⟩
  | cons t ts ih =>
      rw [spell_cons, List.append_assoc] at hrest
      obtain ⟨l', hstep, hrest'⟩ :=
        exists_step h.1.nonempty hrest (h.1.classified _ _ hrest rfl)
      obtain ⟨last, hsteps, hlast⟩ := ih (hstep.memory ▸ h.2) hrest'
      exact ⟨last, .cons hstep hsteps, hlast⟩

end Lexer

/-- Where a token stands does not matter to its being read. -/
theorem next_placeAt {m : Memory} {t : Token} {n : Nat} {rest : List Char} :
    Next m (t.placeAt n) rest ↔ Next m t rest :=
  ⟨fun h => ⟨h.nonempty, h.classified⟩, fun h => ⟨h.nonempty, h.classified⟩⟩

/-- Tokens spell the same wherever they are placed. -/
theorem spell_place (n : Nat) (ts : List Token) : spell (place n ts) = spell ts := by
  induction ts generalizing n with
  | nil => rfl
  | cons t ts ih =>
      rw [place, spell_cons, spell_cons, ih]
      rfl

/-- Where tokens stand does not matter for how they are read. -/
theorem lexed_place {m : Memory} {n : Nat} {ts : List Token} {rest : List Char} :
    Lexed m (place n ts) rest ↔ Lexed m ts rest := by
  induction ts generalizing m n with
  | nil => exact Iff.rfl
  | cons t ts ih =>
      rw [place, Lexed, Lexed, next_placeAt, spell_place]
      exact and_congr_right fun _ => ih

/-- The tokens of a formula are those that the lexer reads with nothing in
    mind. -/
theorem lexed_of_tokenize {formula : String} {tokens : List Token}
    (h : tokenize formula = .ok tokens) :
    Lexed .other tokens [] ∧ spell tokens = formula.toList := by
  obtain ⟨ts, last, hsteps, hend, rfl⟩ := steps_of_tokenizeWith h
  have hlexed := hsteps.lexed
  rw [hend] at hlexed
  have hrest : formula.toList = spell ts ++ last.cursor.rest := hsteps.rest
  rw [spell_place, hrest, hend, List.append_nil]
  exact ⟨lexed_place.mpr hlexed, rfl⟩

/-- Tokens that are read so are the tokens of the formula that they spell. -/
theorem tokenize_of_lexed {formula : String} {ts : List Token}
    (h : Lexed .other ts []) (hformula : formula.toList = spell ts) :
    tokenize formula = .ok (place 0 ts) := by
  have hrest : (Lexer.ofString formula).cursor.rest = spell ts ++ [] := by
    rw [List.append_nil]
    exact hformula
  have hstart : Lexed (Lexer.ofString formula).history.memory ts [] := h
  obtain ⟨last, hsteps, hlast⟩ := Lexer.exists_steps hstart hrest
  rw [tokenize, tokenizeWith, Lexer.tokenize, hsteps.run hlast]
  show Except.ok last.tokens = _
  rw [hsteps.tokens]
  rfl

end FormulaBar
