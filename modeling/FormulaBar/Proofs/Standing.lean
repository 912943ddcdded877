import FormulaBar.Proofs.Memory

/-! # Standing — where a token may stand

    Whether the lexer reads a given token off the front of a text is settled
    by three things: the shape of the token's text, what is in mind in front
    of it, and the one character behind it.  The classifier looks further
    ahead than that for a reference name, and for a minus sign in front of a
    number, but a token that stands right is read whatever comes later. -/

namespace FormulaBar

/-- A run is not prolonged by a text that does not start by one of its
    characters. -/
theorem takeWhile_append_stop {p : Char → Bool} (text : List Char) {rest : List Char}
    (hrest : rest.takeWhile p = []) : (text ++ rest).takeWhile p = text.takeWhile p := by
  rw [List.takeWhile_append]
  split
  · next hall =>
    rw [hrest, List.append_nil]
    exact ((List.takeWhile_prefix p).eq_of_length hall).symm
  · rfl

/-- What a run was taken off the front of does not start by one more of it. -/
theorem takeWhile_eq_nil_of_append {p : Char → Bool} {text rest : List Char}
    (h : (text ++ rest).takeWhile p = text) : rest.takeWhile p = [] := by
  rw [List.takeWhile_append] at h
  split at h
  · exact List.append_right_eq_self.mp h
  · next hall => exact absurd (congrArg List.length h) hall

/-- A reference name is ahead where a run without brackets is, in front of
    a closing one. -/
theorem referenceAhead?_eq_some_iff {cursor : Cursor} {name : List Char} :
    referenceAhead? cursor = some name ↔ name ≠ [] ∧ (∀ c ∈ name, c ≠ '[' ∧ c ≠ ']') ∧
      ∃ rest, cursor.rest = name ++ ']' :: rest := by
  rw [referenceAhead?, Option.filter_eq_some_iff, Cursor.match?_eq_some, beq_iff_eq,
    Cursor.peek?, Cursor.rest_advance]
  constructor
  · rintro ⟨⟨hahead, hne⟩, hcloser⟩
    refine ⟨hne, fun c hc => ?_, ?_⟩
    · rw [← hahead] at hc
      simpa using List.mem_takeWhile_imp hc
    · obtain ⟨rest, hrest⟩ := List.head?_eq_some_iff.mp hcloser
      obtain ⟨tail, htail⟩ := hahead ▸ Pattern.referenceName.ahead_isPrefix cursor.rest
      rw [← htail, List.drop_left] at hrest
      exact ⟨rest, by rw [← htail, hrest]⟩
  · rintro ⟨hne, hall, rest, hrest⟩
    have hrun : ∀ c ∈ name, (c != '[' && c != ']') = true := by
      intro c hc
      simpa using hall c hc
    have hstop : (']' :: rest).takeWhile (fun c => c != '[' && c != ']') = [] := rfl
    refine ⟨⟨?_, hne⟩, ?_⟩
    · rw [hrest]
      show List.takeWhile (fun c => c != '[' && c != ']') (name ++ ']' :: rest) = name
      rw [List.takeWhile_append_of_pos hrun, hstop, List.append_nil]
    · rw [hrest, List.drop_left]
      rfl

/-! ## Classification where the rules tried earlier do not apply -/

theorem classify_quote {cursor : Cursor} {history : History} (hpeek : cursor.peek? = some '"') :
    classify cursor history =
      if history.memory = .text ∨ history.memory = .quote then (.endQuote, 1)
      else (.startQuote, 1) := by
  simp only [← History.latestKind?_string, ← History.latestKind?_startQuote]
  rw [classify, hpeek]
  rfl

/-- Right behind a start quote everything up to the next quote is the text. -/
theorem classify_string {cursor : Cursor} {history : History} {c : Char}
    (hpeek : cursor.peek? = some c) (hc : c ≠ '"') (hm : history.memory = .quote) :
    classify cursor history
      = (.string, (Pattern.quotedText.ahead cursor.rest).length) := by
  have hkind := History.latestKind?_startQuote.mpr hm
  rw [classify, hpeek]
  simp only [if_neg hc]
  exact if_pos hkind

/-- A number is taken whole, but for a minus sign with no operator in mind:
    that is an operator itself. -/
theorem classify_number {cursor : Cursor} {history : History} {c : Char} {text : List Char}
    (h : OutsideText cursor history c) (hmatch : cursor.match? .number = some text) :
    classify cursor history = if c = '-' ∧ history.memory ≠ .operator then (.operator, 1)
      else (.number, text.length) := by
  simp only [ne_eq, ← History.latestKind?_operator]
  have hbehind : ¬ history.previous?.map (·.kind) = some .startQuote := h.not_behind
  rw [classify, h.peek]
  simp only [if_neg h.not_quote]
  rw [if_neg hbehind, hmatch]
  rfl

/-- An operator that no number starts with is taken alone. -/
theorem classify_operator {cursor : Cursor} {history : History} {c : Char}
    (h : OutsideText cursor history c) (hmatch : cursor.match? .number = none)
    (hc : c ∈ operatorChars) : classify cursor history = (.operator, 1) := by
  have hbehind : ¬ history.previous?.map (·.kind) = some .startQuote := h.not_behind
  rw [classify, h.peek]
  simp only [if_neg h.not_quote]
  rw [if_neg hbehind, hmatch]
  exact if_pos hc

/-- A reference name ahead is taken behind a bracket. -/
theorem classify_referenceName {cursor : Cursor} {history : History} {c : Char}
    {name : List Char} (h : OutsideChain cursor history c) (hm : history.memory = .bracket)
    (hname : referenceAhead? cursor = some name) :
    classify cursor history = (.referenceName, name.length) := by
  have hopener := History.any_isBracket_iff.mpr hm
  have hbehind : ¬ history.previous?.map (·.kind) = some .startQuote := h.not_behind
  rw [classify, h.peek]
  simp only [if_neg h.not_quote]
  rw [if_neg hbehind, h.no_number]
  simp only [if_neg h.no_operator, if_pos hopener, hname]

/-- A name in front of a parenthesis is the name of a function. -/
theorem classify_functionName {cursor : Cursor} {history : History} {c : Char}
    {name : List Char} (h : OutsideChain cursor history c) (hm : history.memory ≠ .bracket)
    (hmatch : cursor.match? .identifier = some name)
    (hparen : (cursor.advance name.length).peek? = some '(') :
    classify cursor history = (.functionName, name.length) := by
  have hopener := mt History.any_isBracket_iff.mp hm
  have hbehind : ¬ history.previous?.map (·.kind) = some .startQuote := h.not_behind
  rw [classify, h.peek]
  simp only [if_neg h.not_quote]
  rw [if_neg hbehind, h.no_number]
  simp only [if_neg h.no_operator, if_neg hopener, hmatch]
  exact if_pos hparen

/-- Where no name starts there is a bracket, a comma, a run of spaces or an
    error. -/
theorem classify_outside {cursor : Cursor} {history : History} {c : Char}
    (h : OutsideChain cursor history c) (hm : history.memory ≠ .bracket)
    (hmatch : cursor.match? .identifier = none) :
    classify cursor history =
      if c ∈ bracketChars then (.bracket, 1)
      else if c = ',' then (.comma, 1)
      else ((cursor.match? .spaces).map fun spaces =>
        (Token.Kind.whitespace, spaces.length)).getD (.error, 1) := by
  have hopener := mt History.any_isBracket_iff.mp hm
  have hbehind : ¬ history.previous?.map (·.kind) = some .startQuote := h.not_behind
  rw [classify, h.peek]
  simp only [if_neg h.not_quote]
  rw [if_neg hbehind, h.no_number]
  simp only [if_neg h.no_operator, if_neg hopener, hmatch]
  cases cursor.match? .spaces with
  | none => rfl
  | some spaces => rfl

/-! ## Numbers -/

/-- Whether a number ends in front of the character. -/
def endsNumber (next : Option Char) : Bool :=
  next.all fun c => !c.isDigit && c != '.'

/-- What ends a number does not start with a digit. -/
theorem takeWhile_isDigit_of_endsNumber {rest : List Char}
    (h : endsNumber rest.head? = true) : rest.takeWhile Char.isDigit = [] := by
  cases rest with
  | nil => rfl
  | cons c rest =>
      have hc : c.isDigit = false ∧ c ≠ '.' := by simpa [endsNumber] using h
      exact List.takeWhile_cons_of_neg (by rw [hc.1]; exact Bool.false_ne_true)

/-- What follows a text adds nothing to the number at its front where the
    number ends in front of it. -/
theorem unsignedNumber_append (text : List Char) {rest : List Char}
    (h : endsNumber rest.head? = true) :
    unsignedNumber (text ++ rest) = unsignedNumber text := by
  have hdigits := takeWhile_isDigit_of_endsNumber h
  have hle : (text.takeWhile Char.isDigit).length ≤ text.length :=
    (List.takeWhile_prefix _).length_le
  rw [unsignedNumber, unsignedNumber, takeWhile_append_stop text hdigits]
  simp only [List.drop_append_of_le_length hle]
  -- the digits end in the text or at its end
  cases text.drop (text.takeWhile Char.isDigit).length with
  | nil =>
      cases rest with
      | nil => rfl
      | cons c rest =>
          have hc : c.isDigit = false ∧ c ≠ '.' := by simpa [endsNumber] using h
          rw [List.nil_append]
          split
          · next heq =>
            obtain ⟨rfl, -⟩ := List.cons.inj heq
            exact absurd rfl hc.2
          · rfl
  | cons c tail =>
      rw [List.cons_append]
      by_cases hc : c = '.'
      · subst hc
        simp only [takeWhile_append_stop tail hdigits]
      · split
        · next heq =>
          obtain ⟨rfl, -⟩ := List.cons.inj heq
          exact absurd rfl hc
        · split
          · next heq =>
            obtain ⟨rfl, -⟩ := List.cons.inj heq
            exact absurd rfl hc
          · rfl

/-- A number is read up to what ends it. -/
theorem ahead_number_append {text rest : List Char} (hne : text ≠ [])
    (h : endsNumber rest.head? = true) :
    Pattern.number.ahead (text ++ rest) = Pattern.number.ahead text := by
  cases text with
  | nil => exact absurd rfl hne
  | cons c text =>
      by_cases hc : c = '-'
      · subst hc
        simp only [Pattern.number, List.cons_append, unsignedNumber_append text h]
      · have hahead : ∀ tail, Pattern.number.ahead (c :: tail) = unsignedNumber (c :: tail) := by
          intro tail
          simp only [Pattern.number]
          split
          · next heq =>
            obtain ⟨rfl, -⟩ := List.cons.inj heq
            exact absurd rfl hc
          · rfl
        rw [List.cons_append, hahead, hahead, ← List.cons_append, unsignedNumber_append _ h]

/-- Only digits, a point and a minus sign start a number. -/
theorem ahead_number_cons {c : Char} (rest : List Char) (hc : c.isDigit = false)
    (hpoint : c ≠ '.') (hminus : c ≠ '-') : Pattern.number.ahead (c :: rest) = [] := by
  have htake : (c :: rest).takeWhile Char.isDigit = [] :=
    List.takeWhile_cons_of_neg (by rw [hc]; exact Bool.false_ne_true)
  simp only [Pattern.number]
  split
  · next heq =>
    obtain ⟨rfl, -⟩ := List.cons.inj heq
    exact absurd rfl hminus
  · rw [unsignedNumber, htake]
    simp only [List.length_nil, List.drop_zero]
    split
    · next heq =>
      obtain ⟨rfl, -⟩ := List.cons.inj heq
      exact absurd rfl hpoint
    · rfl

/-! ## Shapes -/

/-- A text that the pattern of numbers takes in full. -/
def IsNumber (text : List Char) : Prop :=
  text ≠ [] ∧ Pattern.number.ahead text = text

/-- A letter or an underscore, then letters, digits and underscores. -/
def isIdentifier : List Char → Bool
  | [] => false
  | c :: text => Pattern.startsName c && text.all Pattern.continuesName

/-- A name that can stand between brackets: no token but a reference name
    starts like it. -/
structure IsReferenceName (text : List Char) : Prop where
  nonempty : text ≠ []
  no_bracket : ∀ c ∈ text, c ≠ '[' ∧ c ≠ ']'
  no_quote : text.head? ≠ some '"'
  no_operator : ∀ c, text.head? = some c → c ∉ operatorChars
  no_number : Pattern.number.ahead text = []

/-- No name starts with a digit. -/
theorem isDigit_eq_false_of_startsName {c : Char} (h : Pattern.startsName c = true) :
    c.isDigit = false := by
  refine Bool.eq_false_iff.mpr fun hdigit => ?_
  simp only [Char.isDigit, Bool.and_eq_true, decide_eq_true_eq] at hdigit
  have hnine : c.val.toNat ≤ 57 := hdigit.2
  rcases Bool.or_eq_true_iff.mp h with hletter | hunderscore
  · have hcase : (c.isUpper || c.isLower) = true := hletter
    rcases Bool.or_eq_true_iff.mp hcase with hupper | hlower
    · have hfirst : 65 ≤ c.val.toNat := (of_decide_eq_true hupper).1
      omega
    · have hfirst : 97 ≤ c.val.toNat := of_decide_eq_true (Bool.and_eq_true_iff.mp hlower).1
      omega
  · obtain rfl : c = '_' := beq_iff_eq.mp hunderscore
    exact absurd hnine (by decide)

/-- A character that may start a name is none that may not. -/
theorem ne_of_startsName {c d : Char} (h : Pattern.startsName c = true)
    (hd : Pattern.startsName d = false) : c ≠ d := by
  rintro rfl
  exact Bool.false_ne_true (hd.symm.trans h)

/-- A name is read up to the parenthesis behind it. -/
theorem ahead_identifier_append {name : List Char} (rest : List Char)
    (h : isIdentifier name = true) (hrest : rest.head? = some '(') :
    Pattern.identifier.ahead (name ++ rest) = name := by
  obtain ⟨tail, rfl⟩ := List.head?_eq_some_iff.mp hrest
  cases name with
  | nil => cases h
  | cons c name =>
      obtain ⟨hc, hname⟩ := Bool.and_eq_true_iff.mp h
      have hstop : ('(' :: tail).takeWhile Pattern.continuesName = [] :=
        List.takeWhile_cons_of_neg (by decide)
      simp only [Pattern.identifier, List.cons_append, if_pos hc]
      rw [List.takeWhile_append_of_pos (List.all_eq_true.mp hname), hstop, List.append_nil]

/-! ## Where a token stands -/

/-- With `m` in mind the token can stand in front of the character `next`,
    or at the end where there is none: it has the shape of its class, and
    nothing there prolongs it or makes it another token. -/
inductive Stands (m : Memory) (next : Option Char) (t : Token) : Prop where
  | startQuote (kind : t.kind = .startQuote) (text : t.text.toList = ['"'])
      (closed : m ≠ .text ∧ m ≠ .quote)
  | endQuote (kind : t.kind = .endQuote) (text : t.text.toList = ['"'])
      (opened : m = .text ∨ m = .quote)
  | string (kind : t.kind = .string) (text : t.text.toList ≠ [] ∧ '"' ∉ t.text.toList)
      (behind : m = .quote) (ends : next.all (· == '"') = true)
  | number (kind : t.kind = .number) (text : IsNumber t.text.toList) (outside : m ≠ .quote)
      (sign : t.text.toList.head? = some '-' → m = .operator)
      (ends : endsNumber next = true)
  | operator {c : Char} (kind : t.kind = .operator) (text : t.text.toList = [c])
      (mem : c ∈ operatorChars) (outside : m ≠ .quote) (sign : m ≠ .operator)
  | referenceName (kind : t.kind = .referenceName)
      (text : IsReferenceName t.text.toList) (behind : m = .bracket)
      (ends : next = some ']')
  | functionName (kind : t.kind = .functionName) (text : isIdentifier t.text.toList = true)
      (outside : m ≠ .quote ∧ m ≠ .bracket) (ends : next = some '(')
  | bracket {c : Char} (kind : t.kind = .bracket) (text : t.text.toList = [c])
      (mem : c ∈ bracketChars) (outside : m ≠ .quote ∧ m ≠ .bracket)
  | comma (kind : t.kind = .comma) (text : t.text.toList = [','])
      (outside : m ≠ .quote ∧ m ≠ .bracket)
  | whitespace (kind : t.kind = .whitespace)
      (text : t.text.toList ≠ [] ∧ ∀ c ∈ t.text.toList, c = ' ')
      (outside : m ≠ .quote ∧ m ≠ .bracket) (ends : next ≠ some ' ')

namespace Stands

variable {m : Memory} {t : Token} {rest : List Char}

/-- What a token that stands has by its class. -/
theorem shape {next : Option Char} (h : Stands m next t) :
    match t.kind with
    | .startQuote => t.text.toList = ['"'] ∧ m ≠ .text ∧ m ≠ .quote
    | .endQuote => t.text.toList = ['"'] ∧ (m = .text ∨ m = .quote)
    | .string => t.text.toList ≠ [] ∧ '"' ∉ t.text.toList ∧ m = .quote ∧
        next.all (· == '"') = true
    | .number => IsNumber t.text.toList ∧ m ≠ .quote ∧
        (t.text.toList.head? = some '-' → m = .operator) ∧ endsNumber next = true
    | .operator => (∃ c ∈ operatorChars, t.text.toList = [c]) ∧ m ≠ .quote ∧ m ≠ .operator
    | .referenceName => IsReferenceName t.text.toList ∧ m = .bracket ∧ next = some ']'
    | .functionName => isIdentifier t.text.toList = true ∧ m ≠ .quote ∧ m ≠ .bracket ∧
        next = some '('
    | .bracket => (∃ c ∈ bracketChars, t.text.toList = [c]) ∧ m ≠ .quote ∧ m ≠ .bracket
    | .comma => t.text.toList = [','] ∧ m ≠ .quote ∧ m ≠ .bracket
    | .whitespace => t.text.toList ≠ [] ∧ (∀ c ∈ t.text.toList, c = ' ') ∧ m ≠ .quote ∧
        m ≠ .bracket ∧ next ≠ some ' '
    | .unfinishedFormula => False
    | .error => False := by
  cases h with
  | startQuote kind text closed => rw [kind]; exact ⟨text, closed⟩
  | endQuote kind text opened => rw [kind]; exact ⟨text, opened⟩
  | string kind text behind ends => rw [kind]; exact ⟨text.1, text.2, behind, ends⟩
  | number kind text outside sign ends => rw [kind]; exact ⟨text, outside, sign, ends⟩
  | operator kind text mem outside sign => rw [kind]; exact ⟨⟨_, mem, text⟩, outside, sign⟩
  | referenceName kind text behind ends => rw [kind]; exact ⟨text, behind, ends⟩
  | functionName kind text outside ends =>
      rw [kind]
      exact ⟨text, outside.1, outside.2, ends⟩
  | bracket kind text mem outside => rw [kind]; exact ⟨⟨_, mem, text⟩, outside⟩
  | comma kind text outside => rw [kind]; exact ⟨text, outside⟩
  | whitespace kind text outside ends =>
      rw [kind]
      exact ⟨text.1, text.2, outside.1, outside.2, ends⟩

/-- To be read is to be classified wherever the text is ahead. -/
theorem next_of_classify {c : Char} {text : List Char} (htext : t.text.toList = c :: text)
    (h : ∀ (cursor : Cursor) (history : History), cursor.rest = c :: (text ++ rest) →
      cursor.peek? = some c → history.memory = m →
      classify cursor history = (t.kind, (c :: text).length)) : Next m t rest := by
  constructor
  · intro hempty
    rw [String.toList_eq_nil_iff.mpr hempty] at htext
    cases htext
  · intro cursor history hrest hmemory
    rw [htext, List.cons_append] at hrest
    rw [← String.length_toList, htext]
    exact h cursor history hrest (by rw [Cursor.peek?, hrest]; rfl) hmemory

/-- A character that is no quote and not right behind one stands outside
    texts. -/
theorem outsideText {cursor : Cursor} {history : History} {c : Char}
    (hpeek : cursor.peek? = some c) (hc : c ≠ '"') (hm : history.memory ≠ .quote) :
    OutsideText cursor history c :=
  ⟨hpeek, hc, mt History.latestKind?_startQuote.mp hm⟩

/-- A pattern that takes nothing does not match. -/
theorem match?_eq_none {cursor : Cursor} {p : Pattern} (h : p.ahead cursor.rest = []) :
    cursor.match? p = none := by
  rw [Cursor.match?, h]

/-- A character that starts neither a number, an operator nor a name. -/
structure Separates (c : Char) : Prop where
  quote : c ≠ '"'
  digit : c.isDigit = false
  point : c ≠ '.'
  operator : c ∉ operatorChars
  name : Pattern.startsName c = false

/-- A separator starts neither a number nor an operator. -/
theorem Separates.outsideChain {cursor : Cursor} {history : History} {c : Char}
    {text : List Char} (hc : Separates c) (hrest : cursor.rest = c :: text)
    (hm : history.memory ≠ .quote) : OutsideChain cursor history c := by
  have hpeek : cursor.peek? = some c := by rw [Cursor.peek?, hrest]; rfl
  refine ⟨outsideText hpeek hc.quote hm, match?_eq_none ?_, hc.operator⟩
  rw [hrest]
  refine ahead_number_cons _ hc.digit hc.point ?_
  rintro rfl
  exact hc.operator (by decide)

/-- A separator starts no name. -/
theorem Separates.no_identifier {cursor : Cursor} {c : Char} {text : List Char}
    (hc : Separates c) (hrest : cursor.rest = c :: text) :
    cursor.match? .identifier = none := by
  refine match?_eq_none ?_
  rw [hrest]
  exact if_neg (by rw [hc.name]; exact Bool.false_ne_true)

theorem separates_bracket {c : Char} (h : c ∈ bracketChars) : Separates c := by
  have hcases : c = '(' ∨ c = ')' ∨ c = '[' ∨ c = ']' := by
    simpa [bracketChars] using h
  rcases hcases with rfl | rfl | rfl | rfl <;>
    exact ⟨by decide, by decide, by decide, by decide, by decide⟩

/-- Quotes toggle between the start and the end of a text. -/
theorem next_startQuote (kind : t.kind = .startQuote) (text : t.text.toList = ['"'])
    (closed : m ≠ .text ∧ m ≠ .quote) : Next m t rest := by
  refine next_of_classify text fun cursor history _ hpeek hm => ?_
  rw [classify_quote hpeek, hm, if_neg (not_or.mpr closed), kind]
  rfl

/-- An end quote comes next behind a text or a start quote. -/
theorem next_endQuote (kind : t.kind = .endQuote) (text : t.text.toList = ['"'])
    (opened : m = .text ∨ m = .quote) : Next m t rest := by
  refine next_of_classify text fun cursor history _ hpeek hm => ?_
  rw [classify_quote hpeek, hm, if_pos opened, kind]
  rfl

/-- A text comes next behind a start quote, up to the next quote. -/
theorem next_string (kind : t.kind = .string)
    (text : t.text.toList ≠ [] ∧ '"' ∉ t.text.toList) (behind : m = .quote)
    (ends : rest.head?.all (· == '"') = true) : Next m t rest := by
  obtain ⟨hne, hquote⟩ := text
  obtain ⟨c, text, htext⟩ := List.exists_cons_of_ne_nil hne
  rw [htext] at hquote
  refine next_of_classify htext fun cursor history hrest hpeek hm => ?_
  have hc : c ≠ '"' := fun h => hquote (h ▸ List.mem_cons_self)
  have hstop : rest.takeWhile (· != '"') = [] := by
    cases rest with
    | nil => rfl
    | cons d rest => exact List.takeWhile_cons_of_neg (by simpa using ends)
  have hall : ∀ d ∈ c :: text, (d != '"') = true := by
    intro d hd
    exact bne_iff_ne.mpr fun h => hquote (h ▸ hd)
  have hahead : Pattern.quotedText.ahead cursor.rest = c :: text := by
    rw [hrest, ← List.cons_append]
    show List.takeWhile (· != '"') (c :: text ++ rest) = _
    rw [List.takeWhile_append_of_pos hall, hstop, List.append_nil]
  rw [classify_string hpeek hc (hm.trans behind), hahead, kind]

/-- A number comes next up to a character that ends it, with a minus sign only
    behind an operator. -/
theorem next_number (kind : t.kind = .number) (text : IsNumber t.text.toList)
    (outside : m ≠ .quote) (sign : t.text.toList.head? = some '-' → m = .operator)
    (ends : endsNumber rest.head? = true) : Next m t rest := by
  obtain ⟨hne, hahead⟩ := text
  obtain ⟨c, text, htext⟩ := List.exists_cons_of_ne_nil hne
  rw [htext] at hahead sign
  refine next_of_classify htext fun cursor history hrest hpeek hm => ?_
  have hmatch : cursor.match? .number = some (c :: text) := by
    refine Cursor.match?_eq_some.mpr ⟨?_, List.cons_ne_nil c text⟩
    rw [hrest, ← List.cons_append, ahead_number_append (List.cons_ne_nil c text) ends]
    exact hahead
  have hquote : c ≠ '"' := by
    rintro rfl
    rw [ahead_number_cons text (by decide) (by decide) (by decide)] at hahead
    cases hahead
  have hsign : ¬ (c = '-' ∧ history.memory ≠ .operator) := by
    rintro ⟨rfl, hoperator⟩
    exact hoperator (hm.trans (sign rfl))
  rw [classify_number (outsideText hpeek hquote (hm ▸ outside)) hmatch, if_neg hsign, kind]

/-- A minus sign in front of a number is an operator all the same, for no
    operator is right behind it. -/
theorem next_operator {c : Char} (kind : t.kind = .operator) (text : t.text.toList = [c])
    (mem : c ∈ operatorChars) (outside : m ≠ .quote) (sign : m ≠ .operator) :
    Next m t rest := by
  refine next_of_classify text fun cursor history hrest hpeek hm => ?_
  have hquote : c ≠ '"' := by
    rintro rfl
    exact absurd mem (by decide)
  have htext := outsideText hpeek hquote (hm ▸ outside)
  rw [kind]
  cases hmatch : cursor.match? .number with
  | none => exact classify_operator htext hmatch mem
  | some number =>
      -- of the operators only a minus sign starts a number
      have hminus : c = '-' := by
        refine Classical.byContradiction fun hminus => ?_
        obtain ⟨hahead, hne⟩ := Cursor.match?_eq_some.mp hmatch
        have hcases : c = '&' ∨ c = '*' ∨ c = '-' ∨ c = '+' ∨ c = '=' ∨ c = '/' := by
          simpa [operatorChars] using mem
        rw [hrest, ahead_number_cons _ ?_ ?_ hminus] at hahead
        · exact hne hahead.symm
        · rcases hcases with rfl | rfl | rfl | rfl | rfl | rfl <;> decide
        · rcases hcases with rfl | rfl | rfl | rfl | rfl | rfl <;> decide
      rw [classify_number htext hmatch, if_pos ⟨hminus, hm ▸ sign⟩]
      rfl

/-- A reference name comes next between brackets. -/
theorem next_referenceName (kind : t.kind = .referenceName)
    (text : IsReferenceName t.text.toList) (behind : m = .bracket)
    (ends : rest.head? = some ']') : Next m t rest := by
  obtain ⟨c, name, htext⟩ := List.exists_cons_of_ne_nil text.nonempty
  rw [htext] at text
  obtain ⟨tail, rfl⟩ := List.head?_eq_some_iff.mp ends
  refine next_of_classify htext fun cursor history hrest hpeek hm => ?_
  have hchain : OutsideChain cursor history c := by
    refine ⟨outsideText hpeek ?_ ?_, match?_eq_none ?_, text.no_operator c rfl⟩
    · rintro rfl
      exact text.no_quote rfl
    · rw [hm, behind]
      decide
    · rw [hrest, ← List.cons_append, ahead_number_append (List.cons_ne_nil c name) rfl]
      exact text.no_number
  have hname : referenceAhead? cursor = some (c :: name) :=
    referenceAhead?_eq_some_iff.mpr ⟨List.cons_ne_nil c name, text.no_bracket, tail, hrest⟩
  rw [classify_referenceName hchain (hm.trans behind) hname, kind]

/-- The name of a function comes next in front of its parenthesis. -/
theorem next_functionName (kind : t.kind = .functionName)
    (text : isIdentifier t.text.toList = true) (outside : m ≠ .quote ∧ m ≠ .bracket)
    (ends : rest.head? = some '(') : Next m t rest := by
  have hne : t.text.toList ≠ [] := by
    intro hnil
    rw [hnil] at text
    cases text
  obtain ⟨c, name, htext⟩ := List.exists_cons_of_ne_nil hne
  rw [htext] at text
  have hc : Pattern.startsName c = true := (Bool.and_eq_true_iff.mp text).1
  refine next_of_classify htext fun cursor history hrest hpeek hm => ?_
  -- the first character of a name starts neither a number nor an operator
  have hchain : OutsideChain cursor history c := by
    refine ⟨outsideText hpeek (ne_of_startsName hc (by decide)) (hm ▸ outside.1),
      match?_eq_none ?_, ?_⟩
    · rw [hrest]
      exact ahead_number_cons _ (isDigit_eq_false_of_startsName hc)
        (ne_of_startsName hc (by decide)) (ne_of_startsName hc (by decide))
    · intro hmem
      have hnone : operatorChars.all (fun d => !Pattern.startsName d) = true := by decide
      have hfalse := List.all_eq_true.mp hnone c hmem
      rw [hc] at hfalse
      cases hfalse
  have hmatch : cursor.match? .identifier = some (c :: name) := by
    refine Cursor.match?_eq_some.mpr ⟨?_, List.cons_ne_nil c name⟩
    rw [hrest, ← List.cons_append]
    exact ahead_identifier_append rest text ends
  have hparen : (cursor.advance (c :: name).length).peek? = some '(' := by
    rw [Cursor.peek?, Cursor.rest_advance, hrest, ← List.cons_append, List.drop_left]
    exact ends
  rw [classify_functionName hchain (hm ▸ outside.2) hmatch hparen, kind]

/-- A bracket comes next where neither a quote nor a bracket is in mind. -/
theorem next_bracket {c : Char} (kind : t.kind = .bracket) (text : t.text.toList = [c])
    (mem : c ∈ bracketChars) (outside : m ≠ .quote ∧ m ≠ .bracket) : Next m t rest := by
  have hc := separates_bracket mem
  refine next_of_classify text fun cursor history hrest _ hm => ?_
  rw [classify_outside (hc.outsideChain hrest (hm ▸ outside.1)) (hm ▸ outside.2)
    (hc.no_identifier hrest), if_pos mem, kind]
  rfl

theorem next_comma (kind : t.kind = .comma) (text : t.text.toList = [','])
    (outside : m ≠ .quote ∧ m ≠ .bracket) : Next m t rest := by
  have hc : Separates ',' := ⟨by decide, by decide, by decide, by decide, by decide⟩
  refine next_of_classify text fun cursor history hrest _ hm => ?_
  rw [classify_outside (hc.outsideChain hrest (hm ▸ outside.1)) (hm ▸ outside.2)
    (hc.no_identifier hrest), if_neg (by decide), if_pos rfl, kind]
  rfl

/-- Spaces come next up to the last of the run. -/
theorem next_whitespace (kind : t.kind = .whitespace)
    (text : t.text.toList ≠ [] ∧ ∀ c ∈ t.text.toList, c = ' ')
    (outside : m ≠ .quote ∧ m ≠ .bracket) (ends : rest.head? ≠ some ' ') :
    Next m t rest := by
  obtain ⟨hne, hblank⟩ := text
  obtain ⟨c, spaces, htext⟩ := List.exists_cons_of_ne_nil hne
  rw [htext] at hblank
  obtain rfl := hblank c List.mem_cons_self
  have hc : Separates ' ' := ⟨by decide, by decide, by decide, by decide, by decide⟩
  refine next_of_classify htext fun cursor history hrest _ hm => ?_
  have hmatch : cursor.match? .spaces = some (' ' :: spaces) := by
    refine Cursor.match?_eq_some.mpr ⟨?_, List.cons_ne_nil _ spaces⟩
    have hstop : rest.takeWhile (· == ' ') = [] := by
      cases rest with
      | nil => rfl
      | cons d rest => exact List.takeWhile_cons_of_neg (by simpa using ends)
    rw [hrest, ← List.cons_append]
    show List.takeWhile (· == ' ') (' ' :: spaces ++ rest) = _
    rw [List.takeWhile_append_of_pos (by simpa using hblank), hstop, List.append_nil]
  rw [classify_outside (hc.outsideChain hrest (hm ▸ outside.1)) (hm ▸ outside.2)
    (hc.no_identifier hrest), if_neg (by decide), if_neg (by decide), hmatch, kind]
  rfl

/-- **STANDING TOKENS ARE READ**: the lexer takes the token off the front of
    a text where it stands in front of the next character. -/
theorem next (h : Stands m rest.head? t) : Next m t rest := by
  cases h with
  | startQuote kind text closed => exact next_startQuote kind text closed
  | endQuote kind text opened => exact next_endQuote kind text opened
  | string kind text behind ends => exact next_string kind text behind ends
  | number kind text outside sign ends => exact next_number kind text outside sign ends
  | operator kind text mem outside sign => exact next_operator kind text mem outside sign
  | referenceName kind text behind ends => exact next_referenceName kind text behind ends
  | functionName kind text outside ends => exact next_functionName kind text outside ends
  | bracket kind text mem outside => exact next_bracket kind text mem outside
  | comma kind text outside => exact next_comma kind text outside
  | whitespace kind text outside ends => exact next_whitespace kind text outside ends

end Stands

end FormulaBar
