import FormulaBar.Proofs.Preference

/-! # Taking — what a token takes off the text

    Wherever a cursor stands, and whatever tokens are said to be behind it,
    the classifier takes a token that fits its class.  Each class of more
    than one character is a set of texts, and its tokens are the longest of
    them: no more of the text ahead is in the set.  For a run of characters
    and for a name that is how they are taken.  For a number it has to be
    said, for there are shorter ones at the same place, and the one that its
    expression finds first could be one of them.

    The classifier names a class and a number of characters.  The same rules
    are carried out on the cursor by its own moves, where each expression is
    searched for and takes what it finds first, and where the character
    behind a reference name is looked up by bytes. -/

namespace FormulaBar

open String.Pos.Raw (IsValid)

/-! ## The longest text of a class -/

/-- Of the texts in `P` at the front of `taken ++ behind`, `taken` is the
    longest. -/
structure Longest (P : List Char → Prop) (taken behind : List Char) : Prop where
  holds : P taken
  longest : ∀ front, front <+: taken ++ behind → P front → front <+: taken

/-- One or more characters that satisfy `P`. -/
def IsRun (P : Char → Prop) (text : List Char) : Prop :=
  text ≠ [] ∧ ∀ c ∈ text, P c

namespace Pattern

/-- The pattern takes the longest text in `P` off the front of any text. -/
structure TakesLongest (p : Pattern) (P : List Char → Prop) : Prop where
  holds : ∀ {text}, p.ahead text ≠ [] → P (p.ahead text)
  longest : ∀ {front text}, front <+: text → P front → front <+: p.ahead text

/-- A run takes the longest of the texts that its test describes. -/
theorem takesLongest_run {p : Char → Bool} {P : Char → Prop} (hp : ∀ c, p c = true ↔ P c) :
    (run p).TakesLongest (IsRun P) where
  holds := fun hne => ⟨hne, fun c hc => (hp c).mp (List.mem_takeWhile_imp hc)⟩
  longest := fun hfront h => isPrefix_takeWhile (fun c hc => (hp c).mpr (h.2 c hc)) hfront

/-- The inside of a text is the longest text without quotes. -/
theorem takesLongest_quotedText : quotedText.TakesLongest (IsRun (· ≠ '"')) :=
  takesLongest_run fun _ => bne_iff_ne

theorem takesLongest_referenceName :
    referenceName.TakesLongest (IsRun fun c => c ≠ '[' ∧ c ≠ ']') :=
  takesLongest_run fun _ => by rw [Bool.and_eq_true, bne_iff_ne, bne_iff_ne]

theorem takesLongest_spaces : spaces.TakesLongest (IsRun (· = ' ')) :=
  takesLongest_run fun _ => beq_iff_eq

/-- A number is the longest text that its expression matches. -/
theorem takesLongest_number : number.TakesLongest Regex.number.Matches where
  holds := Regex.prefers_number.matches_ahead
  longest := fun hfront h => isPrefix_ahead_number (Regex.matches_number_iff.mp h) hfront

/-- A name is the longest text of a letter or an underscore and what may
    follow. -/
theorem takesLongest_identifier : identifier.TakesLongest (isIdentifier · = true) where
  holds := isIdentifier_ahead
  longest := by
    intro front text hfront h
    obtain ⟨tail, rfl⟩ := hfront
    cases front with
    | nil => exact List.nil_prefix
    | cons c front =>
        obtain ⟨hc, hall⟩ := Bool.and_eq_true_iff.mp h
        simp only [identifier, List.cons_append, if_pos hc]
        exact List.cons_prefix_cons.mpr
          ⟨rfl, isPrefix_takeWhile (List.all_eq_true.mp hall) (List.prefix_append front tail)⟩

namespace TakesLongest

variable {p : Pattern} {P : List Char → Prop}

/-- What the pattern takes off a text is the longest of its front. -/
theorem longest_ahead (h : p.TakesLongest P) {text : List Char} (hne : p.ahead text ≠ []) :
    Longest P (text.take (p.ahead text).length) (text.drop (p.ahead text).length) := by
  have hprefix := p.ahead_isPrefix text
  rw [← List.prefix_iff_eq_take.mp hprefix]
  refine ⟨h.holds hne, fun front hfront hP => h.longest ?_ hP⟩
  rwa [List.prefix_iff_eq_append.mp hprefix] at hfront

/-- What the pattern matches at a cursor is the longest of the text ahead. -/
theorem longest_of_match? (h : p.TakesLongest P) {cursor : Cursor} {taken : List Char}
    (hmatch : cursor.match? p = some taken) :
    Longest P (cursor.rest.take taken.length) (cursor.rest.drop taken.length) := by
  obtain ⟨rfl, hne⟩ := Cursor.match?_eq_some.mp hmatch
  exact h.longest_ahead hne

/-- **FIRST IS LONGEST**: where the pattern is the one that an expression
    prefers, the first of its matches is the longest. -/
theorem longest_of_first? {r : Regex} (h : p.TakesLongest r.Matches) (hr : r.Prefers p)
    {text behind : List Char} (hfirst : r.first? text = some behind) :
    ∃ taken, text = taken ++ behind ∧ Longest r.Matches taken behind := by
  rw [hr] at hfirst
  split at hfirst
  · cases hfirst
  · next hne =>
    obtain rfl := Option.some.inj hfirst
    exact ⟨_, (List.take_append_drop _ text).symm, h.longest_ahead hne⟩

end TakesLongest

end Pattern

/-! ## Tokens of a class -/

/-- A character that no token but an error starts with. -/
structure IsUnknown (c : Char) : Prop where
  not_quote : c ≠ '"'
  not_operator : c ∉ ['&', '*', '-', '+', '=', '/']
  not_bracket : c ∉ ['(', ')', '[', ']']
  not_comma : c ≠ ','
  not_space : c ≠ ' '
  not_digit : c.isDigit = false
  not_letter : c.isAlpha = false
  not_underscore : c ≠ '_'

/-- What a token of the class takes off the front of `taken ++ behind`. -/
def Token.Kind.Takes (taken behind : List Char) : Token.Kind → Prop
  | .whitespace => Longest (IsRun (· = ' ')) taken behind
  | .number => Longest Regex.number.Matches taken behind
  | .operator => ∃ c ∈ ['&', '*', '-', '+', '=', '/'], taken = [c]
  | .startQuote => taken = ['"']
  | .endQuote => taken = ['"']
  | .string => Longest (IsRun (· ≠ '"')) taken behind
  | .bracket => ∃ c ∈ ['(', ')', '[', ']'], taken = [c]
  | .comma => taken = [',']
  | .functionName =>
      Longest (isIdentifier · = true) taken behind ∧ behind.head? = some '('
  | .referenceName =>
      Longest (IsRun fun c => c ≠ '[' ∧ c ≠ ']') taken behind ∧ behind.head? = some ']'
  | .unfinishedFormula =>
      Longest (isIdentifier · = true) taken behind ∧ behind.head? ≠ some '('
  | .error => ∃ c, taken = [c] ∧ IsUnknown c

section

variable {cursor : Cursor} {history : History} {k : Token.Kind} {n : Nat} {c : Char}

/-- Where no rule but the last applies the character is unknown. -/
theorem OutsideNames.isUnknown (h : OutsideNames cursor history c) (hbracket : c ∉ bracketChars)
    (hcomma : c ≠ ',') (hspaces : cursor.match? .spaces = none) : IsUnknown c := by
  -- a digit, or the first character of a name, would be a match by itself
  have hfront : [c] <+: cursor.rest := by
    rw [← take_of_peek? h.peek]
    exact List.take_prefix 1 cursor.rest
  have hname : Pattern.startsName c = false := by
    refine Bool.eq_false_iff.mpr fun hstarts => ?_
    refine Regex.prefers_identifier.not_matches_of_match? h.no_identifier hfront ?_
    exact .seq (.one hstarts) (.many (List.forall_mem_nil _))
  have hdigit : c.isDigit = false := by
    refine Bool.eq_false_iff.mpr fun hdigit => ?_
    refine Regex.prefers_number.not_matches_of_match? h.no_number hfront ?_
    exact .seq .absent (.seq (.many (List.forall_mem_nil _))
      (.seq .absent (.seq (.one hdigit) (.many (List.forall_mem_nil _)))))
  obtain ⟨hletter, hunderscore⟩ := Bool.or_eq_false_iff.mp hname
  refine ⟨h.not_quote, h.no_operator, hbracket, hcomma, ?_, hdigit, hletter,
    beq_eq_false_iff_ne.mp hunderscore⟩
  rintro rfl
  exact match?_spaces_eq_none_iff.mp hspaces h.peek

/-- **RULES TAKE TOKENS OF THEIR CLASS**, with nothing known of the tokens
    behind the cursor. -/
theorem Rule.takes (h : Rule cursor history k n) (hrest : cursor.rest ≠ []) :
    k.Takes (cursor.rest.take n) (cursor.rest.drop n) := by
  have hbehind : ∀ m, (cursor.advance m).peek? = (cursor.rest.drop m).head? := by
    intro m
    rw [Cursor.peek?, Cursor.rest_advance]
  cases h with
  | atEnd hend => exact absurd (List.head?_eq_none_iff.mp hend) hrest
  | endQuote hc _ => exact take_of_peek? hc
  | startQuote hc _ => exact take_of_peek? hc
  | string hc hquote _ =>
      obtain ⟨tail, htail⟩ := List.head?_eq_some_iff.mp hc
      have hquoted : Pattern.quotedText.ahead cursor.rest ≠ [] := by
        rw [htail]
        show List.takeWhile (· != '"') _ ≠ []
        rw [List.takeWhile_cons, if_pos (bne_iff_ne.mpr hquote)]
        exact List.cons_ne_nil _ _
      exact Pattern.takesLongest_quotedText.longest_ahead hquoted
  | @number _ text _ hmatch _ =>
      -- what the expression finds first is the longest, and is what is taken
      have hfirst := Regex.prefers_number.first?_of_match? hmatch
      obtain ⟨taken, htext, hlongest⟩ :=
        Pattern.takesLongest_number.longest_of_first? Regex.prefers_number hfirst
      have hsplit := List.take_append_drop text.length cursor.rest
      obtain rfl := List.append_cancel_right (hsplit.trans htext)
      exact hlongest
  | minus hc _ _ => exact ⟨'-', by decide, take_of_peek? hc.peek⟩
  | operator hc _ hmem => exact ⟨_, hmem, take_of_peek? hc.peek⟩
  | referenceName _ _ hname =>
      obtain ⟨hmatch, hcloser⟩ := Option.filter_eq_some_iff.mp hname
      refine ⟨Pattern.takesLongest_referenceName.longest_of_match? hmatch, ?_⟩
      rw [← hbehind]
      exact beq_iff_eq.mp hcloser
  | functionName _ hmatch hparen =>
      exact ⟨Pattern.takesLongest_identifier.longest_of_match? hmatch, hbehind _ ▸ hparen⟩
  | unfinishedFormula _ hmatch hparen =>
      exact ⟨Pattern.takesLongest_identifier.longest_of_match? hmatch, hbehind _ ▸ hparen⟩
  | bracket hc hmem => exact ⟨_, hmem, take_of_peek? hc.peek⟩
  | comma hc => exact take_of_peek? hc.peek
  | whitespace _ _ _ hmatch => exact Pattern.takesLongest_spaces.longest_of_match? hmatch
  | error hc hbracket hcomma hspaces =>
      exact ⟨_, take_of_peek? hc.peek, hc.isUnknown hbracket hcomma hspaces⟩

end

/-! ## Rules by moves of the cursor -/

/-- Whether the byte behind a run without square brackets is a closing one. -/
def closesReference (cursor : Cursor) : Bool :=
  (cursor.match? Regex.referenceName.pattern).any fun name =>
    cursor.peekAt? (byteLength name) == some ']'

/-- The last rules, where no name is: those of brackets, commas and spaces. -/
def scanSymbol (cursor : Cursor) (c : Char) : Token.Kind × Cursor :=
  if c ∈ bracketChars then (.bracket, cursor.advance 1)
  else if c = ',' then (.comma, cursor.advance 1)
  else if (cursor.match? Regex.spaces.pattern).isSome then
    (.whitespace, cursor.skip Regex.spaces.pattern)
  else (.error, cursor.advance 1)

/-- The rules of names, where neither a number nor an operator is. -/
def scanName (cursor : Cursor) (history : History) (c : Char) : Token.Kind × Cursor :=
  if history.previous?.any (·.isBracket '[') ∧ closesReference cursor then
    (.referenceName, cursor.skip Regex.referenceName.pattern)
  else if (cursor.match? Regex.identifier.pattern).isSome then
    let behind := cursor.skip Regex.identifier.pattern
    (if behind.peek? = some '(' then .functionName else .unfinishedFormula, behind)
  else scanSymbol cursor c

/-- The rules carried out on the cursor: the class of the token, and the
    cursor moved past it. -/
def scanToken (cursor : Cursor) (history : History) : Token.Kind × Cursor :=
  match cursor.peek? with
  | none => (.error, cursor)
  | some c =>
    let kind := history.latestKind?
    if c = '"' then
      (if kind = some .string ∨ kind = some .startQuote then .endQuote else .startQuote,
        cursor.advance 1)
    else if kind = some .startQuote then (.string, cursor.skip Regex.quotedText.pattern)
    else if (cursor.match? Regex.number.pattern).isSome then
      if c = '-' ∧ kind ≠ some .operator then (.operator, cursor.advance 1)
      else (.number, cursor.skip Regex.number.pattern)
    else if c ∈ operatorChars then (.operator, cursor.advance 1)
    else scanName cursor history c

section

variable {cursor : Cursor} {history : History} {k : Token.Kind} {n : Nat}

/-- Skipping a pattern moves the cursor by what it matches. -/
theorem Cursor.skip_of_match? {p : Pattern} {text : List Char} (h : cursor.match? p = some text) :
    cursor.skip p = cursor.advance text.length := by
  rw [skip, (match?_eq_some.mp h).1]

/-- The character behind a text at the cursor is found by its bytes. -/
theorem Cursor.peekAt?_of_match? {p : Pattern} {text : List Char}
    (h : cursor.match? p = some text) :
    cursor.peekAt? (byteLength text) = (cursor.advance text.length).peek? := by
  obtain ⟨rfl, -⟩ := match?_eq_some.mp h
  have hsplit := List.prefix_iff_eq_append.mp (p.ahead_isPrefix cursor.rest)
  have hdrop := dropBytes?_append (p.ahead cursor.rest)
    (cursor.rest.drop (p.ahead cursor.rest).length)
  rw [hsplit] at hdrop
  rw [peekAt?, hdrop, peek?, rest_advance]
  rfl

/-- The byte behind the run is the closing bracket exactly where a reference
    name is ahead. -/
theorem closesReference_iff : closesReference cursor = true ↔
    ∃ name, referenceAhead? cursor = some name := by
  rw [closesReference, Regex.pattern_referenceName, Option.any_eq_true]
  refine exists_congr fun name => ?_
  rw [referenceAhead?, Option.filter_eq_some_iff]
  refine and_congr_right fun hmatch => ?_
  rw [Cursor.peekAt?_of_match? hmatch]

theorem isSome_of_match? {p : Pattern} {text : List Char} (h : cursor.match? p = some text) :
    (cursor.match? p).isSome = true := by
  rw [h]
  rfl

theorem not_isSome_of_match? {p : Pattern} (h : cursor.match? p = none) :
    ¬ (cursor.match? p).isSome = true := by
  rw [h]
  exact Bool.false_ne_true

/-- Outside of texts the rules are those of numbers, operators and names, in
    this order. -/
theorem scanToken_outsideText {c : Char} (h : OutsideText cursor history c) :
    scanToken cursor history =
      if (cursor.match? .number).isSome then
        if c = '-' ∧ history.latestKind? ≠ some .operator then (.operator, cursor.advance 1)
        else (.number, cursor.skip .number)
      else if c ∈ operatorChars then (.operator, cursor.advance 1)
      else scanName cursor history c := by
  rw [scanToken, h.peek, Regex.pattern_number]
  exact (if_neg h.not_quote).trans (if_neg h.not_behind)

/-- Where neither a number nor an operator is, the rules are those of names.
    -/
theorem scanToken_outsideChain {c : Char} (h : OutsideChain cursor history c) :
    scanToken cursor history = scanName cursor history c := by
  rw [scanToken_outsideText h.toOutsideText, if_neg (not_isSome_of_match? h.no_number),
    if_neg h.no_operator]

/-- Where no reference name is ahead, an identifier or a symbol is. -/
theorem scanName_of_no_reference (c : Char)
    (h : history.previous?.any (·.isBracket '[') = true → referenceAhead? cursor = none) :
    scanName cursor history c =
      if (cursor.match? .identifier).isSome then
        (if (cursor.skip .identifier).peek? = some '(' then .functionName
          else .unfinishedFormula, cursor.skip .identifier)
      else scanSymbol cursor c := by
  rw [scanName, Regex.pattern_identifier]
  refine if_neg ?_
  rintro ⟨hopener, hcloses⟩
  obtain ⟨name, hname⟩ := closesReference_iff.mp hcloses
  cases (h hopener).symm.trans hname

/-- Where no name is, the rules are those of symbols. -/
theorem scanToken_outsideNames {c : Char} (h : OutsideNames cursor history c) :
    scanToken cursor history = scanSymbol cursor c := by
  rw [scanToken_outsideChain h.toOutsideChain, scanName_of_no_reference c h.no_reference,
    if_neg (not_isSome_of_match? h.no_identifier)]

/-- A name is the one of a function in front of a parenthesis, and unfinished
    elsewhere. -/
theorem scanToken_of_name {c : Char} {name : List Char} (h : OutsideChain cursor history c)
    (hreference : history.previous?.any (·.isBracket '[') = true → referenceAhead? cursor = none)
    (hmatch : cursor.match? .identifier = some name) :
    scanToken cursor history =
      (if (cursor.advance name.length).peek? = some '(' then .functionName
        else .unfinishedFormula, cursor.advance name.length) := by
  rw [scanToken_outsideChain h, scanName_of_no_reference c hreference,
    if_pos (isSome_of_match? hmatch), Cursor.skip_of_match? hmatch]

/-- **RULES BY MOVES**: carried out on the cursor, the rules move it past the
    characters that the classifier names. -/
theorem scanToken_eq (cursor : Cursor) (history : History) :
    scanToken cursor history =
      ((classify cursor history).1, cursor.advance (classify cursor history).2) := by
  -- each rule holds what the tests above its branch ask
  have hrule := rule_of_classify cursor history
  cases hclassify : classify cursor history with
  | mk k n =>
  rw [hclassify] at hrule
  cases hrule with
  | atEnd hend => rw [scanToken, hend]; rfl
  | endQuote hc hopen =>
      rw [scanToken, hc]
      exact (if_pos rfl).trans (congrArg (·, cursor.advance 1) (if_pos hopen))
  | startQuote hc hclosed =>
      rw [scanToken, hc]
      exact (if_pos rfl).trans (congrArg (·, cursor.advance 1) (if_neg hclosed))
  | string hc hquote hbehind =>
      rw [scanToken, hc, Regex.pattern_quotedText]
      exact (if_neg hquote).trans (if_pos hbehind)
  | number hc hmatch hminus =>
      rw [scanToken_outsideText hc, if_pos (isSome_of_match? hmatch),
        Cursor.skip_of_match? hmatch]
      exact if_neg fun hsign => hsign.2 (hminus hsign.1)
  | minus hc hmatch hminus =>
      rw [scanToken_outsideText hc, if_pos (isSome_of_match? hmatch)]
      exact if_pos ⟨rfl, hminus⟩
  | operator hc hmatch hmem =>
      rw [scanToken_outsideText hc, if_neg (not_isSome_of_match? hmatch)]
      exact if_pos hmem
  | referenceName hc hopener hreference =>
      obtain ⟨hmatch, -⟩ := Option.filter_eq_some_iff.mp hreference
      rw [scanToken_outsideChain hc, scanName, Regex.pattern_referenceName,
        Cursor.skip_of_match? hmatch]
      exact if_pos ⟨hopener, closesReference_iff.mpr ⟨_, hreference⟩⟩
  | functionName hc hmatch hparen =>
      rw [scanToken_of_name hc (no_reference_of_name hclassify (Or.inl rfl)) hmatch, if_pos hparen]
  | unfinishedFormula hc hmatch hparen =>
      rw [scanToken_of_name hc (no_reference_of_name hclassify (Or.inr rfl)) hmatch, if_neg hparen]
  | bracket hc hmem => exact (scanToken_outsideNames hc).trans (if_pos hmem)
  | comma hc => exact scanToken_outsideNames hc
  | whitespace hc hbracket hcomma hmatch =>
      rw [scanToken_outsideNames hc, scanSymbol, if_neg hbracket, if_neg hcomma,
        Regex.pattern_spaces, if_pos (isSome_of_match? hmatch), Cursor.skip_of_match? hmatch]
  | error hc hbracket hcomma hmatch =>
      rw [scanToken_outsideNames hc, scanSymbol, if_neg hbracket, if_neg hcomma,
        Regex.pattern_spaces, if_neg (not_isSome_of_match? hmatch)]

/-- A cursor reaches every place ahead of it. -/
theorem Cursor.reaches_advance (n : Nat) (c : Cursor) : c.Reaches (c.advance n) := by
  induction n with
  | zero => exact .refl
  | succ n ih =>
      rw [← advance_advance n 1 c]
      exact .advance ih

end

/-- The rules as a scanner. -/
def formulaScanner : Scanner where
  scan := scanToken
  reaches c history := by
    rw [scanToken_eq]
    exact c.reaches_advance _

/-- What the scanner of formulas does is what the classifier names. -/
theorem classifier_formulaScanner : formulaScanner.classifier = classify := by
  funext cursor history
  have hle := (rule_of_classify cursor history).length_le
  show ((scanToken cursor history).1,
    cursor.rest.length - (scanToken cursor history).2.rest.length) = _
  rw [scanToken_eq, Cursor.rest_advance, Cursor.length_sub_length_drop, Nat.min_eq_left hle]

/-! ## One step -/

/-- The next `n` characters at the cursor are a token of the class: there are
    that many, the place behind them is one of the text, and they are what
    the class takes. -/
structure TakesToken (c : Cursor) (k : Token.Kind) (n : Nat) : Prop where
  pos : 0 < n
  le_length : n ≤ c.rest.length
  place : IsValid (String.ofList c.source) ⟨(c.advance n).position⟩
  sliceFrom : (c.advance n).sliceFrom? c.position = some (c.rest.take n)
  takes : k.Takes (c.rest.take n) (c.advance n).rest

/-- **ONE STEP IS SOUND FOR ANY HISTORY**: at a cursor that is not at the end
    the classifier takes one or more characters, as its moves of the cursor
    do, and they are a token of the class that it names, whatever tokens are
    said to be behind. -/
theorem classify_takesToken (cursor : Cursor) (history : History) (hend : cursor.isEnd = false) :
    TakesToken cursor (classify cursor history).1 (classify cursor history).2 ∧
      formulaScanner.scan cursor history =
        ((classify cursor history).1, cursor.advance (classify cursor history).2) := by
  have hrule := rule_of_classify cursor history
  have hrest : cursor.rest ≠ [] := by
    intro hnil
    rw [Cursor.isEnd, hnil] at hend
    cases hend
  have hscan : formulaScanner.scan cursor history =
      ((classify cursor history).1, cursor.advance (classify cursor history).2) := by
    rw [Scanner.scan_eq, classifier_formulaScanner]
  have hreaches : cursor.Reaches (cursor.advance (classify cursor history).2) := by
    have h := formulaScanner.reaches cursor history
    rwa [hscan] at h
  obtain ⟨taken, hkeeps⟩ := hreaches.keeps
  refine ⟨⟨?_, hrule.length_le, hkeeps.place, cursor.sliceFrom?_advance _, ?_⟩, hscan⟩
  · exact Nat.pos_of_ne_zero (hrule.length_ne_zero hrest)
  · rw [Cursor.rest_advance]
    exact hrule.takes hrest

/-- Behind a bracket that no lexer would place there, a name of characters of
    two bytes each is a reference name, which the bracket behind it settles. -/
theorem classify_takesToken_name :
    ((Cursor.ofString "é[ü ß]").advance 2).isEnd = false ∧
      classify ((Cursor.ofString "é[ü ß]").advance 2) [⟨.bracket, "[", 7, 3⟩]
        = (.referenceName, 3) ∧
      TakesToken ((Cursor.ofString "é[ü ß]").advance 2) .referenceName 3 := by
  have hend : ((Cursor.ofString "é[ü ß]").advance 2).isEnd = false := by decide
  have hclassify : classify ((Cursor.ofString "é[ü ß]").advance 2) [⟨.bracket, "[", 7, 3⟩]
      = (.referenceName, 3) := by decide +kernel
  have hstep := (classify_takesToken _ [⟨.bracket, "[", 7, 3⟩] hend).1
  rw [hclassify] at hstep
  exact ⟨hend, hclassify, hstep⟩

end FormulaBar
