import FormulaBar.Proofs.Composition

/-! # Succession — which token comes right behind which

    The classifier looks back to the latest significant token and ahead by
    a character or a run.  Between the two there is no room for surprises:
    a token that was chosen for what is ahead of it has just that behind
    it, spaces included, and one that was chosen for what is in mind has
    the token that left it there right in front.

    The one case that needs an argument is a reference name, for spaces
    behind its opening bracket would keep the bracket in mind.  They are a
    token only where no reference name is ahead, and then none is ahead
    behind them either. -/

namespace FormulaBar

/-! ## What a token that is read says of its surroundings -/

namespace Next

variable {m : Memory} {t : Token} {rest : List Char}

theorem toList_ne_nil (h : Next m t rest) : t.text.toList ≠ [] :=
  fun hnil => h.nonempty (String.toList_eq_nil_iff.mp hnil)

/-- The rule that makes a token takes its text. -/
theorem exists_rule_take (h : Next m t rest) :
    ∃ (cursor : Cursor) (history : History) (n : Nat), cursor.rest = t.text.toList ++ rest ∧
      history.memory = m ∧ t.text.toList = cursor.rest.take n ∧
      Rule cursor history t.kind n := by
  obtain ⟨cursor, history, hrest, hm, hrule⟩ := h.exists_rule
  refine ⟨cursor, history, t.text.length, hrest, hm, ?_, hrule⟩
  rw [hrest, ← String.length_toList, List.take_left]

/-- A quote starts a text where none is open. -/
theorem closed_of_startQuote (h : Next m t rest) (hk : t.kind = .startQuote) :
    m ≠ .text ∧ m ≠ .quote := by
  obtain ⟨cursor, history, n, -, rfl, -, hrule⟩ := h.exists_rule_take
  rw [hk] at hrule
  cases hrule with
  | startQuote _ hclosed =>
      rw [← not_or, ← History.latestKind?_string, ← History.latestKind?_startQuote]
      exact hclosed

/-- A quote ends a text where one is open. -/
theorem open_of_endQuote (h : Next m t rest) (hk : t.kind = .endQuote) :
    m = .text ∨ m = .quote := by
  obtain ⟨cursor, history, n, -, rfl, -, hrule⟩ := h.exists_rule_take
  rw [hk] at hrule
  cases hrule with
  | endQuote _ hopen =>
      rw [← History.latestKind?_string, ← History.latestKind?_startQuote]
      exact hopen

/-- A string is right behind its quote and goes on to the next one. -/
theorem string (h : Next m t rest) (hk : t.kind = .string) :
    m = .quote ∧ rest.head?.all (· == '"') = true := by
  obtain ⟨cursor, history, n, hrest, rfl, htake, hrule⟩ := h.exists_rule_take
  rw [hk] at hrule
  cases hrule with
  | string _ _ hbehind =>
      have hrun := List.prefix_iff_eq_take.mp (Pattern.quotedText.ahead_isPrefix cursor.rest)
      have hstands := stands_of_quotedText hrest h.toList_ne_nil hk (htake.trans hrun.symm) hbehind
      have hshape := hstands.shape
      rw [hk] at hshape
      exact hshape.2.2

/-- Behind a start quote there is a string or the end quote. -/
theorem kind_of_quote (h : Next .quote t rest) : t.kind = .string ∨ t.kind = .endQuote := by
  obtain ⟨cursor, history, n, hrest, hm, -, hrule⟩ := h.exists_rule_take
  have hbehind := History.latestKind?_startQuote.mpr hm
  generalize t.kind = k at hrule ⊢
  -- all other rules decide outside of a text only
  cases hrule with
  | atEnd hend =>
      have hempty := List.head?_eq_none_iff.mp hend
      rw [hrest] at hempty
      exact absurd (List.append_eq_nil_iff.mp hempty).1 h.toList_ne_nil
  | endQuote => exact Or.inr rfl
  | startQuote _ hclosed => exact absurd (Or.inr hbehind) hclosed
  | string => exact Or.inl rfl
  | number hc _ _ => exact absurd hbehind hc.not_behind
  | minus hc _ _ => exact absurd hbehind hc.not_behind
  | operator hc _ _ => exact absurd hbehind hc.not_behind
  | referenceName hc _ _ => exact absurd hbehind hc.not_behind
  | functionName hc _ _ => exact absurd hbehind hc.not_behind
  | unfinishedFormula hc _ _ => exact absurd hbehind hc.not_behind
  | bracket hc _ => exact absurd hbehind hc.not_behind
  | comma hc => exact absurd hbehind hc.not_behind
  | whitespace hc _ _ _ => exact absurd hbehind hc.not_behind
  | error hc _ _ _ => exact absurd hbehind hc.not_behind

/-- A minus sign belongs to a number only behind an operator. -/
theorem operator_of_signed (h : Next m t rest) (hk : t.kind = .number)
    (hsign : t.text.toList.head? = some '-') : m = .operator := by
  obtain ⟨cursor, history, n, hrest, rfl, -, hrule⟩ := h.exists_rule_take
  have hpeek : cursor.peek? = some '-' := by
    rw [Cursor.peek?, hrest, List.head?_append, hsign]
    rfl
  rw [hk] at hrule
  cases hrule with
  | number hc _ hminus =>
      have hdash := Option.some.inj (hc.peek.symm.trans hpeek)
      exact History.latestKind?_operator.mp (hminus hdash)

/-- A reference name is read behind its opening bracket, and a closing one
    is ahead. -/
theorem referenceName (h : Next m t rest) (hk : t.kind = .referenceName) :
    m = .bracket ∧ (∀ c ∈ t.text.toList, c ≠ '[' ∧ c ≠ ']') ∧ rest.head? = some ']' := by
  obtain ⟨cursor, history, n, hrest, rfl, htake, hrule⟩ := h.exists_rule_take
  rw [hk] at hrule
  cases hrule with
  | referenceName hc hopener hname =>
      rw [← take_of_match? (Option.filter_eq_some_iff.mp hname).1, ← htake] at hname
      have hshape := (stands_of_referenceAhead? hrest hk hc hopener hname).shape
      rw [hk] at hshape
      exact ⟨hshape.2.1, hshape.1.no_bracket, hshape.2.2⟩

/-- The name of a function has its parenthesis right behind it. -/
theorem head?_of_functionName (h : Next m t rest) (hk : t.kind = .functionName) :
    rest.head? = some '(' := by
  obtain ⟨cursor, history, n, hrest, rfl, htake, hrule⟩ := h.exists_rule_take
  rw [hk] at hrule
  cases hrule with
  | functionName _ hmatch hparen =>
      rw [Cursor.peek?, Cursor.rest_advance, hrest, ← take_of_match? hmatch, ← htake,
        List.drop_left] at hparen
      exact hparen

/-- Spaces are read up to the last one. -/
theorem whitespace (h : Next m t rest) (hk : t.kind = .whitespace) :
    (∀ c ∈ t.text.toList, c = ' ') ∧ rest.head? ≠ some ' ' := by
  obtain ⟨cursor, history, n, hrest, rfl, htake, hrule⟩ := h.exists_rule_take
  rw [hk] at hrule
  cases hrule with
  | whitespace _ _ _ hmatch =>
      rw [← take_of_match? hmatch, ← htake] at hmatch
      have hrun : cursor.rest.takeWhile (· == ' ') = t.text.toList :=
        (Cursor.match?_eq_some.mp hmatch).1
      constructor
      · intro c hc
        rw [← hrun] at hc
        exact beq_iff_eq.mp (List.mem_takeWhile_imp (p := (· == ' ')) hc)
      · rw [hrest] at hrun
        have hstop := takeWhile_eq_nil_of_append hrun
        intro hspace
        obtain ⟨tail, rfl⟩ := List.head?_eq_some_iff.mp hspace
        cases hstop

/-- Where the bracket that opens a reference is in mind, spaces are read only
    where no reference name is ahead. -/
theorem no_reference_of_whitespace {name tail : List Char} (h : Next .bracket t rest)
    (hk : t.kind = .whitespace) (hname : ∀ c ∈ name, c ≠ '[' ∧ c ≠ ']') :
    t.text.toList ++ rest ≠ name ++ ']' :: tail := by
  obtain ⟨cursor, history, n, hrest, hm, -, hrule⟩ := h.exists_rule_take
  rw [hk] at hrule
  cases hrule with
  | @whitespace c spaces hc hbracket hcomma hmatch =>
      intro heq
      rw [← hrest] at heq
      have hnone := hc.no_reference (History.any_isBracket_iff.mpr hm)
      have hne : name ≠ [] := by
        rintro rfl
        -- the closing bracket would be ahead itself
        have hpeek := hc.peek
        rw [Cursor.peek?, heq] at hpeek
        obtain rfl := Option.some.inj hpeek
        exact hbracket (by simp [bracketChars])
      cases hnone.symm.trans (referenceAhead?_eq_some_iff.mpr ⟨hne, hname, tail, heq⟩)

end Next

/-! ## The token right behind -/

section

variable {m : Memory} {t : Token} {ts : List Token} {rest : List Char}

/-- A bracket that is ahead is the next token, outside of a text and not
    behind a bracket that opens a reference. -/
theorem Lexed.isBracket_head {b : Char} (h : Lexed m ts rest) (hb : b ∈ bracketChars)
    (hm : m ≠ .quote ∧ m ≠ .bracket) (hhead : (spell ts).head? = some b) :
    ts.head?.any (·.isBracket b) = true := by
  cases ts with
  | nil => cases hhead
  | cons u us =>
      obtain ⟨tail, htail⟩ := List.head?_eq_some_iff.mp hhead
      have hbracket : Next m (.ofChar .bracket b) (tail ++ rest) :=
        Stands.next_bracket rfl (Token.toList_ofChar .bracket b) hb hm
      have heq : u.text.toList ++ (spell us ++ rest) =
          (Token.ofChar .bracket b).text.toList ++ (tail ++ rest) := by
        rw [Token.toList_ofChar, ← List.append_assoc, ← spell_cons, htail]
        rfl
      obtain ⟨hkind, htext, -⟩ := h.1.unique hbracket heq
      refine Token.isBracket_iff.mpr ⟨hkind, ?_⟩
      rw [htext, Token.toList_ofChar]

/-- Whether a string in mind has a quote ahead, or the end of the formula. -/
def Memory.Ready (m : Memory) (text : List Char) : Prop :=
  m = .text → text.head?.all (· == '"') = true

theorem Memory.ready_other (text : List Char) : Memory.Ready .other text := by
  intro htext
  cases htext

/-- Behind a string the next token is the end quote. -/
theorem Next.kind_of_text (h : Next .text t rest)
    (hready : Memory.Ready .text (t.text.toList ++ rest)) : t.kind = .endQuote := by
  obtain ⟨c, text, htext⟩ := List.exists_cons_of_ne_nil h.toList_ne_nil
  have hquote := hready rfl
  rw [htext] at hquote
  obtain rfl : c = '"' := beq_iff_eq.mp hquote
  have hend : Next .text (.ofChar .endQuote '"') (text ++ rest) :=
    Stands.next_endQuote rfl (Token.toList_ofChar .endQuote '"') (Or.inl rfl)
  have heq : t.text.toList ++ rest =
      (Token.ofChar .endQuote '"').text.toList ++ (text ++ rest) := by
    rw [htext, Token.toList_ofChar]
    rfl
  exact (h.unique hend heq).1

/-- No spaces are read inside of a text. -/
theorem Next.memory_of_open (h : Next m t rest) (hready : m.Ready (t.text.toList ++ rest))
    (hopen : m.after t = .text ∨ m.after t = .quote) : m.after t = t.memory := by
  by_cases hk : t.kind = .whitespace
  · rw [Memory.after_of_whitespace hk] at hopen
    rcases hopen with rfl | rfl
    · cases hk.symm.trans (h.kind_of_text hready)
    · rcases h.kind_of_quote with hk' | hk'
      · cases hk.symm.trans hk'
      · cases hk.symm.trans hk'
  · exact Memory.after_of_kind rfl hk

/-- What is in mind behind a token is ready for what follows it. -/
theorem Next.ready (h : Next m t rest) (hready : m.Ready (t.text.toList ++ rest)) :
    (m.after t).Ready rest := by
  intro htext
  have hmemory := h.memory_of_open hready (Or.inl htext)
  exact (h.string (Token.memory_eq_text.mp (hmemory.symm.trans htext))).2

/-- What is in mind behind some tokens is ready for what follows them. -/
theorem Lexed.ready (h : Lexed m ts rest) (hready : m.Ready (spell ts ++ rest)) :
    (m.afterAll ts).Ready rest := by
  induction ts generalizing m with
  | nil => exact hready
  | cons t ts ih =>
      rw [spell_cons, List.append_assoc] at hready
      exact ih h.2 (h.1.ready hready)

end

/-! ## The token right in front -/

namespace Next

variable {m : Memory} {p t : Token} {rest : List Char}

/-- No spaces come between the opening bracket and a reference name. -/
theorem isBracket_in_front (hp : Next m p (t.text.toList ++ rest))
    (ht : Next (m.after p) t rest) (hk : t.kind = .referenceName) :
    p.isBracket '[' = true := by
  obtain ⟨hm, hname, hcloser⟩ := ht.referenceName hk
  by_cases hspace : p.kind = .whitespace
  · rw [Memory.after_of_whitespace hspace] at hm
    subst hm
    obtain ⟨tail, rfl⟩ := List.head?_eq_some_iff.mp hcloser
    have hlonger : ∀ c ∈ p.text.toList ++ t.text.toList, c ≠ '[' ∧ c ≠ ']' := by
      intro c hc
      rcases List.mem_append.mp hc with hc | hc
      · obtain rfl := (hp.whitespace hspace).1 c hc
        exact ⟨by decide, by decide⟩
      · exact hname c hc
    -- with the spaces in front it would be a longer reference name
    exact absurd (List.append_assoc _ _ _).symm
      (hp.no_reference_of_whitespace hspace hlonger)
  · rw [Memory.after_of_kind rfl hspace] at hm
    exact Token.memory_eq_bracket.mp hm

/-- A string has a start quote right in front of it. -/
theorem startQuote_in_front (hp : Next m p (t.text.toList ++ rest))
    (hready : m.Ready (p.text.toList ++ (t.text.toList ++ rest)))
    (ht : Next (m.after p) t rest) (hk : t.kind = .string) : p.kind = .startQuote := by
  have hm := (ht.string hk).1
  exact Token.memory_eq_quote.mp ((hp.memory_of_open hready (Or.inr hm)).symm.trans hm)

/-- An end quote has a string or a start quote right in front of it. -/
theorem text_in_front (hp : Next m p (t.text.toList ++ rest))
    (hready : m.Ready (p.text.toList ++ (t.text.toList ++ rest)))
    (ht : Next (m.after p) t rest) (hk : t.kind = .endQuote) :
    p.kind = .string ∨ p.kind = .startQuote := by
  have hopen := ht.open_of_endQuote hk
  have hmemory := hp.memory_of_open hready hopen
  rw [hmemory] at hopen
  exact hopen.imp Token.memory_eq_text.mp Token.memory_eq_quote.mp

end Next

/-! ## Quotes take turns -/

/-- Whether a text is open. -/
def Memory.inText (m : Memory) : Bool :=
  m == .text || m == .quote

/-- The classes of the start and end quotes, in their order. -/
def quoteKinds (tokens : List Token) : List Token.Kind :=
  (tokens.map (·.kind)).filter fun k => k == .startQuote || k == .endQuote

/-- Start and end quotes take turns; an end quote comes first where a text is
    open. -/
def TakeTurns : Bool → List Token.Kind → Prop
  | _, [] => True
  | inText, k :: ks => k = (if inText then .endQuote else .startQuote) ∧ TakeTurns (!inText) ks

/-- A text is open behind a string or a start quote. -/
theorem Memory.inText_iff {m : Memory} : m.inText = true ↔ m = .text ∨ m = .quote := by
  simp [inText]

/-- A token that is no quote leaves a text open or closed. -/
theorem Next.inText_after {m : Memory} {t : Token} {rest : List Char} (h : Next m t rest)
    (hready : m.Ready (t.text.toList ++ rest))
    (hk : t.kind ≠ .startQuote ∧ t.kind ≠ .endQuote) : (m.after t).inText = m.inText := by
  rw [Bool.eq_iff_iff, Memory.inText_iff, Memory.inText_iff]
  constructor
  · intro hopen
    -- of the tokens behind which a text is open this one can only be a string
    have hmemory := h.memory_of_open hready hopen
    rw [hmemory] at hopen
    rcases hopen with htext | hquote
    · exact Or.inr (h.string (Token.memory_eq_text.mp htext)).1
    · exact absurd (Token.memory_eq_quote.mp hquote) hk.1
  · rintro (rfl | rfl)
    · exact absurd (h.kind_of_text hready) hk.2
    · have hstring := h.kind_of_quote.resolve_right hk.2
      rw [Memory.after_of_kind hstring (by decide), Token.memory_of_string hstring]
      exact Or.inl rfl

/-- **QUOTES TAKE TURNS**: along the tokens read off a text, start quotes and
    end quotes alternate. -/
theorem Lexed.takeTurns {m : Memory} {ts : List Token} {rest : List Char}
    (h : Lexed m ts rest) (hready : m.Ready (spell ts ++ rest)) :
    TakeTurns m.inText (quoteKinds ts) := by
  induction ts generalizing m with
  | nil => exact trivial
  | cons t ts ih =>
      rw [spell_cons, List.append_assoc] at hready
      have hturns := ih h.2 (h.1.ready hready)
      -- what is in mind tells whether a text is open
      by_cases hstart : t.kind = .startQuote
      · have hclosed : m.inText = false :=
          Bool.eq_false_iff.mpr fun hopen =>
            not_or.mpr (h.1.closed_of_startQuote hstart) (Memory.inText_iff.mp hopen)
        rw [Memory.after_of_kind hstart (by decide), Token.memory_of_startQuote hstart] at hturns
        have hcons : quoteKinds (t :: ts) = .startQuote :: quoteKinds ts := by
          rw [quoteKinds, List.map_cons, hstart]
          rfl
        rw [hcons, hclosed]
        exact ⟨rfl, hturns⟩
      by_cases hend : t.kind = .endQuote
      · have hopen : m.inText = true := Memory.inText_iff.mpr (h.1.open_of_endQuote hend)
        rw [Memory.after_of_kind hend (by decide), Token.memory_of_kind hend (by decide)] at hturns
        have hcons : quoteKinds (t :: ts) = .endQuote :: quoteKinds ts := by
          rw [quoteKinds, List.map_cons, hend]
          rfl
        rw [hcons, hopen]
        exact ⟨rfl, hturns⟩
      · have hcons : quoteKinds (t :: ts) = quoteKinds ts :=
          List.filter_cons_of_neg (by simp [hstart, hend])
        rw [hcons, ← h.1.inText_after hready ⟨hstart, hend⟩]
        exact hturns

/-! ## The tokens of a formula -/

/-- What is granted of a token with the tokens `before` in front of it and
    the tokens `after` behind it.  All but the sign of a number concerns
    the very next tokens, whitespace included. -/
structure InPlace (before : List Token) (t : Token) (after : List Token) : Prop where
  referenceName : t.kind = .referenceName →
    before.getLast?.any (·.isBracket '[') = true ∧ after.head?.any (·.isBracket ']') = true
  string : t.kind = .string → before.getLast?.any (·.kind == .startQuote) = true ∧
    after.head?.all (·.kind == .endQuote) = true
  endQuote : t.kind = .endQuote →
    before.getLast?.any (fun u => u.kind == .string || u.kind == .startQuote) = true
  functionName : t.kind = .functionName → after.head?.any (·.isBracket '(') = true
  sign : t.kind = .number → t.text.toList.head? = some '-' →
    (significant before).getLast?.any (·.kind == .operator) = true
  whitespace : t.kind = .whitespace → after.head?.all (·.kind != .whitespace) = true

section

variable {before after : List Token} {t : Token}

/-- Where the tokens of a text split at one, it comes next there, and the
    others are read behind it. -/
theorem Lexed.next_of_append (h : Lexed .other (before ++ t :: after) []) :
    Next (Memory.afterAll .other before) t (spell after) ∧
      Lexed ((Memory.afterAll .other before).after t) after [] := by
  obtain ⟨-, ht, hafter⟩ := lexed_append.mp h
  rw [List.append_nil] at ht
  exact ⟨ht, hafter⟩

/-- Where something is in mind, some token is right in front. -/
theorem Lexed.exists_in_front (h : Lexed .other (before ++ t :: after) [])
    (hm : Memory.afterAll .other before ≠ .other) :
    ∃ m p, before.getLast? = some p ∧ Next m p (t.text.toList ++ spell after) ∧
      m.Ready (p.text.toList ++ (t.text.toList ++ spell after)) ∧
      Next (m.after p) t (spell after) := by
  rcases List.eq_nil_or_concat before with rfl | ⟨init, p, hsplit⟩
  · exact absurd rfl hm
  · rw [List.concat_eq_append] at hsplit
    subst hsplit
    have ht := h.next_of_append.1
    rw [Memory.afterAll_append] at ht
    rw [List.append_assoc] at h
    have hready : Memory.Ready (Memory.afterAll .other init)
        (spell ([p] ++ t :: after) ++ []) :=
      (lexed_append.mp h).1.ready (Memory.ready_other _)
    rw [List.append_nil] at hready
    exact ⟨_, p, List.getLast?_concat, h.next_of_append.1, hready, ht⟩

/-- Outside of texts and references nothing is in mind behind a name. -/
theorem Memory.after_of_name {m : Memory}
    (hk : t.kind = .referenceName ∨ t.kind = .functionName) : m.after t = .other := by
  rcases hk with hk | hk
  · rw [Memory.after_of_kind hk (by decide), Token.memory_of_kind hk (by decide)]
  · rw [Memory.after_of_kind hk (by decide), Token.memory_of_kind hk (by decide)]

/-- A reference name is right between its brackets. -/
theorem Lexed.brackets_around (h : Lexed .other (before ++ t :: after) [])
    (hk : t.kind = .referenceName) :
    before.getLast?.any (·.isBracket '[') = true ∧ after.head?.any (·.isBracket ']') = true := by
  obtain ⟨ht, hafter⟩ := h.next_of_append
  obtain ⟨hm, -, hahead⟩ := ht.referenceName hk
  constructor
  · obtain ⟨m, p, hlast, hp, -, ht⟩ := h.exists_in_front (by rw [hm]; decide)
    rw [hlast]
    exact hp.isBracket_in_front ht hk
  · rw [Memory.after_of_name (Or.inl hk)] at hafter
    exact hafter.isBracket_head (by decide) (by decide) hahead

/-- A string is right between its quotes, or the last token. -/
theorem Lexed.quotes_around (h : Lexed .other (before ++ t :: after) [])
    (hk : t.kind = .string) : before.getLast?.any (·.kind == .startQuote) = true ∧
      after.head?.all (·.kind == .endQuote) = true := by
  obtain ⟨ht, hafter⟩ := h.next_of_append
  obtain ⟨hm, hahead⟩ := ht.string hk
  constructor
  · obtain ⟨m, p, hlast, hp, hready, ht⟩ := h.exists_in_front (by rw [hm]; decide)
    rw [hlast]
    exact beq_iff_eq.mpr (hp.startQuote_in_front hready ht hk)
  · cases after with
    | nil => rfl
    | cons u us =>
        have hmemory : (Memory.afterAll .other before).after t = .text := by
          rw [Memory.after_of_kind hk (by decide), Token.memory_of_string hk]
        have hu := hafter.1
        rw [hmemory, List.append_nil] at hu
        exact beq_iff_eq.mpr (hu.kind_of_text fun _ => hahead)

/-- An end quote is right behind a string or a start quote. -/
theorem Lexed.endQuote_behind (h : Lexed .other (before ++ t :: after) [])
    (hk : t.kind = .endQuote) :
    before.getLast?.any (fun u => u.kind == .string || u.kind == .startQuote) = true := by
  have hm : Memory.afterAll .other before ≠ .other := by
    rcases h.next_of_append.1.open_of_endQuote hk with hm | hm
    · rw [hm]
      decide
    · rw [hm]
      decide
  obtain ⟨m, p, hlast, hp, hready, ht⟩ := h.exists_in_front hm
  rw [hlast]
  show (p.kind == .string || p.kind == .startQuote) = true
  rw [Bool.or_eq_true, beq_iff_eq, beq_iff_eq]
  exact hp.text_in_front hready ht hk

/-- The latest significant token in front of a number with a sign is an
    operator. -/
theorem Lexed.operator_behind (h : Lexed .other (before ++ t :: after) [])
    (hk : t.kind = .number) (hsign : t.text.toList.head? = some '-') :
    (significant before).getLast?.any (·.kind == .operator) = true := by
  have hm := h.next_of_append.1.operator_of_signed hk hsign
  rw [Memory.afterAll_eq] at hm
  cases hlast : (significant before).getLast? with
  | none =>
      rw [hlast] at hm
      cases hm
  | some u =>
      rw [hlast] at hm
      exact beq_iff_eq.mpr (Token.memory_eq_operator.mp hm)

/-- Whitespace is not followed by whitespace. -/
theorem Lexed.not_whitespace_ahead (h : Lexed .other (before ++ t :: after) [])
    (hk : t.kind = .whitespace) : after.head?.all (·.kind != .whitespace) = true := by
  obtain ⟨ht, hafter⟩ := h.next_of_append
  cases after with
  | nil => rfl
  | cons u us =>
      refine bne_iff_ne.mpr fun hu => ?_
      -- the spaces of the second token would belong to the first one
      obtain ⟨c, text, htext⟩ := List.exists_cons_of_ne_nil hafter.1.toList_ne_nil
      obtain rfl : c = ' ' := by
        refine (hafter.1.whitespace hu).1 c ?_
        rw [htext]
        exact List.mem_cons_self
      refine (ht.whitespace hk).2 ?_
      rw [spell_cons, htext]
      rfl

/-- A token that is read is in its place. -/
theorem Lexed.inPlace (h : Lexed .other (before ++ t :: after) []) :
    InPlace before t after where
  referenceName := h.brackets_around
  string := h.quotes_around
  endQuote := h.endQuote_behind
  functionName hk := by
    obtain ⟨ht, hafter⟩ := h.next_of_append
    rw [Memory.after_of_name (Or.inr hk)] at hafter
    exact hafter.isBracket_head (by decide) (by decide) (ht.head?_of_functionName hk)
  sign := h.operator_behind
  whitespace := h.not_whitespace_ahead

end

/-- **TOKENS COME IN THEIR PLACES**: in the tokens of a formula a reference
    name is right between its brackets, a string right behind a start quote
    and in front of the end quote, if anything follows it, and an end quote
    right behind a string or a start quote; start and end quotes take turns,
    a start quote first.  A function name is right in front of a parenthesis,
    only a number behind an operator has a sign, and whitespace is one token. -/
theorem tokens_in_place (formula : String) :
    ∃ tokens, tokenize formula = .ok tokens ∧
      (∀ before t after, tokens = before ++ t :: after → InPlace before t after) ∧
      TakeTurns false (quoteKinds tokens) := by
  obtain ⟨tokens, htokens⟩ := exists_tokenize formula
  obtain ⟨hlexed, -⟩ := lexed_of_tokenize htokens
  refine ⟨tokens, htokens, ?_, hlexed.takeTurns (Memory.ready_other _)⟩
  rintro before t after rfl
  exact hlexed.inPlace

end FormulaBar
