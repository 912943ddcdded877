import FormulaBar.Proofs.Succession

/-! # Growth — the references of a formula while it is typed

    What is typed behind a formula may change the tokens at its end: a
    number goes on, a name gets its parenthesis, the run behind an opening
    bracket becomes a reference name, an open text takes all that follows.
    None of this reaches over a closing bracket, but for the open text, and
    in that there are no references.

    A reference has its closing bracket behind it.  So the formula is read
    as before up to the last reference, and the list of references keeps
    what it had and in that order. -/

namespace FormulaBar

/-! ## Runs in front of a closing bracket -/

/-- A run that ends inside of a text ends there in front of more text, too. -/
theorem takeWhile_append_of_mem {p : Char → Bool} {text : List Char} {c : Char}
    (hc : c ∈ text) (hp : p c = false) (more : List Char) :
    (text ++ more).takeWhile p = text.takeWhile p := by
  rw [List.takeWhile_append, if_neg]
  intro hlength
  have hall : text.takeWhile p = text := (List.takeWhile_prefix p).eq_of_length hlength
  rw [← hall] at hc
  exact Bool.false_ne_true (hp.symm.trans (List.mem_takeWhile_imp hc))

section

variable {text : List Char} (h : ']' ∈ text) (more : List Char)

include h

/-- A number in front of a closing bracket is read as before. -/
theorem ahead_number_of_closed :
    Pattern.number.ahead (text ++ more) = Pattern.number.ahead text := by
  obtain ⟨front, back, rfl⟩ := List.append_of_mem h
  cases front with
  | nil =>
      have hnone : ∀ rest, Pattern.number.ahead (']' :: rest) = [] :=
        fun rest => ahead_number_cons rest rfl (by decide) (by decide)
      show Pattern.number.ahead (']' :: (back ++ more)) = Pattern.number.ahead (']' :: back)
      rw [hnone, hnone]
  | cons c front =>
      have hends : ∀ rest, Pattern.number.ahead ((c :: front) ++ ']' :: rest) =
          Pattern.number.ahead (c :: front) :=
        fun rest => ahead_number_append (List.cons_ne_nil c front) rfl
      rw [List.append_assoc]
      exact (hends (back ++ more)).trans (hends back).symm

/-- A name in front of a closing bracket is read as before. -/
theorem ahead_identifier_of_closed :
    Pattern.identifier.ahead (text ++ more) = Pattern.identifier.ahead text := by
  cases text with
  | nil => cases h
  | cons c text =>
      show (if Pattern.startsName c then c :: (text ++ more).takeWhile Pattern.continuesName
        else []) = if Pattern.startsName c then c :: text.takeWhile Pattern.continuesName else []
      by_cases hc : Pattern.startsName c = true
      · have hmem : ']' ∈ text := by
          rcases List.mem_cons.mp h with rfl | hmem
          · exact absurd hc (by decide)
          · exact hmem
        rw [if_pos hc, if_pos hc, takeWhile_append_of_mem hmem (by decide)]
      · rw [if_neg hc, if_neg hc]

/-- Behind a name that is ahead there is text left. -/
theorem length_identifier_lt : (Pattern.identifier.ahead text).length < text.length := by
  have hprefix := Pattern.identifier.ahead_isPrefix text
  refine Nat.lt_of_le_of_ne hprefix.length_le fun hlength => ?_
  have hall := hprefix.eq_of_length hlength
  have hne : Pattern.identifier.ahead text ≠ [] := by
    rw [hall]
    exact List.ne_nil_of_mem h
  have hname := isIdentifier_ahead hne
  rw [hall] at hname
  cases text with
  | nil => cases h
  | cons c text =>
      obtain ⟨hc, hrest⟩ := Bool.and_eq_true_iff.mp hname
      rcases List.mem_cons.mp h with rfl | hmem
      · exact absurd hc (by decide)
      · exact absurd (List.all_eq_true.mp hrest _ hmem) (by decide)

end

/-- Whether a reference name is ahead is settled where a closing bracket is. -/
theorem referenceAhead?_of_closed {c c' : Cursor} {more : List Char} (h : ']' ∈ c.rest)
    (hrest : c'.rest = c.rest ++ more) : referenceAhead? c' = referenceAhead? c := by
  refine Option.ext fun name => ?_
  rw [referenceAhead?_eq_some_iff, referenceAhead?_eq_some_iff, hrest]
  refine and_congr_right fun _ => and_congr_right fun hname => ?_
  constructor
  · rintro ⟨tail, htail⟩
    rcases List.append_eq_append_iff.mp htail with ⟨front, hfront, -⟩ | ⟨back, hback, htail⟩
    · -- a name has no bracket, so it does not reach that far
      refine absurd rfl (hname ']' ?_).2
      rw [hfront]
      exact List.mem_append_left _ h
    · cases back with
      | nil =>
          rw [List.append_nil] at hback
          exact absurd rfl (hname ']' (hback ▸ h)).2
      | cons d back =>
          obtain ⟨rfl, -⟩ := List.cons.inj htail
          exact ⟨back, hback⟩
  · rintro ⟨tail, htail⟩
    exact ⟨tail ++ more, by rw [htail, List.append_assoc]; rfl⟩

/-- What a text needs for its first token to be settled, whatever follows:
    a closing bracket and, where a quoted text is open, a quote. -/
structure Memory.Settles (m : Memory) (text : List Char) : Prop where
  bracket : ']' ∈ text
  quote : m = .quote → '"' ∈ text

/-- **SETTLED TEXT IS READ AS BEFORE**: the classifier does not see whether
    more text follows. -/
theorem classify_of_settles {c c' : Cursor} {history : History} {more : List Char}
    (hsettles : history.memory.Settles c.rest) (hrest : c'.rest = c.rest ++ more) :
    classify c' history = classify c history := by
  have h := hsettles.bracket
  obtain ⟨ch, tail, htail⟩ := List.exists_cons_of_ne_nil (List.ne_nil_of_mem h)
  have hpeek : c.peek? = some ch := by rw [Cursor.peek?, htail]; rfl
  have hpeek' : c'.peek? = some ch := by rw [Cursor.peek?, hrest, htail]; rfl
  by_cases hm : history.memory = .quote
  · -- in a text only the next quote counts
    by_cases hch : ch = '"'
    · subst hch
      rw [classify_quote hpeek, classify_quote hpeek']
    · have hrun : Pattern.quotedText.ahead c'.rest = Pattern.quotedText.ahead c.rest := by
        rw [hrest]
        exact takeWhile_append_of_mem (hsettles.quote hm) rfl more
      rw [classify_string hpeek hch hm, classify_string hpeek' hch hm, hrun]
  · have hbehind : ¬ history.previous?.map (·.kind) = some .startQuote :=
      mt History.latestKind?_startQuote.mp hm
    have hnumber : c'.match? .number = c.match? .number := by
      rw [Cursor.match?, Cursor.match?, hrest, ahead_number_of_closed h]
    have hidentifier : c'.match? .identifier = c.match? .identifier := by
      rw [Cursor.match?, Cursor.match?, hrest, ahead_identifier_of_closed h]
    have hspaces : c'.match? .spaces = c.match? .spaces := by
      have hrun : Pattern.spaces.ahead c'.rest = Pattern.spaces.ahead c.rest := by
        rw [hrest]
        exact takeWhile_append_of_mem h rfl more
      rw [Cursor.match?, Cursor.match?, hrun]
    -- a name ends in front of the closing bracket, so its next character is there
    have hcalled : ∀ name, c.match? .identifier = some name →
        (c'.advance name.length).peek? = (c.advance name.length).peek? := by
      intro name hname
      obtain ⟨rfl, -⟩ := Cursor.match?_eq_some.mp hname
      have hlt := length_identifier_lt h
      have hne : c.rest.drop (Pattern.identifier.ahead c.rest).length ≠ [] :=
        fun hnil => Nat.not_le.mpr hlt (List.drop_eq_nil_iff.mp hnil)
      rw [Cursor.peek?, Cursor.peek?, Cursor.rest_advance, Cursor.rest_advance, hrest,
        List.drop_append_of_le_length (Nat.le_of_lt hlt), List.head?_append_of_ne_nil _ hne]
    simp only [classify, hpeek, hpeek', if_neg hbehind, hnumber, hidentifier, hspaces,
      referenceAhead?_of_closed h hrest]
    cases hname : c.match? .identifier with
    | none => rfl
    | some name => simp only [hcalled name hname]

/-- The next token of a settled text stays next in front of more text. -/
theorem Next.append {m : Memory} {t : Token} {rest : List Char} (h : Next m t rest)
    (hsettles : m.Settles (t.text.toList ++ rest)) (more : List Char) :
    Next m t (rest ++ more) := by
  refine ⟨h.nonempty, ?_⟩
  rintro cursor history hrest rfl
  rw [← List.append_assoc] at hrest
  rw [classify_of_settles (c := ⟨[], t.text.toList ++ rest⟩) hsettles hrest]
  exact h.classified _ history rfl rfl

/-- What is in mind behind a token depends on its class and its text. -/
theorem Memory.after_congr {m : Memory} {t u : Token} (hkind : t.kind = u.kind)
    (htext : t.text = u.text) : m.after t = m.after u := by
  have hlexeme : t.lexeme = u.lexeme := Prod.ext hkind htext
  rw [after, after, Token.isSignificant_of_lexeme hlexeme, Token.memory, Token.memory, hkind,
    Token.isBracket_of_lexeme hlexeme]

/-- Where the first token is settled, the tokens of a longer text start with
    the same one. -/
theorem Lexed.exists_cons {m : Memory} {t : Token} {ts us : List Token} {more : List Char}
    (h : Lexed m (t :: ts) []) (h' : Lexed m us []) (hspell : spell us = spell (t :: ts) ++ more)
    (hsettles : m.Settles (spell (t :: ts))) :
    ∃ u us', us = u :: us' ∧ u.kind = t.kind ∧ u.text = t.text ∧ Lexed (m.after t) us' [] ∧
      spell us' = spell ts ++ more := by
  rw [spell_cons] at hsettles
  rw [spell_cons, List.append_assoc] at hspell
  have ht : Next m t (spell ts ++ []) := h.1
  rw [List.append_nil] at ht
  cases us with
  | nil => exact absurd (List.append_eq_nil_iff.mp hspell.symm).1 ht.toList_ne_nil
  | cons u us =>
      have hu : Next m u (spell us ++ []) := h'.1
      rw [List.append_nil] at hu
      obtain ⟨hkind, htext, hrest⟩ := hu.unique (ht.append hsettles more) hspell
      exact ⟨u, us, rfl, hkind, htext, Memory.after_congr hkind htext ▸ h'.2, hrest⟩

/-! ## The names of the references -/

/-- The names of the references among the tokens, each time they occur. -/
def referenceNames (tokens : List Token) : List String :=
  (tokens.filter (·.kind == .referenceName)).map (·.text)

/-- A reference name in front is the first of the names. -/
theorem referenceNames_cons_of_eq {t : Token} (ts : List Token) (h : t.kind = .referenceName) :
    referenceNames (t :: ts) = t.text :: referenceNames ts := by
  rw [referenceNames, List.filter_cons_of_pos (by simpa using h)]
  rfl

/-- Any other token in front adds no name. -/
theorem referenceNames_cons_of_ne {t : Token} (ts : List Token) (h : t.kind ≠ .referenceName) :
    referenceNames (t :: ts) = referenceNames ts := by
  rw [referenceNames, List.filter_cons_of_neg (by simpa using h)]
  rfl

theorem referenceNames_append (ts us : List Token) :
    referenceNames (ts ++ us) = referenceNames ts ++ referenceNames us := by
  rw [referenceNames, List.filter_append, List.map_append]
  rfl

theorem referenceNames_cons_of_kind {t : Token} {k : Token.Kind} (ts : List Token)
    (h : t.kind = k) (hk : k ≠ .referenceName) :
    referenceNames (t :: ts) = referenceNames ts :=
  referenceNames_cons_of_ne ts (h ▸ hk)

theorem referenceNames_cons_of_isBracket {t : Token} {b : Char} (ts : List Token)
    (h : t.isBracket b = true) : referenceNames (t :: ts) = referenceNames ts :=
  referenceNames_cons_of_kind ts (Token.kind_of_isBracket h) (by decide)

/-- Whitespace names no reference. -/
theorem referenceNames_significant (tokens : List Token) :
    referenceNames (significant tokens) = referenceNames tokens := by
  induction tokens with
  | nil => rfl
  | cons t ts ih =>
      by_cases hspace : t.kind = .whitespace
      · rw [significant_cons_of_whitespace ts hspace, ih,
          referenceNames_cons_of_kind ts hspace (by decide)]
      · rw [significant_cons_of_kind ts hspace]
        by_cases hk : t.kind = .referenceName
        · rw [referenceNames_cons_of_eq _ hk, referenceNames_cons_of_eq _ hk, ih]
        · rw [referenceNames_cons_of_ne _ hk, referenceNames_cons_of_ne _ hk, ih]

/-- The references used are the names among the tokens, each of them once. -/
theorem referencesUsed_eq (tokens : List Token) :
    referencesUsed tokens = (referenceNames tokens).eraseDups := rfl

/-- A list that goes on keeps its first occurrences, in that order. -/
theorem eraseDups_isPrefix {l l' : List String} (h : l <+: l') :
    l.eraseDups <+: l'.eraseDups := by
  obtain ⟨more, rfl⟩ := h
  rw [List.eraseDups_append]
  exact List.prefix_append _ _

section

variable {m : Memory} {ts us : List Token}

/-- Without a closing bracket there is no reference. -/
theorem Lexed.referenceNames_of_not_closed {rest : List Char} (h : Lexed m ts rest)
    (hclosed : ']' ∉ spell ts ++ rest) : referenceNames ts = [] := by
  induction ts generalizing m with
  | nil => rfl
  | cons t ts ih =>
      rw [spell_cons, List.append_assoc, List.mem_append, not_or] at hclosed
      have hk : t.kind ≠ .referenceName := by
        intro hk
        obtain ⟨-, -, hahead⟩ := h.1.referenceName hk
        exact hclosed.2 (List.mem_of_head? hahead)
      rw [referenceNames_cons_of_ne ts hk]
      exact ih h.2 hclosed.2

/-- Inside of a text that does not end there is no reference. -/
theorem Lexed.referenceNames_of_open (h : Lexed .quote ts []) (hquote : '"' ∉ spell ts) :
    referenceNames ts = [] := by
  cases ts with
  | nil => rfl
  | cons t ts =>
      have htext : (Token.ofText .string (String.ofList (spell (t :: ts)))).text.toList =
          spell (t :: ts) := String.toList_ofList
      have hne : spell (t :: ts) ≠ [] := by
        rw [spell_cons]
        exact fun hnil => h.1.toList_ne_nil (List.append_eq_nil_iff.mp hnil).1
      -- the string takes all that is left, so no token is behind it
      have hstring : Next .quote (.ofText .string (String.ofList (spell (t :: ts)))) [] :=
        Stands.next_string rfl (by rw [htext]; exact ⟨hne, hquote⟩) rfl rfl
      have heq : t.text.toList ++ (spell ts ++ []) =
          (Token.ofText .string (String.ofList (spell (t :: ts)))).text.toList ++ [] := by
        rw [htext, spell_cons, List.append_assoc]
      obtain ⟨hkind, -, hrest⟩ := h.1.unique hstring heq
      have hk : t.kind = .string := hkind
      cases ts with
      | nil => exact referenceNames_cons_of_kind [] hk (by decide)
      | cons u us =>
          rw [List.append_nil, spell_cons] at hrest
          exact absurd (List.append_eq_nil_iff.mp hrest).1 h.2.1.toList_ne_nil

/-- What is not settled has no reference. -/
theorem Lexed.referenceNames_of_not_settles (h : Lexed m ts [])
    (hsettles : ¬ m.Settles (spell ts)) : referenceNames ts = [] := by
  by_cases hclosed : ']' ∈ spell ts
  · obtain ⟨rfl, hquote⟩ := Classical.not_imp.mp fun hquote => hsettles ⟨hclosed, hquote⟩
    exact h.referenceNames_of_open hquote
  · rw [← List.append_nil (spell ts)] at hclosed
    exact h.referenceNames_of_not_closed hclosed

/-- The tokens of a longer text start with the same references. -/
theorem Lexed.referenceNames_isPrefix {more : List Char} (h : Lexed m ts [])
    (h' : Lexed m us []) (hspell : spell us = spell ts ++ more) :
    referenceNames ts <+: referenceNames us := by
  induction ts generalizing m us with
  | nil => exact List.nil_prefix
  | cons t ts ih =>
      by_cases hsettles : m.Settles (spell (t :: ts))
      · obtain ⟨u, us, rfl, hkind, htext, hlexed, hrest⟩ := h.exists_cons h' hspell hsettles
        have hprefix := ih h.2 hlexed hrest
        by_cases hk : t.kind = .referenceName
        · rw [referenceNames_cons_of_eq ts hk, referenceNames_cons_of_eq us (hkind.trans hk),
            htext, List.prefix_cons_inj]
          exact hprefix
        · rw [referenceNames_cons_of_ne ts hk,
            referenceNames_cons_of_ne us (fun hk' => hk (hkind.symm.trans hk'))]
          exact hprefix
      · rw [h.referenceNames_of_not_settles hsettles]
        exact List.nil_prefix

end

/-- **REFERENCES ONLY GROW**: whatever is typed behind a formula, its list of
    references goes on from what it was. -/
theorem referencesUsed_isPrefix (s t : String) :
    ∃ tokens tokens', tokenize s = .ok tokens ∧ tokenize (s ++ t) = .ok tokens' ∧
      referencesUsed tokens <+: referencesUsed tokens' := by
  obtain ⟨tokens, htokens⟩ := exists_tokenize s
  obtain ⟨tokens', htokens'⟩ := exists_tokenize (s ++ t)
  refine ⟨tokens, tokens', htokens, htokens', ?_⟩
  obtain ⟨hlexed, hspell⟩ := lexed_of_tokenize htokens
  obtain ⟨hlexed', hspell'⟩ := lexed_of_tokenize htokens'
  rw [String.toList_append, ← hspell] at hspell'
  rw [referencesUsed_eq, referencesUsed_eq]
  exact eraseDups_isPrefix (hlexed.referenceNames_isPrefix hlexed' hspell')

end FormulaBar
