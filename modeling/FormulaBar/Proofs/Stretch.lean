import FormulaBar.Proofs.Silence
import FormulaBar.Proofs.Standing

/-! # Stretch — tokens that stand one behind the other

    A stretch of tokens stands in front of a character where each of them
    stands in front of the next, and the last in front of that character.
    Such a stretch is what the lexer reads off its own text, and it may be
    cut, joined and moved into another formula as long as these characters
    stay.

    The tokens of a formula that has a tree stand.  What the lexer alone
    does not grant for that, such as that no number follows a number, is
    read off the silence of the pass over the tokens. -/

namespace FormulaBar

/-- The tokens stand one behind the other, with `m` in mind in front of them
    and the character `next` behind them. -/
def Standing : Memory → List Token → Option Char → Prop
  | _, [], _ => True
  | m, t :: ts, next => Stands m ((spell ts).head?.or next) t ∧ Standing (m.after t) ts next

/-- Two stretches stand one behind the other where the first stands in front
    of the second's first character. -/
theorem standing_append {m : Memory} {ts us : List Token} {next : Option Char} :
    Standing m (ts ++ us) next ↔
      Standing m ts ((spell us).head?.or next) ∧ Standing (m.afterAll ts) us next := by
  induction ts generalizing m with
  | nil => exact (and_iff_right trivial).symm
  | cons t ts ih =>
      rw [List.cons_append, Standing, Standing, ih, spell_append, List.head?_append,
        Option.or_assoc, and_assoc]
      rfl

/-- What stands is read. -/
theorem Standing.lexed {m : Memory} {ts : List Token} {rest : List Char}
    (h : Standing m ts rest.head?) : Lexed m ts rest := by
  induction ts generalizing m with
  | nil => exact trivial
  | cons t ts ih => exact ⟨Stands.next (by rw [List.head?_append]; exact h.1), ih h.2⟩

/-- A token that stands has a text. -/
theorem Stands.nonempty {m : Memory} {next : Option Char} {t : Token}
    (h : Stands m next t) : t.text.toList ≠ [] := by
  cases h with
  | startQuote _ text _ => exact text ▸ List.cons_ne_nil _ _
  | endQuote _ text _ => exact text ▸ List.cons_ne_nil _ _
  | string _ text _ _ => exact text.1
  | number _ text _ _ _ => exact text.1
  | operator _ text _ _ _ => exact text ▸ List.cons_ne_nil _ _
  | referenceName _ text _ _ => exact text.nonempty
  | functionName _ text _ _ =>
      intro hnil
      rw [hnil] at text
      cases text
  | bracket _ text _ _ => exact text ▸ List.cons_ne_nil _ _
  | comma _ text _ => exact text ▸ List.cons_ne_nil _ _
  | whitespace _ text _ _ => exact text.1

/-- In front of a character that prolongs no token, a token stands that
    stands at the end and is not inside of a text. -/
theorem Stands.in_front {m : Memory} {t : Token} {c : Char} (h : Stands m none t)
    (hc : endsNumber (some c) = true ∧ c ≠ ' ') (htext : m.after t ≠ .text) :
    Stands m (some c) t := by
  cases h with
  | startQuote kind text closed => exact .startQuote kind text closed
  | endQuote kind text opened => exact .endQuote kind text opened
  | string kind _ _ _ =>
      refine absurd ?_ htext
      rw [Memory.after_of_kind kind (by decide), Token.memory_of_string kind]
  | number kind text outside sign _ => exact .number kind text outside sign hc.1
  | operator kind text mem outside sign => exact .operator kind text mem outside sign
  | referenceName _ _ _ ends => cases ends
  | functionName _ _ _ ends => cases ends
  | bracket kind text mem outside => exact .bracket kind text mem outside
  | comma kind text outside => exact .comma kind text outside
  | whitespace kind text outside _ =>
      exact .whitespace kind text outside fun hspace => hc.2 (Option.some.inj hspace)

/-- **STRETCHES END ANYWHERE**: a stretch that stands at the end of a formula,
    outside of a text, stands in front of a character that prolongs no
    token. -/
theorem Standing.in_front {m : Memory} {ts : List Token} {c : Char}
    (h : Standing m ts none) (hc : endsNumber (some c) = true ∧ c ≠ ' ')
    (htext : m.afterAll ts ≠ .text) : Standing m ts (some c) := by
  induction ts generalizing m with
  | nil => exact trivial
  | cons t ts ih =>
      refine ⟨?_, ih h.2 htext⟩
      have ht := h.1
      cases ts with
      | nil => exact ht.in_front hc htext
      | cons u us =>
          -- the token behind it is not empty, so it is the same character
          obtain ⟨d, text, hd⟩ := List.exists_cons_of_ne_nil h.2.1.nonempty
          rw [spell_cons, hd] at ht ⊢
          exact ht

/-! ## Written tokens -/

theorem significant_cons_of_kind {t : Token} (ts : List Token) (h : t.kind ≠ .whitespace) :
    significant (t :: ts) = t :: significant ts :=
  List.filter_cons_of_pos (by simpa [Token.isSignificant] using h)

theorem significant_cons_of_whitespace {t : Token} (ts : List Token)
    (h : t.kind = .whitespace) : significant (t :: ts) = significant ts :=
  List.filter_cons_of_neg (by simp [Token.isSignificant, h])

theorem significant_append (ts us : List Token) :
    significant (ts ++ us) = significant ts ++ significant us :=
  List.filter_append ts us

/-- A token with the given text, at no place yet. -/
def Token.ofText (kind : Token.Kind) (text : String) : Token :=
  ⟨kind, text, 0, 0⟩

/-- A token that is one character. -/
def Token.ofChar (kind : Token.Kind) (c : Char) : Token :=
  ofText kind (String.singleton c)

namespace Token

theorem toList_ofChar (kind : Token.Kind) (c : Char) :
    (ofChar kind c).text.toList = [c] := String.toList_singleton c

theorem isBracket_ofChar (c : Char) : (ofChar .bracket c).isBracket c = true :=
  isBracket_iff.mpr ⟨rfl, toList_ofChar .bracket c⟩

theorem memory_ofChar {c : Char} (h : c ≠ '[') : (ofChar .bracket c).memory = .other :=
  memory_of_isBracket (isBracket_ofChar c) h

end Token

/-- A token other than whitespace is in mind by its own class. -/
theorem Memory.after_ofText {m : Memory} {kind : Token.Kind} {text : String}
    (h : kind ≠ .whitespace) : m.after (.ofText kind text) = (Token.ofText kind text).memory :=
  Memory.after_of_kind rfl h

theorem Memory.after_ofChar {m : Memory} {kind : Token.Kind} {c : Char}
    (h : kind ≠ .whitespace) : m.after (.ofChar kind c) = (Token.ofChar kind c).memory :=
  Memory.after_of_kind rfl h

theorem significant_ofText {kind : Token.Kind} (text : String) (ts : List Token)
    (h : kind ≠ .whitespace) :
    significant (.ofText kind text :: ts) = .ofText kind text :: significant ts :=
  significant_cons_of_kind ts h

theorem significant_ofChar {kind : Token.Kind} (c : Char) (ts : List Token)
    (h : kind ≠ .whitespace) :
    significant (.ofChar kind c :: ts) = .ofChar kind c :: significant ts :=
  significant_cons_of_kind ts h

/-- A bracket stands anywhere but in a text and behind a bracket that opens
    a reference. -/
theorem stands_bracket {m : Memory} {next : Option Char} {c : Char} (h : c ∈ bracketChars)
    (hm : m ≠ .quote ∧ m ≠ .bracket) : Stands m next (.ofChar .bracket c) :=
  .bracket rfl (Token.toList_ofChar .bracket c) h hm

/-! ## What the lexer grants -/

/-- What is in mind behind the latest significant token. -/
def Memory.behind (previous : Option Token) : Memory :=
  (previous.map Token.memory).getD .other

/-- A bracket is in mind right behind the opening bracket of a reference. -/
theorem Memory.behind_eq_bracket {previous : Option Token} :
    Memory.behind previous = .bracket ↔ previous.any (·.isBracket '[') = true := by
  cases previous with
  | none => exact ⟨nofun, nofun⟩
  | some t => exact Token.memory_eq_bracket

/-- Whatever may be in mind is behind some tokens. -/
theorem exists_memory (m : Memory) : ∃ history : History, history.memory = m := by
  cases m with
  | quote => exact ⟨[⟨.startQuote, "", 0, 0⟩], rfl⟩
  | text => exact ⟨[⟨.string, "", 0, 0⟩], rfl⟩
  | operator => exact ⟨[⟨.operator, "", 0, 0⟩], rfl⟩
  | bracket => exact ⟨[⟨.bracket, "[", 0, 0⟩], by decide⟩
  | other => exact ⟨[], rfl⟩

/-- What is read, a rule makes. -/
theorem Next.exists_rule {m : Memory} {t : Token} {rest : List Char} (h : Next m t rest) :
    ∃ (cursor : Cursor) (history : History), cursor.rest = t.text.toList ++ rest ∧
      history.memory = m ∧ Rule cursor history t.kind t.text.length := by
  obtain ⟨history, hm⟩ := exists_memory m
  refine ⟨⟨[], t.text.toList ++ rest⟩, history, rfl, hm, ?_⟩
  have hrule := rule_of_classify ⟨[], t.text.toList ++ rest⟩ history
  rwa [h.classified _ _ rfl hm] at hrule

/-- What is read off the front of a text is settled by what is in mind. -/
theorem Next.unique {m : Memory} {t u : Token} {rest rest' : List Char} (ht : Next m t rest)
    (hu : Next m u rest') (h : t.text.toList ++ rest = u.text.toList ++ rest') :
    t.kind = u.kind ∧ t.text = u.text ∧ rest = rest' := by
  obtain ⟨history, hm⟩ := exists_memory m
  have hclassify : (t.kind, t.text.length) = (u.kind, u.text.length) :=
    (ht.classified ⟨[], t.text.toList ++ rest⟩ history rfl hm).symm.trans
      (hu.classified _ history h hm)
  obtain ⟨hkind, hlength⟩ := Prod.mk.inj hclassify
  rw [← String.length_toList, ← String.length_toList] at hlength
  obtain ⟨htext, hrest⟩ := List.append_inj h hlength
  exact ⟨hkind, String.toList_inj.mp htext, hrest⟩

/-- What is taken for a name is one. -/
theorem isIdentifier_ahead {text : List Char} (h : Pattern.identifier.ahead text ≠ []) :
    isIdentifier (Pattern.identifier.ahead text) = true := by
  cases text with
  | nil => exact absurd rfl h
  | cons c text =>
      by_cases hc : Pattern.startsName c = true
      · simp only [Pattern.identifier, if_pos hc]
        refine Bool.and_eq_true_iff.mpr ⟨hc, List.all_eq_true.mpr fun d hd => ?_⟩
        exact List.mem_takeWhile_imp hd
      · exact absurd (if_neg hc) h

/-! Of the rules that look at more than one character, each is treated on its
    own.  The token's text is what the rule's pattern takes. -/

section

variable {cursor : Cursor} {history : History} {t : Token} {rest : List Char}

/-- The longest text without quotes stands behind a start quote. -/
theorem stands_of_quotedText (hrest : cursor.rest = t.text.toList ++ rest)
    (hne : t.text.toList ≠ []) (hk : t.kind = .string)
    (htext : t.text.toList = Pattern.quotedText.ahead cursor.rest)
    (hbehind : history.latestKind? = some .startQuote) :
    Stands history.memory rest.head? t := by
  have hrun : cursor.rest.takeWhile (· != '"') = t.text.toList := htext.symm
  refine .string hk ⟨hne, ?_⟩ (History.latestKind?_startQuote.mp hbehind) ?_
  · intro hmem
    rw [← hrun] at hmem
    exact absurd (List.mem_takeWhile_imp hmem) (by decide)
  · rw [hrest] at hrun
    have hstop := takeWhile_eq_nil_of_append hrun
    cases rest with
    | nil => rfl
    | cons c rest => simpa [List.takeWhile_cons] using hstop

/-- A number that was matched stands in front of what ends it. -/
theorem stands_of_number {c : Char} (hrest : cursor.rest = t.text.toList ++ rest)
    (hk : t.kind = .number) (hc : OutsideText cursor history c)
    (hmatch : cursor.match? .number = some t.text.toList)
    (hminus : c = '-' → history.latestKind? = some .operator)
    (hends : endsNumber rest.head? = true) : Stands history.memory rest.head? t := by
  obtain ⟨hahead, hne⟩ := Cursor.match?_eq_some.mp hmatch
  rw [hrest, ahead_number_append hne hends] at hahead
  refine .number hk ⟨hne, hahead⟩ (mt History.latestKind?_startQuote.mpr hc.not_behind)
    (fun hsign => History.latestKind?_operator.mp (hminus ?_)) hends
  have hpeek := hc.peek
  rw [Cursor.peek?, hrest, List.head?_append, hsign] at hpeek
  exact (Option.some.inj hpeek).symm

/-- A reference name that was ahead stands behind its bracket. -/
theorem stands_of_referenceAhead? {c : Char} (hrest : cursor.rest = t.text.toList ++ rest)
    (hk : t.kind = .referenceName) (hc : OutsideChain cursor history c)
    (hopener : history.previous?.any (·.isBracket '[') = true)
    (hname : referenceAhead? cursor = some t.text.toList) :
    Stands history.memory rest.head? t := by
  obtain ⟨hne, hall, tail, htail⟩ := referenceAhead?_eq_some_iff.mp hname
  obtain rfl : rest = ']' :: tail := List.append_cancel_left (hrest.symm.trans htail)
  have hhead : t.text.toList.head? = some c := by
    have hpeek := hc.peek
    obtain ⟨d, text, hd⟩ := List.exists_cons_of_ne_nil hne
    rw [Cursor.peek?, hrest, hd] at hpeek
    rw [hd]
    exact hpeek
  refine .referenceName hk ⟨hne, hall, ?_, ?_, ?_⟩ (History.any_isBracket_iff.mp hopener) rfl
  · rw [hhead]
    exact fun hquote => hc.not_quote (Option.some.inj hquote)
  · intro d hd
    obtain rfl := Option.some.inj (hhead.symm.trans hd)
    exact hc.no_operator
  · -- a number at the front of the name would be ahead of the cursor, too
    refine Classical.byContradiction fun hnumber => ?_
    have hsome : cursor.match? .number = some (Pattern.number.ahead t.text.toList) := by
      refine Cursor.match?_eq_some.mpr ⟨?_, hnumber⟩
      rw [hrest, ahead_number_append hne rfl]
    cases hc.no_number.symm.trans hsome

/-- The longest run of spaces stands outside texts and references. -/
theorem stands_of_spaces (hrest : cursor.rest = t.text.toList ++ rest)
    (hk : t.kind = .whitespace) (hmatch : cursor.match? .spaces = some t.text.toList)
    (houtside : history.memory ≠ .quote ∧ history.memory ≠ .bracket) :
    Stands history.memory rest.head? t := by
  obtain ⟨hahead, hne⟩ := Cursor.match?_eq_some.mp hmatch
  have hrun : cursor.rest.takeWhile (· == ' ') = t.text.toList := hahead
  refine .whitespace hk ⟨hne, fun d hd => ?_⟩ houtside ?_
  · rw [← hrun] at hd
    exact beq_iff_eq.mp (List.mem_takeWhile_imp (p := (· == ' ')) hd)
  · rw [hrest] at hrun
    have hstop := takeWhile_eq_nil_of_append hrun
    cases rest with
    | nil => nofun
    | cons d rest => simpa [List.takeWhile_cons] using hstop

/-- A token that a rule makes stands, where it is known, no number goes on
    behind a number, no operator is behind an operator and nothing but a
    reference name behind a bracket that opens a reference. -/
theorem Rule.stands (h : Rule cursor history t.kind t.text.length)
    (hrest : cursor.rest = t.text.toList ++ rest) (hne : t.text.toList ≠ [])
    (hknown : t.kind ≠ .error ∧ t.kind ≠ .unfinishedFormula)
    (hnumber : t.kind = .number → endsNumber rest.head? = true)
    (hoperator : t.kind = .operator → history.memory ≠ .operator)
    (hbracket : history.memory = .bracket → t.kind = .referenceName) :
    Stands history.memory rest.head? t := by
  have htake : t.text.toList = cursor.rest.take t.text.length := by
    rw [hrest, ← String.length_toList, List.take_left]
  have hquote : history.latestKind? ≠ some .startQuote → history.memory ≠ .quote :=
    mt History.latestKind?_startQuote.mpr
  have houtside : ∀ {k : Token.Kind}, history.latestKind? ≠ some .startQuote →
      t.kind = k → k ≠ .referenceName →
      history.memory ≠ .quote ∧ history.memory ≠ .bracket := by
    intro k hbehind hk hname
    exact ⟨hquote hbehind, fun hm => hname (hk ▸ hbracket hm)⟩
  generalize hk : t.kind = k at h
  generalize hn : t.text.length = n at h
  rw [hn] at htake
  -- what a rule asks for is what a token needs to stand
  cases h with
  | atEnd _ => exact absurd hk hknown.1
  | endQuote hc hopen =>
      refine .endQuote hk (htake.trans (take_of_peek? hc)) ?_
      rw [← History.latestKind?_string, ← History.latestKind?_startQuote]
      exact hopen
  | startQuote hc hclosed =>
      refine .startQuote hk (htake.trans (take_of_peek? hc)) ?_
      rw [ne_eq, ne_eq, ← History.latestKind?_string, ← History.latestKind?_startQuote,
        ← not_or]
      exact hclosed
  | string _ _ hbehind =>
      have htext := List.prefix_iff_eq_take.mp (Pattern.quotedText.ahead_isPrefix cursor.rest)
      exact stands_of_quotedText hrest hne hk (htake.trans htext.symm) hbehind
  | number hc hmatch hminus =>
      rw [← take_of_match? hmatch, ← htake] at hmatch
      exact stands_of_number hrest hk hc hmatch hminus (hnumber hk)
  | minus hc _ _ =>
      exact .operator hk (htake.trans (take_of_peek? hc.peek)) (by decide)
        (hquote hc.not_behind) (hoperator hk)
  | operator hc _ hmem =>
      exact .operator hk (htake.trans (take_of_peek? hc.peek)) hmem
        (hquote hc.not_behind) (hoperator hk)
  | referenceName hc hopener hname =>
      rw [← take_of_match? (Option.filter_eq_some_iff.mp hname).1, ← htake] at hname
      exact stands_of_referenceAhead? hrest hk hc hopener hname
  | @functionName c name hc hmatch hparen =>
      have htext : t.text.toList = name := htake.trans (take_of_match? hmatch)
      obtain ⟨hahead, hname⟩ := Cursor.match?_eq_some.mp hmatch
      refine .functionName hk ?_ (houtside hc.not_behind hk (by decide)) ?_
      · rw [htext, ← hahead]
        exact isIdentifier_ahead (hahead ▸ hname)
      · rw [Cursor.peek?, Cursor.rest_advance, hrest, ← htext, List.drop_left] at hparen
        exact hparen
  | unfinishedFormula _ _ _ => exact absurd hk hknown.2
  | bracket hc hmem =>
      exact .bracket hk (htake.trans (take_of_peek? hc.peek)) hmem
        (houtside hc.not_behind hk (by decide))
  | comma hc =>
      exact .comma hk (htake.trans (take_of_peek? hc.peek))
        (houtside hc.not_behind hk (by decide))
  | whitespace hc _ _ hmatch =>
      rw [← take_of_match? hmatch, ← htake] at hmatch
      exact stands_of_spaces hrest hk hmatch (houtside hc.not_behind hk (by decide))
  | error _ _ _ _ => exact absurd hk hknown.1

end

/-! ## What the pass over the tokens grants -/

/-- What a significant token of a formula with a tree has in front of it. -/
structure Neighbours (previous : Option Token) (t : Token) : Prop where
  known : t.kind ≠ .error ∧ t.kind ≠ .unfinishedFormula
  number : t.kind = .number → previous.all (·.allowsValue) = true
  operator : t.kind = .operator → previous.any (·.producesValue) = true
  behind : previous.any (·.isBracket '[') = true → t.kind = .referenceName

/-- Each of the significant tokens has such a neighbour, and none of them is
    missing behind a bracket that opens a reference. -/
def Orderly (previous : Option Token) : List Token → Prop
  | [] => previous.any (·.isBracket '[') = false
  | t :: rest => Neighbours previous t ∧ Orderly (some t) rest

namespace Context

variable {s : Context} {t : Token}

/-- Behind a bracket that opens a reference only the inner tokens and a
    reference name are silent. -/
theorem kind_of_silent_behind {last : Bool} (ht : t.isSignificant = true)
    (hbracket : t.kind = .bracket → ∃ b ∈ bracketChars, t.isBracket b = true)
    (h : s.causes t last = []) (hallows : s.allowsValue = false)
    (hproduces : s.producesValue = false) (hbehind : s.isBehind .functionName = false)
    (hname : s.isBehind .referenceName = false) (hin : s.inParentheses = false) :
    t.kind = .endQuote ∨ t.kind = .string ∨ t.kind = .referenceName := by
  -- all other tokens ask for a place where a value starts or has ended
  cases hk : t.kind with
  | whitespace => exact absurd ht (by simp [Token.isSignificant, hk])
  | number =>
      have hs := (causes_start (Or.inr (Or.inl hk))).mp h
      cases hallows.symm.trans hs
  | operator =>
      have hs := ((causes_operator hk).mp h).1
      cases hproduces.symm.trans hs
  | startQuote =>
      have hs := (causes_start (Or.inr (Or.inr hk))).mp h
      cases hallows.symm.trans hs
  | endQuote => exact Or.inl rfl
  | string => exact Or.inr (Or.inl rfl)
  | bracket =>
      obtain ⟨b, hmem, hb⟩ := hbracket hk
      have hcases : b = '(' ∨ b = ')' ∨ b = '[' ∨ b = ']' := by
        simpa [bracketChars] using hmem
      rcases hcases with rfl | rfl | rfl | rfl
      · rcases (causes_openParen hb).mp h with hs | hs
        · cases hbehind.symm.trans hs
        · cases hallows.symm.trans hs
      · cases hin.symm.trans ((causes_closeParen hb).mp h).1
      · cases hallows.symm.trans ((causes_openBracket hb).mp h)
      · cases hname.symm.trans ((causes_closeBracket hb).mp h).2
  | comma => cases hin.symm.trans ((causes_comma hk).mp h).1
  | functionName =>
      have hs := (causes_start (Or.inl hk)).mp h
      cases hallows.symm.trans hs
  | referenceName => exact Or.inr (Or.inr rfl)
  | unfinishedFormula => exact absurd h (causes_ne_nil (Or.inl hk))
  | error => exact absurd h (causes_ne_nil (Or.inr hk))

/-- A silent token that fits has the neighbour it needs, as long as an opening
    bracket in front of it has its frame. -/
theorem neighbours {last : Bool} (hfits : Fits (s.previous.map Prod.snd) t)
    (hframes : s.previous.any (·.2.isBracket '[') = true →
      s.innermost = some .reference)
    (h : s.causes t last = []) : Neighbours (s.previous.map Prod.snd) t := by
  refine ⟨⟨fun hk => ?_, fun hk => ?_⟩, fun hk => ?_, fun hk => ?_, fun hopener => ?_⟩
  · exact causes_ne_nil (Or.inr hk) h
  · exact causes_ne_nil (Or.inl hk) h
  · have hs : s.allowsValue = true := (causes_start (Or.inr (Or.inl hk))).mp h
    rwa [Option.all_map]
  · have hs : s.producesValue = true := ((causes_operator hk).mp h).1
    rwa [Option.any_map]
  · rw [Option.any_map] at hopener
    have hinnermost := hframes hopener
    obtain ⟨⟨i, u⟩, hprevious, hu⟩ := (Option.any_eq_true _ _).mp hopener
    have hukind : u.kind = .bracket := Token.kind_of_isBracket hu
    have hinner := kind_of_silent_behind (s := s) hfits.significant hfits.bracket h
      (by simp [allowsValue, hprevious, Token.allowsValue, hukind,
        Token.isBracket_of_ne '(' hu (by decide)])
      (by simp [producesValue, hprevious, Token.producesValue, hukind,
        Token.isBracket_of_ne ')' hu (by decide), Token.isBracket_of_ne ']' hu (by decide)])
      (by simp [isBehind, hprevious, hukind]) (by simp [isBehind, hprevious, hukind])
      (by simp [inParentheses, hinnermost])
    rcases hinner with hk | hk | hk
    · -- neither an end quote nor a string stands right behind a bracket
      have hquote := hfits.endQuote hk
      simp [hprevious, hukind] at hquote
    · have hquote := hfits.string hk
      simp [hprevious, hukind] at hquote
    · exact hk

/-- Quiet entries that fit have such neighbours. -/
theorem orderly {count : Nat} {l : List Entry}
    (hshaped : Shaped (s.previous.map Prod.snd) (l.map Prod.snd)) (h : Quiet count s l)
    (hframes : s.previous.any (·.2.isBracket '[') = true →
      s.innermost = some .reference)
    (hend : (s.run l).innermost ≠ some .reference) :
    Orderly (s.previous.map Prod.snd) (l.map Prod.snd) := by
  induction l generalizing s with
  | nil =>
      show Option.any _ (s.previous.map Prod.snd) = false
      rw [Option.any_map]
      exact Bool.eq_false_iff.mpr fun hopener => hend (hframes hopener)
  | cons p l ih =>
      obtain ⟨hcauses, hquiet⟩ := quiet_cons.mp h
      refine ⟨neighbours hshaped.1 hframes hcauses,
        ih (s := s.after p.1 p.2) hshaped.2 hquiet (fun hopener => ?_) hend⟩
      have hafter : (s.after p.1 p.2).frames = ⟨.reference, p.1⟩ :: s.frames :=
        framesAfter_openBracket p.1 hopener
      exact innermost_of_frames hafter

end Context

/-- The tokens of a formula with a tree have such neighbours. -/
theorem orderly_of_parse {formula : String} {tokens : List Token} {e : Expr}
    (h : tokenize formula = .ok tokens) (he : parse tokens = .ok e) :
    Orderly none (significant tokens) := by
  have hsettles : Context.Settles true tokens.length {} (entries 0 tokens) :=
    (derives_of_parse he).settles (map_snd_entries 0 tokens) (indexed_entries tokens) rfl
  have hshaped := (shaped_of_tokenize h).1
  rw [← map_snd_entries 0 tokens] at hshaped ⊢
  -- in front of the first token there is no bracket
  have hnone : ¬ ({} : Context).previous.any (·.2.isBracket '[') = true := by decide
  rcases hsettles with hvalue | ⟨-, hopen⟩
  · refine Context.orderly (s := {}) hshaped hvalue.quiet (absurd · hnone) ?_
    rw [Context.innermost, hvalue.frames]
    decide
  · obtain ⟨_, i, _, _, _, _, _, hframes⟩ := hopen.text
    refine Context.orderly (s := {}) hshaped hopen.quiet (absurd · hnone) ?_
    rw [Context.innermost_of_frames hframes]
    intro hreference
    cases Option.some.inj hreference

/-! ## The tokens of a formula with a tree -/

/-- With nothing in mind only numbers and unknown characters start with a
    digit or a point. -/
theorem Rule.kind_of_point {cursor : Cursor} {history : History} {k : Token.Kind} {n : Nat}
    {c : Char} (h : Rule cursor history k n) (hpeek : cursor.peek? = some c)
    (hc : c.isDigit = true ∨ c = '.') (hm : history.memory = .other) :
    k = .number ∨ k = .error := by
  have hpoint : ∀ {d : Char}, cursor.peek? = some d → d.isDigit = true ∨ d = '.' := by
    intro d hd
    exact Option.some.inj (hpeek.symm.trans hd) ▸ hc
  -- no name starts with a digit or a point
  have hname : ∀ {text : List Char}, cursor.match? .identifier ≠ some text := by
    intro text hmatch
    obtain ⟨hahead, hne⟩ := Cursor.match?_eq_some.mp hmatch
    obtain ⟨tail, htail⟩ := List.head?_eq_some_iff.mp hpeek
    have hstart : Pattern.startsName c = true := by
      refine Classical.byContradiction fun hstart => hne ?_
      rw [← hahead, htail]
      exact if_neg hstart
    rcases hc with hdigit | rfl
    · rw [isDigit_eq_false_of_startsName hstart] at hdigit
      cases hdigit
    · exact absurd hstart (by decide)
  cases h with
  | atEnd _ => exact Or.inr rfl
  | endQuote hd _ => exact absurd (hpoint hd) (by decide)
  | startQuote hd _ => exact absurd (hpoint hd) (by decide)
  | string _ _ hbehind =>
      rw [History.latestKind?_startQuote, hm] at hbehind
      cases hbehind
  | number _ _ _ => exact Or.inl rfl
  | minus hd _ _ => exact absurd (hpoint hd.peek) (by decide)
  | @operator d hd _ hmem =>
      have hcases : d = '&' ∨ d = '*' ∨ d = '-' ∨ d = '+' ∨ d = '=' ∨ d = '/' := by
        simpa [operatorChars] using hmem
      have hd := hpoint hd.peek
      rcases hcases with rfl | rfl | rfl | rfl | rfl | rfl <;> exact absurd hd (by decide)
  | referenceName _ hopener _ =>
      rw [History.any_isBracket_iff, hm] at hopener
      cases hopener
  | functionName _ hmatch _ => exact absurd hmatch hname
  | unfinishedFormula _ hmatch _ => exact absurd hmatch hname
  | @bracket d hd hmem =>
      have hcases : d = '(' ∨ d = ')' ∨ d = '[' ∨ d = ']' := by
        simpa [bracketChars] using hmem
      have hd := hpoint hd.peek
      rcases hcases with rfl | rfl | rfl | rfl <;> exact absurd hd (by decide)
  | comma hd => exact absurd (hpoint hd.peek) (by decide)
  | @whitespace d _ hd _ _ hmatch =>
      obtain ⟨hahead, hne⟩ := Cursor.match?_eq_some.mp hmatch
      obtain ⟨tail, htail⟩ := List.head?_eq_some_iff.mp hd.peek
      rw [htail] at hahead
      have hspace : (d == ' ') = true := by
        refine Classical.byContradiction fun hspace => hne ?_
        rw [← hahead]
        exact List.takeWhile_cons_of_neg (p := (· == ' ')) hspace
      obtain rfl := beq_iff_eq.mp hspace
      exact absurd (hpoint hd.peek) (by decide)
  | error _ _ _ _ => exact Or.inr rfl

/-- Behind a number neither a digit nor a point goes on. -/
theorem endsNumber_of_orderly {t : Token} {ts : List Token} (ht : t.kind = .number)
    (hlexed : Lexed .other ts []) (h : Orderly (some t) (significant ts)) :
    endsNumber (spell ts).head? = true := by
  cases ts with
  | nil => rfl
  | cons u us =>
      have hne : u.text.toList ≠ [] :=
        fun hnil => hlexed.1.nonempty (String.toList_eq_nil_iff.mp hnil)
      obtain ⟨c, text, htext⟩ := List.exists_cons_of_ne_nil hne
      obtain ⟨cursor, history, hrest, hm, hrule⟩ := hlexed.1.exists_rule
      have hpeek : cursor.peek? = some c := by
        rw [Cursor.peek?, hrest, htext]
        rfl
      rw [spell_cons, htext]
      refine Classical.byContradiction fun hends => ?_
      have hc : c.isDigit = true ∨ c = '.' := by
        have hboth : ¬ (c.isDigit = false ∧ c ≠ '.') := by simpa [endsNumber] using hends
        by_cases hdigit : c.isDigit = true
        · exact Or.inl hdigit
        · exact Or.inr (Classical.byContradiction fun hpoint =>
            hboth ⟨Bool.eq_false_iff.mpr hdigit, hpoint⟩)
      -- such a token is a number or an error, and neither is in order here
      have hkind := hrule.kind_of_point hpeek hc hm
      have hspace : u.kind ≠ .whitespace := by
        rcases hkind with hk | hk <;> rw [hk] <;> decide
      rw [significant_cons_of_kind us hspace] at h
      rcases hkind with hk | hk
      · have hallows : t.allowsValue = true := h.1.number hk
        simp [Token.allowsValue, ht, Token.isBracket] at hallows
      · exact h.1.known.1 hk

/-- The spaces between the bracket that opens a reference and its name
    belong to the name. -/
theorem exists_referenceAhead? {opener : Token} {ts : List Token}
    (hopener : opener.isBracket '[' = true) (hlexed : Lexed .bracket ts [])
    (h : Orderly (some opener) (significant ts)) :
    ∃ name, ∀ cursor : Cursor, cursor.rest = spell ts → referenceAhead? cursor = some name := by
  induction ts with
  | nil =>
      have hclosed : opener.isBracket '[' = false := h
      cases hopener.symm.trans hclosed
  | cons t ts ih =>
      obtain ⟨cursor, history, hrest, hm, hrule⟩ := hlexed.1.exists_rule
      rw [List.append_nil] at hrest
      by_cases hk : t.kind = .whitespace
      · -- the spaces go in front of the name that is ahead behind them
        rw [significant_cons_of_whitespace ts hk] at h
        have hlexed' : Lexed .bracket ts [] := by
          have htail := hlexed.2
          rwa [Memory.after_of_whitespace hk] at htail
        obtain ⟨name, hname⟩ := ih hlexed' h
        obtain ⟨-, hall, tail, htail⟩ :=
          referenceAhead?_eq_some_iff.mp (hname ⟨[], spell ts⟩ rfl)
        have htail : spell ts = name ++ ']' :: tail := htail
        generalize hn : t.text.length = n at hrule
        rw [hk] at hrule
        cases hrule with
        | whitespace _ _ _ hmatch =>
            have htext := take_of_match? hmatch
            rw [← hn, hrest, ← String.length_toList, List.take_left] at htext
            obtain ⟨hahead, hne⟩ := Cursor.match?_eq_some.mp hmatch
            have hspaces : ∀ c ∈ t.text.toList, c ≠ '[' ∧ c ≠ ']' := by
              intro c hc
              rw [htext, ← hahead] at hc
              have hspace := List.mem_takeWhile_imp (p := (· == ' ')) hc
              rw [beq_iff_eq.mp hspace]
              decide
            refine ⟨t.text.toList ++ name, fun c hc => ?_⟩
            refine referenceAhead?_eq_some_iff.mpr ⟨?_, ?_, tail, ?_⟩
            · intro hnil
              exact hne (htext ▸ (List.append_eq_nil_iff.mp hnil).1)
            · exact List.forall_mem_append.mpr ⟨hspaces, hall⟩
            · rw [hc, spell_cons, htail, List.append_assoc]
      · -- the name is the next token, and the rule for it has looked ahead
        rw [significant_cons_of_kind ts hk] at h
        have hname := h.1.behind hopener
        rw [hname] at hrule
        generalize t.text.length = n at hrule
        cases hrule with
        | @referenceName _ name _ _ hahead =>
            refine ⟨name, fun c hc => ?_⟩
            rw [referenceAhead?_congr (hc.trans (spell_cons t ts |>.trans hrest.symm))]
            exact hahead

/-- In a formula in order, a reference name is right behind its bracket, with
    no whitespace between. -/
theorem kind_of_behind_bracket {opener t : Token} {ts : List Token}
    (hopener : opener.isBracket '[' = true) (hlexed : Lexed .bracket (t :: ts) [])
    (h : Orderly (some opener) (significant (t :: ts))) : t.kind = .referenceName := by
  by_cases hk : t.kind = .whitespace
  · obtain ⟨name, hname⟩ := exists_referenceAhead? hopener hlexed h
    obtain ⟨cursor, history, hrest, hm, hrule⟩ := hlexed.1.exists_rule
    rw [hk] at hrule
    generalize t.text.length = n at hrule
    cases hrule with
    | whitespace hc _ _ _ =>
        -- the classifier would have taken the name
        have hnone := hc.no_reference (History.any_isBracket_iff.mpr hm)
        rw [hname cursor (hrest.trans (by rw [List.append_nil, spell_cons]))] at hnone
        cases hnone
  · rw [significant_cons_of_kind ts hk] at h
    exact h.1.behind hopener

/-- **ORDERLY TOKENS STAND**: the tokens read off a text stand where the
    significant ones are in order. -/
theorem standing_of_orderly {previous : Option Token} {ts : List Token}
    (hlexed : Lexed (.behind previous) ts []) (h : Orderly previous (significant ts)) :
    Standing (.behind previous) ts none := by
  induction ts generalizing previous with
  | nil => exact trivial
  | cons t ts ih =>
      obtain ⟨cursor, history, hrest, hm, hrule⟩ := hlexed.1.exists_rule
      have hne : t.text.toList ≠ [] :=
        fun hnil => hlexed.1.nonempty (String.toList_eq_nil_iff.mp hnil)
      have hbracket : Memory.behind previous = .bracket → t.kind = .referenceName := by
        intro hbehind
        obtain ⟨opener, rfl, hopener⟩ :=
          (Option.any_eq_true _ _).mp (Memory.behind_eq_bracket.mp hbehind)
        rw [hbehind] at hlexed
        exact kind_of_behind_bracket hopener hlexed h
      rw [List.append_nil] at hrest
      rw [Standing, Option.or_none, ← hm]
      rw [← hm] at hbracket
      by_cases hk : t.kind = .whitespace
      · rw [significant_cons_of_whitespace ts hk] at h
        have hafter : history.memory.after t = .behind previous := by
          rw [Memory.after_of_whitespace hk, hm]
        have hlexed' := hlexed.2
        rw [← hm, hafter] at hlexed'
        rw [hafter]
        refine ⟨hrule.stands hrest hne ?_ ?_ ?_ hbracket, ih hlexed' h⟩
        · rw [hk]
          decide
        · rw [hk]
          nofun
        · rw [hk]
          nofun
      · rw [significant_cons_of_kind ts hk] at h
        have hafter : history.memory.after t = .behind (some t) :=
          Memory.after_of_kind rfl hk
        have hlexed' := hlexed.2
        rw [← hm, hafter] at hlexed'
        rw [hafter]
        refine ⟨hrule.stands hrest hne h.1.known ?_ ?_ hbracket, ih hlexed' h.2⟩
        · -- the next token does not prolong the number
          intro hnumber
          have hother : Memory.behind (some t) = .other :=
            Token.memory_of_kind hnumber (by decide)
          rw [hother] at hlexed'
          exact endsNumber_of_orderly hnumber hlexed' h.2
        · -- the token in front ends a value, so it is no operator
          intro hoperator hmemory
          obtain ⟨u, rfl, hu⟩ := (Option.any_eq_true _ _).mp (h.1.operator hoperator)
          have hkind : u.kind = .operator := Token.memory_eq_operator.mp (hm.symm.trans hmemory)
          simp [Token.producesValue, Token.isBracket, hkind] at hu

/-- **THE TOKENS OF A FORMULA WITH A TREE STAND**. -/
theorem standing_of_parse {formula : String} {tokens : List Token} {e : Expr}
    (h : tokenize formula = .ok tokens) (he : parse tokens = .ok e) :
    Standing .other tokens none :=
  @standing_of_orderly none tokens (lexed_of_tokenize h).1 (orderly_of_parse h he)

end FormulaBar
