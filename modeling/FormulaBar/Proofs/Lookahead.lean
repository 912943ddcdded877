import FormulaBar.Proofs.Succession

/-! # Lookahead — how far the rules see

    A token is read in front of a text.  What of this text does its rule
    look at?  A number and a name end where nothing prolongs them, a string
    where a quote is, and only a name that starts a call and the name of a
    reference ask for one character behind them.  The odd one out is what
    stands behind an opening square bracket: there the rule looks for the
    next square bracket, as far as the text goes.

    So another text may take the place of the one behind some tokens if it
    is at the end or starts with a space, and does not put a closing square
    bracket where there was none.  This is all that the rules can see. -/

namespace FormulaBar

/-! ## What a rule says -/

section

variable {cursor : Cursor} {history : History} {k : Token.Kind} {n : Nat}

/-- Where a name was read, no reference name is ahead of it. -/
theorem no_reference_of_name (h : classify cursor history = (k, n))
    (hk : k = .functionName ∨ k = .unfinishedFormula)
    (hopener : history.previous?.any (·.isBracket '[') = true) :
    referenceAhead? cursor = none := by
  have hrule := rule_of_classify cursor history
  rw [h] at hrule
  obtain ⟨c, hc⟩ : ∃ c, OutsideChain cursor history c := by
    rcases hk with rfl | rfl
    · cases hrule with
      | functionName hc _ _ => exact ⟨_, hc⟩
    · cases hrule with
      | unfinishedFormula hc _ _ => exact ⟨_, hc⟩
  cases hname : referenceAhead? cursor with
  | none => rfl
  | some name =>
      -- the reference name would have been taken
      have hreference := classify_referenceName hc (History.any_isBracket_iff.mp hopener) hname
      rw [h] at hreference
      obtain ⟨rfl, -⟩ := Prod.mk.inj hreference
      rcases hk with hk | hk
      · cases hk
      · cases hk

/-- Where neither a number, an operator nor a reference name is ahead, names
    come first, then brackets, commas and spaces. -/
theorem classify_of_no_reference {c : Char} (h : OutsideChain cursor history c)
    (hreference : history.previous?.any (·.isBracket '[') = true →
      referenceAhead? cursor = none) :
    classify cursor history =
      match cursor.match? .identifier with
      | some name =>
          if (cursor.advance name.length).peek? = some '(' then (.functionName, name.length)
          else (.unfinishedFormula, name.length)
      | none =>
          if c ∈ bracketChars then (.bracket, 1)
          else if c = ',' then (.comma, 1)
          else match cursor.match? .spaces with
            | some spaces => (.whitespace, spaces.length)
            | none => (.error, 1) := by
  have hbehind : ¬ history.previous?.map (·.kind) = some .startQuote := h.not_behind
  have hnone : (if history.previous?.any (·.isBracket '[') = true then referenceAhead? cursor
      else none) = none := by
    split
    · next hopener => exact hreference hopener
    · rfl
  rw [classify, h.peek]
  simp only [if_neg h.not_quote, if_neg hbehind, h.no_number, if_neg h.no_operator, hnone]
  cases cursor.match? .identifier with
  | some name => rfl
  | none => cases cursor.match? .spaces <;> rfl

/-- What a rule says the classifier answers.  The rules of names alone leave
    open whether an earlier rule applies, that of reference names. -/
theorem Rule.classify_eq (h : Rule cursor history k n)
    (hname : k = .functionName ∨ k = .unfinishedFormula →
      history.previous?.any (·.isBracket '[') = true → referenceAhead? cursor = none) :
    classify cursor history = (k, n) := by
  cases h with
  | atEnd hend => rw [classify, hend]
  | endQuote hc hopen =>
      rw [classify, hc]
      exact (if_pos rfl).trans (if_pos hopen)
  | startQuote hc hclosed =>
      rw [classify, hc]
      exact (if_pos rfl).trans (if_neg hclosed)
  | string hc hquote hbehind =>
      rw [classify, hc]
      exact (if_neg hquote).trans (if_pos hbehind)
  | number hc hmatch hminus =>
      rw [classify_number hc hmatch]
      exact if_neg fun hsign =>
        hsign.2 (History.latestKind?_operator.mp (hminus hsign.1))
  | minus hc hmatch hminus =>
      rw [classify_number hc hmatch]
      exact if_pos ⟨rfl, mt History.latestKind?_operator.mpr hminus⟩
  | operator hc hmatch hmem => exact classify_operator hc hmatch hmem
  | referenceName hc hopener hreference =>
      exact classify_referenceName hc (History.any_isBracket_iff.mp hopener) hreference
  -- a reference name ahead would come first
  | functionName hc hmatch hparen =>
      rw [classify_of_no_reference hc (hname (Or.inl rfl)), hmatch]
      exact if_pos hparen
  | unfinishedFormula hc hmatch hparen =>
      rw [classify_of_no_reference hc (hname (Or.inr rfl)), hmatch]
      exact if_neg hparen
  | bracket hc hmem =>
      rw [classify_of_no_reference hc.toOutsideChain hc.no_reference, hc.no_identifier]
      exact if_pos hmem
  | comma hc =>
      rw [classify_of_no_reference hc.toOutsideChain hc.no_reference, hc.no_identifier]
      rfl
  | whitespace hc hbracket hcomma hmatch =>
      rw [classify_of_no_reference hc.toOutsideChain hc.no_reference, hc.no_identifier]
      simp only [if_neg hbracket, if_neg hcomma, hmatch]
  | error hc hbracket hcomma hmatch =>
      rw [classify_of_no_reference hc.toOutsideChain hc.no_reference, hc.no_identifier]
      simp only [if_neg hbracket, if_neg hcomma, hmatch]

end

/-! ## Patterns in front of less text -/

/-- A run that a text holds is a run of that text alone. -/
theorem takeWhile_of_isPrefix {p : Char → Bool} {u v : List Char}
    (h : (u ++ v).takeWhile p <+: u) : u.takeWhile p = (u ++ v).takeWhile p := by
  rw [List.takeWhile_append] at h ⊢
  split
  · next hall =>
    rw [if_pos hall] at h
    have hu : u.takeWhile p = u := (List.takeWhile_prefix p).eq_of_length hall
    have hv : v.takeWhile p = [] := by
      obtain ⟨tail, htail⟩ := h
      rw [List.append_assoc] at htail
      exact (List.append_eq_nil_iff.mp (List.append_right_eq_self.mp htail)).1
    rw [hu, hv, List.append_nil]
  · rfl

/-- The point and the digits behind it at the front of a text, if there are
    digits. -/
def fraction : List Char → List Char
  | [] => []
  | c :: text =>
      if c = '.' ∧ text.takeWhile Char.isDigit ≠ [] then
        '.' :: text.takeWhile Char.isDigit
      else []

private theorem fraction_cons (c : Char) (text : List Char) :
    fraction (c :: text) = if c = '.' ∧ text.takeWhile Char.isDigit ≠ [] then
      '.' :: text.takeWhile Char.isDigit else [] := rfl

/-- A number without a sign is its digits and the fraction behind them. -/
theorem unsignedNumber_eq (text : List Char) :
    unsignedNumber text = text.takeWhile Char.isDigit ++
      fraction (text.drop (text.takeWhile Char.isDigit).length) := by
  rw [unsignedNumber]
  split
  · next rest hdrop =>
    rw [hdrop, fraction_cons]
    split
    · next hnone => rw [if_neg fun h => h.2 hnone, List.append_nil]
    · next hsome => rw [if_pos ⟨rfl, hsome⟩]
  · next hpoint =>
    cases hdrop : text.drop (text.takeWhile Char.isDigit).length with
    | nil => exact (List.append_nil _).symm
    | cons c rest =>
        rw [fraction_cons, if_neg, List.append_nil]
        rintro ⟨rfl, -⟩
        exact hpoint rest hdrop

/-- A fraction that ends in the first of two texts is read off that text
    alone. -/
theorem fraction_of_isPrefix {u v : List Char} (h : fraction (u ++ v) <+: u) :
    fraction u = fraction (u ++ v) := by
  cases u with
  | nil => exact (List.prefix_nil.mp h).symm
  | cons c u =>
      rw [List.cons_append, fraction_cons] at h
      rw [List.cons_append, fraction_cons, fraction_cons]
      by_cases hc : c = '.' ∧ (u ++ v).takeWhile Char.isDigit ≠ []
      · rw [if_pos hc] at h
        rw [takeWhile_of_isPrefix (List.cons_prefix_cons.mp h).2]
      · have hdigits : ¬ (c = '.' ∧ u.takeWhile Char.isDigit ≠ []) := by
          rintro ⟨hpoint, hne⟩
          have hnil : (u ++ v).takeWhile Char.isDigit = [] :=
            Classical.byContradiction fun hsome => hc ⟨hpoint, hsome⟩
          exact hne ((takeWhile_of_isPrefix (hnil ▸ List.nil_prefix)).trans hnil)
        rw [if_neg hc, if_neg hdigits]

/-- A number without a sign that ends in the first of two texts is read off
    that text alone. -/
theorem unsignedNumber_of_isPrefix {u v : List Char} (h : unsignedNumber (u ++ v) <+: u) :
    unsignedNumber u = unsignedNumber (u ++ v) := by
  rw [unsignedNumber_eq] at h
  have hwhole := takeWhile_of_isPrefix ((List.prefix_append _ _).trans h)
  have hprefix : u.takeWhile Char.isDigit <+: u := List.takeWhile_prefix _
  have hsplit := List.prefix_iff_eq_append.mp hprefix
  rw [← hwhole, List.drop_append_of_le_length hprefix.length_le] at h
  have hfraction := (List.prefix_append_right_inj _).mp
    (h.trans ⟨[], by rw [List.append_nil, hsplit]⟩)
  rw [unsignedNumber_eq, unsignedNumber_eq, ← hwhole,
    List.drop_append_of_le_length hprefix.length_le, fraction_of_isPrefix hfraction]

/-- A pattern that takes off a text what it takes off any part of it that
    holds that much, and for which a text ends where a space is. -/
structure Pattern.Settled (p : Pattern) : Prop where
  of_isPrefix : ∀ {u v}, p.ahead (u ++ v) <+: u → p.ahead u = p.ahead (u ++ v)
  append : ∀ {u v}, u ≠ [] → v.head?.all (· == ' ') = true → p.ahead (u ++ v) = p.ahead u

theorem head?_eq_of_all {v : List Char} {c : Char} (h : v.head?.all (· == ' ') = true)
    (hc : v.head? = some c) : c = ' ' := by
  rw [hc] at h
  exact beq_iff_eq.mp h

/-- A minus sign is taken with a number behind it, and not without one. -/
theorem ahead_number_minus (text : List Char) : Pattern.number.ahead ('-' :: text) =
    if unsignedNumber text = [] then [] else '-' :: unsignedNumber text := by
  simp only [Pattern.number]
  split
  · next hnil => rw [if_pos hnil]
  · next hne => rw [if_neg hne]

/-- Where no minus sign comes first, a number is one without a sign. -/
theorem ahead_number_of_ne {c : Char} (hc : c ≠ '-') (text : List Char) :
    Pattern.number.ahead (c :: text) = unsignedNumber (c :: text) := by
  simp only [Pattern.number]
  split
  · next heq =>
    obtain ⟨rfl, -⟩ := List.cons.inj heq
    exact absurd rfl hc
  · rfl

/-- The pattern of numbers is settled. -/
theorem settled_number : Pattern.number.Settled where
  of_isPrefix := by
    intro u v h
    cases u with
    | nil => exact (List.prefix_nil.mp h).symm
    | cons c u =>
        rw [List.cons_append] at h ⊢
        by_cases hc : c = '-'
        · subst hc
          rw [ahead_number_minus] at h
          rw [ahead_number_minus, ahead_number_minus]
          -- behind the sign the digits end in the front, too
          have hdigits : unsignedNumber (u ++ v) <+: u := by
            by_cases hnil : unsignedNumber (u ++ v) = []
            · rw [hnil]
              exact List.nil_prefix
            · rw [if_neg hnil] at h
              exact (List.cons_prefix_cons.mp h).2
          rw [unsignedNumber_of_isPrefix hdigits]
        · rw [ahead_number_of_ne hc] at h
          rw [ahead_number_of_ne hc, ahead_number_of_ne hc]
          exact unsignedNumber_of_isPrefix h
  append := by
    intro u v hne hv
    refine ahead_number_append hne ?_
    cases hc : v.head? with
    | none => rfl
    | some c =>
        rw [head?_eq_of_all hv hc]
        rfl

/-- The pattern of names is settled. -/
theorem settled_identifier : Pattern.identifier.Settled where
  of_isPrefix := by
    intro u v h
    cases u with
    | nil => exact (List.prefix_nil.mp h).symm
    | cons c u =>
        rw [List.cons_append] at h ⊢
        by_cases hc : Pattern.startsName c = true
        · simp only [Pattern.identifier, if_pos hc] at h ⊢
          rw [takeWhile_of_isPrefix (List.cons_prefix_cons.mp h).2]
        · simp only [Pattern.identifier, if_neg hc]
  append := by
    intro u v hne hv
    have hstop : v.takeWhile Pattern.continuesName = [] := by
      cases v with
      | nil => rfl
      | cons c v =>
          rw [head?_eq_of_all hv rfl]
          rfl
    cases u with
    | nil => exact absurd rfl hne
    | cons c u => simp only [Pattern.identifier, List.cons_append, takeWhile_append_stop u hstop]

/-! ## The next square bracket -/

/-- The first square bracket of a text. -/
def nextSquare (text : List Char) : Option Char :=
  text.find? fun c => c == '[' || c == ']'

theorem nextSquare_append (u v : List Char) :
    nextSquare (u ++ v) = (nextSquare u).or (nextSquare v) := List.find?_append

/-- A run without square brackets has no next one. -/
theorem nextSquare_of_forall {run : List Char} (h : ∀ c ∈ run, c ≠ '[' ∧ c ≠ ']') :
    nextSquare run = none := by
  refine List.find?_eq_none.mpr fun c hc => ?_
  simpa using h c hc

/-- A reference name is ahead where the next square bracket closes, but is
    not right ahead. -/
theorem referenceAhead?_ne_none_iff {c : Cursor} :
    referenceAhead? c ≠ none ↔ nextSquare c.rest = some ']' ∧ c.peek? ≠ some ']' := by
  rw [Option.ne_none_iff_exists']
  constructor
  · rintro ⟨name, hname⟩
    obtain ⟨hne, hall, rest, hrest⟩ := referenceAhead?_eq_some_iff.mp hname
    rw [Cursor.peek?, hrest, nextSquare_append, nextSquare_of_forall hall]
    refine ⟨rfl, fun hpeek => ?_⟩
    rw [List.head?_append_of_ne_nil _ hne] at hpeek
    exact (hall _ (List.mem_of_head? hpeek)).2 rfl
  · rintro ⟨hsquare, hpeek⟩
    obtain ⟨-, name, rest, hrest, hall⟩ := List.find?_eq_some_iff_append.mp hsquare
    refine ⟨name, referenceAhead?_eq_some_iff.mpr ⟨?_, ?_, rest, hrest⟩⟩
    · rintro rfl
      rw [Cursor.peek?, hrest] at hpeek
      exact hpeek rfl
    · intro c hc
      simpa using hall c hc

/-! ## Another text behind the tokens -/

/-- What may take the place of a text behind tokens: it is at the end or
    starts with a space, and the next square bracket in it is a closing one
    only where it was before. -/
structure Recedes (rest rest' : List Char) : Prop where
  stops : rest'.head?.all (· == ' ') = true
  closes : nextSquare rest' = some ']' → nextSquare rest = some ']'

/-- Whether a token of the class may be the last in front of such a text:
    nothing in particular has to follow it, and a space does not prolong it. -/
def Token.Kind.MayEnd (k : Token.Kind) (rest : List Char) : Prop :=
  k ≠ .functionName ∧ k ≠ .referenceName ∧ (k = .string ∨ k = .whitespace → rest = [])

/-- The cursors are in front of one text.  Behind it, and behind what is
    between, the text at the second one recedes. -/
structure Replaces (c c' : Cursor) (text between rest rest' : List Char) : Prop where
  ne_nil : text ≠ []
  recedes : Recedes rest rest'
  rest_eq : c.rest = text ++ (between ++ rest)
  rest_eq' : c'.rest = text ++ (between ++ rest')

/-- A run of spaces is missed exactly where the next character is none. -/
theorem match?_spaces_eq_none_iff {c : Cursor} :
    c.match? .spaces = none ↔ c.peek? ≠ some ' ' := by
  rw [← not_iff_not, ← ne_eq, Option.ne_none_iff_exists', not_not]
  constructor
  · rintro ⟨spaces, hspaces⟩
    obtain ⟨hahead, hne⟩ := Cursor.match?_eq_some.mp hspaces
    obtain ⟨d, tail, rfl⟩ := List.exists_cons_of_ne_nil hne
    obtain ⟨tail', htail⟩ := hahead ▸ Pattern.spaces.ahead_isPrefix c.rest
    have hd : (d == ' ') = true :=
      List.mem_takeWhile_imp (p := (· == ' ')) (hahead ▸ List.mem_cons_self)
    rw [Cursor.peek?, ← htail, ← beq_iff_eq.mp hd]
    rfl
  · intro hspace
    obtain ⟨tail, htail⟩ := List.head?_eq_some_iff.mp hspace
    refine ⟨_, Cursor.match?_eq_some.mpr ⟨rfl, ?_⟩⟩
    rw [htail]
    exact List.cons_ne_nil _ _

/-- Behind a text at a cursor is what follows it there. -/
theorem Cursor.peek?_advance_of_append {c : Cursor} {text tail : List Char}
    (h : c.rest = text ++ tail) : (c.advance text.length).peek? = tail.head? := by
  rw [peek?, rest_advance, h, List.drop_left]

/-- A match of the length of the text at the cursor is that text. -/
theorem Cursor.eq_of_match? {c : Cursor} {p : Pattern} {text tail found : List Char}
    (h : c.rest = text ++ tail) (hmatch : c.match? p = some found)
    (hlength : found.length = text.length) : found = text := by
  rw [← take_of_match? hmatch, h, hlength, List.take_left]

/-- Another cursor in front of the same character is outside of texts too. -/
theorem OutsideText.of_peek {c c' : Cursor} {history : History} {d : Char}
    (h : OutsideText c history d) (hpeek : c'.peek? = c.peek?) : OutsideText c' history d :=
  ⟨hpeek.trans h.peek, h.not_quote, h.not_behind⟩

namespace Replaces

variable {c c' : Cursor} {history : History} {text between rest rest' : List Char}
variable {p : Pattern} {d : Char}

/-- The next character is the same. -/
theorem peek?_eq (h : Replaces c c' text between rest rest') : c'.peek? = c.peek? := by
  rw [Cursor.peek?, Cursor.peek?, h.rest_eq, h.rest_eq', List.head?_append_of_ne_nil _ h.ne_nil,
    List.head?_append_of_ne_nil _ h.ne_nil]

/-- A settled pattern that takes no more than the text takes the same of both. -/
theorem ahead_eq (h : Replaces c c' text between rest rest') (hp : p.Settled)
    (htake : p.ahead c.rest <+: text) : p.ahead c'.rest = p.ahead c.rest := by
  rw [h.rest_eq, ← List.append_assoc] at htake
  rw [h.rest_eq, h.rest_eq', ← List.append_assoc, ← List.append_assoc,
    hp.append (fun hnil => h.ne_nil (List.append_eq_nil_iff.mp hnil).1) h.recedes.stops]
  exact hp.of_isPrefix (htake.trans (List.prefix_append _ _))

/-- A settled pattern that did not match does not match now. -/
theorem match?_eq_none (h : Replaces c c' text between rest rest') (hp : p.Settled)
    (hmatch : c.match? p = none) : c'.match? p = none := by
  have hnil : p.ahead c.rest = [] := by
    refine Classical.byContradiction fun hsome => ?_
    cases hmatch.symm.trans (Cursor.match?_eq_some.mpr ⟨rfl, hsome⟩)
  refine Stands.match?_eq_none ?_
  rw [h.ahead_eq hp (hnil ▸ List.nil_prefix), hnil]

/-- A settled pattern that matched the text of the token still does. -/
theorem match?_eq_some (h : Replaces c c' text between rest rest') (hp : p.Settled)
    (hmatch : c.match? p = some text) : c'.match? p = some text := by
  obtain ⟨hahead, -⟩ := Cursor.match?_eq_some.mp hmatch
  refine Cursor.match?_eq_some.mpr ⟨?_, h.ne_nil⟩
  rw [h.ahead_eq hp ⟨[], by rw [hahead, List.append_nil]⟩, hahead]

/-- A run that ends with the text does so in front of the other one, if this
    is not right behind the text or is at the end. -/
theorem takeWhile_eq (h : Replaces c c' text between rest rest') {q : Char → Bool}
    (hend : between = [] → rest' = []) (hrun : c.rest.takeWhile q = text) :
    c'.rest.takeWhile q = text := by
  rw [h.rest_eq] at hrun
  have hall : ∀ d ∈ text, q d = true := by
    intro d hd
    rw [← hrun] at hd
    exact List.mem_takeWhile_imp hd
  have hstop := takeWhile_eq_nil_of_append hrun
  have hstop' : (between ++ rest').takeWhile q = [] := by
    cases between with
    | nil => rw [hend rfl]; rfl
    | cons d between =>
        refine List.takeWhile_cons_of_neg fun hd => ?_
        rw [List.cons_append, List.takeWhile_cons_of_pos hd] at hstop
        cases hstop
  rw [h.rest_eq', List.takeWhile_append_of_pos hall, hstop', List.append_nil]

/-- No reference name comes ahead, for no square bracket comes to close one. -/
theorem referenceAhead?_eq_none (h : Replaces c c' text between rest rest')
    (hnone : referenceAhead? c = none) : referenceAhead? c' = none := by
  refine Classical.byContradiction fun hsome => ?_
  obtain ⟨hsquare, hcloser⟩ := referenceAhead?_ne_none_iff.mp hsome
  refine referenceAhead?_ne_none_iff.mpr ⟨?_, h.peek?_eq ▸ hcloser⟩ hnone
  rw [h.rest_eq', ← List.append_assoc, nextSquare_append] at hsquare
  rw [h.rest_eq, ← List.append_assoc, nextSquare_append]
  cases hfront : nextSquare (text ++ between) with
  | none =>
      rw [hfront] at hsquare
      exact h.recedes.closes hsquare
  | some d =>
      rw [hfront] at hsquare
      exact hsquare

/-- A reference name with its closing bracket between stays one. -/
theorem referenceAhead?_eq_some (h : Replaces c c' text between rest rest')
    (hbetween : between ≠ []) (hname : referenceAhead? c = some text) :
    referenceAhead? c' = some text := by
  obtain ⟨hne, hall, tail, htail⟩ := referenceAhead?_eq_some_iff.mp hname
  refine referenceAhead?_eq_some_iff.mpr ⟨hne, hall, ?_⟩
  obtain ⟨b, between, rfl⟩ := List.exists_cons_of_ne_nil hbetween
  obtain ⟨rfl, -⟩ := List.cons.inj (List.append_cancel_left (h.rest_eq.symm.trans htail))
  exact ⟨between ++ rest', h.rest_eq'⟩

/-- What is between shows the same character behind the text. -/
theorem peek?_advance_eq (h : Replaces c c' text between rest rest') (hbetween : between ≠ []) :
    (c'.advance text.length).peek? = (c.advance text.length).peek? := by
  rw [Cursor.peek?_advance_of_append h.rest_eq, Cursor.peek?_advance_of_append h.rest_eq',
    List.head?_append_of_ne_nil _ hbetween, List.head?_append_of_ne_nil _ hbetween]

/-- No parenthesis comes to stand behind the text. -/
theorem peek?_advance_ne (h : Replaces c c' text between rest rest')
    (hparen : (c.advance text.length).peek? ≠ some '(') :
    (c'.advance text.length).peek? ≠ some '(' := by
  by_cases hbetween : between = []
  · rw [Cursor.peek?_advance_of_append h.rest_eq', hbetween]
    intro hopen
    cases head?_eq_of_all h.recedes.stops hopen
  · rwa [h.peek?_advance_eq hbetween]

theorem outsideText (h : Replaces c c' text between rest rest') (hd : OutsideText c history d) :
    OutsideText c' history d :=
  hd.of_peek h.peek?_eq

theorem outsideChain (h : Replaces c c' text between rest rest')
    (hd : OutsideChain c history d) : OutsideChain c' history d :=
  ⟨h.outsideText hd.toOutsideText, h.match?_eq_none settled_number hd.no_number, hd.no_operator⟩

theorem outsideNames (h : Replaces c c' text between rest rest')
    (hd : OutsideNames c history d) : OutsideNames c' history d :=
  ⟨h.outsideChain hd.toOutsideChain,
    fun hopener => h.referenceAhead?_eq_none (hd.no_reference hopener),
    h.match?_eq_none settled_identifier hd.no_identifier⟩

end Replaces

/-- **RULES SEE NO FURTHER**: the rule that takes a token off the front of a
    text takes it where the text behind it recedes. -/
theorem Rule.recede {c c' : Cursor} {history : History} {k : Token.Kind} {n : Nat}
    {text between rest rest' : List Char} (h : Rule c history k n) (hn : n = text.length)
    (hr : Replaces c c' text between rest rest') (hend : between = [] → k.MayEnd rest') :
    Rule c' history k n := by
  cases h with
  | atEnd _ => exact absurd (List.eq_nil_of_length_eq_zero hn.symm) hr.ne_nil
  | endQuote hquote hopen => exact .endQuote (hr.peek?_eq.trans hquote) hopen
  | startQuote hquote hclosed => exact .startQuote (hr.peek?_eq.trans hquote) hclosed
  | string hd hquote hopen =>
      have hahead : Pattern.quotedText.ahead c.rest = text := by
        rw [List.prefix_iff_eq_take.mp (Pattern.quotedText.ahead_isPrefix _), hn, hr.rest_eq,
          List.take_left]
      have hahead' : Pattern.quotedText.ahead c'.rest = text :=
        hr.takeWhile_eq (fun hnil => (hend hnil).2.2 (Or.inl rfl)) hahead
      rw [hahead, ← hahead']
      exact .string (hr.peek?_eq.trans hd) hquote hopen
  | number hd hmatch hminus =>
      obtain rfl := Cursor.eq_of_match? hr.rest_eq hmatch hn
      exact .number (hr.outsideText hd) (hr.match?_eq_some settled_number hmatch) hminus
  | minus hd hmatch hminus =>
      -- without the number the minus sign is an operator all the same
      cases hmatch' : c'.match? .number with
      | none => exact .operator (hr.outsideText hd) hmatch' (by decide)
      | some number => exact .minus (hr.outsideText hd) hmatch' hminus
  | operator hd hmatch hmem =>
      exact .operator (hr.outsideText hd) (hr.match?_eq_none settled_number hmatch) hmem
  | referenceName hd hopener hname =>
      obtain ⟨hmatch, -⟩ := Option.filter_eq_some_iff.mp hname
      obtain rfl := Cursor.eq_of_match? hr.rest_eq hmatch hn
      exact .referenceName (hr.outsideChain hd) hopener
        (hr.referenceAhead?_eq_some (fun hnil => (hend hnil).2.1 rfl) hname)
  | functionName hd hmatch hparen =>
      obtain rfl := Cursor.eq_of_match? hr.rest_eq hmatch hn
      exact .functionName (hr.outsideChain hd) (hr.match?_eq_some settled_identifier hmatch)
        ((hr.peek?_advance_eq fun hnil => (hend hnil).1 rfl).trans hparen)
  | unfinishedFormula hd hmatch hparen =>
      obtain rfl := Cursor.eq_of_match? hr.rest_eq hmatch hn
      exact .unfinishedFormula (hr.outsideChain hd)
        (hr.match?_eq_some settled_identifier hmatch) (hr.peek?_advance_ne hparen)
  | bracket hd hmem => exact .bracket (hr.outsideNames hd) hmem
  | comma hd => exact .comma (hr.outsideNames hd)
  | whitespace hd hbracket hcomma hmatch =>
      obtain rfl := Cursor.eq_of_match? hr.rest_eq hmatch hn
      have hrun := hr.takeWhile_eq (fun hnil => (hend hnil).2.2 (Or.inr rfl))
        (Cursor.match?_eq_some.mp hmatch).1
      exact .whitespace (hr.outsideNames hd) hbracket hcomma
        (Cursor.match?_eq_some.mpr ⟨hrun, hr.ne_nil⟩)
  | error hd hbracket hcomma hmatch =>
      refine .error (hr.outsideNames hd) hbracket hcomma (match?_spaces_eq_none_iff.mpr ?_)
      rw [hr.peek?_eq]
      exact match?_spaces_eq_none_iff.mp hmatch

section

variable {m : Memory} {t : Token} {ts us : List Token} {between rest rest' : List Char}

/-- A token is read as before where the text behind it recedes. -/
theorem Next.recede (h : Next m t (between ++ rest)) (hr : Recedes rest rest')
    (hend : between = [] → t.kind.MayEnd rest') : Next m t (between ++ rest') := by
  refine ⟨h.nonempty, ?_⟩
  rintro cursor history hrest rfl
  have hreplaces : Replaces ⟨[], t.text.toList ++ (between ++ rest)⟩ cursor t.text.toList
      between rest rest' := ⟨h.toList_ne_nil, hr, rfl, hrest⟩
  have hclassify := h.classified ⟨[], t.text.toList ++ (between ++ rest)⟩ history rfl rfl
  have hrule := rule_of_classify ⟨[], t.text.toList ++ (between ++ rest)⟩ history
  rw [hclassify] at hrule
  refine (hrule.recede String.length_toList.symm hreplaces hend).classify_eq fun hk hopener => ?_
  exact hreplaces.referenceAhead?_eq_none (no_reference_of_name hclassify hk hopener)

/-- No tokens are read off the empty text. -/
theorem Lexed.eq_nil_of_spell (h : Lexed m ts rest) (hspell : spell ts = []) : ts = [] := by
  cases ts with
  | nil => rfl
  | cons t ts =>
      rw [spell_cons] at hspell
      exact absurd (List.append_eq_nil_iff.mp hspell).1 h.1.toList_ne_nil

/-- The last of some tokens is read in front of what is behind them. -/
theorem Lexed.next_of_getLast? (h : Lexed m ts rest) (ht : ts.getLast? = some t) :
    ∃ m', Next m' t rest := by
  obtain ⟨init, rfl⟩ := List.getLast?_eq_some_iff.mp ht
  exact ⟨_, (lexed_append.mp h).2.1⟩

/-- **TOKENS SEE NO FURTHER**: tokens are read as before where the text behind
    them recedes and the last of them may end there. -/
theorem Lexed.recede (h : Lexed m ts rest) (hr : Recedes rest rest')
    (hlast : ∀ t, ts.getLast? = some t → t.kind.MayEnd rest') : Lexed m ts rest' := by
  induction ts generalizing m with
  | nil => exact trivial
  | cons t ts ih =>
      refine ⟨h.1.recede hr fun hnil => hlast t ?_, ih h.2 fun u hu => hlast u ?_⟩
      · rw [h.2.eq_nil_of_spell hnil]
        rfl
      · rw [List.getLast?_cons, hu]
        rfl

end

end FormulaBar
