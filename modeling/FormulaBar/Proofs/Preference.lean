import FormulaBar.Proofs.Bytes
import FormulaBar.Proofs.Shape

/-! # Preference — the match that an expression finds first

    The patterns of tokens take the longest text of their shape.  As they are
    written they are expressions, and these are matched by trying: a run goes
    on as long as it can, what may be missing is taken to be there, and the
    latest of these choices is taken back where the rest does not match.  The
    match is the one that is found first, and nothing in that makes it the
    longest.

    The ways to match are listed here in the order in which they are tried.
    For the five expressions of tokens the first way leaves what the pattern
    leaves.  For numbers that takes an induction, since each digit before the
    point may be given back to the digits behind it. -/

namespace FormulaBar

/-- Expressions that the front of a text is matched against. -/
inductive Regex where
  /-- One character of a set. -/
  | one (p : Char → Bool)
  /-- A run of characters of a set, which may be empty. -/
  | many (p : Char → Bool)
  | optional (r : Regex)
  | seq (r s : Regex)

namespace Regex

/-- The texts that an expression matches. -/
inductive Matches : Regex → List Char → Prop where
  | one {p : Char → Bool} {c : Char} (h : p c = true) : Matches (.one p) [c]
  | many {p : Char → Bool} {text : List Char} (h : ∀ c ∈ text, p c = true) :
      Matches (.many p) text
  | absent {r : Regex} : Matches (.optional r) []
  | present {r : Regex} {text : List Char} (h : Matches r text) : Matches (.optional r) text
  | seq {r s : Regex} {front back : List Char} (hr : Matches r front) (hs : Matches s back) :
      Matches (.seq r s) (front ++ back)

/-- What is left of a text behind a run at its front, the longest run first. -/
def runs (p : Char → Bool) : List Char → List (List Char)
  | [] => [[]]
  | c :: text => if p c then runs p text ++ [c :: text] else [c :: text]

/-- What is left of a text behind each match at its front, in the order in
    which the matches are tried. -/
def leaves : Regex → List Char → List (List Char)
  | .one _, [] => []
  | .one p, c :: text => if p c then [text] else []
  | .many p, text => runs p text
  | .optional r, text => r.leaves text ++ [text]
  | .seq r s, text => (r.leaves text).flatMap s.leaves

/-- What is left behind the match that is found first. -/
def first? (r : Regex) (text : List Char) : Option (List Char) :=
  (r.leaves text).head?

/-! ## Ways are matches -/

section

variable {p : Char → Bool} {r s : Regex} {text back : List Char}

/-- The ways of a run leave what is behind any run at the front. -/
theorem mem_runs_iff :
    back ∈ runs p text ↔ ∃ run, text = run ++ back ∧ ∀ c ∈ run, p c = true := by
  induction text with
  | nil =>
      rw [runs, List.mem_singleton]
      constructor
      · rintro rfl
        exact ⟨[], rfl, List.forall_mem_nil _⟩
      · rintro ⟨run, heq, -⟩
        exact (List.append_eq_nil_iff.mp heq.symm).2
  | cons c text ih =>
      have hwhole : back = c :: text →
          ∃ run, c :: text = run ++ back ∧ ∀ c ∈ run, p c = true := by
        rintro rfl
        exact ⟨[], rfl, List.forall_mem_nil _⟩
      -- a run at the front is empty or starts with `c`
      rw [runs]
      split
      · next hc =>
        rw [List.mem_append, List.mem_singleton, ih]
        constructor
        · rintro (⟨run, rfl, hrun⟩ | heq)
          · exact ⟨c :: run, rfl, List.forall_mem_cons.mpr ⟨hc, hrun⟩⟩
          · exact hwhole heq
        · rintro ⟨_ | ⟨d, run⟩, heq, hrun⟩
          · exact Or.inr heq.symm
          · obtain ⟨rfl, rfl⟩ := List.cons.inj heq
            exact Or.inl ⟨run, rfl, (List.forall_mem_cons.mp hrun).2⟩
      · next hc =>
        rw [List.mem_singleton]
        constructor
        · exact hwhole
        · rintro ⟨_ | ⟨d, run⟩, heq, hrun⟩
          · exact heq.symm
          · obtain ⟨rfl, rfl⟩ := List.cons.inj heq
            exact absurd (List.forall_mem_cons.mp hrun).1 hc

/-- **WAYS ARE MATCHES**: each way takes a match off the front of the text,
    and each match at the front is taken by a way. -/
theorem mem_leaves_iff :
    back ∈ r.leaves text ↔ ∃ front, text = front ++ back ∧ r.Matches front := by
  induction r generalizing text back with
  | one p =>
      constructor
      · intro h
        cases text with
        | nil => cases h
        | cons c text =>
            rw [leaves] at h
            split at h
            · next hc =>
              obtain rfl := List.mem_singleton.mp h
              exact ⟨[c], rfl, .one hc⟩
            · cases h
      · rintro ⟨front, rfl, hfront⟩
        cases hfront with
        | @one _ c hc =>
            show back ∈ if p c then [back] else []
            rw [if_pos hc]
            exact List.mem_singleton_self back
  | many p =>
      refine mem_runs_iff.trans (exists_congr fun front => and_congr_right fun _ => ?_)
      exact ⟨.many, fun | .many h => h⟩
  | optional r ih =>
      rw [leaves, List.mem_append, List.mem_singleton, ih]
      constructor
      · rintro (⟨front, rfl, hfront⟩ | rfl)
        · exact ⟨front, rfl, .present hfront⟩
        · exact ⟨[], rfl, .absent⟩
      · rintro ⟨front, rfl, hfront⟩
        cases hfront with
        | absent => exact Or.inr rfl
        | present h => exact Or.inl ⟨front, rfl, h⟩
  | seq r s ihr ihs =>
      rw [leaves, List.mem_flatMap]
      constructor
      · rintro ⟨middle, hr, hs⟩
        obtain ⟨front, rfl, hfront⟩ := ihr.mp hr
        obtain ⟨between, rfl, hbetween⟩ := ihs.mp hs
        exact ⟨front ++ between, (List.append_assoc _ _ _).symm, .seq hfront hbetween⟩
      · rintro ⟨front, rfl, hfront⟩
        cases hfront with
        | @seq _ _ front between hr hs =>
            refine ⟨between ++ back, ihr.mpr ⟨front, List.append_assoc _ _ _, hr⟩, ?_⟩
            exact ihs.mpr ⟨between, rfl, hs⟩

-- `a?(ab)?` takes less of `ab` at first than it could
example : (seq (optional (one (· == 'a')))
    (optional (seq (one (· == 'a')) (one (· == 'b'))))).leaves ['a', 'b']
      = [['b'], [], ['a', 'b']] := by decide

/-- The first way is a match. -/
theorem first?_eq_some (h : r.first? text = some back) :
    ∃ front, text = front ++ back ∧ r.Matches front :=
  mem_leaves_iff.mp (List.mem_of_mem_head? h)

/-- There is a way wherever something at the front of the text matches. -/
theorem first?_eq_none_iff :
    r.first? text = none ↔ ∀ front, front <+: text → ¬ r.Matches front := by
  rw [first?, List.head?_eq_none_iff, List.eq_nil_iff_forall_not_mem]
  constructor
  · rintro h front ⟨back, rfl⟩ hfront
    exact h back (mem_leaves_iff.mpr ⟨front, rfl, hfront⟩)
  · intro h back hback
    obtain ⟨front, rfl, hfront⟩ := mem_leaves_iff.mp hback
    exact h front (List.prefix_append front back) hfront

/-! ## The first way -/

/-- The first way of a run is the longest one. -/
theorem head?_runs (p : Char → Bool) (text : List Char) :
    (runs p text).head? = some (text.drop (text.takeWhile p).length) := by
  induction text with
  | nil => rfl
  | cons c text ih =>
      rw [runs, List.takeWhile_cons]
      split
      · rw [List.head?_append, ih]
        rfl
      · rfl

/-- A character at the front that is no part of the run ends it there. -/
theorem leaves_many_seq_cons (c : Char) :
    (seq (many p) s).leaves (c :: text) =
      if p c then (seq (many p) s).leaves text ++ s.leaves (c :: text)
      else s.leaves (c :: text) := by
  show (runs p (c :: text)).flatMap s.leaves = _
  rw [runs]
  split
  · rw [List.flatMap_append, List.flatMap_singleton]
    rfl
  · exact List.flatMap_singleton ..

/-- A run in front of something else takes a character where the rest still
    matches behind it, and gives it back where not. -/
theorem first?_many_seq_cons (c : Char) :
    (seq (many p) s).first? (c :: text) =
      if p c then ((seq (many p) s).first? text).or (s.first? (c :: text))
      else s.first? (c :: text) := by
  rw [first?, leaves_many_seq_cons]
  split
  · exact List.head?_append
  · rfl

/-- One character first, and the expression alone where that does not match. -/
theorem first?_optional_seq_cons (c : Char) :
    (seq (optional (one p)) s).first? (c :: text) =
      if p c then (s.first? text).or (s.first? (c :: text)) else s.first? (c :: text) := by
  show (((one p).leaves (c :: text) ++ [c :: text]).flatMap s.leaves).head? = _
  rw [List.flatMap_append, List.flatMap_singleton, leaves]
  split
  · rw [List.flatMap_singleton, List.head?_append]
    rfl
  · rfl

/-- A character and a run of what may follow it are taken as far as they go.
    -/
theorem first?_one_seq_many_cons {q : Char → Bool} (c : Char) :
    (seq (one p) (many q)).first? (c :: text) =
      if p c then some (text.drop (text.takeWhile q).length) else none := by
  show (((one p).leaves (c :: text)).flatMap (runs q)).head? = _
  rw [leaves]
  split
  · rw [List.flatMap_singleton, head?_runs]
  · rfl

end

/-! ## Tokens -/

/-- A run that is not empty. -/
def oneOrMore (p : Char → Bool) : Regex :=
  seq (one p) (many p)

/-- Digits, which a point may stand before. -/
def digits : Regex :=
  seq (optional (one (· == '.'))) (oneOrMore Char.isDigit)

/-- The expression `-?[0-9]*\.?[0-9]+`. -/
def number : Regex :=
  seq (optional (one (· == '-'))) (seq (many Char.isDigit) digits)

/-- The expression `[^"]+`. -/
def quotedText : Regex :=
  oneOrMore (· != '"')

/-- The expression `[^\[\]]+`. -/
def referenceName : Regex :=
  oneOrMore fun c => c != '[' && c != ']'

/-- The expression `[a-zA-Z_][a-zA-Z0-9_]*`. -/
def identifier : Regex :=
  seq (one Pattern.startsName) (many Pattern.continuesName)

/-- The expression ` +`. -/
def spaces : Regex :=
  oneOrMore (· == ' ')

/-- A run that is not empty matches the texts of its characters, but for the
    empty one. -/
theorem matches_oneOrMore_iff {p : Char → Bool} {text : List Char} :
    (oneOrMore p).Matches text ↔ text ≠ [] ∧ ∀ c ∈ text, p c = true := by
  constructor
  · intro h
    cases h with
    | seq hfirst hrest =>
    cases hfirst with
    | one hc =>
    cases hrest with
    | many hrest => exact ⟨List.cons_ne_nil _ _, List.forall_mem_cons.mpr ⟨hc, hrest⟩⟩
  · rintro ⟨hne, hall⟩
    obtain ⟨c, text, rfl⟩ := List.exists_cons_of_ne_nil hne
    obtain ⟨hc, hrest⟩ := List.forall_mem_cons.mp hall
    show Matches _ ([c] ++ text)
    exact .seq (.one hc) (.many hrest)

/-- A character that may be missing matches itself and the empty text. -/
theorem matches_optional_one_iff {d : Char} {text : List Char} :
    (optional (one (· == d))).Matches text ↔ text = [] ∨ text = [d] := by
  constructor
  · intro h
    cases h with
    | absent => exact Or.inl rfl
    | present h =>
        cases h with
        | one hc => exact Or.inr (congrArg ([·]) (beq_iff_eq.mp hc))
  · rintro (rfl | rfl)
    · exact .absent
    · exact .present (.one (beq_self_eq_true d))

/-- The expression of numbers matches the texts of numbers. -/
theorem matches_number_iff {text : List Char} : number.Matches text ↔ MatchesNumber text := by
  constructor
  · intro h
    cases h with
    | seq hsign h =>
    cases h with
    | seq hwhole h =>
    cases h with
    | seq hpoint h =>
    cases hwhole with
    | many hwhole =>
        obtain ⟨hne, hfraction⟩ := matches_oneOrMore_iff.mp h
        exact .intro (matches_optional_one_iff.mp hsign) hwhole
          (matches_optional_one_iff.mp hpoint) hne hfraction
  · rintro ⟨hsign, hwhole, hpoint, hne, hfraction⟩
    refine .seq (matches_optional_one_iff.mpr hsign) (.seq (.many hwhole) ?_)
    exact .seq (matches_optional_one_iff.mpr hpoint)
      (matches_oneOrMore_iff.mpr ⟨hne, hfraction⟩)

/-- The first way of the expression is what the pattern takes. -/
def Prefers (r : Regex) (p : Pattern) : Prop :=
  ∀ text, r.first? text =
    if p.ahead text = [] then none else some (text.drop (p.ahead text).length)

/-- The first way of a run is the longest one, which the pattern takes. -/
theorem prefers_run (p : Char → Bool) : (oneOrMore p).Prefers (.run p) := by
  intro text
  cases text with
  | nil => rfl
  | cons c text =>
      rw [oneOrMore, first?_one_seq_many_cons]
      show _ = if (c :: text).takeWhile p = [] then none
        else some ((c :: text).drop ((c :: text).takeWhile p).length)
      rw [List.takeWhile_cons]
      split
      · rfl
      · rfl

theorem prefers_identifier : identifier.Prefers .identifier := by
  intro text
  cases text with
  | nil => rfl
  | cons c text =>
      rw [identifier, first?_one_seq_many_cons, Pattern.identifier]
      simp only
      split
      · rfl
      · rfl

section

variable {c : Char} {text : List Char}

/-- Where a digit is in front, no point stands before the digits. -/
theorem first?_digits_of_isDigit (hc : c.isDigit = true) :
    digits.first? (c :: text) = some (text.drop (text.takeWhile Char.isDigit).length) := by
  have hpoint : ¬ (c == '.') = true := by
    intro h
    rw [beq_iff_eq.mp h] at hc
    cases hc
  rw [digits, first?_optional_seq_cons, if_neg hpoint, oneOrMore, first?_one_seq_many_cons,
    if_pos hc]

/-- Where no digit comes first, digits are a fraction with its point, or there
    are none. -/
theorem first?_digits_of_not_isDigit (h : text.takeWhile Char.isDigit = []) :
    digits.first? text =
      if fraction text = [] then none else some (text.drop (fraction text).length) := by
  have hnone : (oneOrMore Char.isDigit).first? text = none :=
    (prefers_run Char.isDigit text).trans (if_pos h)
  cases text with
  | nil => rfl
  | cons c text =>
      rw [digits, first?_optional_seq_cons, hnone, prefers_run, Option.or_none]
      show (if (c == '.') = true then if text.takeWhile Char.isDigit = [] then none
        else some (text.drop (text.takeWhile Char.isDigit).length) else none) = _
      by_cases hpoint : c = '.'
      · rw [if_pos (beq_iff_eq.mpr hpoint)]
        by_cases hnil : text.takeWhile Char.isDigit = []
        · have hfraction : fraction (c :: text) = [] := if_neg fun hsome => hsome.2 hnil
          rw [if_pos hnil, if_pos hfraction]
        · have hfraction : fraction (c :: text) = '.' :: text.takeWhile Char.isDigit :=
            if_pos ⟨hpoint, hnil⟩
          rw [if_neg hnil, hfraction]
          rfl
      · have hfraction : fraction (c :: text) = [] := if_neg fun hsome => hpoint hsome.1
        rw [if_neg (mt beq_iff_eq.mp hpoint), if_pos hfraction]

/-- A digit in front of a number goes on with the number. -/
theorem unsignedNumber_cons_of_isDigit (hc : c.isDigit = true) :
    unsignedNumber (c :: text) = c :: unsignedNumber text := by
  rw [unsignedNumber_eq, unsignedNumber_eq, List.takeWhile_cons, if_pos hc]
  rfl

/-- Where no digit comes first, a number is a fraction with its point. -/
theorem unsignedNumber_of_not_isDigit (h : text.takeWhile Char.isDigit = []) :
    unsignedNumber text = fraction text := by
  rw [unsignedNumber_eq, h]
  rfl

/-- Where there is no number, no digit comes first. -/
theorem takeWhile_eq_nil_of_unsignedNumber (h : unsignedNumber text = []) :
    text.takeWhile Char.isDigit = [] := by
  rw [unsignedNumber_eq] at h
  exact (List.append_eq_nil_iff.mp h).1

/-- Of the digits before the point none is given back, except for the last
    one where no point with digits follows. -/
theorem first?_unsigned (text : List Char) :
    (seq (many Char.isDigit) digits).first? text =
      if unsignedNumber text = [] then none
      else some (text.drop (unsignedNumber text).length) := by
  induction text with
  | nil => rfl
  | cons c text ih =>
      rw [first?_many_seq_cons]
      by_cases hc : c.isDigit = true
      · rw [if_pos hc, ih, unsignedNumber_cons_of_isDigit hc, if_neg (List.cons_ne_nil _ _)]
        by_cases hnil : unsignedNumber text = []
        · -- the digit is the last one, and is taken behind the run
          rw [if_pos hnil, Option.none_or, first?_digits_of_isDigit hc,
            takeWhile_eq_nil_of_unsignedNumber hnil, hnil]
          rfl
        · rw [if_neg hnil]
          rfl
      · have hrun : (c :: text).takeWhile Char.isDigit = [] := List.takeWhile_cons_of_neg hc
        rw [if_neg hc, first?_digits_of_not_isDigit hrun, unsignedNumber_of_not_isDigit hrun]

end

/-- **NUMBERS GO BY THE FIRST WAY**: the first way of the expression of
    numbers is what the pattern takes. -/
theorem prefers_number : number.Prefers .number := by
  intro text
  cases text with
  | nil => rfl
  | cons c text =>
      rw [number, first?_optional_seq_cons, first?_unsigned, first?_unsigned]
      by_cases hc : c = '-'
      · obtain rfl := hc
        have hsign : unsignedNumber ('-' :: text) = [] := rfl
        rw [if_pos (beq_self_eq_true '-'), if_pos hsign, Option.or_none, ahead_number_minus]
        split
        · rfl
        · rfl
      · rw [if_neg (mt beq_iff_eq.mp hc), ahead_number_of_ne hc]

/-! ## Searches -/

section

variable {r : Regex} {p : Pattern}

/-- The front of a text ends where the bytes of the rest begin. -/
theorem stop_of_append {text : String} {front back : List Char} (h : text.toList = front ++ back) :
    text.utf8ByteSize - byteLength back = byteLength front := by
  rw [← String.ofList_toList (s := text), h, utf8ByteSize_ofList_eq, byteLength_append,
    Nat.add_sub_cancel]

/-- The search for a match at the start of a text. -/
def search (r : Regex) : Search where
  find? text := (r.first? text.toList).map fun back =>
    (0, text.utf8ByteSize - byteLength back)
  slices := by
    intro text start stop h
    obtain ⟨back, hfirst, heq⟩ := Option.map_eq_some_iff.mp h
    obtain ⟨front, htext, -⟩ := first?_eq_some hfirst
    obtain ⟨rfl, rfl⟩ := Prod.mk.inj heq
    have hslice : slice? text 0 (byteLength front) = some (String.ofList front) := by
      rw [← String.ofList_toList (s := text), htext]
      exact slice?_append [] front back
    rw [stop_of_append htext, hslice]
    rfl

/-- The pattern that takes the match. -/
def pattern (r : Regex) : Pattern :=
  r.search.pattern

/-- The pattern that an expression prefers is the one it stands for. -/
theorem Prefers.pattern_eq (h : r.Prefers p) : r.pattern = p := by
  suffices hsearch : r.search = p.search by
    rw [pattern, hsearch, Pattern.pattern_search]
  ext1
  funext text
  show (r.first? text.toList).map _ = p.found? text.toList
  rw [h, Pattern.found?]
  split
  · rfl
  · have hfront := (List.prefix_iff_eq_append.mp (p.ahead_isPrefix text.toList)).symm
    rw [Option.map_some, stop_of_append hfront]

/-- Where a cursor has a match of the pattern, that is the first way of the
    expression. -/
theorem Prefers.first?_of_match? (h : r.Prefers p) {cursor : Cursor} {taken : List Char}
    (hmatch : cursor.match? p = some taken) :
    r.first? cursor.rest = some (cursor.rest.drop taken.length) := by
  obtain ⟨rfl, hne⟩ := Cursor.match?_eq_some.mp hmatch
  exact (h cursor.rest).trans (if_neg hne)

/-- Where it has none, nothing at the front of the text matches. -/
theorem Prefers.not_matches_of_match? (h : r.Prefers p) {cursor : Cursor} {front : List Char}
    (hmatch : cursor.match? p = none) (hfront : front <+: cursor.rest) : ¬ r.Matches front := by
  have hahead : p.ahead cursor.rest = [] := by
    refine Classical.byContradiction fun hne => ?_
    cases hmatch.symm.trans (Cursor.match?_eq_some.mpr ⟨rfl, hne⟩)
  exact first?_eq_none_iff.mp ((h cursor.rest).trans (if_pos hahead)) front hfront

/-- What the pattern takes is a match. -/
theorem Prefers.matches_ahead (h : r.Prefers p) {text : List Char} (hne : p.ahead text ≠ []) :
    r.Matches (p.ahead text) := by
  obtain ⟨front, heq, hfront⟩ := first?_eq_some ((h text).trans (if_neg hne))
  have hahead := List.prefix_iff_eq_append.mp (p.ahead_isPrefix text)
  rwa [List.append_cancel_right (hahead.trans heq)]

end

/-- **THE EXPRESSIONS ARE THE PATTERNS**: the match that is found first is
    what the pattern of the token takes. -/
@[simp] theorem pattern_number : number.pattern = .number :=
  prefers_number.pattern_eq

@[simp] theorem pattern_quotedText : quotedText.pattern = .quotedText :=
  (prefers_run _).pattern_eq

@[simp] theorem pattern_referenceName : referenceName.pattern = .referenceName :=
  (prefers_run _).pattern_eq

@[simp] theorem pattern_identifier : identifier.pattern = .identifier :=
  prefers_identifier.pattern_eq

@[simp] theorem pattern_spaces : spaces.pattern = .spaces :=
  (prefers_run _).pattern_eq

end Regex

end FormulaBar
