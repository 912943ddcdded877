import FormulaBar.Proofs.Lookahead

/-! # Letter case — what the lexer does not see

    The lexer asks of a character whether it is a letter, a digit or one of a
    few signs, and none of that changes with the case of letters.  So every
    pattern takes as much off a text in upper case as off the text itself,
    every rule applies to one exactly where it applies to the other, and
    tokens are read in upper case where they are read at all.

    Two texts with the same letters have one text in upper case.  That is how
    one of them is read like the other, whatever the cases in either. -/

namespace FormulaBar

/-! ## Characters -/

/-- Small letters are 32 places above the capitals, and nothing else
    changes. -/
theorem toUpper_cases (c : Char) :
    c.toUpper = c ∧ ¬ (97 ≤ c.toNat ∧ c.toNat ≤ 122) ∨
      97 ≤ c.toNat ∧ c.toNat ≤ 122 ∧ c.toUpper.toNat + 32 = c.toNat := by
  by_cases h : 'a'.val ≤ c.val ∧ c.val ≤ 'z'.val
  · right
    have hlow : 97 ≤ c.toNat := h.1
    have hhigh : c.toNat ≤ 122 := h.2
    have hval : c.toUpper.val = c.val + ('A'.val - 'a'.val) := by
      delta Char.toUpper
      rw [dif_pos h]
    have hnat : c.toUpper.toNat = (c.toNat + 4294967264) % 2 ^ 32 := by
      show c.toUpper.val.toNat = _
      rw [hval, UInt32.toNat_add]
      rfl
    exact ⟨hlow, hhigh, by omega⟩
  · left
    exact ⟨dif_neg h, h⟩

/-- The letters are the capitals and the small letters of ASCII. -/
theorem isAlpha_iff {c : Char} : c.isAlpha = true ↔
    65 ≤ c.toNat ∧ c.toNat ≤ 90 ∨ 97 ≤ c.toNat ∧ c.toNat ≤ 122 := by
  show (decide (c.val ≥ 'A'.val ∧ c.val ≤ 'Z'.val) ||
    decide (c.val ≥ 'a'.val) && decide (c.val ≤ 'z'.val)) = true ↔ _
  simp only [Bool.or_eq_true, Bool.and_eq_true, decide_eq_true_eq]
  exact Iff.rfl

/-- A character is a digit exactly where it is one in upper case. -/
@[simp] theorem isDigit_toUpper (c : Char) : c.toUpper.isDigit = c.isDigit := by
  rw [Bool.eq_iff_iff, Char.isDigit_iff_toNat, Char.isDigit_iff_toNat]
  have hzero : '0'.toNat = 48 := rfl
  have hnine : '9'.toNat = 57 := rfl
  rcases toUpper_cases c with ⟨hsame, -⟩ | ⟨hlow, hhigh, hnat⟩
  · rw [hsame]
  · omega

/-- A character is a letter exactly where it is one in upper case. -/
@[simp] theorem isAlpha_toUpper (c : Char) : c.toUpper.isAlpha = c.isAlpha := by
  rw [Bool.eq_iff_iff, isAlpha_iff, isAlpha_iff]
  rcases toUpper_cases c with ⟨hsame, -⟩ | ⟨hlow, hhigh, hnat⟩
  · rw [hsame]
  · omega

/-- Only a letter becomes another character, and then it becomes a letter. -/
theorem toUpper_eq_iff {c d : Char} (hd : d.isAlpha = false) : c.toUpper = d ↔ c = d := by
  rcases toUpper_cases c with ⟨hsame, -⟩ | ⟨hlow, hhigh, -⟩
  · rw [hsame]
  · have hc : c.isAlpha = true := isAlpha_iff.mpr (Or.inr ⟨hlow, hhigh⟩)
    constructor
    · rintro rfl
      exact absurd (hd.symm.trans ((isAlpha_toUpper c).trans hc)) Bool.false_ne_true
    · rintro rfl
      exact absurd (hd.symm.trans hc) Bool.false_ne_true

/-- Comparing with a character that is no letter does not see the case. -/
theorem toUpper_beq {c d : Char} (hd : d.isAlpha = false) : (c.toUpper == d) = (c == d) := by
  rw [Bool.eq_iff_iff, beq_iff_eq, beq_iff_eq]
  exact toUpper_eq_iff hd

/-- Lists without letters hold a character in either case or in none. -/
theorem toUpper_mem_iff {c : Char} {l : List Char} (hl : l.all (fun d => !d.isAlpha) = true) :
    c.toUpper ∈ l ↔ c ∈ l := by
  have hletter : ∀ d ∈ l, d.isAlpha = false := by
    intro d hd
    have hnot := List.all_eq_true.mp hl d hd
    rwa [Bool.not_eq_true'] at hnot
  constructor
  · intro h
    rwa [← (toUpper_eq_iff (hletter _ h)).mp rfl] at h
  · intro h
    rwa [(toUpper_eq_iff (hletter c h)).mpr rfl]

/-- A next character that is no letter is the same in upper case. -/
theorem map_toUpper_eq_some_iff {o : Option Char} {d : Char} (hd : d.isAlpha = false) :
    o.map Char.toUpper = some d ↔ o = some d := by
  cases o with
  | none => exact ⟨nofun, nofun⟩
  | some c =>
      rw [Option.map_some, Option.some_inj, Option.some_inj]
      exact toUpper_eq_iff hd

/-! ## Patterns -/

/-- The text in upper case, letters beyond ASCII aside. -/
def capitals (text : List Char) : List Char :=
  text.map Char.toUpper

@[simp] theorem length_capitals (text : List Char) : (capitals text).length = text.length :=
  List.length_map _

@[simp] theorem capitals_append (a b : List Char) :
    capitals (a ++ b) = capitals a ++ capitals b := List.map_append

theorem capitals_eq_nil_iff {text : List Char} : capitals text = [] ↔ text = [] :=
  List.map_eq_nil_iff

/-- A run of characters that a test for no case picks is in upper case the run
    of the text in upper case. -/
theorem takeWhile_capitals {p : Char → Bool} (hp : ∀ c : Char, p c.toUpper = p c)
    (text : List Char) : (capitals text).takeWhile p = capitals (text.takeWhile p) := by
  rw [capitals, List.takeWhile_map]
  exact congrArg (fun q => (text.takeWhile q).map Char.toUpper) (funext hp)

/-- The pattern takes the same off a text in upper case. -/
def Pattern.IgnoresCase (p : Pattern) : Prop :=
  ∀ text, p.ahead (capitals text) = capitals (p.ahead text)

/-- A run ignores the case where the test of its characters does. -/
theorem ignoresCase_run {p : Char → Bool} (hp : ∀ c : Char, p c.toUpper = p c) :
    (Pattern.run p).IgnoresCase := takeWhile_capitals hp

/-- The inside of a text literal ends at a quote, in either case. -/
theorem ignoresCase_quotedText : Pattern.quotedText.IgnoresCase := by
  refine ignoresCase_run fun c => ?_
  rw [bne, bne, toUpper_beq rfl]

/-- The name in brackets ends at a bracket or a quote, in either case. -/
theorem ignoresCase_referenceName : Pattern.referenceName.IgnoresCase := by
  refine ignoresCase_run fun c => ?_
  rw [bne, bne, bne, bne, toUpper_beq rfl, toUpper_beq rfl]

theorem ignoresCase_spaces : Pattern.spaces.IgnoresCase :=
  ignoresCase_run fun _ => toUpper_beq rfl

/-- Names start and go on by the same characters in either case. -/
theorem ignoresCase_identifier : Pattern.identifier.IgnoresCase := by
  intro text
  cases text with
  | nil => rfl
  | cons c text =>
      have hstarts : Pattern.startsName c.toUpper = Pattern.startsName c := by
        rw [Pattern.startsName, Pattern.startsName, isAlpha_toUpper, toUpper_beq rfl]
      have hcontinues : ∀ d : Char, Pattern.continuesName d.toUpper = Pattern.continuesName d := by
        intro d
        rw [Pattern.continuesName, Pattern.continuesName, Char.isAlphanum, Char.isAlphanum,
          isAlpha_toUpper, isDigit_toUpper, toUpper_beq rfl]
      show (if Pattern.startsName c.toUpper then
        c.toUpper :: (capitals text).takeWhile Pattern.continuesName else []) =
        capitals (if Pattern.startsName c then c :: text.takeWhile Pattern.continuesName else [])
      rw [hstarts, takeWhile_capitals hcontinues]
      split
      · rfl
      · rfl

/-- The part of a number behind its point is the same in upper case. -/
theorem fraction_capitals (text : List Char) :
    fraction (capitals text) = capitals (fraction text) := by
  cases text with
  | nil => rfl
  | cons c text =>
      have hrun := takeWhile_capitals isDigit_toUpper text
      have hpoint : c.toUpper = '.' ↔ c = '.' := toUpper_eq_iff rfl
      show (if c.toUpper = '.' ∧ (capitals text).takeWhile Char.isDigit ≠ [] then
        '.' :: (capitals text).takeWhile Char.isDigit else []) =
        capitals (if c = '.' ∧ text.takeWhile Char.isDigit ≠ [] then
          '.' :: text.takeWhile Char.isDigit else [])
      simp only [hrun, ne_eq, capitals_eq_nil_iff, hpoint]
      split
      · rfl
      · rfl

/-- A number without a sign is the same in upper case. -/
theorem unsignedNumber_capitals (text : List Char) :
    unsignedNumber (capitals text) = capitals (unsignedNumber text) := by
  have hdrop : ∀ n, (capitals text).drop n = capitals (text.drop n) :=
    fun n => List.map_drop.symm
  rw [unsignedNumber_eq, unsignedNumber_eq, takeWhile_capitals isDigit_toUpper, length_capitals,
    hdrop, fraction_capitals, capitals_append]

/-- A number is read off a text in upper case as off the text, with its sign
    or without one. -/
theorem ignoresCase_number : Pattern.number.IgnoresCase := by
  intro text
  cases text with
  | nil => rfl
  | cons c text =>
      show Pattern.number.ahead (c.toUpper :: capitals text) = _
      by_cases hc : c = '-'
      · subst hc
        show Pattern.number.ahead ('-' :: capitals text) = _
        simp only [ahead_number_minus, unsignedNumber_capitals, capitals_eq_nil_iff]
        split
        · rfl
        · rfl
      · rw [ahead_number_of_ne (mt (toUpper_eq_iff rfl).mp hc), ahead_number_of_ne hc]
        exact unsignedNumber_capitals (c :: text)

/-! ## Rules -/

namespace Cursor

/-- The cursor in front of the text in upper case. -/
def capitals (c : Cursor) : Cursor :=
  { c with rest := FormulaBar.capitals c.rest }

variable {c : Cursor}

/-- The next character in upper case is the next one of the text in upper
    case. -/
theorem peek?_capitals : c.capitals.peek? = c.peek?.map Char.toUpper := List.head?_map

/-- A character that is no letter comes next in upper case exactly where it
    comes next. -/
theorem peek?_capitals_eq_some_iff {d : Char} (hd : d.isAlpha = false) :
    c.capitals.peek? = some d ↔ c.peek? = some d := by
  rw [peek?_capitals]
  exact map_toUpper_eq_some_iff hd

/-- A character that is no letter comes `n` places later in upper case exactly
    where it comes there. -/
theorem peek?_advance_capitals_eq_some_iff {d : Char} (hd : d.isAlpha = false) (n : Nat) :
    (c.capitals.advance n).peek? = some d ↔ (c.advance n).peek? = some d := by
  have hpeek : (c.capitals.advance n).peek? = (c.advance n).peek?.map Char.toUpper := by
    rw [peek?, peek?, rest_advance, rest_advance, ← List.head?_map, List.map_drop]
    rfl
  rw [hpeek]
  exact map_toUpper_eq_some_iff hd

/-- What a pattern matches in upper case is what it matches, in upper case. -/
theorem match?_capitals {p : Pattern} (hp : p.IgnoresCase) (c : Cursor) :
    c.capitals.match? p = (c.match? p).map FormulaBar.capitals := by
  have hahead : p.ahead c.capitals.rest = FormulaBar.capitals (p.ahead c.rest) := hp c.rest
  rw [match?, match?, hahead]
  cases p.ahead c.rest with
  | nil => rfl
  | cons d text => rfl

/-- A pattern that does not match does not match in upper case. -/
theorem match?_capitals_eq_none {p : Pattern} (hp : p.IgnoresCase) (h : c.match? p = none) :
    c.capitals.match? p = none := by
  rw [match?_capitals hp, h]
  rfl

theorem match?_capitals_eq_some {p : Pattern} (hp : p.IgnoresCase) {text : List Char}
    (h : c.match? p = some text) :
    c.capitals.match? p = some (FormulaBar.capitals text) := by
  rw [match?_capitals hp, h]
  rfl

end Cursor

section

variable {c : Cursor} {history : History} {k : Token.Kind} {n : Nat} {d : Char}

/-- A reference name ahead is ahead in upper case. -/
theorem referenceAhead?_capitals (c : Cursor) :
    referenceAhead? c.capitals = (referenceAhead? c).map capitals := by
  rw [referenceAhead?, referenceAhead?, Cursor.match?_capitals ignoresCase_referenceName]
  cases c.match? .referenceName with
  | none => rfl
  | some name =>
      have hcloser := Cursor.peek?_advance_capitals_eq_some_iff (c := c) (d := ']') rfl name.length
      rw [Option.map_some, Option.filter_some, Option.filter_some, length_capitals]
      simp only [beq_iff_eq, hcloser]
      split
      · rfl
      · rfl

/-- A place outside a text stays one in upper case. -/
theorem OutsideText.capitals (h : OutsideText c history d) :
    OutsideText c.capitals history d.toUpper := by
  refine ⟨?_, mt (toUpper_eq_iff rfl).mp h.not_quote, h.not_behind⟩
  rw [Cursor.peek?_capitals, h.peek]
  rfl

/-- Operators have no case. -/
theorem toUpper_mem_operatorChars : d.toUpper ∈ operatorChars ↔ d ∈ operatorChars :=
  toUpper_mem_iff rfl

theorem toUpper_mem_bracketChars : d.toUpper ∈ bracketChars ↔ d ∈ bracketChars :=
  toUpper_mem_iff rfl

/-- Where neither a number nor an operator starts, none starts in upper case.
    -/
theorem OutsideChain.capitals (h : OutsideChain c history d) :
    OutsideChain c.capitals history d.toUpper :=
  ⟨h.toOutsideText.capitals, Cursor.match?_capitals_eq_none ignoresCase_number h.no_number,
    mt toUpper_mem_operatorChars.mp h.no_operator⟩

/-- Where no name starts, none starts in upper case. -/
theorem OutsideNames.capitals (h : OutsideNames c history d) :
    OutsideNames c.capitals history d.toUpper := by
  refine ⟨h.toOutsideChain.capitals, ?_,
    Cursor.match?_capitals_eq_none ignoresCase_identifier h.no_identifier⟩
  intro hopener
  rw [referenceAhead?_capitals, h.no_reference hopener]
  rfl

/-- **RULES IGNORE CASE**: the rule for a text is the rule for the text in
    upper case. -/
theorem Rule.capitals (h : Rule c history k n) : Rule c.capitals history k n := by
  cases h with
  | atEnd hend =>
      refine .atEnd ?_
      rw [Cursor.peek?_capitals, hend]
      rfl
  | endQuote hc hopen => exact .endQuote ((Cursor.peek?_capitals_eq_some_iff rfl).mpr hc) hopen
  | startQuote hc hclosed =>
      exact .startQuote ((Cursor.peek?_capitals_eq_some_iff rfl).mpr hc) hclosed
  -- the length of a run is the same in either case
  | @string d hc hquote hbehind =>
      have hlength : (Pattern.quotedText.ahead c.capitals.rest).length
          = (Pattern.quotedText.ahead c.rest).length := by
        rw [← length_capitals (Pattern.quotedText.ahead c.rest), ← ignoresCase_quotedText]
        rfl
      rw [← hlength]
      refine .string (c := d.toUpper) ?_ (mt (toUpper_eq_iff rfl).mp hquote) hbehind
      rw [Cursor.peek?_capitals, hc]
      rfl
  | @number d text hc hmatch hminus =>
      rw [← length_capitals text]
      exact .number hc.capitals (Cursor.match?_capitals_eq_some ignoresCase_number hmatch)
        fun hsign => hminus ((toUpper_eq_iff rfl).mp hsign)
  | minus hc hmatch hminus =>
      exact .minus hc.capitals (Cursor.match?_capitals_eq_some ignoresCase_number hmatch) hminus
  | operator hc hmatch hmem =>
      exact .operator hc.capitals (Cursor.match?_capitals_eq_none ignoresCase_number hmatch)
        (toUpper_mem_operatorChars.mpr hmem)
  | @referenceName d name hc hopener hname =>
      rw [← length_capitals name]
      refine .referenceName hc.capitals hopener ?_
      rw [referenceAhead?_capitals, hname]
      rfl
  -- the character behind the name is no letter
  | @functionName d name hc hmatch hparen =>
      rw [← length_capitals name]
      refine .functionName hc.capitals
        (Cursor.match?_capitals_eq_some ignoresCase_identifier hmatch) ?_
      rw [length_capitals]
      exact (Cursor.peek?_advance_capitals_eq_some_iff rfl _).mpr hparen
  | @unfinishedFormula d name hc hmatch hparen =>
      rw [← length_capitals name]
      refine .unfinishedFormula hc.capitals
        (Cursor.match?_capitals_eq_some ignoresCase_identifier hmatch) ?_
      rw [length_capitals]
      exact mt (Cursor.peek?_advance_capitals_eq_some_iff rfl _).mp hparen
  | bracket hc hmem => exact .bracket hc.capitals (toUpper_mem_bracketChars.mpr hmem)
  | comma hc => exact .comma hc.capitals
  | @whitespace d spaces hc hbracket hcomma hmatch =>
      rw [← length_capitals spaces]
      exact .whitespace hc.capitals (mt toUpper_mem_bracketChars.mp hbracket)
        (mt (toUpper_eq_iff rfl).mp hcomma)
        (Cursor.match?_capitals_eq_some ignoresCase_spaces hmatch)
  | error hc hbracket hcomma hmatch =>
      exact .error hc.capitals (mt toUpper_mem_bracketChars.mp hbracket)
        (mt (toUpper_eq_iff rfl).mp hcomma)
        (Cursor.match?_capitals_eq_none ignoresCase_spaces hmatch)

/-- The classifier answers the same for the text in upper case. -/
theorem classify_capitals (c : Cursor) (history : History) :
    classify c.capitals history = classify c history := by
  refine (rule_of_classify c history).capitals.classify_eq fun hname hopener => ?_
  rw [referenceAhead?_capitals, no_reference_of_name rfl hname hopener]
  rfl

end

/-! ## Tokens -/

/-- The texts differ in nothing but the case of letters. -/
def SameLetters (a b : List Char) : Prop :=
  capitals a = capitals b

instance (a b : List Char) : Decidable (SameLetters a b) :=
  inferInstanceAs (Decidable (capitals a = capitals b))

/-- Texts with the same letters are equally long. -/
theorem SameLetters.length_eq {a b : List Char} (h : SameLetters a b) : a.length = b.length := by
  rw [← length_capitals a, h, length_capitals]

/-- **TOKENS IGNORE CASE**: a token is read off every text that has its
    letters, whatever their cases. -/
theorem Next.of_sameLetters {m : Memory} {t t' : Token} {rest rest' : List Char}
    (h : Next m t rest) (hkind : t'.kind = t.kind)
    (htext : SameLetters t'.text.toList t.text.toList) (hrest : SameLetters rest' rest) :
    Next m t' rest' := by
  have hlength : t'.text.length = t.text.length := by
    rw [← String.length_toList, ← String.length_toList, htext.length_eq]
  constructor
  · intro hempty
    rw [hempty] at hlength
    exact h.nonempty (String.length_eq_zero_iff.mp hlength.symm)
  · intro cursor history hcursor hmemory
    have hsame : cursor.capitals.rest
        = (⟨[], t.text.toList ++ rest⟩ : Cursor).capitals.rest := by
      show capitals cursor.rest = capitals (t.text.toList ++ rest)
      rw [hcursor, capitals_append, capitals_append, htext, hrest]
    rw [← classify_capitals, classify_congr hsame rfl, classify_capitals,
      h.classified _ history rfl hmemory, hkind, hlength]

end FormulaBar
