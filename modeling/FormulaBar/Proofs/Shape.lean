import FormulaBar.Proofs.Lookahead

/-! # Shape — the texts that write a number

    Two expressions say which texts write a number: the one of number tokens
    in a formula, and the one of texts in arithmetic, which has more signs, a
    bare point at the end and exponents.  Both are stated here as they are
    written, as relations on texts.

    Where several numbers start at one place the lexer takes the longest, so
    it takes nothing exactly where none starts.  And a text is a numeral
    exactly where the expression for arithmetic matches all of it: each part
    of the expression ends where its neighbour starts, for no digit, point or
    sign is also the mark of an exponent. -/

namespace FormulaBar

/-! ## Numbers in formulas -/

/-- The texts that `-?[0-9]*\.?[0-9]+` matches. -/
inductive MatchesNumber : List Char → Prop where
  | intro {sign whole point fraction : List Char} (hsign : sign = [] ∨ sign = ['-'])
      (hwhole : ∀ c ∈ whole, c.isDigit = true) (hpoint : point = [] ∨ point = ['.'])
      (hne : fraction ≠ []) (hfraction : ∀ c ∈ fraction, c.isDigit = true) :
      MatchesNumber (sign ++ (whole ++ (point ++ fraction)))

/-- Without its sign such a text is an unsigned number. -/
theorem matchesNumber_iff {text : List Char} :
    MatchesNumber text ↔ ∃ sign body, (sign = [] ∨ sign = ['-']) ∧ body ≠ [] ∧
      Unsigned body ∧ text = sign ++ body := by
  constructor
  · intro h
    cases h with
    | @intro sign whole point fraction hsign hwhole hpoint hne hfraction =>
        refine ⟨sign, whole ++ (point ++ fraction), hsign, ?_, ?_, rfl⟩
        · intro hnil
          exact hne (List.append_eq_nil_iff.mp (List.append_eq_nil_iff.mp hnil).2).2
        · rcases hpoint with rfl | rfl
          · exact .whole (List.forall_mem_append.mpr ⟨hwhole, hfraction⟩)
          · exact .point hwhole hfraction hne
  · rintro ⟨sign, body, hsign, hne, hbody, rfl⟩
    cases hbody with
    | whole h =>
        -- all digits stand at the end
        show MatchesNumber (sign ++ ([] ++ ([] ++ body)))
        exact .intro hsign (List.forall_mem_nil _) (Or.inl rfl) hne h
    | point hwhole hfraction hfne => exact .intro hsign hwhole (Or.inr rfl) hfne hfraction

/-- A run at the front of a text is a part of the longest one. -/
theorem isPrefix_takeWhile {p : Char → Bool} {run text : List Char} (hrun : ∀ c ∈ run, p c = true)
    (h : run <+: text) : run <+: text.takeWhile p := by
  obtain ⟨tail, rfl⟩ := h
  rw [List.takeWhile_append_of_pos hrun]
  exact List.prefix_append run _

/-- Any unsigned number at the front is part of what is taken. -/
theorem Unsigned.isPrefix {number text : List Char} (h : Unsigned number) (hn : number <+: text) :
    number <+: unsignedNumber text := by
  rw [unsignedNumber_eq]
  cases h with
  | whole h => exact (isPrefix_takeWhile h hn).trans (List.prefix_append _ _)
  | @point whole digits hwhole hdigits hne =>
      obtain ⟨tail, rfl⟩ := hn
      have hpoint : ('.' :: (digits ++ tail)).takeWhile Char.isDigit = [] :=
        List.takeWhile_cons_of_neg (by decide)
      have hrun := isPrefix_takeWhile hdigits (List.prefix_append digits tail)
      have hsome : (digits ++ tail).takeWhile Char.isDigit ≠ [] := by
        intro hnil
        rw [hnil] at hrun
        exact hne (List.prefix_nil.mp hrun)
      have hfraction : fraction ('.' :: (digits ++ tail))
          = '.' :: (digits ++ tail).takeWhile Char.isDigit := if_pos ⟨rfl, hsome⟩
      rw [List.append_assoc, List.cons_append, List.takeWhile_append_of_pos hwhole, hpoint,
        List.append_nil, List.drop_left, hfraction]
      exact (List.prefix_append_right_inj whole).mpr (List.cons_prefix_cons.mpr ⟨rfl, hrun⟩)

/-- A number without a sign starts with no minus sign. -/
theorem Unsigned.head?_ne_minus {number : List Char} (h : Unsigned number) :
    number.head? ≠ some '-' := by
  intro hhead
  obtain ⟨rest, rfl⟩ := List.head?_eq_some_iff.mp hhead
  cases h.splitSign_eq

/-- **THE LONGEST NUMBER IS TAKEN**: any number at the front of a text is part
    of what the lexer takes there. -/
theorem isPrefix_ahead_number {number text : List Char} (h : MatchesNumber number)
    (hn : number <+: text) : number <+: Pattern.number.ahead text := by
  obtain ⟨sign, body, hsign, hne, hbody, rfl⟩ := matchesNumber_iff.mp h
  obtain ⟨tail, rfl⟩ := hn
  rcases hsign with rfl | rfl
  · obtain ⟨c, rest, rfl⟩ := List.exists_cons_of_ne_nil hne
    have hc : c ≠ '-' := by
      rintro rfl
      exact hbody.head?_ne_minus rfl
    show c :: rest <+: Pattern.number.ahead (c :: (rest ++ tail))
    rw [ahead_number_of_ne hc]
    exact hbody.isPrefix (List.prefix_append (c :: rest) tail)
  · have hfront := hbody.isPrefix (List.prefix_append body tail)
    show '-' :: body <+: Pattern.number.ahead ('-' :: (body ++ tail))
    rw [ahead_number_minus, if_neg]
    · exact List.cons_prefix_cons.mpr ⟨rfl, hfront⟩
    · intro hnil
      rw [hnil] at hfront
      exact hne (List.prefix_nil.mp hfront)

/-- What is taken for a number has the shape of one. -/
theorem matchesNumber_ahead {text : List Char} (h : Pattern.number.ahead text ≠ []) :
    MatchesNumber (Pattern.number.ahead text) := by
  rw [matchesNumber_iff]
  rcases ahead_number text with hunsigned | ⟨body, heq, hbody, hunsigned⟩
  · exact ⟨[], _, Or.inl rfl, h, hunsigned, rfl⟩
  · exact ⟨['-'], body, Or.inr rfl, hbody, hunsigned, heq⟩

theorem MatchesNumber.ne_nil {text : List Char} (h : MatchesNumber text) : text ≠ [] := by
  obtain ⟨sign, body, -, hne, -, rfl⟩ := matchesNumber_iff.mp h
  exact List.append_ne_nil_of_right_ne_nil _ hne

/-- The lexer takes no number where none starts. -/
theorem ahead_number_eq_nil_iff {text : List Char} :
    Pattern.number.ahead text = [] ↔ ∀ number, number <+: text → ¬ MatchesNumber number := by
  constructor
  · intro hnil number hn h
    have hfront := isPrefix_ahead_number h hn
    rw [hnil] at hfront
    exact h.ne_nil (List.prefix_nil.mp hfront)
  · intro h
    refine Classical.byContradiction fun hne => ?_
    exact h _ (Pattern.number.ahead_isPrefix text) (matchesNumber_ahead hne)

/-- The texts that are taken in full. -/
theorem isNumber_iff {text : List Char} : IsNumber text ↔ MatchesNumber text := by
  constructor
  · rintro ⟨hne, hahead⟩
    rw [← hahead]
    exact matchesNumber_ahead (by rw [hahead]; exact hne)
  · intro h
    have hfront := isPrefix_ahead_number h (List.prefix_refl text)
    have hle := (Pattern.number.ahead_isPrefix text).length_le
    exact ⟨h.ne_nil, (hfront.eq_of_length_le hle).symm⟩

/-! ## Numbers in arithmetic -/

/-- The texts that `[0-9]+\.?[0-9]*|\.[0-9]+` matches. -/
inductive MatchesMantissa : List Char → Prop where
  | whole {whole point fraction : List Char} (hne : whole ≠ [])
      (hwhole : ∀ c ∈ whole, c.isDigit = true) (hpoint : point = [] ∨ point = ['.'])
      (hfraction : ∀ c ∈ fraction, c.isDigit = true) :
      MatchesMantissa (whole ++ (point ++ fraction))
  | fraction {fraction : List Char} (hne : fraction ≠ [])
      (hfraction : ∀ c ∈ fraction, c.isDigit = true) : MatchesMantissa ('.' :: fraction)

/-- The texts that `([eE][+-]?[0-9]+)?` matches. -/
inductive MatchesExponent : List Char → Prop where
  | none : MatchesExponent []
  | some {mark : Char} {sign digits : List Char} (hmark : mark = 'e' ∨ mark = 'E')
      (hsign : sign = [] ∨ sign = ['+'] ∨ sign = ['-']) (hne : digits ≠ [])
      (hdigits : ∀ c ∈ digits, c.isDigit = true) : MatchesExponent (mark :: (sign ++ digits))

/-- The texts that `[+-]?([0-9]+\.?[0-9]*|\.[0-9]+)([eE][+-]?[0-9]+)?`
    matches. -/
inductive MatchesNumericText : List Char → Prop where
  | intro {sign mantissa exponent : List Char}
      (hsign : sign = [] ∨ sign = ['+'] ∨ sign = ['-']) (hmantissa : MatchesMantissa mantissa)
      (hexponent : MatchesExponent exponent) :
      MatchesNumericText (sign ++ (mantissa ++ exponent))

/-- The point and the digits behind it may be missing. -/
theorem MatchesMantissa.of_digits {digits : List Char} (hne : digits ≠ [])
    (h : ∀ c ∈ digits, c.isDigit = true) : MatchesMantissa digits := by
  have hmatch : MatchesMantissa (digits ++ ([] ++ [])) :=
    .whole hne h (Or.inl rfl) (List.forall_mem_nil _)
  rwa [List.append_nil, List.append_nil] at hmatch

namespace Numeral

/-- A text splits into a sign and what is behind it. -/
theorem splitSign_cases (text : List Char) :
    ∃ sign, (sign = [] ∨ sign = ['+'] ∨ sign = ['-']) ∧ text = sign ++ (splitSign text).2 := by
  unfold splitSign
  split
  · exact ⟨['-'], Or.inr (Or.inr rfl), rfl⟩
  · exact ⟨['+'], Or.inr (Or.inl rfl), rfl⟩
  · exact ⟨[], Or.inl rfl, rfl⟩

/-- A sign in front of what starts with none is split off. -/
theorem splitSign_append {sign body : List Char}
    (hsign : sign = [] ∨ sign = ['+'] ∨ sign = ['-'])
    (hbody : body.head? ≠ some '-' ∧ body.head? ≠ some '+') :
    splitSign (sign ++ body) = (decide (sign = ['-']), body) := by
  rcases hsign with rfl | rfl | rfl
  · show splitSign body = (false, body)
    unfold splitSign
    split
    · exact absurd rfl hbody.1
    · exact absurd rfl hbody.2
    · rfl
  · rfl
  · rfl

theorem head?_ne_sign_of_digits {digits : List Char} (h : ∀ c ∈ digits, c.isDigit = true) :
    digits.head? ≠ some '-' ∧ digits.head? ≠ some '+' := by
  constructor
  · intro hhead
    exact absurd (h _ (List.mem_of_head? hhead)) (by decide)
  · intro hhead
    exact absurd (h _ (List.mem_of_head? hhead)) (by decide)

/-- The digits of an exponent count, with their sign. -/
theorem exponent?_eq {mark : Char} {sign digits : List Char} (hmark : mark = 'e' ∨ mark = 'E')
    (hsign : sign = [] ∨ sign = ['+'] ∨ sign = ['-']) (hne : digits ≠ [])
    (hdigits : ∀ c ∈ digits, c.isDigit = true) :
    exponent? (mark :: (sign ++ digits))
      = some (if sign = ['-'] then -(Nat.ofDigitChars 10 digits 0 : Int)
          else Nat.ofDigitChars 10 digits 0) := by
  rw [exponent?, if_pos hmark, splitSign_append hsign (head?_ne_sign_of_digits hdigits)]
  show (if digits ≠ [] ∧ digits.all Char.isDigit = true then _ else none) = _
  rw [if_pos ⟨hne, List.all_eq_true.mpr hdigits⟩]
  simp only [decide_eq_true_eq]

/-- An exponent is read off the texts with the shape of one. -/
theorem isSome_exponent?_iff {text : List Char} :
    (exponent? text).isSome = true ↔ MatchesExponent text := by
  constructor
  · intro h
    cases text with
    | nil => exact .none
    | cons mark text =>
        obtain ⟨sign, hsign, hsplit⟩ := splitSign_cases text
        rw [exponent?] at h
        split at h
        · next hmark =>
          simp only at h
          split at h
          · next hdigits =>
            rw [hsplit]
            exact .some hmark hsign hdigits.1 (List.all_eq_true.mp hdigits.2)
          · cases h
        · cases h
  · intro h
    cases h with
    | none => rfl
    | some hmark hsign hne hdigits =>
        rw [exponent?_eq hmark hsign hne hdigits]
        rfl

/-- An exponent starts neither with a digit nor with a point. -/
theorem head_of_exponent? {tail : List Char} {e : Int} (h : exponent? tail = some e) :
    tail.takeWhile Char.isDigit = [] ∧ afterPoint tail = ([], tail) := by
  cases tail with
  | nil => exact ⟨rfl, rfl⟩
  | cons mark tail =>
      have hmark : mark = 'e' ∨ mark = 'E' := by
        rw [exponent?] at h
        split at h
        · next hmark => exact hmark
        · cases h
      rcases hmark with rfl | rfl
      · exact ⟨rfl, rfl⟩
      · exact ⟨rfl, rfl⟩

section

variable {sign whole fraction tail : List Char} {e : Int}

/-- A numeral is read by its parts. -/
theorem ofText?_point (hsign : sign = [] ∨ sign = ['+'] ∨ sign = ['-'])
    (hwhole : ∀ c ∈ whole, c.isDigit = true) (hfraction : ∀ c ∈ fraction, c.isDigit = true)
    (hne : ¬ (whole = [] ∧ fraction = [])) (htail : exponent? tail = some e) :
    ofText? (sign ++ (whole ++ '.' :: (fraction ++ tail)))
      = some ⟨decide (sign = ['-']), whole, fraction, e⟩ := by
  have hbody : (whole ++ '.' :: (fraction ++ tail)).head? ≠ some '-' ∧
      (whole ++ '.' :: (fraction ++ tail)).head? ≠ some '+' := by
    cases whole with
    | nil => exact ⟨by simp, by simp⟩
    | cons c whole =>
        show (c :: whole).head? ≠ some '-' ∧ (c :: whole).head? ≠ some '+'
        exact head?_ne_sign_of_digits hwhole
  have hspan := span_digits hwhole ('.' :: (fraction ++ tail)) rfl
  have hpoint : afterPoint ('.' :: (fraction ++ tail)) = (fraction, tail) :=
    span_digits hfraction tail (head_of_exponent? htail).1
  rw [ofText?, splitSign_append hsign hbody]
  simp only [hspan, hpoint]
  rw [if_neg hne, htail]
  rfl

/-- Digits without a point are a numeral with what is read off the exponent.
    -/
theorem ofText?_whole (hsign : sign = [] ∨ sign = ['+'] ∨ sign = ['-']) (hne : whole ≠ [])
    (hwhole : ∀ c ∈ whole, c.isDigit = true) (htail : exponent? tail = some e) :
    ofText? (sign ++ (whole ++ tail)) = some ⟨decide (sign = ['-']), whole, [], e⟩ := by
  obtain ⟨hdigits, hpoint⟩ := head_of_exponent? htail
  have hbody : (whole ++ tail).head? = whole.head? := List.head?_append_of_ne_nil _ hne
  rw [ofText?, splitSign_append hsign (by rw [hbody]; exact head?_ne_sign_of_digits hwhole)]
  simp only [span_digits hwhole tail hdigits, hpoint]
  rw [if_neg fun h => hne h.1, htail]
  rfl

end

/-- Taking digits off the front loses nothing. -/
theorem span_isDigit (text : List Char) :
    (∀ c ∈ (text.span Char.isDigit).1, c.isDigit = true) ∧
      text = (text.span Char.isDigit).1 ++ (text.span Char.isDigit).2 := by
  rw [List.span_eq_takeWhile_dropWhile]
  exact ⟨fun c hc => List.mem_takeWhile_imp hc, List.takeWhile_append_dropWhile.symm⟩

/-- Digits, a point and digits, the digits on one side at least, are a
    mantissa. -/
theorem matchesMantissa_of_afterPoint {whole text : List Char}
    (hwhole : ∀ c ∈ whole, c.isDigit = true) (hne : ¬ (whole = [] ∧ (afterPoint text).1 = [])) :
    ∃ mantissa, MatchesMantissa mantissa ∧ whole ++ text = mantissa ++ (afterPoint text).2 := by
  unfold afterPoint at hne ⊢
  split at hne
  · next rest =>
    obtain ⟨hfraction, hsplit⟩ := span_isDigit rest
    refine ⟨whole ++ '.' :: (rest.span Char.isDigit).1, ?_, ?_⟩
    · by_cases hw : whole = []
      · subst hw
        exact .fraction (fun hnil => hne ⟨rfl, hnil⟩) hfraction
      · exact .whole hw hwhole (Or.inr rfl) hfraction
    · rw [List.append_assoc, List.cons_append, ← hsplit]
  · have hw : whole ≠ [] := fun hnil => hne ⟨hnil, rfl⟩
    exact ⟨whole, .of_digits hw hwhole, rfl⟩

/-- **NUMERALS ARE WHAT THE EXPRESSION MATCHES.** -/
theorem isSome_ofText?_iff {text : List Char} :
    (ofText? text).isSome = true ↔ MatchesNumericText text := by
  constructor
  · intro h
    obtain ⟨sign, hsign, hsplit⟩ := splitSign_cases text
    obtain ⟨hwhole, hspan⟩ := span_isDigit (splitSign text).2
    rw [ofText?] at h
    simp only at h
    split at h
    · cases h
    · next hne =>
      rw [Option.isSome_map] at h
      obtain ⟨mantissa, hmantissa, heq⟩ := matchesMantissa_of_afterPoint hwhole hne
      rw [hsplit, hspan, heq]
      exact .intro hsign hmantissa (isSome_exponent?_iff.mp h)
  · intro h
    cases h with
    | intro hsign hmantissa hexponent =>
        obtain ⟨e, he⟩ := Option.isSome_iff_exists.mp (isSome_exponent?_iff.mpr hexponent)
        cases hmantissa with
        | @whole whole point fraction hne hwhole hpoint hfraction =>
            -- without a point the two runs of digits are one
            rcases hpoint with rfl | rfl
            · have hall := List.forall_mem_append.mpr ⟨hwhole, hfraction⟩
              rw [List.nil_append,
                ofText?_whole hsign (List.append_ne_nil_of_left_ne_nil hne _) hall he]
              rfl
            · rw [List.append_assoc, List.singleton_append, List.cons_append,
                ofText?_point hsign hwhole hfraction (fun hnil => hne hnil.1) he]
              rfl
        | fraction hne hfraction =>
            have hwhole : ∀ c ∈ ([] : List Char), c.isDigit = true := List.forall_mem_nil _
            have hread := ofText?_point hsign hwhole hfraction (fun hnil => hne hnil.2) he
            rw [List.nil_append] at hread
            rw [List.cons_append, hread]
            rfl

end Numeral

/-- A number in a formula is a number in arithmetic. -/
theorem MatchesNumber.numericText {text : List Char} (h : MatchesNumber text) :
    MatchesNumericText text := by
  cases h with
  | @intro sign whole point fraction hsign hwhole hpoint hne hfraction =>
      have hsign' : sign = [] ∨ sign = ['+'] ∨ sign = ['-'] := hsign.imp_right Or.inr
      have hmantissa : MatchesMantissa (whole ++ (point ++ fraction)) := by
        by_cases hw : whole = []
        · subst hw
          rcases hpoint with rfl | rfl
          · exact .of_digits hne hfraction
          · exact .fraction hne hfraction
        · exact .whole hw hwhole hpoint hfraction
      have hmatch := MatchesNumericText.intro hsign' hmantissa .none
      rwa [List.append_nil] at hmatch

end FormulaBar
