import FormulaBar.Cursor

/-! # Token patterns — the shapes of longer tokens

    Each pattern takes the longest run of its shape off the text ahead.
    Letters and digits are those of ASCII; any character may stand in a
    quoted text or in a reference name. -/

namespace FormulaBar

/-- The text without a run `a` at its front, where `a` is such a run. -/
private theorem append_cons_drop {a text rest : List Char} {c : Char}
    (ha : a <+: text) (h : text.drop a.length = c :: rest) :
    text = a ++ c :: rest := by
  obtain ⟨tail, rfl⟩ := ha
  rw [List.drop_left] at h
  rw [h]

/-- An unsigned number: digits, and a point with digits behind it.  The
    digits before the point may be missing, a point without digits behind
    it does not belong to the number. -/
def unsignedNumber (text : List Char) : List Char :=
  let whole := text.takeWhile Char.isDigit
  match text.drop whole.length with
  | '.' :: rest =>
      match rest.takeWhile Char.isDigit with
      | [] => whole
      | fraction => whole ++ '.' :: fraction
  | _ => whole

theorem unsignedNumber_isPrefix (text : List Char) :
    unsignedNumber text <+: text := by
  have hwhole := List.takeWhile_prefix (l := text) Char.isDigit
  unfold unsignedNumber
  simp only
  split
  · next rest h =>
    split
    · exact hwhole
    · -- the text splits at the point, and the fraction starts what follows
      have hsplit := append_cons_drop hwhole h
      have hfrac := List.takeWhile_prefix (l := rest) Char.isDigit
      conv => rhs; rw [hsplit]
      rw [List.prefix_append_right_inj, List.cons_prefix_cons]
      exact ⟨rfl, hfrac⟩
  · exact hwhole

namespace Pattern

/-- A number with an optional minus sign. -/
def number : Pattern where
  ahead
    | '-' :: text =>
        match unsignedNumber text with
        | [] => []
        | digits => '-' :: digits
    | text => unsignedNumber text
  ahead_isPrefix text := by
    split
    · next text =>
      split
      · exact List.nil_prefix
      · exact List.cons_prefix_cons.2 ⟨rfl, unsignedNumber_isPrefix text⟩
    · exact unsignedNumber_isPrefix _

/-- The text up to the next double quote. -/
def quotedText : Pattern := run (· != '"')

/-- The text up to the next square bracket. -/
def referenceName : Pattern := run fun c => c != '[' && c != ']'

/-- Spaces; other blanks do not count. -/
def spaces : Pattern := run (· == ' ')

/-- Whether a name may start with the character. -/
def startsName (c : Char) : Bool :=
  c.isAlpha || c == '_'

/-- Whether a name may go on with the character. -/
def continuesName (c : Char) : Bool :=
  c.isAlphanum || c == '_'

/-- A name: a letter or an underscore, then letters, digits and
    underscores. -/
def identifier : Pattern where
  ahead
    | c :: text => if startsName c then c :: text.takeWhile continuesName else []
    | [] => []
  ahead_isPrefix text := by
    split
    · split
      · exact List.cons_prefix_cons.2 ⟨rfl, List.takeWhile_prefix _⟩
      · exact List.nil_prefix
    · exact List.nil_prefix

end Pattern

end FormulaBar
