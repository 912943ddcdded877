/-! # Cursors — a place in the text of a formula

    A cursor splits a text into the part before it and the part ahead of
    it, so it stands between two characters by construction and moving it
    loses none.  Places are counted in bytes of the UTF-8 form; an offset
    that falls inside a character or beyond the text names no place. -/

namespace FormulaBar

/-- The number of bytes of a text. -/
def byteLength (text : List Char) : Nat :=
  text.foldr (fun c n => c.utf8Size + n) 0

@[simp] theorem byteLength_append (a b : List Char) :
    byteLength (a ++ b) = byteLength a + byteLength b := by
  induction a with
  | nil => simp [byteLength]
  | cons c a ih =>
      simp only [byteLength, List.cons_append, List.foldr_cons] at ih ⊢
      rw [ih, Nat.add_assoc]

/-- The text without its first `n` bytes, where these end on a character
    boundary. -/
def dropBytes? : Nat → List Char → Option (List Char)
  | 0, text => some text
  | _ + 1, [] => none
  | n + 1, c :: text =>
      if c.utf8Size ≤ n + 1 then dropBytes? (n + 1 - c.utf8Size) text else none

/-- A pattern takes some text off the front of what lies ahead; taking
    nothing means that it does not match there. -/
structure Pattern where
  ahead : List Char → List Char
  ahead_isPrefix : ∀ text, ahead text <+: text

/-- The longest run of characters that satisfy `p`. -/
def Pattern.run (p : Char → Bool) : Pattern where
  ahead := List.takeWhile p
  ahead_isPrefix _ := List.takeWhile_prefix p

/-- A place in a text. -/
structure Cursor where
  /-- The text before the cursor, last character first. -/
  before : List Char := []
  /-- The text ahead of the cursor. -/
  rest : List Char
deriving DecidableEq, Repr

namespace Cursor

/-- The cursor at the start of a text. -/
def ofString (source : String) : Cursor where
  rest := source.toList

/-- The text that the cursor stands in. -/
def source (c : Cursor) : List Char :=
  c.before.reverse ++ c.rest

/-- The number of bytes before the cursor. -/
def position (c : Cursor) : Nat :=
  byteLength c.before

/-- Whether no text lies ahead. -/
def isEnd (c : Cursor) : Bool :=
  c.rest.isEmpty

/-- The character ahead. -/
def peek? (c : Cursor) : Option Char :=
  c.rest.head?

/-- The character `offset` bytes ahead. -/
def peekAt? (c : Cursor) (offset : Nat) : Option Char :=
  (dropBytes? offset c.rest).bind (·.head?)

/-- The text from the byte offset `start` up to the cursor; none where the
    offset is past the cursor or inside a character. -/
def sliceFrom? (c : Cursor) (start : Nat) : Option (List Char) :=
  dropBytes? start c.before.reverse

/-- Moves past the next `n` characters, or to the end where fewer are left. -/
def advance : Nat → Cursor → Cursor
  | 0, c => c
  | _ + 1, ⟨before, []⟩ => ⟨before, []⟩
  | n + 1, ⟨before, ch :: rest⟩ => advance n ⟨ch :: before, rest⟩

@[simp] theorem rest_advance (n : Nat) (c : Cursor) :
    (c.advance n).rest = c.rest.drop n := by
  fun_induction advance n c <;> simp_all

/-- Moving stays in the same text. -/
@[simp] theorem source_advance (n : Nat) (c : Cursor) :
    (c.advance n).source = c.source := by
  fun_induction advance n c with
  | case1 => rfl
  | case2 => rfl
  | case3 n before ch rest ih => rw [ih]; simp [source]

/-- The text that the pattern takes at the cursor. -/
def match? (c : Cursor) (p : Pattern) : Option (List Char) :=
  match p.ahead c.rest with
  | [] => none
  | text => some text

/-- Moves past the text that the pattern takes. -/
def skip (c : Cursor) (p : Pattern) : Cursor :=
  c.advance (p.ahead c.rest).length

end Cursor

end FormulaBar
