import FormulaBar.Token.Classify

/-! # Lexer — a formula as a list of tokens

    The lexer calls a classifier at the cursor, cuts off the text that the
    token takes and goes on behind it.  A classifier that takes nothing
    would loop for ever; this is the only way in which scanning fails.
    Offsets in tokens count characters from the start of the formula. -/

namespace FormulaBar

/-- A classifier was stuck: the class it named and the character offset. -/
structure Stall where
  kind : Token.Kind
  offset : Nat
deriving DecidableEq, Repr

def Stall.message (s : Stall) : String :=
  s!"Tokenizer did not move forward at character {s.offset}"

/-- A scan in progress. -/
structure Lexer where
  cursor : Cursor
  /-- The tokens before the cursor, the latest first. -/
  history : History := []
  /-- The number of characters before the cursor. -/
  offset : Nat := 0
deriving DecidableEq, Repr

namespace Lexer

/-- The scan of a formula before its first token. -/
def ofString (formula : String) : Lexer where
  cursor := .ofString formula

/-- The tokens scanned so far, in their order. -/
def tokens (l : Lexer) : List Token :=
  l.history.reverse

/-- The lexer behind the next token, if the formula is not at its end. -/
def next? (classify : Classifier) (l : Lexer) : Except Stall (Option Lexer) :=
  if l.cursor.isEnd then .ok none
  else
    let (kind, n) := classify l.cursor l.history
    if n = 0 then .error ⟨kind, l.offset⟩
    else
      let text := l.cursor.rest.take n
      let token : Token :=
        { kind, text := .ofList text
          start := l.offset, stop := l.offset + text.length - 1 }
      .ok (some
        { cursor := l.cursor.advance n
          history := token :: l.history
          offset := l.offset + text.length })

/-- A token takes at least one character. -/
theorem length_rest_of_next? {classify : Classifier} {l l' : Lexer}
    (h : l.next? classify = .ok (some l')) :
    l'.cursor.rest.length < l.cursor.rest.length := by
  unfold next? at h
  split at h
  · exact nomatch h
  · next hend =>
    simp only at h
    split at h
    · exact nomatch h
    · next hn =>
      cases h
      have hpos : 0 < l.cursor.rest.length :=
        List.length_pos_iff.2 (by simpa [Cursor.isEnd] using hend)
      simp only [Cursor.rest_advance, List.length_drop]
      omega

/-- Scans to the end of the formula, or to the place where the classifier
    is stuck. -/
def run (classify : Classifier) (l : Lexer) : Lexer × Option Stall :=
  match h : l.next? classify with
  | .ok none => (l, none)
  | .ok (some l') =>
      have := length_rest_of_next? h
      run classify l'
  | .error stall => (l, some stall)
termination_by l.cursor.rest.length

/-- All tokens of the formula, if the classifier is never stuck. -/
def tokenize (classify : Classifier) (l : Lexer) : Except Stall (List Token) :=
  match l.run classify with
  | (l, none) => .ok l.tokens
  | (_, some stall) => .error stall

end Lexer

/-- The tokens of a formula by a given classifier. -/
def tokenizeWith (classify : Classifier) (formula : String) :
    Except Stall (List Token) :=
  (Lexer.ofString formula).tokenize classify

/-- The tokens of a formula. -/
def tokenize (formula : String) : Except Stall (List Token) :=
  tokenizeWith classify formula

/-- The formula without line breaks: the formula bar has a single line. -/
def stripLineBreaks (formula : String) : String :=
  .ofList (formula.toList.filter fun c => c != '\r' && c != '\n')

end FormulaBar
