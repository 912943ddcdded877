import FormulaBar.Token.Basic
import FormulaBar.Token.Pattern

/-! # Classification — one token at the cursor

    Which token starts at the cursor depends on the text ahead and on the
    latest significant token: that is how a quoted text, a reference name
    and a minus sign are told apart without a mode.  The rules are tried
    in the order of `classify` and the first that applies decides. -/

namespace FormulaBar

/-- A classifier names the token at the cursor and says how many
    characters it takes; a token of no characters means that the
    classifier is stuck. -/
abbrev Classifier := Cursor → History → Token.Kind × Nat

/-- The characters that are operators. -/
def operatorChars : List Char := ['&', '*', '-', '+', '=', '/']

/-- The characters that are brackets. -/
def bracketChars : List Char := ['(', ')', '[', ']']

/-- The reference name ahead: a run without brackets directly before `]`. -/
def referenceAhead? (cursor : Cursor) : Option (List Char) :=
  (cursor.match? .referenceName).filter fun name =>
    (cursor.advance name.length).peek? == some ']'

/-- The token at a cursor that is not at the end.  A double quote ends a
    text that is open and starts one otherwise, so doubled quotes are no
    escape; a minus sign belongs to a number only behind an operator. -/
def classify : Classifier := fun cursor history =>
  match cursor.peek? with
  | none => (.error, 0)
  | some c =>
    let previous := history.previous?
    let kind := previous.map (·.kind)
    if c = '"' then
      if kind = some .string ∨ kind = some .startQuote then (.endQuote, 1)
      else (.startQuote, 1)
    else if kind = some .startQuote then
      (.string, (Pattern.quotedText.ahead cursor.rest).length)
    else if let some number := cursor.match? .number then
      if c = '-' ∧ kind ≠ some .operator then (.operator, 1)
      else (.number, number.length)
    else if c ∈ operatorChars then (.operator, 1)
    else if let some name := (if previous.any (·.isBracket '[') then
        referenceAhead? cursor else none) then
      (.referenceName, name.length)
    else if let some name := cursor.match? .identifier then
      if (cursor.advance name.length).peek? = some '(' then
        (.functionName, name.length)
      else (.unfinishedFormula, name.length)
    else if c ∈ bracketChars then (.bracket, 1)
    else if c = ',' then (.comma, 1)
    else if let some spaces := cursor.match? .spaces then
      (.whitespace, spaces.length)
    else (.error, 1)

end FormulaBar
