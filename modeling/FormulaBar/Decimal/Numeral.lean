import FormulaBar.Decimal.Basic

/-! # Numerals — reading the text of a number

    A numeral is an optional sign, digits with an optional point among or
    beside them, and an optional exponent.  A digit must stand on at least
    one side of the point.  Both readers of numbers, the one for number
    tokens and the one for texts in arithmetic, accept numerals and differ
    in the words they accept besides. -/

namespace FormulaBar

/-- The parts of a numeral. -/
structure Numeral where
  negative : Bool
  /-- The digits before the point. -/
  whole : List Char
  /-- The digits after the point. -/
  fraction : List Char
  /-- The written exponent, zero where none is written. -/
  exponent : Int
deriving DecidableEq, Repr

namespace Numeral

/-- Splits off a sign: whether it is a minus, and the text behind it. -/
def splitSign : List Char → Bool × List Char
  | '-' :: rest => (true, rest)
  | '+' :: rest => (false, rest)
  | text => (false, text)

/-- The exponent that `text` writes: nothing, or `e` with a signed run of
    digits. -/
def exponent? : List Char → Option Int
  | [] => some 0
  | mark :: text =>
      if mark = 'e' ∨ mark = 'E' then
        let (negative, digits) := splitSign text
        if digits ≠ [] ∧ digits.all Char.isDigit then
          let n : Int := Nat.ofDigitChars 10 digits 0
          some (if negative then -n else n)
        else none
      else none

/-- The digits after a point, and the text behind them. -/
def afterPoint : List Char → List Char × List Char
  | '.' :: text => text.span Char.isDigit
  | text => ([], text)

/-- The numeral that the whole text is, if it is one. -/
def ofText? (text : List Char) : Option Numeral :=
  let (negative, text) := splitSign text
  let (whole, text) := text.span Char.isDigit
  let (fraction, text) := afterPoint text
  if whole = [] ∧ fraction = [] then none
  else (exponent? text).map (⟨negative, whole, fraction, ·⟩)

/-- The decimal without the sign. -/
def magnitude (n : Numeral) : Decimal :=
  ⟨Nat.ofDigitChars 10 (n.whole ++ n.fraction) 0, n.exponent - n.fraction.length⟩

/-- The number that the numeral writes. -/
def toFloat (n : Numeral) : Float :=
  if n.negative then -n.magnitude.toFloat else n.magnitude.toFloat

end Numeral

/-- Positive infinity. -/
def infinity : Float := 1 / 0

/-- The value that is not a number. -/
def notANumber : Float := 0 / 0

/-- The number that a number token writes: a numeral, or one of the words
    `inf`, `infinity` and `nan` in any case, with an optional sign. -/
def readLiteral? (text : String) : Option Float :=
  match Numeral.ofText? text.toList with
  | some n => some n.toFloat
  | none =>
      let (negative, word) := Numeral.splitSign text.toList
      let signed (x : Float) := if negative then -x else x
      let word := String.ofList (word.map Char.toLower)
      if word = "inf" ∨ word = "infinity" then some (signed infinity)
      else if word = "nan" then some (signed notANumber)
      else none

end FormulaBar
