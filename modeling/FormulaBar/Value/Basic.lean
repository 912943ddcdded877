import FormulaBar.Decimal.Format
import FormulaBar.Decimal.Numeral
import FormulaBar.Text.Blank

/-! # Values — numbers and texts

    A formula computes a number or a text, and either can take the place
    of the other.  A text that writes a number counts as that number, the
    empty text as zero and any other text as NaN; a number counts as the
    text that `formatNumber` writes.  Where there is no value at all,
    operators and functions read the empty text or NaN. -/

namespace FormulaBar

/-- What a formula computes and a reference stands for. -/
inductive Value where
  | number (value : Float)
  | text (value : String)
deriving DecidableEq

/-- Numbers in texts are written positionally from a millionth up to, but
    not including, `10 ^ 21`, and with a signed exponent beyond. -/
def valueFormat : NumberFormat where
  tie := .up
  positional := some (-6, 21)
  pointZero := false
  exponentPlus := true
  signedZero := false
  notANumber := "NaN"
  infinity := "Infinity"

/-- The text of a number. -/
def formatNumber (x : Float) : String :=
  valueFormat.write x

/-- The number that a text counts as.  Blanks around it do not matter, and
    infinity is written in full. -/
def parseNumber (text : String) : Float :=
  match trim text.toList with
  | [] => 0
  | word =>
      match Numeral.ofText? word with
      | some n => n.toFloat
      | none =>
          if String.ofList word ∈ ["Infinity", "+Infinity"] then infinity
          else if String.ofList word = "-Infinity" then -infinity
          else notANumber

namespace Value

/-- The value as a number. -/
def asNumber : Value → Float
  | .number value => value
  | .text value => parseNumber value

/-- The value as a text. -/
def asText : Value → String
  | .number value => formatNumber value
  | .text value => value

/-- The number of a value that may be missing. -/
def numberOf (v : Option Value) : Float :=
  (v.map asNumber).getD notANumber

/-- The text of a value that may be missing. -/
def textOf (v : Option Value) : String :=
  (v.map asText).getD ""

end Value

end FormulaBar
