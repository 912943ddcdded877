import FormulaBar.Decimal.Format

/-! # Compact JSON — the interchange form of what is shown

    Documents are written without blanks and with the members of an object
    in the order in which they are given.  A text escapes only what the
    grammar demands: the quote, the backslash and the controls below the
    space. -/

namespace FormulaBar

/-- A JSON document. -/
inductive Json where
  | null
  | bool (value : Bool)
  | nat (value : Nat)
  | float (value : Float)
  | string (value : String)
  | array (items : List Json)
  | object (members : List (String × Json))

namespace Json

/-- Numbers always show that they may have a fraction. -/
def numberFormat : NumberFormat where
  tie := .even
  positional := some (-5, 16)
  pointZero := true
  exponentPlus := false
  signedZero := true
  notANumber := "null"
  infinity := "null"

/-- A number; where it is not finite, nothing stands in its place. -/
def writeFloat (x : Float) : String :=
  if x.isFinite then numberFormat.write x else "null"

/-- The letter that stands for the character behind a backslash. -/
def letter? : Char → Option Char
  | '"' => some '"'
  | '\\' => some '\\'
  | '\x08' => some 'b'
  | '\t' => some 't'
  | '\n' => some 'n'
  | '\x0c' => some 'f'
  | '\r' => some 'r'
  | _ => none

/-- The written form of one character of a text. -/
def escape (c : Char) : List Char :=
  match letter? c with
  | some l => ['\\', l]
  | none =>
      if c.toNat < 0x20 then
        let digits := Nat.toDigits 16 c.toNat
        '\\' :: 'u' :: (List.replicate (4 - digits.length) '0' ++ digits)
      else [c]

def writeString (text : String) : String :=
  String.ofList ('"' :: (text.toList.flatMap escape ++ ['"']))

mutual

/-- The compact form of a document. -/
def write : Json → String
  | .null => "null"
  | .bool value => if value then "true" else "false"
  | .nat value => toString value
  | .float value => writeFloat value
  | .string value => writeString value
  | .array items => "[" ++ writeItems items ++ "]"
  | .object members => "\x7b" ++ writeMembers members ++ "\x7d"

/-- The items of an array, separated by commas. -/
def writeItems : List Json → String
  | [] => ""
  | [item] => item.write
  | item :: items => item.write ++ "," ++ writeItems items

/-- The members of an object, separated by commas. -/
def writeMembers : List (String × Json) → String
  | [] => ""
  | [(name, value)] => writeString name ++ ":" ++ value.write
  | (name, value) :: members =>
      writeString name ++ ":" ++ value.write ++ "," ++ writeMembers members

end

end Json

end FormulaBar
