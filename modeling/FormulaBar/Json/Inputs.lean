import FormulaBar.Value.Inputs

/-! # Inputs as JSON — an object of numbers and texts

    The host hands over the inputs as one JSON object whose members are
    numbers and texts; of two members with one name the later counts.  The
    grammar of JSON is taken strictly: no comments, no superfluous commas
    or zeros, no control inside a text, no half of a surrogate pair and
    nothing behind the object.

    Readers of repeated parts take as fuel a bound on the number of
    characters left, which each round lowers by at least one.

    A number is taken as its significand, an integer below `2 ^ 64`, scaled
    by a power of ten in binary arithmetic.  Digits that do not fit into
    the significand are dropped; before the point they still count as
    places. -/

namespace FormulaBar

namespace InputsJson

/-- A reader takes a value off the front of a text, or refuses it. -/
abbrev TextReader := StateT (List Char) Option

/-- Blanks between the parts of a document. -/
def isSpace (c : Char) : Bool :=
  c == ' ' || c == '\t' || c == '\n' || c == '\r'

def skipSpaces : TextReader Unit :=
  modify (·.dropWhile isSpace)

/-- The next character. -/
def next : TextReader Char := do
  match ← get with
  | [] => failure
  | c :: rest =>
      set rest
      return c

/-- The next character, without taking it. -/
def peek? : TextReader (Option Char) :=
  return (← get).head?

/-- Takes the character `c`. -/
def expect (c : Char) : TextReader Unit := do
  guard ((← next) = c)

/-- Takes a run of digits. -/
def digits : TextReader (List Char) := do
  let (run, rest) := (← get).span Char.isDigit
  set rest
  return run

/-! ## Texts -/

/-- The value of a hexadecimal digit. -/
def hexValue? (c : Char) : Option Nat :=
  if c.isDigit then some (c.toNat - '0'.toNat)
  else if 'a' ≤ c ∧ c ≤ 'f' then some (c.toNat - 'a'.toNat + 10)
  else if 'A' ≤ c ∧ c ≤ 'F' then some (c.toNat - 'A'.toNat + 10)
  else none

/-- Four hexadecimal digits. -/
def codeUnit : TextReader Nat := do
  let a ← hexValue? (← next)
  let b ← hexValue? (← next)
  let c ← hexValue? (← next)
  let d ← hexValue? (← next)
  return ((a * 16 + b) * 16 + c) * 16 + d

/-- The character of an escape by code units; a high surrogate needs a low
    one behind it. -/
def codePoint : TextReader Char := do
  let high ← codeUnit
  if 0xD800 ≤ high ∧ high < 0xDC00 then
    expect '\\'
    expect 'u'
    let low ← codeUnit
    guard (0xDC00 ≤ low ∧ low < 0xE000)
    return Char.ofNat (0x10000 + (high - 0xD800) * 0x400 + (low - 0xDC00))
  else
    guard (¬(0xDC00 ≤ high ∧ high < 0xE000))
    return Char.ofNat high

/-- The character of an escape, behind its backslash. -/
def escaped : TextReader Char := do
  match ← next with
  | '"' => return '"'
  | '\\' => return '\\'
  | '/' => return '/'
  | 'b' => return '\x08'
  | 'f' => return '\x0c'
  | 'n' => return '\n'
  | 'r' => return '\r'
  | 't' => return '\t'
  | 'u' => codePoint
  | _ => failure

/-- A text behind its opening quote; `read` holds the earlier characters,
    the latest first. -/
def textBody : Nat → List Char → TextReader String
  | 0, _ => failure
  | fuel + 1, read => do
      match ← next with
      | '"' => return String.ofList read.reverse
      | '\\' => textBody fuel ((← escaped) :: read)
      | c =>
          guard (0x20 ≤ c.toNat)
          textBody fuel (c :: read)

/-- A text in its quotes. -/
def text (fuel : Nat) : TextReader String := do
  expect '"'
  textBody fuel []

/-! ## Numbers -/

/-- Appends digits to a significand as long as it stays below `2 ^ 64`: the
    significand, and the digits that did not fit. -/
def takeSignificand (significand : Nat) : List Char → Nat × List Char
  | [] => (significand, [])
  | d :: rest =>
      let longer := significand * 10 + (d.toNat - '0'.toNat)
      if longer < 2 ^ 64 then takeSignificand longer rest
      else (significand, d :: rest)

/-- The number `x · 10 ^ exponent`.  A power beyond the range of powers is
    applied in steps of `10 ^ -308`. -/
def scale (x : Float) : Nat → Int → Float
  | 0, _ => x
  | steps + 1, exponent =>
      if 0 ≤ exponent then
        if x == 0 then x else x * Float.ofScientific 1 false exponent.toNat
      else if -308 ≤ exponent then x / Float.ofScientific 1 false exponent.natAbs
      else scale (x / 1e308) steps (exponent + 308)

/-- The exponent behind its mark. -/
def exponent : TextReader Int := do
  let negative ← match ← peek? with
    | some '-' => do let _ ← next; pure true
    | some '+' => do let _ ← next; pure false
    | _ => pure false
  let run ← digits
  guard (run ≠ [])
  let n : Int := Nat.ofDigitChars 10 run 0
  return if negative then -n else n

/-- An unsigned number; none where it is beyond the range. -/
def magnitude : TextReader Float := do
  let whole ← digits
  guard (whole ≠ [] ∧ (whole.head? = some '0' → whole.length = 1))
  let (significand, dropped) := takeSignificand 0 whole
  let fraction ← match ← peek? with
    | some '.' => do
        let _ ← next
        let run ← digits
        guard (run ≠ [])
        pure run
    | _ => pure []
  let (significand, lost) := takeSignificand significand fraction
  let written ← match ← peek? with
    | some 'e' | some 'E' => do let _ ← next; exponent
    | _ => pure 0
  let places : Int := dropped.length - (fraction.length - lost.length : Nat)
  let x := scale (Float.ofScientific significand false 0) 4 (places + written)
  guard x.isFinite
  return x

/-- A number with an optional minus sign. -/
def number : TextReader Float := do
  if (← peek?) = some '-' then
    let _ ← next
    return -(← magnitude)
  else magnitude

/-! ## The object -/

/-- The value of a member. -/
def value (fuel : Nat) : TextReader Value := do
  if (← peek?) = some '"' then return .text (← text fuel)
  else return .number (← number)

/-- A member added to the inputs. -/
def member (fuel : Nat) (inputs : Inputs) : TextReader Inputs := do
  let name ← text fuel
  skipSpaces
  expect ':'
  skipSpaces
  let v ← value fuel
  skipSpaces
  return inputs.insert name v

/-- The members up to the closing brace. -/
def members : Nat → Inputs → TextReader Inputs
  | 0, _ => failure
  | fuel + 1, inputs => do
      let inputs ← member fuel inputs
      match ← next with
      | ',' =>
          skipSpaces
          members fuel inputs
      | '\x7d' => return inputs
      | _ => failure

/-- One object, with blanks around it. -/
def document : TextReader Inputs := do
  skipSpaces
  expect '\x7b'
  skipSpaces
  let inputs ← if (← peek?) = some '\x7d' then do let _ ← next; pure {}
    else members (← get).length {}
  skipSpaces
  return inputs

end InputsJson

/-- The inputs that a JSON text hands over. -/
def Inputs.ofJson? (source : String) : Option Inputs :=
  match InputsJson.document source.toList with
  | some (inputs, []) => some inputs
  | _ => none

end FormulaBar
