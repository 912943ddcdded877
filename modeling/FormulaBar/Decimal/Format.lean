import FormulaBar.Decimal.Shortest

/-! # Number formats — how the digits of a number are laid out

    Which digits a number has is settled by `Decimal.shortest`; a format
    settles the rest: where positional notation ends, what an integer and
    an exponent look like, and the texts of the special values. -/

namespace FormulaBar

/-- The decisions of a number format. -/
structure NumberFormat where
  /-- Which of two equally near decimals is written. -/
  tie : Decimal.Tie
  /-- The exponents of the leading digit that are written positionally,
      from the first bound up to but not including the second; all of them
      where no bounds are given. -/
  positional : Option (Int × Int)
  /-- A number without fraction digits ends in `.0`. -/
  pointZero : Bool
  /-- A positive exponent has a sign. -/
  exponentPlus : Bool
  /-- Negative zero has a sign. -/
  signedZero : Bool
  notANumber : String
  infinity : String
deriving DecidableEq, Repr

namespace NumberFormat

/-- The digits `ds`, the last of them standing for `10 ^ e`, without an
    exponent. -/
def plain (f : NumberFormat) (ds : List Char) (e : Int) : List Char :=
  let places := e + ds.length
  if 0 ≤ e then
    ds ++ List.replicate e.toNat '0' ++ (if f.pointZero then ['.', '0'] else [])
  else if 0 < places then
    ds.take places.toNat ++ '.' :: ds.drop places.toNat
  else
    '0' :: '.' :: (List.replicate (-places).toNat '0' ++ ds)

/-- The digits `ds` with a point after the first, and the exponent of that
    first digit. -/
def scientific (f : NumberFormat) (ds : List Char) (lead : Int) : List Char :=
  let fraction := match ds.drop 1 with
    | [] => []
    | rest => '.' :: rest
  let sign := if lead < 0 then ['-'] else if f.exponentPlus then ['+'] else []
  ds.take 1 ++ fraction ++ 'e' :: (sign ++ Nat.toDigits 10 lead.natAbs)

/-- Whether a leading digit of this exponent is written positionally. -/
def writesPlainly (f : NumberFormat) (lead : Int) : Bool :=
  match f.positional with
  | none => true
  | some (low, high) => low ≤ lead && lead < high

/-- The text of a decimal. -/
def writeDecimal (f : NumberFormat) (d : Decimal) : List Char :=
  let ds := Nat.toDigits 10 d.digits
  let lead := d.exponent + ds.length - 1
  if f.writesPlainly lead then f.plain ds d.exponent else f.scientific ds lead

/-- The text of a number that is neither negative nor NaN. -/
def writeMagnitude (f : NumberFormat) (x : Float) : List Char :=
  if x.isInf then f.infinity.toList
  else if x == 0 then f.plain ['0'] 0
  else f.writeDecimal (Decimal.shortest f.tie x)

/-- Whether the sign bit is set. -/
def isNegative (x : Float) : Bool :=
  Nat.pow 2 63 ≤ x.toBits.toNat

/-- The text of a number. -/
def write (f : NumberFormat) (x : Float) : String :=
  if x.isNaN then f.notANumber
  else
    let sign := if isNegative x && (f.signedZero || x != 0) then ['-'] else []
    String.ofList (sign ++ f.writeMagnitude x.abs)

end NumberFormat

end FormulaBar
