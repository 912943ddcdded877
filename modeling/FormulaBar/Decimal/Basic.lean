/-! # Decimals — numbers as digits times a power of ten

    Between the text of a number and its binary value stands the decimal
    that the text writes.  Trailing zeros are removed before the binary
    value is taken, so a decimal and its shifted spellings (`15 · 10²`,
    `1500 · 10⁰`) have one value by construction. -/

namespace FormulaBar

/-- The number `digits · 10 ^ exponent`. -/
structure Decimal where
  digits : Nat
  exponent : Int
deriving DecidableEq, Repr

namespace Decimal

/-- Moves the trailing zeros of the digits into the exponent. -/
def reduce (d : Decimal) : Decimal :=
  if d.digits = 0 then ⟨0, 0⟩
  else if d.digits % 10 = 0 then reduce ⟨d.digits / 10, d.exponent + 1⟩
  else d
termination_by d.digits
decreasing_by omega

/-- The binary value nearest to the decimal, ties to the even one; a value
    beyond the range is infinite. -/
def toFloat (d : Decimal) : Float :=
  let r := d.reduce
  Float.ofScientific r.digits (r.exponent < 0) r.exponent.natAbs

end Decimal

end FormulaBar
