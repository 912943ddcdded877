import FormulaBar.Decimal.Basic

/-! # Shortest decimals — the fewest digits that read back

    A finite number is written with the fewest digits whose decimal has
    the number as its nearest binary value.  The search goes through grids
    of one, two, up to seventeen significant digits.  On each grid only
    the two neighbours of the number are tried; the first grid with a
    neighbour that reads back wins.  Should no grid win, the exact value
    of the number is taken, so the result reads back in any case. -/

namespace FormulaBar

/-- The number `significand · 2 ^ exponent`. -/
structure Binary where
  significand : Nat
  exponent : Int
deriving DecidableEq, Repr

namespace Binary

/-- The magnitude of a finite number, read off its bits. -/
def ofFloat (x : Float) : Binary :=
  let bits := x.toBits.toNat
  let fraction : Nat := bits % Nat.pow 2 52
  let biased : Nat := bits / Nat.pow 2 52 % Nat.pow 2 11
  if biased = 0 then ⟨fraction, -1074⟩ else ⟨Nat.pow 2 52 + fraction, (biased : Int) - 1075⟩

/-- Numerator and denominator of the value. -/
def ratio (b : Binary) : Nat × Nat :=
  (b.significand * Nat.pow 2 b.exponent.toNat, Nat.pow 2 (-b.exponent).toNat)

/-- The value without rounding: a negative power of two is a power of five
    over a power of ten. -/
def exact (b : Binary) : Decimal :=
  if 0 ≤ b.exponent then ⟨b.significand * Nat.pow 2 b.exponent.toNat, 0⟩
  else ⟨b.significand * Nat.pow 5 (-b.exponent).toNat, b.exponent⟩

end Binary

namespace Decimal

/-- Which of two equally near decimals is taken. -/
inductive Tie where
  /-- The one farther from zero. -/
  | up
  /-- The one whose last digit is even. -/
  | even
deriving DecidableEq, Repr

/-- Whether the integer nearest to `a / b` is the one above it. -/
def Tie.roundsUp (tie : Tie) (a b : Nat) : Bool :=
  match compare (2 * (a % b)) b with
  | .lt => false
  | .gt => true
  | .eq => tie == .up || a / b % 2 == 1

/-- Numerator and denominator of `n / d` in units of `10 ^ e`. -/
def inUnits (n d : Nat) (e : Int) : Nat × Nat :=
  (n * Nat.pow 10 (-e).toNat, d * Nat.pow 10 e.toNat)

/-- The least `k` with `n / d < 10 ^ k`: the digit counts of numerator and
    denominator leave two possibilities. -/
def scale (n d : Nat) : Int :=
  let k : Int := (Nat.toDigits 10 n).length - (Nat.toDigits 10 d).length
  let (a, b) := inUnits n d k
  if a < b then k else k + 1

/-- Whether the number is the nearest binary value of the decimal. -/
def readsBack (d : Decimal) (x : Float) : Bool :=
  d.toFloat.toBits == x.toBits

/-- The neighbour of `n / d` on the grid of `10 ^ e` that reads back as
    `x`; of two such neighbours the nearer. -/
def onGrid? (tie : Tie) (x : Float) (n d : Nat) (e : Int) : Option Decimal :=
  let (a, b) := inUnits n d e
  let lower : Decimal := ⟨a / b, e⟩
  let upper : Decimal := ⟨a / b + 1, e⟩
  if lower.readsBack x then
    if upper.readsBack x && tie.roundsUp a b then some upper else some lower
  else if upper.readsBack x then some upper
  else none

/-- The fewest digits that read back as the positive finite number `x`. -/
def shortest (tie : Tie) (x : Float) : Decimal :=
  let value := Binary.ofFloat x
  let (n, d) := value.ratio
  let k := scale n d
  let found := (List.range 17).findSome? fun i => onGrid? tie x n d (k - (i + 1 : Nat))
  (found.getD value.exact).reduce

end Decimal

end FormulaBar
