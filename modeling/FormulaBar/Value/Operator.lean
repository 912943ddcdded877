import FormulaBar.Value.Basic

/-! # Operators — the five symbols that combine values

    Concatenation joins any number of parameters as texts.  The arithmetic
    operators take exactly two parameters as numbers and have no value for
    any other count.  A symbol outside of the five is no operator, so it
    has no value either. -/

namespace FormulaBar

/-- The operators that have a meaning. -/
inductive Operator where
  | concat
  | add
  | subtract
  | multiply
  | divide
deriving DecidableEq, Repr

namespace Operator

/-- The operator that the symbol writes. -/
def ofSymbol? : String → Option Operator
  | "&" => some .concat
  | "+" => some .add
  | "-" => some .subtract
  | "*" => some .multiply
  | "/" => some .divide
  | _ => none

def symbol : Operator → String
  | .concat => "&"
  | .add => "+"
  | .subtract => "-"
  | .multiply => "*"
  | .divide => "/"

/-- The arithmetic of an operator; concatenation has none. -/
def arithmetic? : Operator → Option (Float → Float → Float)
  | .concat => none
  | .add => some (· + ·)
  | .subtract => some (· - ·)
  | .multiply => some (· * ·)
  | .divide => some (· / ·)

/-- The value of the operator on its parameters. -/
def apply (op : Operator) (params : List (Option Value)) : Option Value :=
  match op.arithmetic?, params with
  | none, params => some (.text (String.join (params.map Value.textOf)))
  | some f, [left, right] =>
      some (.number (f (Value.numberOf left) (Value.numberOf right)))
  | some _, _ => none

/-- Whether the operator refuses that many parameters. -/
def refuses (op : Operator) (count : Nat) : Bool :=
  op.arithmetic?.isSome && count != 2

end Operator

/-- The value of the operator with the given symbol. -/
def executeOperator (symbol : String) (params : List (Option Value)) :
    Option Value :=
  (Operator.ofSymbol? symbol).bind (·.apply params)

end FormulaBar
