import FormulaBar.Decimal.Format

/-! # Expressions — the tree of a formula

    Operators and function names stay in the tree as they were written;
    what they mean is settled when the tree is evaluated, so a formula with
    an unknown name still has a tree.  A chain of operators is one flat
    node: it has no precedence and is folded from the left.  A group leaves
    no node of its own. -/

namespace FormulaBar

/-- The tree of a formula. -/
inductive Expr where
  | number (value : Float)
  | text (value : String)
  | reference (name : String)
  /-- The operand `first`, and further operands each behind an operator. -/
  | chain (first : Expr) (links : List (String × Expr))
  | call (name : String) (arguments : List Expr)

namespace Expr

/-- Numbers in a tree are written without exponents, however long they
    get. -/
def numberFormat : NumberFormat where
  tie := .up
  positional := none
  pointZero := false
  exponentPlus := false
  signedZero := true
  notANumber := "NaN"
  infinity := "inf"

mutual

/-- The printed form of a tree, cut into the texts between which no choice
    is left: each is a token of the form, a space, or empty. -/
def pieces : Expr → List String
  | .number value => [numberFormat.write value]
  | .text value => ["\"", value, "\""]
  | .reference name => ["[", name, "]"]
  | .chain first links => "(" :: (first.pieces ++ linkPieces links ++ [")"])
  | .call name arguments => name :: "(" :: (argumentPieces arguments ++ [")"])

/-- The printed form of the operators of a chain and their operands. -/
def linkPieces : List (String × Expr) → List String
  | [] => []
  | (operator, operand) :: links =>
      " " :: operator :: " " :: (operand.pieces ++ linkPieces links)

/-- The printed form of arguments, separated by commas. -/
def argumentPieces : List Expr → List String
  | [] => []
  | [argument] => argument.pieces
  | argument :: arguments =>
      argument.pieces ++ "," :: " " :: argumentPieces arguments

end

/-- The tree as text: a chain in parentheses, texts in quotes. -/
def display (e : Expr) : String :=
  String.join e.pieces

end Expr

end FormulaBar
