import FormulaBar.Log
import FormulaBar.Value.Inputs

/-! # Evaluation — the value of a formula

    Evaluation never fails: a reference without an input, an unknown name
    and tokens without a tree have no value, and what takes them as a
    parameter goes on.  All operands and arguments are evaluated, from left
    to right, whether or not the operator or function is known. -/

namespace FormulaBar

namespace Expr

mutual

/-- The value of a tree, and the records of its evaluation in front of
    those in `log`; the latest record stands first. -/
def run (inputs : Inputs) (log : List Record) :
    Expr → Option Value × List Record
  | .number value => (some (.number value), log)
  | .text value => (some (.text value), log)
  | .reference name =>
      match inputs[name]? with
      | some value => (some value, log)
      | none => (none, .noInput name :: log)
  | .chain first links =>
      let (value, log) := first.run inputs log
      runLinks inputs value log links
  | .call name arguments =>
      let (params, log) := runArguments inputs [] log arguments
      (executeFunction name params, functionRecords name params ++ log)

/-- The value of `acc` combined with the operands of the links, from the
    left. -/
def runLinks (inputs : Inputs) (acc : Option Value) (log : List Record) :
    List (String × Expr) → Option Value × List Record
  | [] => (acc, log)
  | (operator, operand) :: links =>
      let (value, log) := operand.run inputs log
      let params := [acc, value]
      runLinks inputs (executeOperator operator params)
        (operatorRecords operator params ++ log) links

/-- The values of all arguments; `params` holds the earlier ones, the
    latest first. -/
def runArguments (inputs : Inputs) (params : List (Option Value))
    (log : List Record) : List Expr → List (Option Value) × List Record
  | [] => (params.reverse, log)
  | argument :: arguments =>
      let (value, log) := argument.run inputs log
      runArguments inputs (value :: params) log arguments

end

/-- The value of a tree with the records of its evaluation. -/
def evaluate (inputs : Inputs) (e : Expr) : Logged (Option Value) :=
  let (value, log) := e.run inputs []
  ⟨value, log.reverse⟩

end Expr

/-- The value of a sequence of tokens with the records of its evaluation;
    tokens without a tree have none. -/
def evaluateLogged (inputs : Inputs) (tokens : List Token) :
    Logged (Option Value) :=
  match parse tokens with
  | .ok e => e.evaluate inputs
  | .error error => ⟨none, [.notEvaluated error]⟩

/-- The value of a sequence of tokens. -/
def evaluate (inputs : Inputs) (tokens : List Token) : Option Value :=
  (evaluateLogged inputs tokens).value

end FormulaBar
