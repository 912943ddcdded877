import FormulaBar.Expr.Parse
import FormulaBar.Token.Lexer
import FormulaBar.Value.Function
import FormulaBar.Value.Operator

/-! # Log — what the formula bar records while it works

    A record is a value of its own and its message is made only where it is
    read.  Functions that record return their records beside their result,
    in the order in which they were made. -/

namespace FormulaBar

/-- How much a record matters. -/
inductive Record.Level where
  | trace
  | debug
  | error
deriving DecidableEq, Repr

def Record.Level.name : Record.Level → String
  | .trace => "TRACE"
  | .debug => "DEBUG"
  | .error => "ERROR"

/-- Something worth recording. -/
inductive Record where
  | scanned (token : Token)
  | stalled (stall : Stall)
  | notEvaluated (error : ParseError)
  /-- The reference has no input value. -/
  | noInput (name : String)
  /-- The operator was given that many parameters. -/
  | wrongCount (operator : Operator) (count : Nat)
  | noParameters (function : Function)
  | analyzed (formula : String) (tokens diagnostics references : Nat)
deriving DecidableEq, Repr

namespace Record

def level : Record → Level
  | .scanned _ | .noInput _ => .trace
  | .stalled _ => .error
  | .notEvaluated _ | .wrongCount _ _ | .noParameters _ | .analyzed _ _ _ _ => .debug

def message : Record → String
  | .scanned token => s!"scanned {token.display}"
  | .stalled stall =>
      s!"classifier returned {stall.kind.name} without consuming input at character {stall.offset}"
  | .notEvaluated error => s!"formula not evaluated: {error.display}"
  | .noInput name => s!"reference [{name}] has no input value"
  | .wrongCount operator count =>
      s!"operator '{operator.symbol}' expects 2 parameters, got {count}"
  | .noParameters function => s!"{function.name} called without parameters"
  | .analyzed formula tokens diagnostics references =>
      s!"analyzed {quoted formula}: {tokens} tokens, {diagnostics} errors, {references} references"

end Record

/-- A result and the records made on the way to it. -/
structure Logged (α : Type) where
  value : α
  log : List Record

/-- The records of executing the operator with the given symbol. -/
def operatorRecords (symbol : String) (params : List (Option Value)) :
    List Record :=
  match Operator.ofSymbol? symbol with
  | some op => if op.refuses params.length then [.wrongCount op params.length] else []
  | none => []

/-- The records of executing the function with the given name. -/
def functionRecords (name : String) (params : List (Option Value)) :
    List Record :=
  match Function.ofName? name with
  | some f => if params.isEmpty then [.noParameters f] else []
  | none => []

namespace Lexer

/-- The records of the scan between two states of a lexer. -/
def recordsTo (l l' : Lexer) (stall : Option Stall) : List Record :=
  let new := l'.history.take (l'.history.length - l.history.length)
  new.reverse.map .scanned ++ stall.toList.map .stalled

/-- The next token with its record. -/
def nextLogged? (classify : Classifier) (l : Lexer) :
    Logged (Except Stall (Option Lexer)) :=
  let next := l.next? classify
  { value := next
    log := match next with
      | .ok none => []
      | .ok (some l') => l.recordsTo l' none
      | .error stall => l.recordsTo l (some stall) }

/-- All tokens of the formula, with the records of those not scanned yet. -/
def tokenizeLogged (classify : Classifier) (l : Lexer) :
    Logged (Except Stall (List Token)) :=
  let (l', stall) := l.run classify
  ⟨l.tokenize classify, l.recordsTo l' stall⟩

end Lexer

end FormulaBar
