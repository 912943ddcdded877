import FormulaBar.Expr.Evaluate
import FormulaBar.Highlight

/-! # Analysis — all that the formula bar shows of a formula

    The tokens for the overlay, the diagnostics for the list of messages,
    the references for the prompts and the live result.  The result is
    there even where diagnostics are, as long as the tokens have a tree. -/

namespace FormulaBar

/-- The names of the references among the tokens, each once, in the order
    of their first occurrence. -/
def referencesUsed (tokens : List Token) : List String :=
  (tokens.filter (·.kind == .referenceName)).map (·.text) |>.eraseDups

/-- What is shown of a formula. -/
structure Analysis where
  /-- The formula without line breaks. -/
  formula : String
  tokens : List Token
  diagnostics : List Diagnostic
  references : List String
  result : Option Value
deriving DecidableEq

namespace Analysis

/-- A formula without diagnostics is valid. -/
def isValid (a : Analysis) : Bool :=
  a.diagnostics.isEmpty

/-- The messages of the diagnostics. -/
def messages (a : Analysis) : List String :=
  a.diagnostics.map Diagnostic.message

/-- The styled overlay. -/
def highlighted (a : Analysis) : List Span :=
  highlight a.tokens a.diagnostics

end Analysis

/-- The analysis of a formula with the records made on the way. -/
def analyzeLogged (inputs : Inputs) (formula : String) :
    Logged (Except Stall Analysis) :=
  let formula := stripLineBreaks formula
  let scan := (Lexer.ofString formula).tokenizeLogged classify
  match scan.value with
  | .error stall => ⟨.error stall, scan.log⟩
  | .ok tokens =>
      let diagnostics := diagnose tokens
      let references := referencesUsed tokens
      let result := evaluateLogged inputs tokens
      { value := .ok
          { formula, tokens, diagnostics, references, result := result.value }
        log := scan.log ++ result.log ++
          [.analyzed formula tokens.length diagnostics.length references.length] }

/-- The analysis of a formula. -/
def analyze (inputs : Inputs) (formula : String) : Except Stall Analysis :=
  (analyzeLogged inputs formula).value

end FormulaBar
