import FormulaBar.Diagnostic
import Std.Data.HashSet

/-! # Highlighting — the styled overlay of a formula

    The overlay has one span for each token.  A span has the style class
    of its token, and the class `error` besides where some diagnostic
    points at the token. -/

namespace FormulaBar

/-- A styled piece of the formula. -/
structure Span where
  text : String
  className : String
  hasError : Bool
deriving DecidableEq, Repr

/-- All classes of the span, separated by a space. -/
def Span.classNames (s : Span) : String :=
  if s.hasError then s!"{s.className} error" else s.className

/-- The overlay of a formula. -/
def highlight (tokens : List Token) (diagnostics : List Diagnostic) :
    List Span :=
  let flagged := Std.HashSet.ofList (diagnostics.map (·.token))
  tokens.zipIdx.map fun (t, i) => ⟨t.text, t.kind.name, flagged.contains i⟩

end FormulaBar
