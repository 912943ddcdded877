import FormulaBar.Analysis

/-! # Sessions — a formula while it is edited

    A session holds the formula as it was typed or pasted, line breaks
    included, and the inputs of its references.  After each edit the whole
    formula is analyzed anew. -/

namespace FormulaBar

/-- A formula in the making. -/
structure Session where
  formula : String := ""
  inputs : Inputs := {}

/-- One change of a session. -/
inductive Edit where
  | replace (formula : String)
  | append (text : String)
  | setInput (name : String) (value : Value)
  | unsetInput (name : String)

namespace Session

/-- The session after an edit. -/
def edit (s : Session) : Edit → Session
  | .replace formula => { s with formula }
  | .append text => { s with formula := s.formula ++ text }
  | .setInput name value => { s with inputs := s.inputs.insert name value }
  | .unsetInput name => { s with inputs := s.inputs.erase name }

/-- The analysis of the session with its records. -/
def analyze (s : Session) : Logged (Except Stall Analysis) :=
  analyzeLogged s.inputs s.formula

/-- The sessions after each of the edits. -/
def edits (s : Session) : List Edit → List Session
  | [] => []
  | e :: rest => s.edit e :: (s.edit e).edits rest

end Session

/-- The edits of typing a formula: one character after the other. -/
def typing (formula : String) : List Edit :=
  formula.toList.map fun c => .append (String.singleton c)

end FormulaBar
