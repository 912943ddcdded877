import FormulaBar.Analysis
import FormulaBar.Json.Basic

/-! # Documents — what the formula bar shows, as JSON

    The editor receives tokens, diagnostics, spans and analyses in these
    documents.  A value stands for itself, a missing one for nothing. -/

namespace FormulaBar

/-- A token with its span; the class goes by its name. -/
def Token.toJson (t : Token) : Json :=
  .object
    [("value", .string t.text), ("type", .string t.kind.name),
     ("start", .nat t.start), ("end", .nat t.stop)]

/-- A diagnostic with the index of its token and its message in full. -/
def Diagnostic.toJson (d : Diagnostic) : Json :=
  .object [("token", .nat d.token), ("message", .string d.message)]

/-- A piece of the overlay with the class of its style. -/
def Span.toJson (s : Span) : Json :=
  .object
    [("value", .string s.text), ("class_name", .string s.className),
     ("has_error", .bool s.hasError)]

/-- A value stands for itself. -/
def Value.toJson : Value → Json
  | .number value => .float value
  | .text value => .string value

/-- All that is shown of a formula; without a value the result is null. -/
def Analysis.toJson (a : Analysis) : Json :=
  .object
    [("formula", .string a.formula),
     ("tokens", .array (a.tokens.map Token.toJson)),
     ("errors", .array (a.diagnostics.map Diagnostic.toJson)),
     ("references", .array (a.references.map .string)),
     ("result", (a.result.map Value.toJson).getD .null)]

end FormulaBar
