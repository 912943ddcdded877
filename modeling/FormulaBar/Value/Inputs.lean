import FormulaBar.Value.Basic
import Std.Data.TreeMap

/-! # Inputs — the values of the references -/

namespace FormulaBar

/-- Values by reference name, listed in the order of the names. -/
abbrev Inputs := Std.TreeMap String Value

end FormulaBar
