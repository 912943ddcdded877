import FormulaBar.Text.UpperCase
import FormulaBar.Value.Basic

/-! # Functions — the names that a formula may call

    Names are compared in upper case, so the case in which a call is
    written does not matter.  A function looks at its first parameter and
    ignores the others; a call without parameters, and one of an unknown
    name, has no value. -/

namespace FormulaBar

/-- The functions of the formula language. -/
inductive Function where
  | round
  | upper
deriving DecidableEq, Repr

/-- The nearest integer; of two, the one towards positive infinity. -/
def roundHalfUp (x : Float) : Float :=
  let floor := x.floor
  if x - floor ≥ 0.5 then floor + 1 else floor

namespace Function

def name : Function → String
  | .round => "ROUND"
  | .upper => "UPPER"

/-- The function of the given name, in any case. -/
def ofName? (name : String) : Option Function :=
  match upperCase name with
  | "ROUND" => some .round
  | "UPPER" => some .upper
  | _ => none

/-- The value of the function on its parameters. -/
def apply : Function → List (Option Value) → Option Value
  | _, [] => none
  | .round, first :: _ => some (.number (roundHalfUp (Value.numberOf first)))
  | .upper, first :: _ => some (.text (upperCase (Value.textOf first)))

end Function

/-- The value of a call of the given name. -/
def executeFunction (name : String) (params : List (Option Value)) :
    Option Value :=
  (Function.ofName? name).bind (·.apply params)

/-- Whether some function has the name. -/
def hasFunction (name : String) : Bool :=
  (Function.ofName? name).isSome

end FormulaBar
