import FormulaBar.Json.Inputs
import FormulaBar.Json.Shown
import FormulaBar.Proofs.Diagnosis
import FormulaBar.Proofs.Reading
import FormulaBar.Proofs.Silence
import FormulaBar.Session
import FormulaBar.Text.Quoted
import FormulaBar.Proofs.Adjacency
import FormulaBar.Proofs.Role
import FormulaBar.Proofs.Obstacle
import FormulaBar.Proofs.Bracketing
import FormulaBar.Proofs.Gap
import FormulaBar.Proofs.Coverage
import FormulaBar.Proofs.Memory
import FormulaBar.Proofs.Standing
import FormulaBar.Proofs.Stretch
import FormulaBar.Proofs.Composition
import FormulaBar.Proofs.Phrase
import FormulaBar.Proofs.Opacity
import FormulaBar.Proofs.Rounding
import FormulaBar.Proofs.Packing
import FormulaBar.Proofs.Scientific
import FormulaBar.Proofs.Literal
import FormulaBar.Proofs.Printing
import FormulaBar.Proofs.Succession
import FormulaBar.Proofs.Growth
import FormulaBar.Proofs.Dependence
import FormulaBar.Proofs.Marking
import FormulaBar.Proofs.Lookahead
import FormulaBar.Proofs.Boundary
import FormulaBar.Proofs.Spacing
import FormulaBar.Proofs.Pairing
import FormulaBar.Proofs.Matching
import FormulaBar.Proofs.Order
import FormulaBar.Proofs.Skipping
import FormulaBar.Proofs.Walk
import FormulaBar.Proofs.Recording
import FormulaBar.Proofs.Joining
import FormulaBar.Proofs.Height
import FormulaBar.Proofs.Failure
import FormulaBar.Proofs.Resumption
import FormulaBar.Proofs.Stepping
import FormulaBar.Proofs.Exclusion
import FormulaBar.Proofs.Shape
import FormulaBar.Proofs.Referring
import FormulaBar.Proofs.Nonfinite
import FormulaBar.Proofs.Agreement
import FormulaBar.Proofs.Recovery
import FormulaBar.Proofs.LetterCase
import FormulaBar.Proofs.Renaming
import FormulaBar.Proofs.Bytes
import FormulaBar.Proofs.Preference
import FormulaBar.Proofs.Taking
