import FormulaBar.Text.Quoted

/-! # Tokens — the classified pieces of a formula

    Blanks and unrecognised characters are tokens too, so the tokens of a
    formula cover all of it.  A token is a record of four independent
    fields: sequences that no formula has, with empty texts or arbitrary
    offsets, are tokens as well and every function on tokens accepts them. -/

namespace FormulaBar

/-- The classes of tokens. -/
inductive Token.Kind where
  | whitespace
  | number
  | operator
  | startQuote
  | endQuote
  /-- The text between a start quote and its end quote. -/
  | string
  /-- One of `(`, `)`, `[` and `]`. -/
  | bracket
  | comma
  /-- A name directly before a parenthesis. -/
  | functionName
  /-- The text between `[` and `]`. -/
  | referenceName
  /-- A name that no parenthesis follows. -/
  | unfinishedFormula
  /-- A character that starts no other token. -/
  | error
deriving DecidableEq, Repr

/-- The name of a class, which is also its style class. -/
def Token.Kind.name : Token.Kind → String
  | .whitespace => "whitespace"
  | .number => "number"
  | .operator => "operator"
  | .startQuote => "start-quote"
  | .endQuote => "end-quote"
  | .string => "string"
  | .bracket => "bracket"
  | .comma => "comma"
  | .functionName => "function-name"
  | .referenceName => "reference-name"
  | .unfinishedFormula => "unfinished-formula"
  | .error => "error"

/-- A classified piece of a formula. -/
structure Token where
  kind : Token.Kind
  text : String
  /-- The offset of the first character. -/
  start : Nat
  /-- The offset of the last character. -/
  stop : Nat
deriving DecidableEq, Repr

namespace Token

/-- Every token but whitespace is significant. -/
def isSignificant (t : Token) : Bool :=
  t.kind != .whitespace

/-- Whether the token is the bracket `b`. -/
def isBracket (t : Token) (b : Char) : Bool :=
  t.kind == .bracket && t.text.toList == [b]

/-- Whether a value ends with the token: a number, an end quote or a
    closing bracket. -/
def producesValue (t : Token) : Bool :=
  t.kind == .number || t.kind == .endQuote || t.isBracket ')' || t.isBracket ']'

/-- Whether a value may start right behind the token. -/
def allowsValue (t : Token) : Bool :=
  t.kind == .operator || t.kind == .comma || t.isBracket '('

/-- The token as messages show it: class, quoted text and span. -/
def display (t : Token) : String :=
  s!"{t.kind.name}({quoted t.text})@{t.start}..={t.stop}"

end Token

/-- The tokens scanned so far, the latest first. -/
abbrev History := List Token

/-- The latest token that is not whitespace. -/
def History.previous? (history : History) : Option Token :=
  history.find? Token.isSignificant

end FormulaBar
