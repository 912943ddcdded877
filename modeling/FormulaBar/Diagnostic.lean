import FormulaBar.Token.Basic

/-! # Diagnostics — what is wrong with a formula

    A diagnostic points at a token and gives a cause.  All diagnostics of a
    formula are found in one pass over its significant tokens, which keeps
    the latest of them and a stack of the brackets and quotes that are
    open.  What is open at the end has no closing partner.  A formula
    without diagnostics is well formed. -/

namespace FormulaBar

/-- Why a token is wrong. -/
inductive Diagnostic.Cause where
  | unexpectedOperator (operator : String)
  | missingOperand (operator : String)
  | operatorBeforeFunction
  | operatorBeforeParenthesis
  | operatorBeforeReference
  | operatorBeforeNumber
  | operatorBeforeText
  | unexpectedComma
  | unexpectedCloseParen
  | unexpectedCloseBracket
  | emptyReference
  | unknownName (name : String)
  | unexpectedCharacter (character : String)
  /-- The bracket or quote is never closed; `closer` would close it. -/
  | missingClose (closer : Char)
deriving DecidableEq, Repr

/-- The message that the user reads. -/
def Diagnostic.Cause.message : Diagnostic.Cause → String
  | .unexpectedOperator operator => s!"Unexpected operator '{operator}'"
  | .missingOperand operator => s!"Value expected after operator '{operator}'"
  | .operatorBeforeFunction => "An operator is required before the function"
  | .operatorBeforeParenthesis => "An operator is required before the parenthesis"
  | .operatorBeforeReference => "An operator is required before the reference"
  | .operatorBeforeNumber => "An operator is required before the number"
  | .operatorBeforeText => "An operator is required before the text"
  | .unexpectedComma => "Unexpected ','"
  | .unexpectedCloseParen => "Unexpected ')'"
  | .unexpectedCloseBracket => "Unexpected ']'"
  | .emptyReference => "A reference name is required in the brackets"
  | .unknownName name => s!"Unknown name '{name}'"
  | .unexpectedCharacter character => s!"Unexpected character '{character}'"
  | .missingClose closer => s!"Missing closing '{closer}'"

/-- A cause at the token of the given index. -/
structure Diagnostic where
  token : Nat
  cause : Diagnostic.Cause
deriving DecidableEq, Repr

namespace Diagnostic

def message (d : Diagnostic) : String :=
  d.cause.message

def display (d : Diagnostic) : String :=
  s!"{d.message} (token {d.token})"

end Diagnostic

/-! ## The pass over the tokens -/

/-- What an open bracket or quote encloses. -/
inductive Frame.Kind where
  /-- A parenthesis that groups. -/
  | group
  /-- The arguments of a function. -/
  | call
  | reference
  | quote
deriving DecidableEq, Repr

/-- The character that closes the frame. -/
def Frame.Kind.closer : Frame.Kind → Char
  | .group | .call => ')'
  | .reference => ']'
  | .quote => '"'

/-- A bracket or quote that is open, with the index of its token. -/
structure Frame where
  kind : Frame.Kind
  opener : Nat
deriving DecidableEq, Repr

/-- What the pass knows between two tokens. -/
structure Context where
  /-- The open brackets and quotes, the innermost first. -/
  frames : List Frame := []
  /-- The latest significant token and its index. -/
  previous : Option (Nat × Token) := none
deriving DecidableEq, Repr

namespace Context

/-- Whether a value ends right before this place. -/
def producesValue (s : Context) : Bool :=
  s.previous.any fun p => p.2.producesValue

/-- Whether a value may start at this place. -/
def allowsValue (s : Context) : Bool :=
  s.previous.all fun p => p.2.allowsValue

/-- Whether the latest significant token has the class `k`. -/
def isBehind (s : Context) (k : Token.Kind) : Bool :=
  s.previous.any fun p => p.2.kind == k

/-- The kind of the innermost frame. -/
def innermost (s : Context) : Option Frame.Kind :=
  s.frames.head?.map (·.kind)

/-- Whether the innermost frame is a parenthesis. -/
def inParentheses (s : Context) : Bool :=
  s.innermost == some .group || s.innermost == some .call

/-- Whether the innermost frame is the call that the latest token opened. -/
def atEmptyCall (s : Context) : Bool :=
  s.frames.head?.any fun f =>
    f.kind == .call && s.previous.any fun p => p.1 == f.opener

/-- The frames behind the token `t` with index `i`. -/
def framesAfter (s : Context) (i : Nat) (t : Token) : List Frame :=
  if t.kind = .startQuote then ⟨.quote, i⟩ :: s.frames
  else if t.kind = .endQuote then
    if s.innermost = some .quote then s.frames.tail else s.frames
  else if t.isBracket '(' then
    ⟨if s.isBehind .functionName then .call else .group, i⟩ :: s.frames
  else if t.isBracket ')' then
    if s.inParentheses then s.frames.tail else s.frames
  else if t.isBracket '[' then ⟨.reference, i⟩ :: s.frames
  else if t.isBracket ']' then
    if s.innermost = some .reference then s.frames.tail else s.frames
  else s.frames

/-- The context behind the significant token `t` with index `i`. -/
def after (s : Context) (i : Nat) (t : Token) : Context where
  frames := s.framesAfter i t
  previous := some (i, t)

/-- The cause, where the condition holds. -/
def reportIf (condition : Bool) (cause : Diagnostic.Cause) :
    List Diagnostic.Cause :=
  if condition then [cause] else []

/-- What is wrong with the bracket `t` in this context. -/
def bracketCauses (s : Context) (t : Token) : List Diagnostic.Cause :=
  if t.isBracket '(' then
    reportIf (!s.isBehind .functionName && !s.allowsValue) .operatorBeforeParenthesis
  else if t.isBracket ')' then
    reportIf (!s.inParentheses || !s.producesValue && !s.atEmptyCall)
      .unexpectedCloseParen
  else if t.isBracket '[' then
    reportIf (!s.allowsValue) .operatorBeforeReference
  else if t.isBracket ']' then
    if s.innermost = some .reference then
      reportIf (!s.isBehind .referenceName) .emptyReference
    else [.unexpectedCloseBracket]
  else []

/-- What is wrong with the significant token `t` in this context, where
    `isLast` says whether no token at all follows it. -/
def causes (s : Context) (t : Token) (isLast : Bool) : List Diagnostic.Cause :=
  match t.kind with
  | .operator =>
      reportIf (!s.producesValue) (.unexpectedOperator t.text)
        ++ reportIf isLast (.missingOperand t.text)
  | .functionName => reportIf (!s.allowsValue) .operatorBeforeFunction
  | .number => reportIf (!s.allowsValue) .operatorBeforeNumber
  | .startQuote => reportIf (!s.allowsValue) .operatorBeforeText
  | .comma =>
      reportIf (!s.inParentheses) .unexpectedComma
        ++ reportIf (!s.producesValue) .unexpectedComma
  | .bracket => s.bracketCauses t
  | .unfinishedFormula => [.unknownName t.text]
  | .error => [.unexpectedCharacter t.text]
  | .endQuote | .string | .referenceName | .whitespace => []

/-- The diagnostics of the frames that are still open, the outermost
    first. -/
def unclosed (s : Context) : List Diagnostic :=
  s.frames.reverse.map fun f => ⟨f.opener, .missingClose f.kind.closer⟩

/-- The diagnostics of the tokens from index `i` on, in front of those of
    the frames left open; `found` holds the earlier ones, the latest
    first. -/
def diagnose (s : Context) (i : Nat) (found : List Diagnostic) :
    List Token → List Diagnostic
  | [] => found.reverse ++ s.unclosed
  | t :: rest =>
      if t.isSignificant then
        let new := (s.causes t rest.isEmpty).map (⟨i, ·⟩)
        diagnose (s.after i t) (i + 1) (new.reverse ++ found) rest
      else diagnose s (i + 1) found rest

end Context

/-- All diagnostics of a sequence of tokens, in the order in which they are
    found. -/
def diagnose (tokens : List Token) : List Diagnostic :=
  Context.diagnose {} 0 [] tokens

end FormulaBar
