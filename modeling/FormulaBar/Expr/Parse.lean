import FormulaBar.Decimal.Numeral
import FormulaBar.Expr.Basic
import FormulaBar.Token.Basic

/-! # Parsing — tokens as a tree

    An expression is an operand, then any number of operators each with an
    operand behind it.  An operand is a number, a quoted text, a reference
    in brackets, a call with its arguments or a group.  Only significant
    tokens count.  The end quote of a text may be missing where the text
    ends the formula.

    Expressions nest at most `maxLevels` deep.  That bound is the structure
    of the recursion: a reader of expressions with `n + 1` levels is built
    from one with `n` levels, and the loops over operators and arguments
    are functions of that reader. -/

namespace FormulaBar

/-- Why tokens have no tree. -/
inductive ParseError where
  | emptyExpression
  /-- An expression ends, and a token follows it. -/
  | trailing (token : Token)
  | tooDeep
  /-- No operand starts here; the formula may be at its end. -/
  | missingValue (found : Option Token)
  | badNumber (text : String)
  | missingQuote (found : Token)
  | missingName (found : Option Token)
  | missingBracket (bracket : Char) (found : Option Token)
deriving DecidableEq, Repr

namespace ParseError

/-- The token found, or that there is none. -/
def describe (found : Option Token) : String :=
  (found.map Token.display).getD "end of formula"

/-- The text of an error. -/
def message : ParseError → String
  | .emptyExpression => "Empty expression"
  | .trailing token => s!"Unexpected token after expression: {token.display}"
  | .tooDeep => "Formula is nested too deeply"
  | .missingValue found => s!"Expected a value, found {describe found}"
  | .badNumber text => s!"Invalid number '{text}'"
  | .missingQuote found => s!"Expected closing quote, found {found.display}"
  | .missingName found => s!"Expected a reference name, found {describe found}"
  | .missingBracket bracket found =>
      s!"Expected '{bracket}', found {describe found}"

def display (e : ParseError) : String :=
  s!"Parse error: {e.message}"

end ParseError

/-! ## Readers -/

/-- The outcome of reading something off the front of a list of tokens. -/
inductive Outcome (α : Type) where
  | done (value : α) (rest : List Token)
  /-- Reading failed in front of `rest`, inside of `levels` expressions. -/
  | failed (error : ParseError) (rest : List Token) (levels : Nat)

namespace Outcome

variable {α β : Type}

/-- The outcome with its value mapped. -/
def map (f : α → β) : Outcome α → Outcome β
  | .done value rest => .done (f value) rest
  | .failed error rest levels => .failed error rest levels

/-- Goes on with what is left. -/
def andThen (o : Outcome α) (f : α → List Token → Outcome β) : Outcome β :=
  match o with
  | .done value rest => f value rest
  | .failed error rest levels => .failed error rest levels

/-- A failure inside of it is a failure inside of one more expression. -/
def enclose : Outcome α → Outcome α
  | .done value rest => .done value rest
  | .failed error rest levels => .failed error rest (levels + 1)

/-- What is read leaves fewer than `n` tokens. -/
def LeavesBelow (o : Outcome α) (n : Nat) : Prop :=
  ∀ value rest, o = .done value rest → rest.length < n

theorem LeavesBelow.mono {o : Outcome α} {m n : Nat} (h : o.LeavesBelow m)
    (hmn : m ≤ n) : o.LeavesBelow n :=
  fun value rest ho => Nat.lt_of_lt_of_le (h value rest ho) hmn

theorem leavesBelow_done {value : α} {rest : List Token} {n : Nat}
    (h : rest.length < n) : (Outcome.done value rest).LeavesBelow n := by
  intro _ _ ho
  cases ho
  exact h

theorem leavesBelow_failed {error : ParseError} {rest : List Token}
    {levels n : Nat} :
    (Outcome.failed error rest levels : Outcome α).LeavesBelow n := by
  intro _ _ ho
  exact nomatch ho

theorem LeavesBelow.map {o : Outcome α} {n : Nat} (f : α → β)
    (h : o.LeavesBelow n) : (o.map f).LeavesBelow n := by
  cases o with
  | done value rest => exact leavesBelow_done (h value rest rfl)
  | failed => exact leavesBelow_failed

theorem LeavesBelow.andThen {o : Outcome α} {f : α → List Token → Outcome β}
    {m n : Nat} (h : o.LeavesBelow m)
    (hf : ∀ value rest, rest.length < m → (f value rest).LeavesBelow n) :
    (o.andThen f).LeavesBelow n := by
  cases o with
  | done value rest => exact hf value rest (h value rest rfl)
  | failed => exact leavesBelow_failed

theorem LeavesBelow.enclose {o : Outcome α} {n : Nat}
    (h : o.LeavesBelow n) : o.enclose.LeavesBelow n := by
  cases o with
  | done value rest => exact leavesBelow_done (h value rest rfl)
  | failed => exact leavesBelow_failed

end Outcome

/-- A reader takes at least one token where it succeeds. -/
structure Reader (α : Type) where
  read : List Token → Outcome α
  leavesBelow : ∀ tokens, (read tokens).LeavesBelow tokens.length

/-- Takes the bracket `b`. -/
def expectBracket (b : Char) : List Token → Outcome Unit
  | [] => .failed (.missingBracket b none) [] 0
  | t :: rest =>
      if t.isBracket b then .done () rest
      else .failed (.missingBracket b (some t)) (t :: rest) 0

/-- Reading a bracket leaves fewer tokens. -/
theorem leavesBelow_expectBracket (b : Char) (tokens : List Token) :
    (expectBracket b tokens).LeavesBelow tokens.length := by
  unfold expectBracket
  split
  · exact Outcome.leavesBelow_failed
  · split
    · exact Outcome.leavesBelow_done (Nat.lt_succ_self _)
    · exact Outcome.leavesBelow_failed

/-- The rest of a text, behind its start quote.  The end quote may be
    missing at the end of the formula. -/
def closeQuote (text : String) : List Token → Outcome Expr
  | [] => .done (.text text) []
  | t :: rest =>
      if t.kind = .endQuote then .done (.text text) rest
      else .failed (.missingQuote t) (t :: rest) 0

/-- A text, behind its start quote. -/
def textBody : List Token → Outcome Expr
  | [] => closeQuote "" []
  | t :: rest =>
      if t.kind = .string then closeQuote t.text rest
      else closeQuote "" (t :: rest)

/-- A reference, behind its opening bracket. -/
def referenceBody : List Token → Outcome Expr
  | [] => .failed (.missingName none) [] 0
  | t :: rest =>
      if t.kind = .referenceName then
        (expectBracket ']' rest).map fun _ => .reference t.text
      else .failed (.missingName (some t)) (t :: rest) 0

/-- Closing a text leaves no more tokens. -/
theorem leavesBelow_closeQuote (text : String) (tokens : List Token) :
    (closeQuote text tokens).LeavesBelow (tokens.length + 1) := by
  unfold closeQuote
  split
  · exact Outcome.leavesBelow_done (Nat.zero_lt_succ _)
  · split
    · exact Outcome.leavesBelow_done (by simp only [List.length_cons]; omega)
    · exact Outcome.leavesBelow_failed

/-- Reading a text leaves no more tokens. -/
theorem leavesBelow_textBody (tokens : List Token) :
    (textBody tokens).LeavesBelow (tokens.length + 1) := by
  unfold textBody
  split
  · exact leavesBelow_closeQuote _ _
  · split
    · exact (leavesBelow_closeQuote _ _).mono (by simp)
    · exact leavesBelow_closeQuote _ _

/-- Reading a reference leaves fewer tokens. -/
theorem leavesBelow_referenceBody (tokens : List Token) :
    (referenceBody tokens).LeavesBelow tokens.length := by
  unfold referenceBody
  split
  · exact Outcome.leavesBelow_failed
  · split
    · exact (leavesBelow_expectBracket _ _).map _ |>.mono (by simp)
    · exact Outcome.leavesBelow_failed

/-! ## The two loops -/

/-- Operators with their operands, as many as there are; `read` holds the
    earlier ones, the latest first. -/
def links (operand : Reader Expr) (read : List (String × Expr))
    (tokens : List Token) : Outcome (List (String × Expr)) :=
  match tokens with
  | [] => .done read.reverse []
  | t :: rest =>
      if t.kind = .operator then
        match h : operand.read rest with
        | .done e rest' =>
            have := operand.leavesBelow rest e rest' h
            links operand ((t.text, e) :: read) rest'
        | .failed error rest' levels => .failed error rest' levels
      else .done read.reverse (t :: rest)
termination_by tokens.length
decreasing_by simp only [List.length_cons]; omega

/-- One or more expressions separated by commas, and the parenthesis behind
    them; `read` holds the earlier ones, the latest first. -/
def argumentList (inner : Reader Expr) (read : List Expr)
    (tokens : List Token) : Outcome (List Expr) :=
  match h : inner.read tokens with
  | .failed error rest levels => .failed error rest levels
  | .done _ [] => .failed (.missingBracket ')' none) [] 0
  | .done e (t :: rest) =>
      have := inner.leavesBelow tokens e (t :: rest) h
      if t.kind = .comma then argumentList inner (e :: read) rest
      else (expectBracket ')' (t :: rest)).map fun _ => (e :: read).reverse
termination_by tokens.length
decreasing_by simp only [List.length_cons] at this; omega

/-- Reading links leaves no more tokens. -/
theorem leavesBelow_links (operand : Reader Expr) (read : List (String × Expr))
    (tokens : List Token) :
    (links operand read tokens).LeavesBelow (tokens.length + 1) := by
  fun_induction links operand read tokens with
  | case1 read => exact Outcome.leavesBelow_done (Nat.zero_lt_succ _)
  | case2 read t rest _ e rest' _ this ih =>
    exact ih.mono (by simp only [List.length_cons]; omega)
  | case3 => exact Outcome.leavesBelow_failed
  | case4 read t rest _ => exact Outcome.leavesBelow_done (Nat.lt_succ_self _)

/-- Reading arguments leaves fewer tokens. -/
theorem leavesBelow_argumentList (inner : Reader Expr) (read : List Expr)
    (tokens : List Token) :
    (argumentList inner read tokens).LeavesBelow tokens.length := by
  fun_induction argumentList inner read tokens with
  | case1 => exact Outcome.leavesBelow_failed
  | case2 => exact Outcome.leavesBelow_failed
  | case3 read tokens e t rest _ this _ ih =>
    exact ih.mono (by simp only [List.length_cons] at this; omega)
  | case4 read tokens e t rest _ this _ =>
    exact ((leavesBelow_expectBracket _ _).map _).mono (Nat.le_of_lt this)

/-- The arguments of a call with the parentheses around them. -/
def callArguments (inner : Reader Expr) (tokens : List Token) :
    Outcome (List Expr) :=
  (expectBracket '(' tokens).andThen fun _ rest =>
    match rest with
    | [] => argumentList inner [] []
    | t :: rest =>
        if t.isBracket ')' then .done [] rest
        else argumentList inner [] (t :: rest)

/-- Reading a call leaves fewer tokens. -/
theorem leavesBelow_callArguments (inner : Reader Expr)
    (tokens : List Token) :
    (callArguments inner tokens).LeavesBelow tokens.length := by
  unfold callArguments
  refine (leavesBelow_expectBracket _ _).andThen fun _ rest hrest => ?_
  split
  · exact (leavesBelow_argumentList _ _ _).mono (Nat.le_of_lt hrest)
  · simp only [List.length_cons] at hrest
    split
    · exact Outcome.leavesBelow_done (by omega)
    · exact (leavesBelow_argumentList _ _ _).mono (Nat.le_of_lt hrest)

/-! ## Operands and expressions -/

/-- One operand, where `inner` reads the expressions inside of it. -/
def operand (inner : Reader Expr) : List Token → Outcome Expr
  | [] => .failed (.missingValue none) [] 0
  | t :: rest =>
      if t.kind = .number then
        match readLiteral? t.text with
        | some value => .done (.number value) rest
        | none => .failed (.badNumber t.text) rest 0
      else if t.kind = .startQuote then textBody rest
      else if t.kind = .functionName then
        (callArguments inner rest).map (.call t.text)
      else if t.isBracket '(' then
        (inner.read rest).andThen fun e rest =>
          (expectBracket ')' rest).map fun _ => e
      else if t.isBracket '[' then referenceBody rest
      else .failed (.missingValue (some t)) (t :: rest) 0

/-- Reading an operand leaves fewer tokens. -/
theorem leavesBelow_operand (inner : Reader Expr) (tokens : List Token) :
    (operand inner tokens).LeavesBelow tokens.length := by
  unfold operand
  split
  · exact Outcome.leavesBelow_failed
  · next t rest =>
    have hrest : rest.length ≤ (t :: rest).length := Nat.le_succ _
    split
    · split
      · exact Outcome.leavesBelow_done (Nat.lt_succ_self _)
      · exact Outcome.leavesBelow_failed
    split
    · exact leavesBelow_textBody rest
    split
    · exact ((leavesBelow_callArguments _ _).map _).mono hrest
    split
    · refine ((inner.leavesBelow rest).andThen fun _ rest' h => ?_).mono hrest
      exact ((leavesBelow_expectBracket _ _).map _).mono (Nat.le_of_lt h)
    split
    · exact (leavesBelow_referenceBody rest).mono hrest
    · exact Outcome.leavesBelow_failed

/-- The reader of one operand. -/
def operandReader (inner : Reader Expr) : Reader Expr where
  read := operand inner
  leavesBelow := leavesBelow_operand inner

/-- An operand without operators is itself. -/
def Expr.ofLinks (first : Expr) (links : List (String × Expr)) : Expr :=
  if links.isEmpty then first else .chain first links

/-- One expression, where `inner` reads the expressions inside of its
    operands. -/
def level (inner : Reader Expr) (tokens : List Token) : Outcome Expr :=
  Outcome.enclose <|
    (operand inner tokens).andThen fun first rest =>
      (links (operandReader inner) [] rest).map first.ofLinks

/-- Reading an expression leaves fewer tokens. -/
theorem leavesBelow_level (inner : Reader Expr) (tokens : List Token) :
    (level inner tokens).LeavesBelow tokens.length := by
  refine Outcome.LeavesBelow.enclose ?_
  refine (leavesBelow_operand inner tokens).andThen fun _ rest h => ?_
  exact ((leavesBelow_links _ _ _).map _).mono h

/-- The reader of an expression in which at most `n` levels nest. -/
def expression : Nat → Reader Expr
  | 0 =>
    { read := fun tokens => .failed .tooDeep tokens 1
      leavesBelow := fun _ => Outcome.leavesBelow_failed }
  | n + 1 =>
    { read := level (expression n)
      leavesBelow := leavesBelow_level (expression n) }

/-! ## Parsers -/

/-- The number of levels that may nest. -/
def maxLevels : Nat := 256

/-- A parser keeps its place between two calls, and the number of levels
    that failed calls have left open. -/
structure Parser where
  /-- The significant tokens. -/
  tokens : List Token
  position : Nat := 0
  depth : Nat := 0
deriving DecidableEq, Repr

namespace Parser

/-- The parser in front of the first token. -/
def ofTokens (tokens : List Token) : Parser where
  tokens := tokens.filter Token.isSignificant

/-- The tokens that are not read yet. -/
def rest (p : Parser) : List Token :=
  p.tokens.drop p.position

/-- The parser in front of `rest`. -/
def moveTo (p : Parser) (rest : List Token) : Parser :=
  { p with position := p.tokens.length - rest.length }

/-- Reads one expression, which has to be all that is left. -/
def parse (p : Parser) : Except ParseError Expr × Parser :=
  if p.tokens.isEmpty then (.error .emptyExpression, p)
  else
    match (expression (maxLevels - p.depth)).read p.rest with
    | .done e [] => (.ok e, p.moveTo [])
    | .done _ (t :: rest) => (.error (.trailing t), p.moveTo (t :: rest))
    | .failed error rest levels =>
        (.error error, { p.moveTo rest with depth := p.depth + levels })

end Parser

/-- The tree of a sequence of tokens. -/
def parse (tokens : List Token) : Except ParseError Expr :=
  (Parser.ofTokens tokens).parse.1

end FormulaBar
