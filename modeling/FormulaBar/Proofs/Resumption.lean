import FormulaBar.Proofs.Failure

/-! # Resumption — a parser that is called again

    A parser keeps its place, so it may be called again behind a failure.
    It keeps the number of open levels as well, and a failure leaves open
    all the levels in which it happened: nothing closes them any more.

    A call moves the place forwards only, since a reader stops at an end of
    the tokens that it was given, whether it succeeds or fails.  And a call
    that fails inside of an expression costs a level at least.  After as
    many of these as there are levels the parser is of no use: whatever is
    left, it is nested too deeply. -/

namespace FormulaBar

namespace Parser

variable {p : Parser}

/-- What the next call reads. -/
def reading (p : Parser) : Outcome Expr :=
  (expression (maxLevels - p.depth)).read p.rest

/-- Whether the next call fails inside of an expression. -/
def failsInside (p : Parser) : Bool :=
  match p.reading with
  | .done _ _ => false
  | .failed _ _ _ => true

/-- What a call reads is explained by the tokens that are left. -/
theorem explained_reading (p : Parser) : p.reading.Explained p.rest :=
  expression_explained _ _

/-! ## One call -/

section

variable {e : Expr} {error : ParseError} {rest : List Token} {levels : Nat}

/-- A call that reads to an end moves the place behind what it has read. -/
theorem parse_of_done (hne : p.tokens ≠ []) (h : p.reading = .done e rest) :
    p.parse = ((Outcome.done e rest).result, p.moveTo rest) := by
  have hread : (expression (maxLevels - p.depth)).read p.rest = .done e rest := h
  rw [parse, if_neg (by simpa using hne), hread]
  cases rest with
  | nil => rfl
  | cons t rest => rfl

/-- A call that fails moves the place to where it stopped and leaves its
    levels open. -/
theorem parse_of_failed (hne : p.tokens ≠ []) (h : p.reading = .failed error rest levels) :
    p.parse = (.error error, { p.moveTo rest with depth := p.depth + levels }) := by
  have hread : (expression (maxLevels - p.depth)).read p.rest = .failed error rest levels := h
  rw [parse, if_neg (by simpa using hne), hread]

theorem failsInside_of_done (h : p.reading = .done e rest) : p.failsInside = false := by
  rw [failsInside, h]

theorem failsInside_of_failed (h : p.reading = .failed error rest levels) :
    p.failsInside = true := by
  rw [failsInside, h]

/-- To stop at an end of what is left is to go forwards. -/
theorem position_le_moveTo (h : p.position ≤ p.tokens.length) (hrest : rest <:+ p.rest) :
    p.position ≤ (p.moveTo rest).position := by
  have hlength := hrest.length_le
  rw [Parser.rest, List.length_drop] at hlength
  show p.position ≤ p.tokens.length - rest.length
  omega

/-- Moving to what is left moves nowhere. -/
theorem moveTo_rest (h : p.position ≤ p.tokens.length) : p.moveTo p.rest = p := by
  have hposition : p.tokens.length - p.rest.length = p.position := by
    rw [Parser.rest, List.length_drop]
    omega
  rw [moveTo, hposition]

end

/-- What a call may do to a parser. -/
structure Moves (p q : Parser) : Prop where
  tokens : q.tokens = p.tokens
  forwards : p.position ≤ q.position
  inside : q.position ≤ q.tokens.length
  /-- A reading that succeeds closes what it opens. -/
  closes : p.failsInside = false → q.depth = p.depth
  /-- A reading that fails leaves its own level open. -/
  opens : p.failsInside = true → p.depth + 1 ≤ q.depth

/-- A call does to a parser what it may. -/
theorem moves_parse (hne : p.tokens ≠ []) (h : p.position ≤ p.tokens.length) :
    p.Moves p.parse.2 := by
  have hexplained := p.explained_reading
  -- a success leaves the depth, a failure leaves its levels open
  cases hread : p.reading with
  | done e rest =>
      rw [hread] at hexplained
      rw [parse_of_done hne hread]
      exact
        { tokens := rfl
          forwards := position_le_moveTo h hexplained
          inside := Nat.sub_le _ _
          closes := fun _ => rfl
          opens := fun hfails =>
            nomatch (failsInside_of_done hread).symm.trans hfails }
  | failed error rest levels =>
      rw [hread] at hexplained
      rw [parse_of_failed hne hread]
      exact
        { tokens := rfl
          forwards := position_le_moveTo h hexplained.1
          inside := Nat.sub_le _ _
          closes := fun hcloses =>
            nomatch (failsInside_of_failed hread).symm.trans hcloses
          opens := fun _ => Nat.add_le_add_left (levels_pos_of_failed hread) _ }

/-- A call whose reading succeeds returns the tree, or says that a token is
    left, and no other call does. -/
theorem failsInside_eq_false_iff (hne : p.tokens ≠ []) :
    p.failsInside = false ↔
      (∃ e, p.parse.1 = .ok e) ∨ ∃ t, p.parse.1 = .error (.trailing t) := by
  cases hread : p.reading with
  | done e rest =>
      rw [parse_of_done hne hread]
      refine iff_of_true (failsInside_of_done hread) ?_
      cases rest with
      | nil => exact Or.inl ⟨e, rfl⟩
      | cons t rest => exact Or.inr ⟨t, rfl⟩
  | failed error rest levels =>
      have hexplained := p.explained_reading
      rw [hread] at hexplained
      obtain ⟨-, l, -, hfault⟩ := hexplained
      rw [parse_of_failed hne hread, failsInside_of_failed hread]
      -- that a token is left is no fault of the tokens
      refine iff_of_false nofun ?_
      rintro (⟨e, hok⟩ | ⟨t, htrailing⟩)
      · exact nomatch hok
      · obtain rfl := Except.error.inj htrailing
        exact nomatch hfault

/-- With all levels left open, no call reads anything. -/
theorem reading_of_maxLevels_le (h : maxLevels ≤ p.depth) :
    p.reading = .failed .tooDeep p.rest 1 := by
  rw [reading, Nat.sub_eq_zero_of_le h]
  rfl

/-! ## Any number of calls -/

/-- The parser of a sequence of tokens, behind `k` calls. -/
def behind (tokens : List Token) : Nat → Parser
  | 0 => .ofTokens tokens
  | k + 1 => (behind tokens k).parse.2

/-- How many of the first `k` calls fail inside of an expression. -/
def failures (tokens : List Token) (k : Nat) : Nat :=
  (List.range k).countP fun i => (behind tokens i).failsInside

section

variable {tokens : List Token}

/-- One more call is one more failure, if it fails inside of an expression. -/
theorem failures_succ (tokens : List Token) (k : Nat) :
    failures tokens (k + 1) =
      failures tokens k + if (behind tokens k).failsInside = true then 1 else 0 := by
  rw [failures, List.range_succ, List.countP_append, List.countP_singleton]
  rfl

/-- Behind any number of calls the tokens are the same and the place is one of
    them. -/
theorem behind_spec (h : significant tokens ≠ []) (k : Nat) :
    (behind tokens k).tokens = significant tokens ∧
      (behind tokens k).position ≤ (significant tokens).length := by
  induction k with
  | zero => exact ⟨rfl, Nat.zero_le _⟩
  | succ k ih =>
      obtain ⟨htokens, hposition⟩ := ih
      have hmoves := moves_parse (p := behind tokens k) (by rwa [htokens]) (by rwa [htokens])
      have htokens' := hmoves.tokens.trans htokens
      exact ⟨htokens', htokens' ▸ hmoves.inside⟩

/-- Each further call is a move of the parser. -/
theorem moves_behind (h : significant tokens ≠ []) (k : Nat) :
    (behind tokens k).Moves (behind tokens (k + 1)) := by
  obtain ⟨htokens, hposition⟩ := behind_spec h k
  exact moves_parse (by rwa [htokens]) (by rwa [htokens])

/-- The place never falls. -/
theorem position_behind_mono (h : significant tokens ≠ []) {i k : Nat} (hi : i ≤ k) :
    (behind tokens i).position ≤ (behind tokens k).position := by
  induction hi with
  | refl => exact Nat.le_refl _
  | step _ ih => exact ih.trans (moves_behind h _).forwards

/-- Each failure inside of an expression costs a level. -/
theorem failures_le_depth (h : significant tokens ≠ []) (k : Nat) :
    failures tokens k ≤ (behind tokens k).depth := by
  induction k with
  | zero => exact Nat.zero_le _
  | succ k ih =>
      have hmoves := moves_behind h k
      rw [failures_succ]
      cases hfails : (behind tokens k).failsInside with
      | false =>
          rw [hmoves.closes hfails, if_neg Bool.false_ne_true]
          exact ih
      | true =>
          rw [if_pos rfl]
          exact (Nat.succ_le_succ ih).trans (hmoves.opens hfails)

end

/-! ## Brackets in a row -/

section

variable {opener : Token} {more : List Token}

/-- A bracket with no name behind it is read, and is the whole failure. -/
theorem read_openBracket (n : Nat) (hopener : opener.isBracket '[' = true)
    (hmore : more.head?.any (·.kind == .referenceName) = false) :
    (expression (n + 1)).read (opener :: more) =
      .failed (.missingName more.head?) more 1 := by
  have hbody : referenceBody more = .failed (.missingName more.head?) more 0 := by
    cases more with
    | nil => rfl
    | cons t rest => rw [referenceBody, if_neg (by simpa using hmore)]; rfl
  show Outcome.enclose (Outcome.andThen (operand _ (opener :: more)) _) = _
  rw [Grammar.operand_openBracket _ more hopener, hbody]
  rfl

/-- Brackets put in front of tokens put no reference name at the front. -/
theorem head?_replicate_append {tail : List Token} (n : Nat)
    (hopener : opener.isBracket '[' = true)
    (htail : tail.head?.any (·.kind == .referenceName) = false) :
    (List.replicate n opener ++ tail).head?.any (·.kind == .referenceName) = false := by
  cases n with
  | zero => exact htail
  | succ n =>
      rw [List.replicate_succ, List.cons_append, List.head?_cons, Option.any_some,
        Token.kind_of_isBracket hopener]
      rfl

/-- Each of the calls in front of a row of brackets gets behind one of them,
    and uses up one level. -/
theorem behind_of_brackets {tokens tail : List Token} {n k : Nat}
    (hopener : opener.isBracket '[' = true)
    (htail : tail.head?.any (·.kind == .referenceName) = false)
    (htokens : significant tokens = List.replicate n opener ++ tail)
    (hk : k ≤ n) (hlevels : k ≤ maxLevels) :
    behind tokens k = ⟨significant tokens, k, k⟩ ∧ failures tokens k = k := by
  induction k with
  | zero => exact ⟨rfl, rfl⟩
  | succ k ih =>
      obtain ⟨hbehind, hfailures⟩ := ih (Nat.le_of_succ_le hk) (Nat.le_of_succ_le hlevels)
      -- what is left behind the bracket that the next call is in front of
      obtain ⟨row, hrow⟩ : ∃ row, row = List.replicate (n - (k + 1)) opener ++ tail :=
        ⟨_, rfl⟩
      have hrest : (behind tokens k).rest = opener :: row := by
        rw [hbehind, Parser.rest, htokens,
          List.drop_append_of_le_length (by simpa using Nat.le_of_succ_le hk),
          List.drop_replicate, show n - k = (n - (k + 1)) + 1 by omega,
          List.replicate_succ, List.cons_append, hrow]
      have hread : (behind tokens k).reading = .failed (.missingName row.head?) row 1 := by
        rw [reading, hrest, hbehind, show maxLevels - k = (maxLevels - (k + 1)) + 1 by omega]
        exact read_openBracket _ hopener (hrow ▸ head?_replicate_append _ hopener htail)
      have hne : (behind tokens k).tokens ≠ [] := by
        intro hnil
        rw [Parser.rest, hnil, List.drop_nil] at hrest
        cases hrest
      constructor
      · rw [behind, parse_of_failed hne hread, hbehind]
        simp only [moveTo, htokens, hrow, List.length_append, List.length_replicate, mk.injEq,
          and_true, true_and]
        omega
      · rw [failures_succ, failsInside_of_failed hread, hfailures]
        rfl

end

/-! ## Wear -/

/-- **FAILURES WEAR A PARSER OUT**: its place moves forwards only and stays
    among the significant tokens, a reading that succeeds costs nothing, any
    other costs a level, and behind 256 of these every call fails where it
    stands. -/
theorem position_and_depth_of_calls {tokens : List Token}
    (h : significant tokens ≠ []) (k : Nat) :
    (∀ i ≤ k, (behind tokens i).position ≤ (behind tokens k).position) ∧
      (behind tokens k).position ≤ (significant tokens).length ∧
      ((behind tokens k).failsInside = false ↔
        (∃ e, (behind tokens k).parse.1 = .ok e) ∨
          ∃ t, (behind tokens k).parse.1 = .error (.trailing t)) ∧
      ((behind tokens k).failsInside = false →
        (behind tokens (k + 1)).depth = (behind tokens k).depth) ∧
      ((behind tokens k).failsInside = true →
        (behind tokens k).depth + 1 ≤ (behind tokens (k + 1)).depth) ∧
      (256 ≤ failures tokens k →
        (∃ error, (behind tokens k).parse.1 = .error error ∧
          error.message = "Formula is nested too deeply") ∧
        (behind tokens (k + 1)).position = (behind tokens k).position) := by
  obtain ⟨htokens, hposition⟩ := behind_spec h k
  have hne : (behind tokens k).tokens ≠ [] := by rwa [htokens]
  have hmoves := moves_behind h k
  refine ⟨fun i hi => position_behind_mono h hi, hposition, failsInside_eq_false_iff hne,
    hmoves.closes, hmoves.opens, fun hfailures => ?_⟩
  -- the levels are used up by then, whatever the tokens that are left
  have hread := reading_of_maxLevels_le (hfailures.trans (failures_le_depth h k))
  have hcall := parse_of_failed hne hread
  rw [moveTo_rest (by rwa [htokens])] at hcall
  refine ⟨⟨.tooDeep, congrArg Prod.fst hcall, rfl⟩, ?_⟩
  exact congrArg (fun call => call.2.position) hcall

/-- Behind 256 brackets a text is left, which has a tree of its own. -/
theorem tooDeep_of_unclosedBrackets :
    let text : List Token := [⟨.startQuote, "\"", 256, 256⟩, ⟨.string, "a", 257, 257⟩,
      ⟨.endQuote, "\"", 258, 258⟩]
    let tokens := List.replicate 256 ⟨.bracket, "[", 0, 0⟩ ++ text
    significant tokens ≠ [] ∧ 256 ≤ failures tokens 256 ∧
      (behind tokens 256).rest = text ∧ FormulaBar.parse text = .ok (.text "a") ∧
      (∃ error, (behind tokens 256).parse.1 = .error error ∧
        error.message = "Formula is nested too deeply") ∧
      (behind tokens 257).position = (behind tokens 256).position := by
  intro text tokens
  have htokens : significant tokens = tokens := by
    rw [significant, List.filter_append, List.filter_replicate]
    rfl
  have hne : significant tokens ≠ [] := by
    rw [htokens]
    exact List.append_ne_nil_of_right_ne_nil _ (List.cons_ne_nil _ _)
  have hopener : Token.isBracket ⟨.bracket, "[", 0, 0⟩ '[' = true := rfl
  obtain ⟨hbehind, hfailures⟩ :=
    behind_of_brackets hopener rfl htokens (Nat.le_refl 256) (Nat.le_refl 256)
  have hworn := (position_and_depth_of_calls hne 256).2.2.2.2.2 hfailures.ge
  refine ⟨hne, hfailures.ge, ?_, ?_, hworn⟩
  · rw [hbehind, Parser.rest, htokens]
    exact List.drop_left' List.length_replicate
  · have hderives : Grammar.Expression true 1 text (.text "a") :=
      .operand (.text rfl (.string (t := ⟨.string, "a", 257, 257⟩) rfl) rfl)
    exact parse_of_derives (n := 1) (by decide) hderives

end Parser

end FormulaBar
