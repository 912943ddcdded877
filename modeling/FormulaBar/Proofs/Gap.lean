import FormulaBar.Proofs.Bracketing
import Mathlib.Data.Nat.Find

/-! # Gap — what the pass admits and the parser does not

    A formula without diagnostics has a tree but for four cases, which are
    said of its tokens alone: it has no significant token, it ends in an
    operator, a comma stands directly inside of a parenthesis that groups,
    or too many parentheses are open at once.  Only the last is what such a
    formula is meant to fail with, so a formula without diagnostics is not
    always one that evaluates. -/

namespace FormulaBar

/-! ## Obstacles by position -/

/-- Whether a comma stands at the position and the innermost bracket that is
    open there is a parenthesis that groups. -/
def groupedComma (tokens : List Token) (p : Nat) : Bool :=
  tokens[p]?.any (fun t => t.kind == .comma)
    && (openBrackets tokens p).head?.any (opensGroup tokens)

/-- Whether the last of the tokens is an operator. -/
def endsInOperator (tokens : List Token) : Bool :=
  tokens.getLast?.any fun t => t.kind == .operator

/-- What stops the parser at a position. -/
def obstacleAt? (tokens : List Token) (p : Nat) : Option ParseError :=
  if maxLevels ≤ nestingAt tokens p then some .tooDeep
  else if groupedComma tokens p then some (.missingBracket ')' tokens[p]?)
  else if p = tokens.length ∧ endsInOperator tokens then some (.missingValue none)
  else none

namespace Context

variable {count p : Nat} {l : List Entry}

/-- In parentheses the innermost frame is a bracket. -/
theorem innermost_of_inParentheses {s : Context} (h : s.inParentheses = true) :
    s.innermost = (bracketKinds s.frames).head? := by
  obtain ⟨k, hk, hne⟩ : ∃ k, s.innermost = some k ∧ k ≠ .quote := by
    rcases inParentheses_iff.mp h with hin | hin
    · exact ⟨_, hin, by decide⟩
    · exact ⟨_, hin, by decide⟩
  obtain ⟨f, hf, rfl⟩ := Option.map_eq_some_iff.mp hk
  obtain ⟨fs, hfs⟩ := List.head?_eq_some_iff.mp hf
  simp [innermost, bracketKinds, hfs, hne]

/-- A bracket is a group where it is a parenthesis that belongs to no call. -/
theorem frameKind_eq_group {tokens : List Token} {q : Nat} :
    frameKind tokens q = .group ↔ opensGroup tokens q = true := by
  rw [frameKind, opensGroup]
  cases bracketAt tokens '(' q <;> cases behindName tokens q <;> simp

/-- A comma is grouped where the run has a group as its innermost frame. -/
theorem groupedComma_run (hsite : Site count {} l) (hp : p < l.length) :
    groupedComma (l.map Prod.snd) p = true ↔
      l[p].2.kind = .comma ∧ (run {} (l.take p)).innermost = some .group := by
  have hcauses := (quiet_cons.mp (site_at hsite hp).quiet).1
  have hkind : (l.map Prod.snd)[p]?.any (fun t => t.kind == .comma) = true ↔
      l[p].2.kind = .comma := by simp [hp]
  rw [groupedComma, Bool.and_eq_true, hkind]
  -- a silent comma is inside of parentheses, so no quote is on top
  refine and_congr_right fun hcomma => ?_
  rw [innermost_of_inParentheses ((causes_comma hcomma).mp hcauses).1,
    bracketKinds_run hsite (Nat.le_of_lt hp), List.head?_map]
  cases (openBrackets (l.map Prod.snd) p).head? with
  | none => simp
  | some q => simp [frameKind_eq_group]

/-- The tokens end in an operator where the run does. -/
theorem endsInOperator_run (l : List Entry) :
    endsInOperator (l.map Prod.snd) = (run {} l).isBehind .operator := by
  have hlatest : (run {} l).latest = (l.map Prod.snd).getLast? :=
    (latest_run {} l).trans (Option.or_none)
  rw [endsInOperator, ← hlatest, latest, Option.any_map]
  rfl

/-- **OBSTACLES BY POSITION**: what stops the parser at a place of a formula
    without diagnostics can be read off the tokens. -/
theorem obstacle?_run (hsite : Site count {} l) (hp : p ≤ l.length) :
    (run {} (l.take p)).obstacle? (l.drop p) = obstacleAt? (l.map Prod.snd) p := by
  have hnesting := nesting_run hsite hp
  by_cases hdeep : maxLevels ≤ nestingAt (l.map Prod.snd) p
  · rw [obstacle?_of_deep (hnesting ▸ hdeep), obstacleAt?, if_pos hdeep]
  rw [obstacleAt?, if_neg hdeep]
  have hroom : (run {} (l.take p)).nesting (l.drop p) < maxLevels := by omega
  rcases Nat.lt_or_eq_of_le hp with hlt | rfl
  · -- in front of a token, only a comma can be an obstacle
    have hend : ¬ (p = (l.map Prod.snd).length ∧ endsInOperator (l.map Prod.snd)) := by
      rintro ⟨heq, -⟩
      rw [List.length_map] at heq
      omega
    rw [List.drop_eq_getElem_cons hlt] at hroom ⊢
    have htoken : (l.map Prod.snd)[p]? = some l[p].2 := by simp [hlt]
    rw [obstacle?_cons hroom, if_neg hend, htoken]
    by_cases hcomma : groupedComma (l.map Prod.snd) p = true
    · rw [if_pos hcomma, if_pos ((groupedComma_run hsite hlt).mp hcomma)]
    · rw [if_neg hcomma, if_neg fun h => hcomma ((groupedComma_run hsite hlt).mpr h)]
  · -- at the end, only an operator can
    have hcomma : ¬ groupedComma (l.map Prod.snd) l.length = true := by
      simp [groupedComma]
    rw [List.drop_length] at hroom ⊢
    rw [obstacle?_nil hroom, if_neg hcomma, List.take_length, ← endsInOperator_run]
    simp

/-- The first obstacle is the one with no other in front of it. -/
theorem firstObstacle?_eq_some_iff (s : Context) (l : List Entry) (error : ParseError) :
    s.firstObstacle? l = some error ↔
      ∃ p ≤ l.length, (s.run (l.take p)).obstacle? (l.drop p) = some error ∧
        ∀ q < p, (s.run (l.take q)).obstacle? (l.drop q) = none := by
  induction l generalizing s with
  | nil =>
      constructor
      · intro h
        exact ⟨0, Nat.le_refl 0, h, fun q hq => absurd hq (Nat.not_lt_zero q)⟩
      · rintro ⟨p, hp, h, -⟩
        obtain rfl := Nat.le_zero.mp hp
        exact h
  | cons e l ih =>
      rw [firstObstacle?]
      -- an obstacle here is the first; without one, positions move by one
      cases hhere : s.obstacle? (e :: l) with
      | some found =>
          constructor
          · intro h
            exact ⟨0, Nat.zero_le _, hhere.trans h,
              fun q hq => absurd hq (Nat.not_lt_zero q)⟩
          · rintro ⟨p, -, h, hbefore⟩
            cases p with
            | zero => exact hhere.symm.trans h
            | succ p => cases hhere.symm.trans (hbefore 0 (Nat.zero_lt_succ p))
      | none =>
          rw [Option.none_or, ih]
          constructor
          · rintro ⟨p, hp, h, hbefore⟩
            refine ⟨p + 1, Nat.succ_le_succ hp, h, fun q hq => ?_⟩
            cases q with
            | zero => exact hhere
            | succ q => exact hbefore q (Nat.lt_of_succ_lt_succ hq)
          · rintro ⟨p, hp, h, hbefore⟩
            cases p with
            | zero => cases hhere.symm.trans h
            | succ p =>
                exact ⟨p, Nat.le_of_succ_le_succ hp, h,
                  fun q hq => hbefore (q + 1) (Nat.succ_lt_succ hq)⟩

end Context

/-! ## Trees of formulas without diagnostics -/

/-- The parser reports the obstacle with no other in front of it. -/
theorem parse_eq_error_iff_obstacleAt? {formula : String} {tokens : List Token}
    (h : tokenize formula = .ok tokens) (hd : diagnose tokens = [])
    (hne : significant tokens ≠ []) (error : ParseError) :
    parse tokens = .error error ↔
      ∃ p ≤ (significant tokens).length,
        obstacleAt? (significant tokens) p = some error ∧
        ∀ q < p, obstacleAt? (significant tokens) q = none := by
  have hsite := site_of_tokenize h hd
  have hsame : ∀ p ≤ (entries 0 tokens).length,
      (Context.run {} ((entries 0 tokens).take p)).obstacle? ((entries 0 tokens).drop p)
        = obstacleAt? (significant tokens) p := by
    intro p hp
    rw [Context.obstacle?_run hsite hp, map_snd_entries]
  have hlength : (significant tokens).length = (entries 0 tokens).length := by
    rw [← map_snd_entries 0 tokens, List.length_map]
  rw [parse_eq_error_iff_firstObstacle? h hd hne, Context.firstObstacle?_eq_some_iff,
    hlength]
  refine exists_congr fun p => and_congr_right fun hp => ?_
  rw [hsame p hp]
  refine and_congr_right fun _ => forall_congr' fun q => forall_congr' fun hq => ?_
  rw [hsame q (Nat.le_trans (Nat.le_of_lt hq) hp)]

/-- Where an obstacle stands, the parser reports it or an earlier one. -/
theorem exists_error_of_obstacleAt? {formula : String} {tokens : List Token}
    (h : tokenize formula = .ok tokens) (hd : diagnose tokens = [])
    (hne : significant tokens ≠ []) {p : Nat} (hp : p ≤ (significant tokens).length)
    (hobstacle : obstacleAt? (significant tokens) p ≠ none) :
    ∃ q ≤ p, ∃ error, obstacleAt? (significant tokens) q = some error ∧
      parse tokens = .error error := by
  classical
  have hexists : ∃ q, obstacleAt? (significant tokens) q ≠ none := ⟨p, hobstacle⟩
  have hle : Nat.find hexists ≤ p := Nat.find_min' hexists hobstacle
  obtain ⟨error, herror⟩ := Option.ne_none_iff_exists'.mp (Nat.find_spec hexists)
  refine ⟨Nat.find hexists, hle, error, herror, ?_⟩
  refine (parse_eq_error_iff_obstacleAt? h hd hne error).mpr
    ⟨_, Nat.le_trans hle hp, herror, fun q hq => ?_⟩
  exact Classical.not_not.mp (Nat.find_min hexists hq)

/-- Whether the parser has to stop at the position for want of a value or
    of a parenthesis. -/
def Stops (tokens : List Token) (p : Nat) : Prop :=
  groupedComma tokens p = true ∨ p = tokens.length ∧ endsInOperator tokens = true

/-- Where too many parentheses are open, that is the obstacle. -/
theorem obstacleAt?_of_deep {tokens : List Token} {p : Nat}
    (h : maxLevels ≤ nestingAt tokens p) : obstacleAt? tokens p = some .tooDeep :=
  if_pos h

/-- Where there is room, an obstacle is another failure than that of depth. -/
theorem obstacleAt?_of_room {tokens : List Token} {p : Nat}
    (h : ¬ maxLevels ≤ nestingAt tokens p) :
    (obstacleAt? tokens p ≠ none ↔ Stops tokens p) ∧
      obstacleAt? tokens p ≠ some .tooDeep := by
  rw [obstacleAt?, if_neg h, Stops]
  by_cases hcomma : groupedComma tokens p = true
  · simp [hcomma]
  · by_cases hend : p = tokens.length ∧ endsInOperator tokens = true
    · simp only [if_neg hcomma, if_pos hend]
      simp [hend]
    · simp [hcomma, hend]

/-- There is an obstacle where too many parentheses are open or a reader
    stops. -/
theorem obstacleAt?_ne_none_iff {tokens : List Token} {p : Nat} :
    obstacleAt? tokens p ≠ none ↔ maxLevels ≤ nestingAt tokens p ∨ Stops tokens p := by
  by_cases hdeep : maxLevels ≤ nestingAt tokens p
  · rw [obstacleAt?_of_deep hdeep]
    constructor
    · intro _
      exact Or.inl hdeep
    · intro _
      exact Option.some_ne_none _
  · rw [(obstacleAt?_of_room hdeep).1]
    exact (or_iff_right hdeep).symm

/-- The cases in which a formula without diagnostics has no tree. -/
inductive Gap (tokens : List Token) : Prop where
  | empty (h : significant tokens = [])
  | operator (h : endsInOperator (significant tokens) = true)
  | comma {p : Nat} (h : groupedComma (significant tokens) p = true)
  | deep {p : Nat} (hp : p ≤ (significant tokens).length)
      (h : 256 ≤ nestingAt (significant tokens) p)

theorem lt_length_of_groupedComma {tokens : List Token} {p : Nat}
    (h : groupedComma tokens p = true) : p < tokens.length := by
  obtain ⟨t, ht, -⟩ := (Option.any_eq_true _ _).mp (Bool.and_eq_true_iff.mp h).1
  exact (List.getElem?_eq_some_iff.mp ht).1

/-- Whether there is a gap is settled by the positions of the tokens and the
    one behind them. -/
theorem gap_iff_bounded {tokens : List Token} :
    Gap tokens ↔ significant tokens = [] ∨ endsInOperator (significant tokens) = true ∨
      (∃ p < (significant tokens).length, groupedComma (significant tokens) p = true) ∨
      ∃ p < (significant tokens).length + 1, 256 ≤ nestingAt (significant tokens) p := by
  constructor
  · intro h
    cases h with
    | empty h => exact Or.inl h
    | operator h => exact Or.inr (Or.inl h)
    | comma h => exact Or.inr (Or.inr (Or.inl ⟨_, lt_length_of_groupedComma h, h⟩))
    | deep hp h => exact Or.inr (Or.inr (Or.inr ⟨_, Nat.lt_succ_of_le hp, h⟩))
  · rintro (h | h | ⟨p, -, h⟩ | ⟨p, hp, h⟩)
    · exact .empty h
    · exact .operator h
    · exact .comma h
    · exact .deep (Nat.le_of_lt_succ hp) h

instance (tokens : List Token) : Decidable (Gap tokens) :=
  decidable_of_iff' _ gap_iff_bounded

/-- In each case but the first some position has an obstacle. -/
theorem gap_iff {tokens : List Token} :
    Gap tokens ↔ significant tokens = [] ∨
      ∃ p ≤ (significant tokens).length, obstacleAt? (significant tokens) p ≠ none := by
  constructor
  · intro h
    cases h with
    | empty h => exact Or.inl h
    | operator h =>
        exact Or.inr ⟨_, Nat.le_refl _,
          obstacleAt?_ne_none_iff.mpr (Or.inr (Or.inr ⟨rfl, h⟩))⟩
    | comma h =>
        exact Or.inr ⟨_, Nat.le_of_lt (lt_length_of_groupedComma h),
          obstacleAt?_ne_none_iff.mpr (Or.inr (Or.inl h))⟩
    | deep hp h => exact Or.inr ⟨_, hp, obstacleAt?_ne_none_iff.mpr (Or.inl h)⟩
  · rintro (h | ⟨p, hp, h⟩)
    · exact .empty h
    · rcases obstacleAt?_ne_none_iff.mp h with hdeep | hcomma | ⟨-, hend⟩
      · exact .deep hp hdeep
      · exact .comma hcomma
      · exact .operator hend

/-- **THE GAP**: a formula without diagnostics has no tree exactly in the
    four cases, and it has one in every other. -/
theorem parse_fails_iff_gap {formula : String} {tokens : List Token}
    (h : tokenize formula = .ok tokens) (hd : diagnose tokens = []) :
    ((∃ error, parse tokens = .error error) ↔ Gap tokens) ∧
    ((∃ e, parse tokens = .ok e) ↔ ¬ Gap tokens) := by
  have hfails : (∃ error, parse tokens = .error error) ↔ Gap tokens := by
    -- a gap is an obstacle somewhere, and the first of them stops the parser
    rw [gap_iff]
    constructor
    · rintro ⟨error, herror⟩
      by_cases hne : significant tokens = []
      · exact Or.inl hne
      · obtain ⟨p, hp, hobstacle, -⟩ :=
          (parse_eq_error_iff_obstacleAt? h hd hne error).mp herror
        exact Or.inr ⟨p, hp, by rw [hobstacle]; exact Option.some_ne_none _⟩
    · rintro (hnil | ⟨p, hp, hobstacle⟩)
      · exact ⟨_, parse_of_significant_eq_nil hnil⟩
      · by_cases hne : significant tokens = []
        · exact ⟨_, parse_of_significant_eq_nil hne⟩
        · obtain ⟨-, -, error, -, herror⟩ :=
            exists_error_of_obstacleAt? h hd hne hp hobstacle
          exact ⟨error, herror⟩
  refine ⟨hfails, ?_⟩
  rw [← hfails]
  cases parse tokens with
  | ok e => simp
  | error error => simp

/-- In `1+ ` the operator is the last significant token, though not the last
    of all.  In `F(1,2)` the comma stands inside of a call, so there is no
    gap. -/
theorem gap_behind_operator :
    (∃ tokens, tokenize "1+ " = .ok tokens ∧ diagnose tokens = [] ∧ Gap tokens ∧
      (∃ error, parse tokens = .error error) ∧ ¬ ∃ e, parse tokens = .ok e) ∧
    ∃ tokens, tokenize "F(1,2)" = .ok tokens ∧ diagnose tokens = [] ∧ ¬ Gap tokens ∧
      (∃ e, parse tokens = .ok e) ∧ ¬ ∃ error, parse tokens = .error error := by
  constructor
  · obtain ⟨tokens, htokens, hd, hgap⟩ : ∃ tokens,
        tokenize "1+ " = .ok tokens ∧ diagnose tokens = [] ∧ Gap tokens :=
      ⟨[⟨.number, "1", 0, 0⟩, ⟨.operator, "+", 1, 1⟩, ⟨.whitespace, " ", 2, 2⟩],
        by decide +kernel, by decide, by decide⟩
    obtain ⟨hfails, hreads⟩ := parse_fails_iff_gap htokens hd
    exact ⟨tokens, htokens, hd, hgap, hfails.mpr hgap, fun h => hreads.mp h hgap⟩
  · obtain ⟨tokens, htokens, hd, hgap⟩ : ∃ tokens,
        tokenize "F(1,2)" = .ok tokens ∧ diagnose tokens = [] ∧ ¬ Gap tokens :=
      ⟨[⟨.functionName, "F", 0, 0⟩, ⟨.bracket, "(", 1, 1⟩, ⟨.number, "1", 2, 2⟩,
        ⟨.comma, ",", 3, 3⟩, ⟨.number, "2", 4, 4⟩, ⟨.bracket, ")", 5, 5⟩],
        by decide +kernel, by decide, by decide⟩
    obtain ⟨hfails, hreads⟩ := parse_fails_iff_gap htokens hd
    exact ⟨tokens, htokens, hd, hgap, hreads.mpr hgap, fun h => hgap (hfails.mp h)⟩

/-! ## The failure of depth -/

namespace ParseError

/-- The first character of a text stays first with more text behind. -/
theorem head?_toList_append {a b : String} {c : Char} (h : a.toList.head? = some c) :
    (a ++ b).toList.head? = some c := by
  rw [String.toList_append, List.head?_append, h]
  rfl

/-- A text that starts with another letter is not the message of the failure
    of depth. -/
theorem ne_message_tooDeep {text : String} (c : Char)
    (h : text.toList.head? = some c) (hc : c ≠ 'F') :
    text ≠ tooDeep.message := by
  rintro rfl
  have hhead : tooDeep.message.toList.head? = some 'F' := by decide
  exact hc (Option.some.inj (h.symm.trans hhead))

/-- No other message starts like the one of the failure of depth. -/
theorem message_eq_iff (error : ParseError) :
    error.message = "Formula is nested too deeply" ↔ error = .tooDeep := by
  constructor
  · intro h
    cases error with
    | tooDeep => rfl
    -- the first letters differ
    | emptyExpression =>
        exact absurd h (ne_message_tooDeep 'E' (by decide) (by decide))
    | trailing token =>
        exact absurd h (ne_message_tooDeep 'U' (head?_toList_append (by decide)) (by decide))
    | missingValue found =>
        exact absurd h (ne_message_tooDeep 'E' (head?_toList_append (by decide)) (by decide))
    | badNumber text =>
        exact absurd h (ne_message_tooDeep 'I'
          (head?_toList_append (head?_toList_append (by decide))) (by decide))
    | missingQuote found =>
        exact absurd h (ne_message_tooDeep 'E' (head?_toList_append (by decide)) (by decide))
    | missingName found =>
        exact absurd h (ne_message_tooDeep 'E' (head?_toList_append (by decide)) (by decide))
    | missingBracket bracket found =>
        exact absurd h (ne_message_tooDeep 'E' (head?_toList_append
          (head?_toList_append (head?_toList_append (by decide)))) (by decide))
  · rintro rfl
    rfl

end ParseError

/-- **WHEN SILENCE MEANS A TREE**: a formula without diagnostics fails with
    its depth or not at all, exactly where each comma in a group and an
    operator at the end come only behind a position that is too deep. -/
theorem fails_of_depth_iff {formula : String} {tokens : List Token}
    (h : tokenize formula = .ok tokens) (hd : diagnose tokens = [])
    (hne : significant tokens ≠ []) :
    (∀ error, parse tokens = .error error →
        error.message = "Formula is nested too deeply") ↔
      ∀ p, Stops (significant tokens) p →
        ∃ q ≤ p, 256 ≤ nestingAt (significant tokens) q := by
  constructor
  · intro honly p hstops
    refine Classical.byContradiction fun hnone => ?_
    have hroom : ∀ q ≤ p, ¬ maxLevels ≤ nestingAt (significant tokens) q :=
      fun q hq hdeep => hnone ⟨q, hq, hdeep⟩
    have hp : p ≤ (significant tokens).length := by
      rcases hstops with hcomma | ⟨hend, -⟩
      · exact Nat.le_of_lt (lt_length_of_groupedComma hcomma)
      · exact Nat.le_of_eq hend
    -- the first obstacle up to `p` would be one of depth, where there is room
    obtain ⟨q, hq, error, hfound, herror⟩ := exists_error_of_obstacleAt? h hd hne hp
      ((obstacleAt?_of_room (hroom p (Nat.le_refl p))).1.mpr hstops)
    rw [(ParseError.message_eq_iff error).mp (honly error herror)] at hfound
    exact (obstacleAt?_of_room (hroom q hq)).2 hfound
  · intro hdeeper error herror
    obtain ⟨p, hp, hfound, hbefore⟩ :=
      (parse_eq_error_iff_obstacleAt? h hd hne error).mp herror
    refine (ParseError.message_eq_iff error).mpr ?_
    by_cases hdeep : maxLevels ≤ nestingAt (significant tokens) p
    · rw [obstacleAt?_of_deep hdeep] at hfound
      exact (Option.some.inj hfound).symm
    · -- an obstacle with room has a deep position in front of it, or there
      have hstops : Stops (significant tokens) p :=
        (obstacleAt?_of_room hdeep).1.mp (by rw [hfound]; exact Option.some_ne_none _)
      obtain ⟨q, hq, hdeep'⟩ := hdeeper p hstops
      rcases Nat.lt_or_eq_of_le hq with hlt | rfl
      · cases (hbefore q hlt).symm.trans (obstacleAt?_of_deep hdeep')
      · exact absurd hdeep' hdeep

/-- In `(1,2)` nothing is deep, and the comma stops the parser. -/
theorem fails_otherwise_in_pair :
    ∃ tokens, tokenize "(1,2)" = .ok tokens ∧ diagnose tokens = [] ∧
      significant tokens ≠ [] ∧ ¬ ∀ error, parse tokens = .error error →
        error.message = "Formula is nested too deeply" := by
  obtain ⟨tokens, htokens, hd, hne, hstops, hroom⟩ : ∃ tokens,
      tokenize "(1,2)" = .ok tokens ∧ diagnose tokens = [] ∧ significant tokens ≠ [] ∧
      groupedComma (significant tokens) 2 = true ∧
      ¬ ∃ q < 3, 256 ≤ nestingAt (significant tokens) q :=
    ⟨[⟨.bracket, "(", 0, 0⟩, ⟨.number, "1", 1, 1⟩, ⟨.comma, ",", 2, 2⟩,
      ⟨.number, "2", 3, 3⟩, ⟨.bracket, ")", 4, 4⟩],
      by decide +kernel, by decide, by decide, by decide, by decide⟩
  refine ⟨tokens, htokens, hd, hne, fun honly => hroom ?_⟩
  obtain ⟨q, hq, hdeep⟩ := (fails_of_depth_iff htokens hd hne).mp honly 2 (Or.inl hstops)
  exact ⟨q, Nat.lt_succ_of_le hq, hdeep⟩

/-- Silence is not enough: `1+ ` has no diagnostics, and the parser misses a
    value at its end. -/
theorem silent_without_tree :
    ∃ tokens, tokenize "1+ " = .ok tokens ∧ significant tokens ≠ [] ∧
      diagnose tokens = [] ∧ parse tokens = .error (.missingValue none) ∧
      (ParseError.missingValue none).message ≠ "Formula is nested too deeply" := by
  obtain ⟨tokens, htokens, hne, hd, hfirst⟩ : ∃ tokens,
      tokenize "1+ " = .ok tokens ∧ significant tokens ≠ [] ∧ diagnose tokens = [] ∧
      Context.firstObstacle? {} (entries 0 tokens) = some (.missingValue none) :=
    ⟨[⟨.number, "1", 0, 0⟩, ⟨.operator, "+", 1, 1⟩, ⟨.whitespace, " ", 2, 2⟩],
      by decide +kernel, by decide, by decide, by decide⟩
  refine ⟨tokens, htokens, hne, hd, ?_, by decide⟩
  exact (parse_eq_error_iff_firstObstacle? htokens hd hne _).mpr hfirst

end FormulaBar
