import FormulaBar.Proofs.Coverage

/-! # Stepping — a lexer that is called token by token

    A lexer may be asked for one token at a time, and be run to the end of
    the formula from wherever that leaves it.  It hands its cursor to the
    classifier, which moves it, and has the cursor, the tokens and the
    character offset to keep in step.

    A call has the three outcomes of a step: nothing is ahead, a token is
    taken, the classifier is stuck.  In the first and the last of them the
    lexer is what it was, since a cursor that is no further on is where it
    was.  So a call behind a failure fails again in the same way, and it
    does not matter how many calls came before a run. -/

namespace FormulaBar

/-! ## Slices and runs -/

/-- A text has as many bytes from its end. -/
theorem byteLength_reverse (text : List Char) : byteLength text.reverse = byteLength text := by
  induction text with
  | nil => rfl
  | cons c text ih =>
      rw [List.reverse_cons, byteLength_append, ih, Nat.add_comm]
      rfl

/-- The bytes of a text are dropped in front of another. -/
theorem dropBytes?_append (front back : List Char) :
    dropBytes? (byteLength front) (front ++ back) = some back := by
  induction front with
  | nil => rw [List.nil_append, byteLength, List.foldr_nil, dropBytes?]
  | cons c front ih =>
      obtain ⟨n, hn⟩ := Nat.exists_eq_add_of_lt (Char.utf8Size_pos c)
      have hsum : byteLength (c :: front) = (n + byteLength front) + 1 := by
        show c.utf8Size + byteLength front = _
        omega
      rw [hsum, List.cons_append, dropBytes?, if_pos (by omega),
        show n + byteLength front + 1 - c.utf8Size = byteLength front by omega]
      exact ih

/-- The slice from an earlier place up to the cursor is what it moved past. -/
theorem Cursor.sliceFrom?_advance (n : Nat) (c : Cursor) :
    (c.advance n).sliceFrom? c.position = some (c.rest.take n) := by
  rw [sliceFrom?, before_advance, List.reverse_append, List.reverse_reverse, position,
    ← byteLength_reverse]
  exact dropBytes?_append _ _

/-- A run takes one step, and goes on behind it. -/
theorem Lexer.tokenize_eq (classifier : Classifier) (l : Lexer) :
    l.tokenize classifier = match l.next? classifier with
      | .ok none => .ok l.tokens
      | .ok (some l') => l'.tokenize classifier
      | .error stall => .error stall := by
  rw [tokenize]
  fun_cases run classifier l with
  | case1 h => rw [h]
  | case2 l' h _ => rw [h]; rfl
  | case3 stall h => rw [h]

/-! ## Scanners -/

/-- A classifier that is handed the cursor: it names a class, and leaves the
    cursor where its own moves have brought it. -/
structure Scanner where
  scan : Cursor → History → Token.Kind × Cursor
  reaches : ∀ (c : Cursor) (history : History), c.Reaches (scan c history).2

namespace Scanner

/-- The class and the number of characters that the scanner moves past. -/
def classifier (s : Scanner) : Classifier := fun c history =>
  ((s.scan c history).1, c.rest.length - (s.scan c history).2.rest.length)

/-- One call of a lexer: whether a token was taken, and the lexer behind it. -/
def next (s : Scanner) (l : Lexer) : Except Stall Bool × Lexer :=
  if l.cursor.isEnd then (.ok false, l)
  else
    let (kind, cursor) := s.scan l.cursor l.history
    if cursor.position ≤ l.cursor.position then
      (.error ⟨kind, l.offset⟩, { l with cursor })
    else
      let text := (cursor.sliceFrom? l.cursor.position).getD []
      let token : Token :=
        { kind, text := .ofList text
          start := l.offset, stop := l.offset + text.length - 1 }
      (.ok true,
        { cursor, history := token :: l.history, offset := l.offset + text.length })

/-- A scanner does what its classifier names. -/
theorem scan_eq (s : Scanner) (c : Cursor) (history : History) :
    s.scan c history = ((s.classifier c history).1, c.advance (s.classifier c history).2) :=
  Prod.ext rfl (s.reaches c history).advance_length.symm

/-- The place of the cursor does not move exactly where the scan takes no
    character. -/
theorem position_le_iff (s : Scanner) (c : Cursor) (history : History) :
    (c.advance (s.classifier c history).2).position ≤ c.position ↔
      (s.classifier c history).2 = 0 := by
  have hadvance : c.advance (s.classifier c history).2 = (s.scan c history).2 :=
    (s.reaches c history).advance_length
  rw [hadvance]
  exact (s.reaches c history).position_le_iff

/-- A call is a step of the lexer, and changes nothing where there is none. -/
theorem next_eq (s : Scanner) (l : Lexer) :
    s.next l = match l.next? s.classifier with
      | .ok none => (.ok false, l)
      | .ok (some l') => (.ok true, l')
      | .error stall => (.error stall, l) := by
  by_cases hend : l.cursor.isEnd = true
  · rw [next, Lexer.next?, if_pos hend, if_pos hend]
  · have hmoves := s.position_le_iff l.cursor l.history
    -- both sides move the cursor by the number that the classifier names
    rw [next, Lexer.next?, if_neg hend, if_neg hend, scan_eq]
    generalize s.classifier l.cursor l.history = named at hmoves
    obtain ⟨k, n⟩ := named
    by_cases hstuck : n = 0
    · simp only [if_pos hstuck, if_pos (hmoves.mpr hstuck)]
      rw [hstuck]
      rfl
    · simp only [if_neg hstuck, if_neg (fun h => hstuck (hmoves.mp h)),
        Cursor.sliceFrom?_advance, Option.getD_some]

/-- The outcomes of a call, beside those of a step. -/
theorem next_cases (s : Scanner) (l : Lexer) :
    (l.next? s.classifier = .ok none ∧ s.next l = (.ok false, l)) ∨
      (∃ l', l.next? s.classifier = .ok (some l') ∧ s.next l = (.ok true, l')) ∨
      ∃ stall, l.next? s.classifier = .error stall ∧ s.next l = (.error stall, l) := by
  rw [next_eq]
  match l.next? s.classifier with
  | .ok none => exact Or.inl ⟨rfl, rfl⟩
  | .ok (some l') => exact Or.inr (Or.inl ⟨l', rfl, rfl⟩)
  | .error stall => exact Or.inr (Or.inr ⟨stall, rfl, rfl⟩)

variable {s : Scanner} {l l' : Lexer}

/-- A call that returns true is a step of the lexer. -/
theorem next?_of_true (h : s.next l = (.ok true, l')) :
    l.next? s.classifier = .ok (some l') := by
  obtain ⟨-, hcall⟩ | ⟨l'', hnext, hcall⟩ | ⟨stall, -, hcall⟩ := s.next_cases l
  · cases hcall.symm.trans h
  · cases hcall.symm.trans h
    exact hnext
  · cases hcall.symm.trans h

/-- A call that takes no token leaves the lexer as it was. -/
theorem next_snd_of_ne (h : (s.next l).1 ≠ .ok true) : (s.next l).2 = l := by
  obtain ⟨-, hcall⟩ | ⟨l', -, hcall⟩ | ⟨stall, -, hcall⟩ := s.next_cases l
  · rw [hcall]
  · exact absurd (congrArg Prod.fst hcall) h
  · rw [hcall]

/-! ## Runs -/

/-- Calls for tokens, until there is none. -/
def tokenize (s : Scanner) (l : Lexer) : Except Stall (List Token) :=
  match h : s.next l with
  | (.ok true, l') =>
      have := Lexer.length_rest_of_next? (next?_of_true h)
      s.tokenize l'
  | (.ok false, l') => .ok l'.tokens
  | (.error stall, _) => .error stall
termination_by l.cursor.rest.length

/-- The calls of a run go through the steps of the lexer. -/
theorem tokenize_eq (s : Scanner) (l : Lexer) : s.tokenize l = l.tokenize s.classifier := by
  fun_induction tokenize s l with
  | case1 l l' h _ ih =>
      rw [ih, Lexer.tokenize_eq s.classifier l, next?_of_true h]
  | case2 l l' h =>
      obtain ⟨hnext, hcall⟩ | ⟨_, -, hcall⟩ | ⟨_, -, hcall⟩ := s.next_cases l
      · cases hcall.symm.trans h
        rw [Lexer.tokenize_eq, hnext]
      · cases hcall.symm.trans h
      · cases hcall.symm.trans h
  | case3 l stall l' h =>
      obtain ⟨-, hcall⟩ | ⟨_, -, hcall⟩ | ⟨_, hnext, hcall⟩ := s.next_cases l
      · cases hcall.symm.trans h
      · cases hcall.symm.trans h
      · cases hcall.symm.trans h
        rw [Lexer.tokenize_eq, hnext]

/-- A call does not change what a run is going to return. -/
theorem tokenize_next (s : Scanner) (l : Lexer) : s.tokenize (s.next l).2 = s.tokenize l := by
  obtain ⟨-, hcall⟩ | ⟨l', hnext, hcall⟩ | ⟨stall, -, hcall⟩ := s.next_cases l
  · rw [hcall]
  · rw [hcall, tokenize_eq, tokenize_eq, Lexer.tokenize_eq _ l, hnext]
  · rw [hcall]

/-! ## Any number of calls -/

/-- The lexer behind `k` calls, also behind those that fail. -/
def calls (s : Scanner) : Nat → Lexer → Lexer
  | 0, l => l
  | k + 1, l => s.calls k (s.next l).2

/-- The tokens of a text are the same however many calls were made before. -/
theorem tokenize_calls (s : Scanner) (k : Nat) (l : Lexer) :
    s.tokenize (s.calls k l) = s.tokenize l := by
  induction k generalizing l with
  | zero => rfl
  | succ k ih => rw [calls, ih, tokenize_next]

/-- The offset stays the number of characters of the tokens. -/
theorem offset_next (h : l.offset = (spell l.tokens).length) :
    (s.next l).2.offset = (spell (s.next l).2.tokens).length := by
  obtain ⟨-, hcall⟩ | ⟨l', hnext, hcall⟩ | ⟨stall, -, hcall⟩ := s.next_cases l
  · rw [hcall]
    exact h
  · obtain ⟨t, ht⟩ := Lexer.step_of_next? hnext
    rw [hcall]
    show l'.offset = (spell l'.tokens).length
    rw [ht.offset, h, ht.tokens, spell_append, List.length_append, spell_cons, spell_nil,
      List.append_nil, String.length_toList]
    rfl
  · rw [hcall]
    exact h

/-- The offset of the lexer is the number of characters of its tokens, behind
    any number of calls. -/
theorem offset_calls (s : Scanner) (k : Nat) (h : l.offset = (spell l.tokens).length) :
    (s.calls k l).offset = (spell (s.calls k l).tokens).length := by
  induction k generalizing l with
  | zero => exact h
  | succ k ih => exact ih (offset_next h)

/-- A stall is reported at the offset of the lexer. -/
theorem offset_of_stall {stall : Stall} (h : (s.next l).1 = .error stall) :
    stall.offset = l.offset := by
  obtain ⟨-, hcall⟩ | ⟨l', -, hcall⟩ | ⟨stall', hnext, hcall⟩ := s.next_cases l
  · rw [hcall] at h
    cases h
  · rw [hcall] at h
    cases h
  · rw [hcall] at h
    cases h
    exact (Lexer.stall_of_next? hnext).1

/-- **STEPPING IS RUNNING**: whatever the classifier does with the moves of
    its cursor, a run behind any number of calls, failed ones among them,
    returns what a run of the whole formula returns.  A call that takes no
    token changes nothing, and a failure tells how many characters the
    tokens up to there have. -/
theorem tokenize_behind_calls (s : Scanner) (formula : String) (k : Nat) :
    s.tokenize (s.calls k (.ofString formula)) = s.tokenize (.ofString formula) ∧
      s.tokenize (.ofString formula) = tokenizeWith s.classifier formula ∧
      ((s.next (s.calls k (.ofString formula))).1 ≠ .ok true →
        (s.next (s.calls k (.ofString formula))).2 = s.calls k (.ofString formula)) ∧
      ∀ stall, (s.next (s.calls k (.ofString formula))).1 = .error stall →
        stall.offset = (spell (s.calls k (.ofString formula)).tokens).length := by
  refine ⟨s.tokenize_calls k _, s.tokenize_eq _, next_snd_of_ne, fun stall h => ?_⟩
  rw [offset_of_stall h]
  exact offset_calls s k rfl

/-- Takes one character, and is stuck behind it. -/
def stuckBehindFirst : Scanner where
  scan c history := (.error, if history.isEmpty then c.advance 1 else c)
  reaches c history := by
    show c.Reaches (if history.isEmpty then c.advance 1 else c)
    split
    · exact .advance .refl
    · exact .refl

/-- The second call is stuck behind one character of two bytes, and so is
    the third one, and a run. -/
theorem stall_behind_calls :
    (stuckBehindFirst.next (stuckBehindFirst.calls 2 (.ofString "éb"))).1 =
        .error ⟨.error, 1⟩ ∧
      stuckBehindFirst.tokenize (stuckBehindFirst.calls 2 (.ofString "éb")) =
        .error ⟨.error, 1⟩ := by
  obtain ⟨hrun, hfresh, -, -⟩ := tokenize_behind_calls stuckBehindFirst "éb" 2
  refine ⟨by decide, ?_⟩
  rw [hrun, hfresh]
  decide +kernel

end Scanner

end FormulaBar
