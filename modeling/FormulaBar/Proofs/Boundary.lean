import FormulaBar.Proofs.Lookahead
import FormulaBar.Proofs.Opacity

/-! # Boundaries — the front of a formula

    Between any two of its tokens a formula may be cut, and the text in
    front of the cut has the same tokens on its own.  For what is cut off
    recedes to nothing, and at the end of a text all rules answer as in
    front of more, but for two: a name that starts a call has its
    parenthesis right behind it, and the name of a reference its closing
    bracket.  A cut just there is the one that changes the front. -/

namespace FormulaBar

/-- Whether the place behind the first `n` characters of a formula is where
    it starts or where one of its tokens ends. -/
def IsBoundary (tokens : List Token) (n : Nat) : Prop :=
  n = 0 ∨ ∃ t ∈ tokens, t.stop + 1 = n

instance (tokens : List Token) (n : Nat) : Decidable (IsBoundary tokens n) :=
  inferInstanceAs (Decidable (n = 0 ∨ ∃ t ∈ tokens, t.stop + 1 = n))

section

variable {formula : String} {left right : List Token}

/-- The tokens in front of a place end in front of it. -/
theorem stop_lt_of_mem_left (h : tokenize formula = .ok (left ++ right)) {t : Token}
    (ht : t ∈ left) : t.stop < (spell left).length := by
  obtain ⟨before, after, rfl⟩ := List.append_of_mem ht
  rw [List.append_assoc, List.cons_append] at h
  have hne := (covers_of_tokenizeWith h).nonempty t (by simp)
  have hstop := stop_of_tokensOf (tokensOf_eq h) hne
  rw [spell_append, spell_cons, List.length_append, List.length_append]
  rw [spell_append, spell_cons, spell_nil, List.append_nil, List.length_append] at hstop
  omega

/-- The tokens behind a place end behind it. -/
theorem le_stop_of_mem_right (h : tokenize formula = .ok (left ++ right)) {t : Token}
    (ht : t ∈ right) : (spell left).length ≤ t.stop := by
  obtain ⟨before, after, rfl⟩ := List.append_of_mem ht
  rw [← List.append_assoc] at h
  have hne := (covers_of_tokenizeWith h).nonempty t (by simp)
  have hpos := length_pos_of_ne hne
  have hstop := stop_of_tokensOf (tokensOf_eq h) hne
  rw [spell_append, spell_append, spell_cons, spell_nil, List.append_nil, List.length_append,
    List.length_append, String.length_toList] at hstop
  omega

/-- A boundary is where the tokens split. -/
theorem exists_split_of_isBoundary {tokens : List Token} {n : Nat}
    (h : tokenize formula = .ok tokens) (hn : IsBoundary tokens n) :
    ∃ left right, tokens = left ++ right ∧ (spell left).length = n ∧
      ∀ t, left.getLast? = some t → t.stop + 1 = n := by
  rcases hn with rfl | ⟨t, ht, hstop⟩
  · exact ⟨[], tokens, rfl, rfl, nofun⟩
  · obtain ⟨before, after, rfl⟩ := List.append_of_mem ht
    have hne := (covers_of_tokenizeWith h).nonempty t (by simp)
    refine ⟨before ++ [t], after, by simp, ?_, fun u hu => ?_⟩
    · rw [← stop_of_tokensOf (tokensOf_eq h) hne, hstop]
    · rw [List.getLast?_concat] at hu
      rw [← Option.some.inj hu, hstop]

theorem place_of_append {n : Nat} {ts : List Token} (h : place n ts = left ++ right) :
    place n left = left := by
  induction left generalizing n ts with
  | nil => rfl
  | cons t left ih =>
      cases ts with
      | nil => cases h
      | cons u us =>
          obtain ⟨rfl, htail⟩ := List.cons.inj h
          exact congrArg _ (ih htail)

end

/-- **THE FRONT OF A FORMULA IS READ ALONE**: up to a place where a token ends
    the tokens of a formula are those of the text up to there, unless the text
    behind it starts with an opening parenthesis or a closing bracket. -/
theorem tokenize_front {s t : String} {tokens : List Token}
    (h : tokenize (s ++ t) = .ok tokens) (hs : IsBoundary tokens s.length)
    (ht : t.toList.head? ≠ some '(' ∧ t.toList.head? ≠ some ']') :
    tokenize s = .ok (tokens.filter fun u => u.stop < s.length) := by
  obtain ⟨left, right, rfl, hlength, -⟩ := exists_split_of_isBoundary h hs
  obtain ⟨hlexed, hspell⟩ := lexed_of_tokenize h
  rw [spell_append, String.toList_append] at hspell
  rw [← String.length_toList] at hlength
  obtain ⟨hfront, hback⟩ := List.append_inj hspell hlength
  have hleft := (lexed_append.mp hlexed).1
  rw [hback, List.append_nil] at hleft
  -- only the names of functions and of references need what is behind them
  have hlexed' : Lexed .other left [] := by
    refine hleft.recede ⟨rfl, nofun⟩ fun u hu => ?_
    obtain ⟨m, hnext⟩ := hleft.next_of_getLast? hu
    exact ⟨fun hk => ht.1 (hnext.head?_of_functionName hk),
      fun hk => ht.2 (hnext.referenceName hk).2.2, fun _ => rfl⟩
  have hfilter : (left ++ right).filter (fun u => u.stop < s.length) = left := by
    rw [← String.length_toList, ← hlength, List.filter_append, List.filter_eq_self.mpr,
      List.filter_eq_nil_iff.mpr, List.append_nil]
    · intro u hu
      simpa using le_stop_of_mem_right h hu
    · intro u hu
      simpa using stop_lt_of_mem_left h hu
  obtain ⟨ts, _, _, _, hplace⟩ := steps_of_tokenizeWith h
  rw [hfilter, tokenize_of_lexed hlexed' hfront.symm, place_of_append hplace.symm]

/-- The minus sign in front of a number is an operator without it, too, and
    what stands behind it need not be well formed. -/
theorem tokenize_front_minus :
    ∃ tokens, tokenize ("f-" ++ "2]") = .ok tokens ∧ IsBoundary tokens "f-".length ∧
      ("2]".toList.head? ≠ some '(' ∧ "2]".toList.head? ≠ some ']') ∧
      tokenize "f-" = .ok (tokens.filter fun u => u.stop < "f-".length) ∧
      tokens.filter (fun u => u.stop < "f-".length)
        = [⟨.unfinishedFormula, "f", 0, 0⟩, ⟨.operator, "-", 1, 1⟩] := by
  obtain ⟨tokens, htokens, rfl⟩ : ∃ tokens, tokenize ("f-" ++ "2]") = .ok tokens ∧
      tokens = [⟨.unfinishedFormula, "f", 0, 0⟩, ⟨.operator, "-", 1, 1⟩, ⟨.number, "2", 2, 2⟩,
        ⟨.bracket, "]", 3, 3⟩] := ⟨_, by decide +kernel, rfl⟩
  exact ⟨_, htokens, by decide, by decide, tokenize_front htokens (by decide) (by decide),
    by decide⟩

end FormulaBar
