import FormulaBar.Proofs.Matching

/-! # Order — diagnostics in the order of the tokens

    The pass goes over the tokens once, so what it finds is in the order of
    the tokens.  What is left open at the end comes behind that and starts
    over with the outermost frame, which is the first opener without a
    closer.

    A token has two diagnostics at most.  Operators and commas can be wrong
    in two ways, but open nothing; what opens something can be wrong in one
    way, and then lack its closer. -/

namespace FormulaBar

/-! ## The order of what is reported -/

namespace Context

variable {s : Context} {t : Token} {count : Nat} {l : List Entry}

/-- Reports come in the order of the tokens. -/
theorem sorted_reports (h : Indexed count l) :
    (s.reports count l).Pairwise fun d e => d.token ≤ e.token := by
  induction l generalizing s with
  | nil => exact List.Pairwise.nil
  | cons p l ih =>
      refine List.pairwise_append.mpr ⟨?_, ih h.tail, fun d hd e he => ?_⟩
      · refine List.pairwise_map.mpr (List.pairwise_of_forall fun _ _ => ?_)
        exact Nat.le_refl p.1
      · obtain ⟨cause, -, rfl⟩ := List.mem_map.mp hd
        obtain ⟨q, hq, htoken⟩ := exists_entry_of_report he
        rw [htoken]
        exact Nat.le_of_lt ((List.pairwise_cons.mp h.sorted).1 q hq)

/-- A token that is no entry has no reports. -/
theorem countP_reports_eq_zero {i : Nat} (h : ∀ p ∈ l, p.1 ≠ i) :
    (s.reports count l).countP (·.token == i) = 0 := by
  refine List.countP_eq_zero.mpr fun d hd => ?_
  obtain ⟨p, hp, htoken⟩ := exists_entry_of_report hd
  rw [htoken]
  simpa using h p hp

/-- The reports of a token are its causes where the pass comes to it. -/
theorem countP_reports {before after : List Entry} {i : Nat}
    (h : Indexed count (before ++ (i, t) :: after)) :
    (s.reports count (before ++ (i, t) :: after)).countP (·.token == i)
      = ((s.run before).causes t (i + 1 == count)).length := by
  obtain ⟨-, hafter, hbefore⟩ := List.pairwise_append.mp h.sorted
  have hafter := (List.pairwise_cons.mp hafter).1
  rw [reports_append, reports, List.countP_append, List.countP_append,
    countP_reports_eq_zero fun p hp => Nat.ne_of_lt (hbefore p hp _ List.mem_cons_self),
    countP_reports_eq_zero fun p hp => Nat.ne_of_gt (hafter p hp), Nat.zero_add, Nat.add_zero,
    List.countP_map, List.countP_eq_length.mpr]
  intro cause _
  exact beq_self_eq_true i

end Context

/-! ## How much is wrong with a token -/

section

variable {tokens : List Token} {i : Nat}

/-- An opener that is not closed is the token at its index. -/
theorem opens?_of_mem_unclosedOpeners {t : Token} {c : Char} (ht : (i, t) ∈ entries 0 tokens)
    (h : (i, c) ∈ unclosedOpeners tokens) : t.opens? = some c := by
  obtain ⟨u, hu, hopens⟩ := mem_openers_entries.mp (mem_unpaired.mp h).1
  obtain rfl := Option.some.inj ((mem_entries_iff.mp ht).1.symm.trans hu)
  exact hopens

theorem countP_unclosedOpeners_eq_zero (h : ∀ c, (i, c) ∉ unclosedOpeners tokens) :
    (unclosedOpeners tokens).countP (fun o => o.1 == i) = 0 := by
  refine List.countP_eq_zero.mpr ?_
  rintro ⟨k, c⟩ hmem heq
  exact h c (beq_iff_eq.mp heq ▸ hmem)

/-- A token lacks one closer at most. -/
theorem countP_unclosedOpeners_le (tokens : List Token) (i : Nat) :
    (unclosedOpeners tokens).countP (fun o => o.1 == i) ≤ 1 := by
  by_cases h : ∃ c, (i, c) ∈ unclosedOpeners tokens
  · obtain ⟨c, hc⟩ := h
    rw [List.countP_eq_length_filter]
    exact Nat.le_of_eq (congrArg _ (filter_key_eq (sorted_unclosedOpeners tokens) hc))
  · rw [countP_unclosedOpeners_eq_zero (not_exists.mp h)]
    exact Nat.zero_le 1

end

theorem mostCauses_le_two (k : Token.Kind) : k.mostCauses ≤ 2 := by
  cases k <;> decide

/-- Where something may be missing behind a token, one thing at most is wrong
    with the token itself. -/
theorem mostCauses_of_opens {t : Token} {c : Char} (h : t.opens? = some c) :
    t.kind.mostCauses = 1 := by
  rcases Token.opens?_eq_some_iff.mp h with ⟨ht, -⟩ | ⟨ht, -⟩ | ⟨ht, -⟩
  · rw [ht]
    rfl
  · rw [Token.kind_of_isBracket ht]
    rfl
  · rw [Token.kind_of_isBracket ht]
    rfl

/-- No token has more than two diagnostics. -/
theorem countP_diagnose_le_two (tokens : List Token) (i : Nat) :
    (diagnose tokens).countP (·.token == i) ≤ 2 := by
  have hunclosed := countP_unclosedOpeners_le tokens i
  rw [diagnose_eq_unclosed, List.countP_append, List.countP_map]
  by_cases hentry : ∃ t, (i, t) ∈ entries 0 tokens
  · obtain ⟨t, ht⟩ := hentry
    obtain ⟨before, after, hsplit⟩ := List.append_of_mem ht
    have hindexed := indexed_entries tokens
    rw [hsplit] at hindexed
    have hcauses :=
      (Context.atMost_causes (Context.run {} before) t (i + 1 == tokens.length)).length
    rw [hsplit, Context.countP_reports hindexed]
    by_cases hopen : ∃ c, (i, c) ∈ unclosedOpeners tokens
    · -- one in the pass, and one for the missing closer
      obtain ⟨c, hc⟩ := hopen
      rw [mostCauses_of_opens (opens?_of_mem_unclosedOpeners ht hc)] at hcauses
      exact Nat.add_le_add hcauses hunclosed
    · have hzero := countP_unclosedOpeners_eq_zero (not_exists.mp hopen)
      exact Nat.add_le_add (Nat.le_trans hcauses (mostCauses_le_two t.kind)) (Nat.le_of_eq hzero)
  · have hne : ∀ p ∈ entries 0 tokens, p.1 ≠ i := by
      rintro ⟨k, t⟩ hp rfl
      exact hentry ⟨t, hp⟩
    rw [Context.countP_reports_eq_zero hne, Nat.zero_add]
    exact Nat.le_succ_of_le hunclosed

/-- **DIAGNOSTICS IN ORDER**: whatever the tokens are, their diagnostics come
    in the order of the tokens, and behind them, in this order again, one for
    each token that lacks its closer.  All of them have the index of a token
    that is not whitespace, and no token has more than two. -/
theorem diagnose_sorted (tokens : List Token) :
    ∃ reports unclosed, diagnose tokens = reports ++ unclosed ∧
      ((∀ d ∈ reports, d.isMissingClose = false) ∧
        reports.Pairwise fun d e => d.token ≤ e.token) ∧
      ((∀ d ∈ unclosed, d.isMissingClose = true) ∧
        unclosed.Pairwise fun d e => d.token < e.token) ∧
      (∀ d ∈ diagnose tokens, d.token < tokens.length ∧ PointsAt tokens d.token) ∧
      ∀ i, (diagnose tokens).countP (·.token == i) ≤ 2 := by
  refine ⟨_, _, diagnose_eq_unclosed tokens, ⟨fun d hd => ?_, ?_⟩, ⟨fun d hd => ?_, ?_⟩,
    fun d hd => ?_, countP_diagnose_le_two tokens⟩
  · exact Context.isMissingClose_of_mem_reports hd
  · exact Context.sorted_reports (indexed_entries tokens)
  · obtain ⟨o, -, rfl⟩ := List.mem_map.mp hd
    rfl
  · exact List.pairwise_map.mpr (sorted_unclosedOpeners tokens)
  · obtain ⟨t, ht, hkind⟩ := pointsAt_of_mem_diagnose hd
    exact ⟨(List.getElem?_eq_some_iff.mp ht).1, t, ht, hkind⟩

end FormulaBar
