import FormulaBar.Proofs.Marking
import Mathlib.Order.Monotone.Basic

/-! # Skipping — diagnostics without the whitespace

    The pass over the tokens skips whitespace, so it should not matter
    whether there is any.  With the whitespace taken out, the significant
    tokens have other indices, and the run is the same up to these: what the
    context keeps of a token is its index, and indices are compared for
    equality alone.

    One test is made on the bare index.  Something is missing behind an
    operator where no token at all follows it, so an operator with nothing
    but whitespace behind it is not reported, and it would be reported
    without the whitespace.  That is the only difference. -/

namespace FormulaBar

/-! ## Indices among all tokens -/

/-- The index among all tokens of the significant token that has index `j`
    among the significant ones.  Behind the last of them indices go on. -/
def significantIndex : List Token → Nat → Nat
  | [], j => j
  | t :: rest, j =>
      if t.isSignificant then
        match j with
        | 0 => 0
        | j + 1 => significantIndex rest j + 1
      else significantIndex rest j + 1

section

variable {t : Token} (rest : List Token)

theorem significantIndex_cons_zero (ht : t.isSignificant = true) :
    significantIndex (t :: rest) 0 = 0 :=
  if_pos ht

/-- Behind a significant token indices go on by one each. -/
theorem significantIndex_cons_succ (ht : t.isSignificant = true) (j : Nat) :
    significantIndex (t :: rest) (j + 1) = significantIndex rest j + 1 :=
  if_pos ht

/-- Whitespace in front moves all indices by one. -/
theorem significantIndex_cons_of_not (ht : ¬ t.isSignificant = true) (j : Nat) :
    significantIndex (t :: rest) j = significantIndex rest j + 1 :=
  if_neg ht

end

/-- Significant tokens keep their order. -/
theorem strictMono_significantIndex (tokens : List Token) :
    StrictMono (significantIndex tokens) := by
  refine strictMono_nat_of_lt_succ fun j => ?_
  induction tokens generalizing j with
  | nil => exact Nat.lt_succ_self j
  | cons t rest ih =>
      by_cases ht : t.isSignificant = true
      · cases j with
        | zero =>
            rw [significantIndex_cons_zero rest ht, significantIndex_cons_succ rest ht]
            exact Nat.zero_lt_succ _
        | succ j =>
            rw [significantIndex_cons_succ rest ht, significantIndex_cons_succ rest ht]
            exact Nat.succ_lt_succ (ih j)
      · rw [significantIndex_cons_of_not rest ht, significantIndex_cons_of_not rest ht]
        exact Nat.succ_lt_succ (ih j)

/-- The token at the index is the significant token. -/
theorem getElem?_significantIndex (tokens : List Token) (j : Nat) :
    tokens[significantIndex tokens j]? = (significant tokens)[j]? := by
  induction tokens generalizing j with
  | nil => rfl
  | cons t rest ih =>
      by_cases ht : t.isSignificant = true
      · rw [significant, List.filter_cons_of_pos ht]
        cases j with
        | zero => rw [significantIndex_cons_zero rest ht, List.getElem?_cons_zero,
            List.getElem?_cons_zero]
        | succ j =>
            rw [significantIndex_cons_succ rest ht, List.getElem?_cons_succ,
              List.getElem?_cons_succ]
            exact ih j
      · rw [significant, List.filter_cons_of_neg ht, significantIndex_cons_of_not rest ht,
          List.getElem?_cons_succ]
        exact ih j

/-- What is in front of a significant token has its indices. -/
theorem significantIndex_length (left right : List Token) {t : Token}
    (ht : t.isSignificant = true) :
    significantIndex (left ++ t :: right) (significant left).length = left.length := by
  induction left with
  | nil => exact significantIndex_cons_zero right ht
  | cons u left ih =>
      rw [List.cons_append]
      by_cases hu : u.isSignificant = true
      · rw [significant, List.filter_cons_of_pos hu, List.length_cons,
          significantIndex_cons_succ _ hu, List.length_cons]
        exact congrArg (· + 1) ih
      · rw [significant, List.filter_cons_of_neg hu, significantIndex_cons_of_not _ hu,
          List.length_cons]
        exact congrArg (· + 1) ih

/-- Without whitespace the indices are the same. -/
theorem significantIndex_of_forall {tokens : List Token}
    (h : ∀ t ∈ tokens, t.isSignificant = true) (j : Nat) : significantIndex tokens j = j := by
  induction tokens generalizing j with
  | nil => rfl
  | cons t rest ih =>
      have ht := h t List.mem_cons_self
      cases j with
      | zero => exact significantIndex_cons_zero rest ht
      | succ j =>
          rw [significantIndex_cons_succ rest ht,
            ih fun u hu => h u (List.mem_cons_of_mem t hu)]

/-- An entry with its index changed. -/
def Entry.reindex (f : Nat → Nat) (p : Entry) : Entry :=
  (f p.1, p.2)

/-- The entries are the significant tokens at their indices among all tokens.
    -/
theorem entries_eq_mapIdx (i : Nat) (tokens : List Token) :
    entries i tokens
      = (significant tokens).mapIdx fun j t => (i + significantIndex tokens j, t) := by
  induction tokens generalizing i with
  | nil => rfl
  | cons t rest ih =>
      by_cases ht : t.isSignificant = true
      · rw [entries, if_pos ht, significant, List.filter_cons_of_pos ht, List.mapIdx_cons,
          significantIndex_cons_zero rest ht, ih]
        simp only [significantIndex_cons_succ rest ht]
        simp only [Nat.add_zero, Nat.add_assoc, Nat.add_comm 1]
        rfl
      · rw [entries, if_neg ht, significant, List.filter_cons_of_neg ht, ih]
        simp only [significantIndex_cons_of_not rest ht]
        simp only [Nat.add_assoc, Nat.add_comm 1]
        rfl

/-- With the whitespace left out, there is none to leave out. -/
theorem significant_significant (tokens : List Token) :
    significant (significant tokens) = significant tokens := by
  rw [significant, significant, List.filter_filter]
  simp

/-- The entries are those of the significant tokens with their indices among
    all tokens. -/
theorem entries_eq_map_reindex (tokens : List Token) :
    entries 0 tokens
      = (entries 0 (significant tokens)).map (Entry.reindex (significantIndex tokens)) := by
  have hall : ∀ t ∈ significant tokens, t.isSignificant = true :=
    fun t ht => (List.mem_filter.mp ht).2
  refine List.ext_getElem? fun j => ?_
  rw [entries_eq_mapIdx, entries_eq_mapIdx, significant_significant, List.getElem?_map,
    List.getElem?_mapIdx, List.getElem?_mapIdx, Option.map_map]
  refine Option.map_congr fun t _ => ?_
  simp only [Function.comp_apply, Entry.reindex, Nat.zero_add, significantIndex_of_forall hall]

/-! ## A run with other indices -/

/-- A frame with the index of its opener changed. -/
def Frame.reindex (f : Nat → Nat) (frame : Frame) : Frame :=
  ⟨frame.kind, f frame.opener⟩

/-- A diagnostic with the index of its token changed. -/
def Diagnostic.reindex (f : Nat → Nat) (d : Diagnostic) : Diagnostic :=
  ⟨f d.token, d.cause⟩

namespace Context

/-- A context with all its indices changed. -/
def reindex (f : Nat → Nat) (s : Context) : Context where
  frames := s.frames.map (Frame.reindex f)
  previous := s.previous.map (Entry.reindex f)

section

variable (f : Nat → Nat) (s : Context)

@[simp] theorem producesValue_reindex : (s.reindex f).producesValue = s.producesValue :=
  Option.any_map ..

@[simp] theorem allowsValue_reindex : (s.reindex f).allowsValue = s.allowsValue :=
  Option.all_map ..

@[simp] theorem isBehind_reindex (k : Token.Kind) :
    (s.reindex f).isBehind k = s.isBehind k :=
  Option.any_map ..

@[simp] theorem innermost_reindex : (s.reindex f).innermost = s.innermost := by
  rw [innermost, reindex, List.head?_map, Option.map_map]
  rfl

@[simp] theorem inParentheses_reindex : (s.reindex f).inParentheses = s.inParentheses := by
  rw [inParentheses, innermost_reindex]
  rfl

/-- What is left open is reported at the new indices. -/
theorem unclosed_reindex :
    (s.reindex f).unclosed = s.unclosed.map (Diagnostic.reindex f) := by
  rw [unclosed, unclosed, reindex, ← List.map_reverse, List.map_map, List.map_map]
  rfl

/-- A token leaves the same frames at the new indices. -/
theorem framesAfter_reindex (i : Nat) (t : Token) :
    (s.reindex f).framesAfter (f i) t = (s.framesAfter i t).map (Frame.reindex f) := by
  rw [framesAfter, framesAfter]
  simp only [innermost_reindex, inParentheses_reindex, isBehind_reindex,
    apply_ite (List.map (Frame.reindex f)), List.map_cons, List.map_tail]
  rfl

/-- The context behind a token is the same at the new indices. -/
theorem after_reindex (i : Nat) (t : Token) :
    (s.reindex f).after (f i) t = (s.after i t).reindex f := by
  rw [after, framesAfter_reindex]
  rfl

/-- **A RUN KEEPS NO MORE THAN INDICES**: entries with other indices run to
    the same context, up to these. -/
theorem run_reindex (l : List Entry) :
    (s.reindex f).run (l.map (Entry.reindex f)) = (s.run l).reindex f := by
  induction l generalizing s with
  | nil => rfl
  | cons p l ih =>
      show ((s.reindex f).after (f p.1) p.2).run (l.map (Entry.reindex f)) = _
      rw [after_reindex, ih]
      rfl

end

section

variable {f : Nat → Nat} {count count' : Nat}

/-- Where different indices stay different, the opener of an empty call is
    still the latest token, or still is not. -/
theorem atEmptyCall_reindex (hf : Function.Injective f) (s : Context) :
    (s.reindex f).atEmptyCall = s.atEmptyCall := by
  rw [atEmptyCall, atEmptyCall, reindex, List.head?_map, Option.any_map]
  refine congrArg (s.frames.head?.any ·) (funext fun frame => ?_)
  refine congrArg (frame.kind == .call && ·) ?_
  rw [Option.any_map]
  refine congrArg (s.previous.any ·) (funext fun p => ?_)
  exact decide_eq_decide.mpr hf.eq_iff

/-- A token is reported for the same causes where different indices stay
    different. -/
theorem causes_reindex (hf : Function.Injective f) (s : Context) (t : Token) (last : Bool) :
    (s.reindex f).causes t last = s.causes t last := by
  rw [causes, causes]
  simp only [bracketCauses, producesValue_reindex, allowsValue_reindex, isBehind_reindex,
    innermost_reindex, inParentheses_reindex, atEmptyCall_reindex hf]

/-- What is wrong with an operator. -/
theorem causes_of_operator (s : Context) {t : Token} (ht : t.kind = .operator) (last : Bool) :
    s.causes t last = reportIf (!s.producesValue) (.unexpectedOperator t.text)
      ++ reportIf last (.missingOperand t.text) := by
  rw [causes, ht]

/-- Only for an operator it matters whether a token follows. -/
theorem causes_congr (s : Context) {t : Token} (ht : t.kind ≠ .operator) (last last' : Bool) :
    s.causes t last = s.causes t last' := by
  rw [causes, causes]
  cases hk : t.kind with
  | operator => exact absurd hk ht
  | _ => rfl

/-- **THE SAME REPORTS UP TO INDICES**: where different indices stay different,
    and an operator is the last token just where it was, the reports are the
    same. -/
theorem reports_reindex (hf : Function.Injective f) (s : Context) {l : List Entry}
    (hlast : ∀ p ∈ l, p.2.kind = .operator → (f p.1 + 1 = count' ↔ p.1 + 1 = count)) :
    (s.reindex f).reports count' (l.map (Entry.reindex f))
      = (s.reports count l).map (Diagnostic.reindex f) := by
  induction l generalizing s with
  | nil => rfl
  | cons p l ih =>
      have hcauses : s.causes p.2 (f p.1 + 1 == count') = s.causes p.2 (p.1 + 1 == count) := by
        by_cases hp : p.2.kind = .operator
        · exact congrArg _ (decide_eq_decide.mpr (hlast p List.mem_cons_self hp))
        · exact s.causes_congr hp _ _
      have hrest := ih (s.after p.1 p.2) fun q hq => hlast q (List.mem_cons_of_mem p hq)
      show ((s.reindex f).causes p.2 (f p.1 + 1 == count')).map (⟨f p.1, ·⟩)
          ++ ((s.reindex f).after (f p.1) p.2).reports count' (l.map (Entry.reindex f)) = _
      rw [after_reindex, hrest, causes_reindex hf, hcauses, reports, List.map_append,
        List.map_map]
      rfl

end

/-- The last entry is reported on behind all others. -/
theorem reports_concat (count : Nat) (s : Context) (l : List Entry) (p : Entry) :
    s.reports count (l ++ [p]) = s.reports count l
      ++ ((s.run l).causes p.2 (p.1 + 1 == count)).map (⟨p.1, ·⟩) := by
  rw [reports_append, reports, reports, List.append_nil]

/-! ## Missing operands -/

/-- What is reported on a condition is its cause, and the condition holds. -/
theorem eq_of_mem_reportIf {condition : Bool} {cause found : Diagnostic.Cause}
    (h : found ∈ reportIf condition cause) : condition = true ∧ found = cause := by
  cases condition with
  | false => cases h
  | true => exact ⟨rfl, List.mem_singleton.mp h⟩

/-- A bracket lacks no operand. -/
theorem missingOperand_not_mem_bracketCauses (s : Context) (t : Token) (operator : String) :
    .missingOperand operator ∉ s.bracketCauses t := by
  intro h
  rw [bracketCauses] at h
  split at h
  · cases (eq_of_mem_reportIf h).2
  split at h
  · cases (eq_of_mem_reportIf h).2
  split at h
  · cases (eq_of_mem_reportIf h).2
  split at h
  · split at h
    · cases (eq_of_mem_reportIf h).2
    · cases List.mem_singleton.mp h
  · cases h

/-- Only an operator behind which no token follows lacks its operand. -/
theorem last_of_missingOperand {s : Context} {t : Token} {last : Bool} {operator : String}
    (h : .missingOperand operator ∈ s.causes t last) : t.kind = .operator ∧ last = true := by
  rw [causes] at h
  cases hk : t.kind <;> rw [hk] at h
  case operator =>
    rcases List.mem_append.mp h with h | h
    · cases (eq_of_mem_reportIf h).2
    · exact ⟨rfl, (eq_of_mem_reportIf h).1⟩
  case comma =>
    rcases List.mem_append.mp h with h | h
    · cases (eq_of_mem_reportIf h).2
    · cases (eq_of_mem_reportIf h).2
  case functionName | number | startQuote => cases (eq_of_mem_reportIf h).2
  case bracket => exact absurd h (missingOperand_not_mem_bracketCauses s t operator)
  case unfinishedFormula | error => cases List.mem_singleton.mp h
  case endQuote | string | referenceName | whitespace => cases h

end Context

/-- Where an operand is missing, the last of all tokens is its operator. -/
theorem getLast?_of_missingOperand {tokens : List Token} {d : Diagnostic} {operator : String}
    (h : d ∈ diagnose tokens) (hd : d.cause = .missingOperand operator) :
    ∃ t, tokens.getLast? = some t ∧ t.kind = .operator := by
  rw [diagnose_eq_reports] at h
  rcases List.mem_append.mp h with hreport | hopen
  · obtain ⟨s', p, hp, -, hcause⟩ := Context.exists_cause_of_report hreport
    rw [hd] at hcause
    obtain ⟨hkind, hlast⟩ := Context.last_of_missingOperand hcause
    refine ⟨p.2, ?_, hkind⟩
    rw [List.getLast?_eq_getElem?, ← eq_of_beq hlast, Nat.add_sub_cancel]
    exact (mem_entries_iff.mp hp).1
  · obtain ⟨frame, -, rfl⟩ := List.mem_map.mp hopen
    cases hd

/-! ## Tokens without their whitespace -/

/-- The last significant token is the operator `op`, and then there is
    whitespace. -/
structure SpacedOperator (tokens left : List Token) (op : Token) (spaces : List Token) :
    Prop where
  split : tokens = left ++ op :: spaces
  operator : op.kind = .operator
  nonempty : spaces ≠ []
  blank : ∀ t ∈ spaces, t.kind = .whitespace

section

variable {tokens left spaces : List Token} {op : Token}

/-- A spaced operator has whitespace as the last token behind it. -/
theorem SpacedOperator.getLast? (h : SpacedOperator tokens left op spaces) {t : Token}
    (ht : tokens.getLast? = some t) : t.kind = .whitespace := by
  rw [h.split, List.getLast?_append_cons, List.getLast?_cons,
    List.getLast?_eq_some_getLast h.nonempty] at ht
  obtain rfl := Option.some.inj ht
  exact h.blank _ (List.getLast_mem h.nonempty)

/-- A spaced operator is the last significant token. -/
theorem SpacedOperator.significant_eq (h : SpacedOperator tokens left op spaces) :
    significant tokens = significant left ++ [op] := by
  have hspaces : significant spaces = [] :=
    List.filter_eq_nil_iff.mpr fun t ht => by simp [Token.isSignificant, h.blank t ht]
  rw [h.split, significant_append, significant_cons_of_kind _ (by rw [h.operator]; decide),
    hspaces]

/-- Behind the last significant token there is whitespace only. -/
theorem whitespace_behind {j k : Nat} {t : Token} (hj : j + 1 = (significant tokens).length)
    (hk : significantIndex tokens j < k) (ht : tokens[k]? = some t) :
    t.kind = .whitespace := by
  by_contra hne
  have hentry : (k, t) ∈ entries 0 tokens :=
    mem_entries_iff.mpr ⟨ht, by simpa [Token.isSignificant] using hne⟩
  rw [entries_eq_map_reindex] at hentry
  obtain ⟨q, hq, heq⟩ := List.mem_map.mp hentry
  have hindex : significantIndex tokens q.1 = k := congrArg Prod.fst heq
  have hbelow : q.1 < (significant tokens).length := (indexed_entries _).below q hq
  have hle : significantIndex tokens q.1 ≤ significantIndex tokens j :=
    (strictMono_significantIndex tokens).monotone (by omega)
  omega

/-- With no whitespace behind it, an operator is the last of all tokens where
    it is the last significant one. -/
theorem last_iff_of_operator (h : ∀ left op spaces, ¬ SpacedOperator tokens left op spaces)
    {p : Entry} (hp : p ∈ entries 0 (significant tokens)) (hop : p.2.kind = .operator) :
    significantIndex tokens p.1 + 1 = tokens.length
      ↔ p.1 + 1 = (significant tokens).length := by
  have hbelow : p.1 < (significant tokens).length := (indexed_entries _).below p hp
  have hget : tokens[significantIndex tokens p.1]? = some p.2 := by
    rw [getElem?_significantIndex]
    exact (mem_entries_iff.mp hp).1
  obtain ⟨hlt, hgetElem⟩ := List.getElem?_eq_some_iff.mp hget
  constructor
  · -- a significant token behind it would have an index beyond the last
    intro hlast
    by_contra hne
    have hnext : p.1 + 1 < (significant tokens).length := by omega
    have hsome := getElem?_significantIndex tokens (p.1 + 1)
    rw [List.getElem?_eq_getElem hnext] at hsome
    have hlt' := (List.getElem?_eq_some_iff.mp hsome).1
    have hmono : significantIndex tokens p.1 < significantIndex tokens (p.1 + 1) :=
      strictMono_significantIndex tokens (Nat.lt_succ_self p.1)
    omega
  · -- tokens behind the last significant one would be spaces behind the operator
    intro hlast
    by_contra hne
    refine h (tokens.take (significantIndex tokens p.1)) p.2
      (tokens.drop (significantIndex tokens p.1 + 1)) ⟨?_, hop, ?_, fun t ht => ?_⟩
    · rw [← hgetElem, ← List.drop_eq_getElem_cons hlt, List.take_append_drop]
    · rw [Ne, List.drop_eq_nil_iff]
      omega
    · obtain ⟨k, hk⟩ := List.getElem?_of_mem ht
      rw [List.getElem?_drop] at hk
      exact whitespace_behind hlast (by omega) hk

/-- Without a spaced operator the diagnostics are those without the
    whitespace, at their indices among all tokens. -/
theorem diagnose_of_not_spaced (h : ∀ left op spaces, ¬ SpacedOperator tokens left op spaces) :
    diagnose tokens
      = (diagnose (significant tokens)).map (Diagnostic.reindex (significantIndex tokens)) := by
  have hreports := Context.reports_reindex (strictMono_significantIndex tokens).injective {}
    fun p hp hop => last_iff_of_operator h hp hop
  have hrun := Context.run_reindex (significantIndex tokens) {} (entries 0 (significant tokens))
  rw [← entries_eq_map_reindex] at hreports hrun
  rw [diagnose_eq_reports, diagnose_eq_reports, List.map_append, ← hreports,
    ← Context.unclosed_reindex, ← hrun]
  rfl

/-- What is found where the last significant token is an operator. -/
theorem diagnose_of_last_operator {l : List Entry} {i : Nat}
    (hentries : entries 0 tokens = l ++ [(i, op)]) (hop : op.kind = .operator) :
    diagnose tokens = (Context.reports tokens.length {} l
        ++ (Context.reportIf (!(Context.run {} l).producesValue)
          (.unexpectedOperator op.text)).map (⟨i, ·⟩))
      ++ ((Context.reportIf (i + 1 == tokens.length) (.missingOperand op.text)).map (⟨i, ·⟩)
        ++ (Context.run {} l).unclosed) := by
  have hopen : (Context.run {} (l ++ [(i, op)])).unclosed = (Context.run {} l).unclosed := by
    have hframes := (Context.run {} l).framesAfter_of_kind i hop
      ⟨by decide, by decide, by decide⟩
    rw [Context.run_append]
    show (((Context.run {} l).framesAfter i op).reverse.map _) = _
    rw [hframes]
    rfl
  rw [diagnose_eq_reports, hentries, Context.reports_concat, Context.causes_of_operator _ hop,
    hopen, List.map_append]
  simp only [List.append_assoc]

namespace SpacedOperator

theorem isSignificant (h : SpacedOperator tokens left op spaces) :
    op.isSignificant = true := by
  rw [Token.isSignificant, h.operator]
  rfl

/-- In front of a spaced operator are all other significant tokens. -/
theorem length_significant (h : SpacedOperator tokens left op spaces) :
    (significant left).length + 1 = (significant tokens).length := by
  rw [h.significant_eq, List.length_append, List.length_singleton]

/-- A spaced operator is not the last of all tokens. -/
theorem length_lt (h : SpacedOperator tokens left op spaces) :
    left.length + 1 < tokens.length := by
  have hpos := List.length_pos_of_ne_nil h.nonempty
  rw [h.split, List.length_append, List.length_cons]
  omega

/-- The last significant index belongs to the spaced operator. -/
theorem significantIndex_eq (h : SpacedOperator tokens left op spaces) :
    significantIndex tokens (significant left).length = left.length := by
  rw [h.split]
  exact significantIndex_length left spaces h.isSignificant

/-- Without the whitespace a spaced operator is the last entry. -/
theorem entries_significant (h : SpacedOperator tokens left op spaces) :
    entries 0 (significant tokens)
      = entries 0 (significant left) ++ [((significant left).length, op)] := by
  rw [h.significant_eq, entries_append, Nat.zero_add, entries, if_pos h.isSignificant]
  rfl

/-- With the whitespace it is the last entry, too, at its index among all
    tokens. -/
theorem entries_eq (h : SpacedOperator tokens left op spaces) :
    entries 0 tokens
      = (entries 0 (significant left)).map (Entry.reindex (significantIndex tokens))
        ++ [(left.length, op)] := by
  rw [entries_eq_map_reindex, h.entries_significant, List.map_append, ← h.significantIndex_eq]
  rfl

/-- In front of the operator no token is the last, with or without the
    whitespace. -/
theorem reports_eq (h : SpacedOperator tokens left op spaces) :
    Context.reports tokens.length {}
        ((entries 0 (significant left)).map (Entry.reindex (significantIndex tokens)))
      = (Context.reports (significant tokens).length {} (entries 0 (significant left))).map
        (Diagnostic.reindex (significantIndex tokens)) := by
  refine Context.reports_reindex (strictMono_significantIndex tokens).injective {}
    fun p hp _ => ?_
  have hbelow : p.1 < (significant left).length := (indexed_entries _).below p hp
  have hindex := strictMono_significantIndex tokens hbelow
  rw [h.significantIndex_eq] at hindex
  have hlength := h.length_lt
  have hcount := h.length_significant
  exact iff_of_false (by omega) (by omega)

/-- An operator with whitespace behind it lacks its operand only where the
    whitespace is taken out. -/
theorem diagnose_eq (h : SpacedOperator tokens left op spaces) : ∃ before after,
    (diagnose (significant tokens)).map (Diagnostic.reindex (significantIndex tokens))
      = before ++ ⟨left.length, .missingOperand op.text⟩ :: after ∧
    diagnose tokens = before ++ after := by
  have hrun : Context.run {} ((entries 0 (significant left)).map
        (Entry.reindex (significantIndex tokens)))
      = (Context.run {} (entries 0 (significant left))).reindex (significantIndex tokens) :=
    Context.run_reindex (significantIndex tokens) {} _
  have hlast : ((significant left).length + 1 == (significant tokens).length) = true :=
    beq_iff_eq.mpr h.length_significant
  have hspaced : (left.length + 1 == tokens.length) = false :=
    beq_false_of_ne (Nat.ne_of_lt h.length_lt)
  -- the two lists differ in the report on the last operator alone
  refine ⟨Context.reports tokens.length {} ((entries 0 (significant left)).map
        (Entry.reindex (significantIndex tokens)))
      ++ (Context.reportIf (!(Context.run {} (entries 0 (significant left))).producesValue)
        (.unexpectedOperator op.text)).map (⟨left.length, ·⟩),
    ((Context.run {} (entries 0 (significant left))).reindex
      (significantIndex tokens)).unclosed, ?_, ?_⟩
  · rw [diagnose_of_last_operator h.entries_significant h.operator, hlast,
      Context.unclosed_reindex, List.map_append, List.map_append, List.map_append,
      h.reports_eq, List.map_map, ← h.significantIndex_eq]
    rfl
  · rw [diagnose_of_last_operator h.entries_eq h.operator, hspaced, hrun,
      Context.producesValue_reindex]
    rfl

end SpacedOperator

end

/-- **WHITESPACE AND DIAGNOSTICS**: the diagnostics of tokens are those of the
    significant ones with their indices among all tokens.  Where the last
    significant token is an operator and whitespace follows it, just the one
    that tells of its missing operand is left out. -/
theorem diagnose_significant (tokens : List Token) :
    StrictMono (significantIndex tokens) ∧
    (∀ j, tokens[significantIndex tokens j]? = (significant tokens)[j]?) ∧
    (∀ left op spaces, SpacedOperator tokens left op spaces → ∃ before after,
      (diagnose (significant tokens)).map (Diagnostic.reindex (significantIndex tokens))
        = before ++ ⟨left.length, .missingOperand op.text⟩ :: after ∧
      diagnose tokens = before ++ after ∧
      ∀ d ∈ diagnose tokens, ∀ operator, d.cause ≠ .missingOperand operator) ∧
    ((∀ left op spaces, ¬ SpacedOperator tokens left op spaces) →
      diagnose tokens
        = (diagnose (significant tokens)).map (Diagnostic.reindex (significantIndex tokens))) := by
  refine ⟨strictMono_significantIndex tokens, getElem?_significantIndex tokens,
    fun left op spaces h => ?_, diagnose_of_not_spaced⟩
  obtain ⟨before, after, hsignificant, hdiagnose⟩ := h.diagnose_eq
  refine ⟨before, after, hsignificant, hdiagnose, fun d hd operator hcause => ?_⟩
  obtain ⟨t, ht, hkind⟩ := getLast?_of_missingOperand hd hcause
  exact absurd (hkind.symm.trans (h.getLast? ht)) (by decide)

/-- In `( 1+ ` the operator is not reported, and without the spaces it is; the
    parenthesis is reported at the index it has.  In `1 +` it is reported at
    the index that it has behind the space. -/
theorem diagnose_significant_operator :
    ∃ tokens left op spaces before after unspaced, tokens = tokensOf "( 1+ " ∧
      SpacedOperator tokens left op spaces ∧
      diagnose (significant tokens) = [⟨2, .missingOperand "+"⟩, ⟨0, .missingClose ')'⟩] ∧
      (diagnose (significant tokens)).map (Diagnostic.reindex (significantIndex tokens))
        = before ++ ⟨3, .missingOperand "+"⟩ :: after ∧
      diagnose tokens = before ++ after ∧
      unspaced = tokensOf "1 +" ∧
      (∀ left op spaces, ¬ SpacedOperator unspaced left op spaces) ∧
      diagnose (significant unspaced) = [⟨1, .missingOperand "+"⟩] ∧
      diagnose unspaced = [⟨2, .missingOperand "+"⟩] := by
  have htokens : tokensOf "( 1+ " = [⟨.bracket, "(", 0, 0⟩, ⟨.whitespace, " ", 1, 1⟩,
      ⟨.number, "1", 2, 2⟩] ++ ⟨.operator, "+", 3, 3⟩ :: [⟨.whitespace, " ", 4, 4⟩] := by
    decide +kernel
  have hspaced : SpacedOperator (tokensOf "( 1+ ") [⟨.bracket, "(", 0, 0⟩,
      ⟨.whitespace, " ", 1, 1⟩, ⟨.number, "1", 2, 2⟩] ⟨.operator, "+", 3, 3⟩
      [⟨.whitespace, " ", 4, 4⟩] :=
    ⟨htokens, rfl, List.cons_ne_nil _ _, by decide⟩
  obtain ⟨before, after, hsignificant, hdiagnose, -⟩ :=
    (diagnose_significant (tokensOf "( 1+ ")).2.2.1 _ _ _ hspaced
  have hlast : (tokensOf "1 +").getLast? = some ⟨.operator, "+", 2, 2⟩ := by decide +kernel
  have hunspaced : ∀ left op spaces, ¬ SpacedOperator (tokensOf "1 +") left op spaces :=
    fun _ _ _ h => absurd (h.getLast? hlast) (by decide)
  have hmapped := (diagnose_significant (tokensOf "1 +")).2.2.2 hunspaced
  have hwithout : diagnose (significant (tokensOf "1 +")) = [⟨1, .missingOperand "+"⟩] := by
    decide +kernel
  have hindex : significantIndex (tokensOf "1 +") 1 = 2 := by decide +kernel
  rw [hwithout, List.map_singleton, Diagnostic.reindex, hindex] at hmapped
  exact ⟨_, _, _, _, before, after, _, rfl, hspaced, by decide +kernel, hsignificant, hdiagnose,
    rfl, hunspaced, hwithout, hmapped⟩

end FormulaBar
