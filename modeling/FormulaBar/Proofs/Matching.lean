import FormulaBar.Proofs.Pairing

/-! # Matching — brackets and quotes in pairs

    Said of the indices of tokens alone: brackets and quotes are in pairs,
    an opener and a closer of its kind, and all that is opened between the
    two is closed between them.  A closer that is in no pair does not fit
    what is open in front of it.  The conditions leave no choice, so there
    is one such matching, that of the run of the pass.

    The diagnostics tell the same story.  An opener that is in no pair, and
    no other, lacks its closer, and a closing bracket that is in no pair is
    unexpected.  No sequence of tokens is too broken for this. -/

namespace FormulaBar

/-! ## The pairs of a sequence of tokens -/

/-- The pairs that the pass makes of the tokens. -/
def pairsOf (tokens : List Token) : List (Nat × Nat) :=
  Context.pairs {} (entries 0 tokens)

section

variable (tokens : List Token) (pairs : List (Nat × Nat))

/-- The token with the index `i` opens what `c` closes. -/
def IsOpener (i : Nat) (c : Char) : Prop :=
  ∃ t, tokens[i]? = some t ∧ t.opens? = some c

/-- The token with the index `j` closes something with `c`. -/
def IsCloser (j : Nat) (c : Char) : Prop :=
  ∃ t, tokens[j]? = some t ∧ t.closes? = some c

/-- The token with the index `i` is in a pair. -/
def Paired (i : Nat) : Prop :=
  ∃ p ∈ pairs, p.1 = i ∨ p.2 = i

/-- An opener in front of `j` is not paired with a token in front of `j`. -/
structure Pending (j i : Nat) (c : Char) : Prop where
  isOpener : IsOpener tokens i c
  before : i < j
  unclosed : ∀ k, (i, k) ∈ pairs → j ≤ k

/-- Brackets and quotes in pairs: an opener is followed by a closer of its
    kind, no token is in two pairs, and what was opened between the two is
    closed between them.  A closer without a partner has no opener in front of
    it that is still pending, or the nearest such is of another kind. -/
structure Matching : Prop where
  ordered : ∀ i j, (i, j) ∈ pairs → i < j
  alike : ∀ i j, (i, j) ∈ pairs → ∃ c, IsOpener tokens i c ∧ IsCloser tokens j c
  once : ∀ p ∈ pairs, ∀ q ∈ pairs, ∀ i, (p.1 = i ∨ p.2 = i) → (q.1 = i ∨ q.2 = i) → p = q
  nested : ∀ i j, (i, j) ∈ pairs → ∀ k c, IsOpener tokens k c → i < k → k < j →
    ∃ m, m < j ∧ (k, m) ∈ pairs
  free : ∀ j c, IsCloser tokens j c → ¬ Paired pairs j → ∀ i d, Pending tokens pairs j i d →
    (∀ k e, Pending tokens pairs j k e → k ≤ i) → d ≠ c

end

section

variable {tokens : List Token} {i j : Nat} {c : Char}

theorem mem_openers_entries : (i, c) ∈ openers (entries 0 tokens) ↔ IsOpener tokens i c := by
  rw [mem_openers]
  refine exists_congr fun t => ?_
  rw [mem_entries_iff]
  constructor
  · rintro ⟨⟨ht, -⟩, hopens⟩
    exact ⟨ht, hopens⟩
  · rintro ⟨ht, hopens⟩
    exact ⟨⟨ht, Token.isSignificant_of_delimits (by decide) hopens⟩, hopens⟩

/-- An opener is no closer. -/
theorem not_isCloser_of_isOpener {d : Char} (h : IsOpener tokens i c) : ¬ IsCloser tokens i d := by
  obtain ⟨t, ht, hopens⟩ := h
  rintro ⟨u, hu, hcloses⟩
  obtain rfl := Option.some.inj (ht.symm.trans hu)
  cases (Token.closes?_of_opens hopens).symm.trans hcloses

/-- A closer is an entry, with others in front of it and behind it. -/
theorem IsCloser.exists_split (h : IsCloser tokens j c) :
    ∃ before t after, entries 0 tokens = before ++ (j, t) :: after ∧ t.closes? = some c := by
  obtain ⟨t, ht, hcloses⟩ := h
  have hentry : (j, t) ∈ entries 0 tokens :=
    mem_entries_iff.mpr ⟨ht, Token.isSignificant_of_delimits (by decide) hcloses⟩
  obtain ⟨before, after, hsplit⟩ := List.append_of_mem hentry
  exact ⟨before, t, after, hsplit, hcloses⟩

end

namespace Context

section

variable {count : Nat} {before after : List Entry} {t : Token} {i j k : Nat}

/-- In front of an entry are just the entries with smaller indices. -/
theorem mem_before_iff (h : Indexed count (before ++ (j, t) :: after)) {p : Entry} :
    p ∈ before ↔ p ∈ before ++ (j, t) :: after ∧ p.1 < j := by
  have hsorted := List.pairwise_append.mp h.sorted
  constructor
  · intro hp
    exact ⟨List.mem_append_left _ hp, hsorted.2.2 p hp _ List.mem_cons_self⟩
  · rintro ⟨hp, hlt⟩
    rcases List.mem_append.mp hp with hp | hp
    · exact hp
    rcases List.mem_cons.mp hp with rfl | hp
    · exact absurd hlt (Nat.lt_irrefl _)
    · exact absurd ((List.pairwise_cons.mp hsorted.2.1).1 p hp) (Nat.lt_asymm hlt)

/-- The pairs made in front of an entry are those with closers in front of
    it. -/
theorem mem_pairs_before_iff (h : Indexed count (before ++ (j, t) :: after)) :
    (i, k) ∈ pairs {} before ↔ (i, k) ∈ pairs {} (before ++ (j, t) :: after) ∧ k < j := by
  constructor
  · intro hpair
    obtain ⟨front, u, back, hsplit, -⟩ := mem_pairs.mp hpair
    have hk : (k, u) ∈ before := hsplit ▸ List.mem_append_right _ List.mem_cons_self
    rw [pairs_append]
    exact ⟨List.mem_append_left _ hpair, ((mem_before_iff h).mp hk).2⟩
  · rintro ⟨hpair, hlt⟩
    rw [pairs_append] at hpair
    rcases List.mem_append.mp hpair with hpair | hpair
    · exact hpair
    · obtain ⟨front, u, back, hsplit, -⟩ := mem_pairs.mp hpair
      have hk : (k, u) ∈ (j, t) :: after := hsplit ▸ List.mem_append_right _ List.mem_cons_self
      have hbefore := (mem_before_iff h).mpr ⟨List.mem_append_right _ hk, hlt⟩
      have hne := (List.pairwise_append.mp h.sorted).2.2 _ hbefore _ hk
      exact absurd hne (Nat.lt_irrefl k)

end

section

variable {tokens : List Token} {before after : List Entry} {t : Token} {i j k : Nat} {c d : Char}
variable {os : List (Nat × Char)}

/-- What is open in front of a token is what is pending there. -/
theorem mem_opened_iff (h : entries 0 tokens = before ++ (j, t) :: after) :
    (i, c) ∈ (run {} before).opened ↔ Pending tokens (pairsOf tokens) j i c := by
  have hindexed := indexed_entries tokens
  rw [h] at hindexed
  have hopener : (i, c) ∈ openers before ↔ IsOpener tokens i c ∧ i < j := by
    rw [← mem_openers_entries, h, mem_openers, mem_openers, ← exists_and_right]
    refine exists_congr fun u => ?_
    rw [mem_before_iff hindexed, and_right_comm]
  have hpair : ∀ k, (i, k) ∉ pairs {} before ↔ ((i, k) ∈ pairsOf tokens → j ≤ k) := by
    intro k
    rw [pairsOf, h, mem_pairs_before_iff hindexed, not_and, Nat.not_lt]
  rw [opened_run hindexed.left, List.mem_reverse, mem_unpaired, hopener, forall_congr' hpair]
  exact ⟨fun ⟨⟨hi, hlt⟩, hopen⟩ => ⟨hi, hlt, hopen⟩,
    fun ⟨hi, hlt, hopen⟩ => ⟨⟨hi, hlt⟩, hopen⟩⟩

/-- The innermost of what is open in front of a token is the nearest that is
    pending there. -/
theorem le_of_pending (h : entries 0 tokens = before ++ (j, t) :: after)
    (hos : (run {} before).opened = (i, c) :: os)
    (hk : Pending tokens (pairsOf tokens) j k d) : k ≤ i := by
  have hindexed := indexed_entries tokens
  rw [h] at hindexed
  have hmem := (mem_opened_iff h).mpr hk
  have hsorted := reverse_unpaired_sorted hindexed.left (pairs {} before)
  rw [← opened_run hindexed.left, hos] at hsorted
  rw [hos] at hmem
  rcases List.mem_cons.mp hmem with heq | hmem
  · exact Nat.le_of_eq (Prod.mk.inj heq).1
  · exact Nat.le_of_lt ((List.pairwise_cons.mp hsorted).1 _ hmem)

end

section

variable {tokens : List Token} {i j : Nat} {c : Char}

/-- A pair is made where its opener is the nearest that is pending. -/
theorem pending_of_mem_pairs (h : (i, j) ∈ pairsOf tokens) :
    ∃ c, IsCloser tokens j c ∧ Pending tokens (pairsOf tokens) j i c ∧
      ∀ k d, Pending tokens (pairsOf tokens) j k d → k ≤ i := by
  obtain ⟨before, t, after, hsplit, hpartner⟩ := mem_pairs.mp h
  obtain ⟨c, os, hos, hcloses⟩ := partner?_eq_some_iff.mp hpartner
  have hentry : (j, t) ∈ entries 0 tokens := hsplit ▸ List.mem_append_right _ List.mem_cons_self
  refine ⟨c, ⟨t, (mem_entries_iff.mp hentry).1, hcloses⟩, ?_, fun k d hk => ?_⟩
  · exact (mem_opened_iff hsplit).mp (hos ▸ List.mem_cons_self)
  · exact le_of_pending hsplit hos hk

/-- A closer that is in no pair has no partner where the pass comes to it. -/
theorem partner?_eq_none_of_not_paired {before after : List Entry} {t : Token}
    (hsplit : entries 0 tokens = before ++ (j, t) :: after)
    (h : ¬ Paired (pairsOf tokens) j) : (run {} before).partner? t = none := by
  refine Option.eq_none_iff_forall_ne_some.mpr fun i hi => h ⟨(i, j), ?_, Or.inr rfl⟩
  exact mem_pairs.mpr ⟨before, t, after, hsplit, hi⟩

/-- A token closes with one partner only. -/
theorem opener_eq_of_mem_pairs {i' : Nat} (h : (i, j) ∈ pairsOf tokens)
    (h' : (i', j) ∈ pairsOf tokens) : i = i' := by
  obtain ⟨_, -, hi, hnearest⟩ := pending_of_mem_pairs h
  obtain ⟨_, -, hi', hnearest'⟩ := pending_of_mem_pairs h'
  exact Nat.le_antisymm (hnearest' i _ hi) (hnearest i' _ hi')

/-- An opener is closed only once. -/
theorem closer_eq_of_mem_pairs {j' : Nat} (h : (i, j) ∈ pairsOf tokens)
    (h' : (i, j') ∈ pairsOf tokens) : j = j' := by
  obtain ⟨_, -, hi, -⟩ := pending_of_mem_pairs h
  obtain ⟨_, -, hi', -⟩ := pending_of_mem_pairs h'
  exact Nat.le_antisymm (hi.unclosed j' h') (hi'.unclosed j h)

/-- The pairs that the pass makes match. -/
theorem matching_pairsOf (tokens : List Token) : Matching tokens (pairsOf tokens) where
  ordered := by
    intro i j h
    obtain ⟨_, -, hi, -⟩ := pending_of_mem_pairs h
    exact hi.before
  alike := by
    intro i j h
    obtain ⟨c, hj, hi, -⟩ := pending_of_mem_pairs h
    exact ⟨c, hi.isOpener, hj⟩
  once := by
    rintro ⟨i, j⟩ h ⟨i', j'⟩ h' k hk hk'
    obtain ⟨c, hj, hi, -⟩ := pending_of_mem_pairs h
    obtain ⟨c', hj', hi', -⟩ := pending_of_mem_pairs h'
    rcases hk with rfl | rfl <;> rcases hk' with hk' | hk'
    · obtain rfl : i' = i := hk'
      rw [closer_eq_of_mem_pairs h h']
    · obtain rfl : j' = i := hk'
      exact absurd hj' (not_isCloser_of_isOpener hi.isOpener)
    · obtain rfl : i' = j := hk'
      exact absurd hj (not_isCloser_of_isOpener hi'.isOpener)
    · obtain rfl : j' = j := hk'
      rw [opener_eq_of_mem_pairs h h']
  nested := by
    intro i j h k c hk hlt hlt'
    obtain ⟨-, -, -, hnearest⟩ := pending_of_mem_pairs h
    refine Classical.byContradiction fun hnone => ?_
    have hpending : Pending tokens (pairsOf tokens) j k c :=
      ⟨hk, hlt', fun m hm => Nat.le_of_not_lt fun hm' => hnone ⟨m, hm', hm⟩⟩
    exact absurd (hnearest k c hpending) (Nat.not_le_of_lt hlt)
  free := by
    rintro j _ hj hfree i c hi hnearest rfl
    obtain ⟨before, t, after, hsplit, hcloses⟩ := hj.exists_split
    have hpartner := partner?_eq_none_of_not_paired hsplit hfree
    -- the nearest that is pending is the innermost of what is open
    have hmem := (mem_opened_iff hsplit).mpr hi
    cases hos : (run {} before).opened with
    | nil =>
        rw [hos] at hmem
        cases hmem
    | cons o os =>
        obtain ⟨k, d⟩ := o
        have hk := (mem_opened_iff hsplit).mp (hos ▸ List.mem_cons_self)
        obtain rfl : i = k := Nat.le_antisymm (le_of_pending hsplit hos hi) (hnearest k d hk)
        have hcd : c = d := by
          obtain ⟨u, hu, hopens⟩ := hi.isOpener
          obtain ⟨v, hv, hopens'⟩ := hk.isOpener
          obtain rfl := Option.some.inj (hu.symm.trans hv)
          exact Option.some.inj (hopens.symm.trans hopens')
        cases hpartner.symm.trans (partner?_eq_some_iff.mpr ⟨d, os, hos, hcd ▸ hcloses⟩)

end

end Context

/-! ## No other pairs match -/

section

variable {tokens : List Token} {pairs pairs' : List (Nat × Nat)} {i j : Nat}

/-- In any matching an opener is the nearest that is pending at its closer. -/
theorem Matching.pending (h : Matching tokens pairs) (hpair : (i, j) ∈ pairs) :
    ∃ c, IsCloser tokens j c ∧ Pending tokens pairs j i c ∧
      ∀ k d, Pending tokens pairs j k d → k ≤ i := by
  obtain ⟨c, hi, hj⟩ := h.alike i j hpair
  refine ⟨c, hj, ⟨hi, h.ordered i j hpair, fun k hk => ?_⟩, fun k d hk => ?_⟩
  · have heq := h.once _ hpair _ hk i (Or.inl rfl) (Or.inl rfl)
    exact Nat.le_of_eq (Prod.mk.inj heq).2
  · refine Nat.le_of_not_lt fun hlt => ?_
    obtain ⟨m, hm, hclosed⟩ := h.nested i j hpair k d hk.isOpener hlt hk.before
    exact absurd (hk.unclosed m hclosed) (Nat.not_le_of_lt hm)

/-- What is pending hangs on the pairs with closers in front only. -/
theorem Pending.congr {c : Char} (h : Pending tokens pairs j i c)
    (hpairs : ∀ k < j, (i, k) ∈ pairs' → (i, k) ∈ pairs) : Pending tokens pairs' j i c :=
  ⟨h.isOpener, h.before, fun k hk => Nat.le_of_not_lt fun hlt =>
    absurd (h.unclosed k (hpairs k hlt hk)) (Nat.not_le_of_lt hlt)⟩

/-- Two matchings that agree on all closers in front of one agree on that one.
    -/
theorem Matching.mem_of_agree (h : Matching tokens pairs) (h' : Matching tokens pairs')
    (hagree : ∀ k < j, ∀ i, (i, k) ∈ pairs ↔ (i, k) ∈ pairs') (hpair : (i, j) ∈ pairs) :
    (i, j) ∈ pairs' := by
  obtain ⟨c, hj, hi, hnearest⟩ := h.pending hpair
  have hi' : Pending tokens pairs' j i c := hi.congr fun k hk => (hagree k hk i).mpr
  have hnearest' : ∀ k d, Pending tokens pairs' j k d → k ≤ i :=
    fun k d hk => hnearest k d (hk.congr fun m hm => (hagree m hm k).mp)
  by_cases hpaired : Paired pairs' j
  · obtain ⟨⟨k, m⟩, hpair', hjoin⟩ := hpaired
    obtain ⟨d, hm, hk, hfurthest⟩ := h'.pending hpair'
    rcases hjoin with rfl | rfl
    · exact absurd hj (not_isCloser_of_isOpener hk.isOpener)
    · obtain rfl : i = k := Nat.le_antisymm (hfurthest i c hi') (hnearest' k d hk)
      exact hpair'
  · exact absurd rfl (h'.free j c hj hpaired i c hi' hnearest')

/-- **ONE MATCHING**: the conditions leave no choice of the pairs. -/
theorem Matching.mem_iff (h : Matching tokens pairs) (h' : Matching tokens pairs') :
    (i, j) ∈ pairs ↔ (i, j) ∈ pairs' := by
  induction j using Nat.strongRecOn generalizing i with
  | ind j ih =>
      have hagree : ∀ k < j, ∀ i, (i, k) ∈ pairs ↔ (i, k) ∈ pairs' := fun k hk i => ih k hk
      exact ⟨h.mem_of_agree h' hagree,
        h'.mem_of_agree h fun k hk i => (hagree k hk i).symm⟩

/-- The same tokens are in pairs, whichever matching is taken. -/
theorem Matching.paired_iff (h : Matching tokens pairs) (h' : Matching tokens pairs') :
    Paired pairs i ↔ Paired pairs' i := by
  constructor
  · rintro ⟨⟨k, j⟩, hpair, hjoin⟩
    exact ⟨(k, j), (h.mem_iff h').mp hpair, hjoin⟩
  · rintro ⟨⟨k, j⟩, hpair, hjoin⟩
    exact ⟨(k, j), (h.mem_iff h').mpr hpair, hjoin⟩

end

/-! ## What the pass finds at a token -/

/-- Whether a closer is missing. -/
def Diagnostic.Cause.isMissingClose : Diagnostic.Cause → Bool
  | .missingClose _ => true
  | _ => false

/-- Whether the diagnostic is about a closer that is missing. -/
def Diagnostic.isMissingClose (d : Diagnostic) : Bool :=
  d.cause.isMissingClose

/-- How much may be wrong with a token of the class. -/
def Token.Kind.mostCauses : Token.Kind → Nat
  | .operator | .comma => 2
  | .functionName | .number | .startQuote | .bracket | .unfinishedFormula | .error => 1
  | .endQuote | .string | .referenceName | .whitespace => 0

namespace Context

/-- At most so many causes, and that a closer is missing is none of them. -/
structure AtMost (n : Nat) (found : List Diagnostic.Cause) : Prop where
  length : found.length ≤ n
  here : ∀ cause ∈ found, cause.isMissingClose = false

/-- Two lists of causes have at most as many as both together. -/
theorem AtMost.append {m n : Nat} {found found' : List Diagnostic.Cause} (h : AtMost m found)
    (h' : AtMost n found') : AtMost (m + n) (found ++ found') where
  length := by
    rw [List.length_append]
    exact Nat.add_le_add h.length h'.length
  here := List.forall_mem_append.mpr ⟨h.here, h'.here⟩

theorem atMost_nil (n : Nat) : AtMost n [] := ⟨Nat.zero_le n, nofun⟩

theorem atMost_singleton {cause : Diagnostic.Cause} (h : cause.isMissingClose = false) :
    AtMost 1 [cause] :=
  ⟨Nat.le_refl 1, List.forall_mem_singleton.mpr h⟩

theorem atMost_reportIf (condition : Bool) {cause : Diagnostic.Cause}
    (h : cause.isMissingClose = false) : AtMost 1 (reportIf condition cause) := by
  cases condition with
  | false => exact atMost_nil 1
  | true => exact atMost_singleton h

/-- A bracket is reported for one cause at most. -/
theorem atMost_bracketCauses (s : Context) (t : Token) : AtMost 1 (s.bracketCauses t) := by
  rw [bracketCauses]
  split
  · exact atMost_reportIf _ rfl
  split
  · exact atMost_reportIf _ rfl
  split
  · exact atMost_reportIf _ rfl
  split
  · split
    · exact atMost_reportIf _ rfl
    · exact atMost_singleton rfl
  · exact atMost_nil 1

/-- A token has few causes, and none of them is a closer that is missing. -/
theorem atMost_causes (s : Context) (t : Token) (last : Bool) :
    AtMost t.kind.mostCauses (s.causes t last) := by
  rw [causes]
  cases t.kind
  case operator | comma => exact (atMost_reportIf _ rfl).append (atMost_reportIf _ rfl)
  case functionName | number | startQuote => exact atMost_reportIf _ rfl
  case bracket => exact atMost_bracketCauses s t
  case unfinishedFormula | error => exact atMost_singleton rfl
  case endQuote | string | referenceName | whitespace => exact atMost_nil 0

section

variable {s : Context} {t : Token} {last : Bool} {count : Nat} {l : List Entry}

/-- No report on an entry is of a missing closer. -/
theorem isMissingClose_of_mem_reports {d : Diagnostic} (h : d ∈ s.reports count l) :
    d.isMissingClose = false := by
  obtain ⟨s', p, -, -, hcause⟩ := exists_cause_of_report h
  exact (atMost_causes s' p.2 _).here d.cause hcause

/-- What is wrong with a token is reported where the pass comes to it. -/
theorem mem_reports {before after : List Entry} {i : Nat} {cause : Diagnostic.Cause}
    (h : cause ∈ (s.run before).causes t (i + 1 == count)) :
    ⟨i, cause⟩ ∈ s.reports count (before ++ (i, t) :: after) := by
  rw [reports_append, reports]
  exact List.mem_append_right _ (List.mem_append_left _ (List.mem_map_of_mem h))

/-- A closing parenthesis without a partner is reported. -/
theorem mem_causes_closeParen (hcloses : t.closes? = some ')') (h : s.partner? t = none) :
    .unexpectedCloseParen ∈ s.causes t last := by
  have ht : t.isBracket ')' = true := by simpa using Token.closes?_eq_some_iff.mp hcloses
  simp [causes, bracketCauses, Token.kind_of_isBracket ht, ht,
    Token.isBracket_of_ne '(' ht (by decide), reportIf, inParentheses_of_partner ht h]

/-- A closing bracket without a partner is reported. -/
theorem mem_causes_closeBracket (hcloses : t.closes? = some ']') (h : s.partner? t = none) :
    .unexpectedCloseBracket ∈ s.causes t last := by
  have ht : t.isBracket ']' = true := by simpa using Token.closes?_eq_some_iff.mp hcloses
  simp [causes, bracketCauses, Token.kind_of_isBracket ht, ht,
    Token.isBracket_of_ne '(' ht (by decide), Token.isBracket_of_ne ')' ht (by decide),
    Token.isBracket_of_ne '[' ht (by decide), innermost_of_partner ht h]

end

end Context

/-! ## What is not closed -/

/-- The openers that no token closes, in order. -/
def unclosedOpeners (tokens : List Token) : List (Nat × Char) :=
  unpaired (pairsOf tokens) (openers (entries 0 tokens))

/-- The openers that are left open come in the order of their indices. -/
theorem sorted_unclosedOpeners (tokens : List Token) :
    (unclosedOpeners tokens).Pairwise fun o o' => o.1 < o'.1 :=
  (sorted_openers (indexed_entries tokens)).filter _

/-- The diagnostics end with those of the openers that no token closes. -/
theorem diagnose_eq_unclosed (tokens : List Token) :
    diagnose tokens = Context.reports tokens.length {} (entries 0 tokens)
      ++ (unclosedOpeners tokens).map fun o => ⟨o.1, .missingClose o.2⟩ := by
  have hopened : (Context.run {} (entries 0 tokens)).opened = (unclosedOpeners tokens).reverse :=
    Context.opened_run (indexed_entries tokens)
  rw [diagnose_eq_reports, Context.unclosed, ← List.reverse_reverse (unclosedOpeners tokens),
    ← hopened, Context.opened, ← List.map_reverse, List.map_map]
  rfl

/-- With growing keys a key picks one element. -/
theorem filter_key_eq {α : Type} {key : α → Nat} {l : List α} {a : α}
    (h : l.Pairwise fun x y => key x < key y) (ha : a ∈ l) :
    l.filter (fun x => key x == key a) = [a] := by
  obtain ⟨before, after, rfl⟩ := List.append_of_mem ha
  obtain ⟨-, hafter, hbefore⟩ := List.pairwise_append.mp h
  have hafter := (List.pairwise_cons.mp hafter).1
  rw [List.filter_append, List.filter_cons_of_pos (by simp), List.filter_eq_nil_iff.mpr,
    List.filter_eq_nil_iff.mpr]
  · rfl
  · intro x hx
    simpa using Nat.ne_of_gt (hafter x hx)
  · intro x hx
    simpa using Nat.ne_of_lt (hbefore x hx a List.mem_cons_self)

/-- The diagnostics of a token for a closer that is missing. -/
def missingClosers (tokens : List Token) (i : Nat) : List Diagnostic :=
  (diagnose tokens).filter fun d => d.token == i && d.isMissingClose

/-- The missing closers reported on a token are those of the openers with its
    index. -/
theorem missingClosers_eq (tokens : List Token) (i : Nat) :
    missingClosers tokens i = ((unclosedOpeners tokens).filter fun o => o.1 == i).map
      fun o => ⟨o.1, .missingClose o.2⟩ := by
  rw [missingClosers, diagnose_eq_unclosed, List.filter_append, List.filter_eq_nil_iff.mpr,
    List.nil_append, List.filter_map]
  · refine congrArg (List.map _) (List.filter_congr fun o _ => ?_)
    exact Bool.and_true _
  · intro d hd
    rw [Context.isMissingClose_of_mem_reports hd, Bool.and_false]
    exact Bool.false_ne_true

/-- What a closer without a partner is reported for is found for a closer that
    is in no pair. -/
theorem mem_diagnose_of_not_paired {tokens : List Token} {j : Nat} {c : Char}
    {cause : Diagnostic.Cause} (hj : IsCloser tokens j c) (hfree : ¬ Paired (pairsOf tokens) j)
    (hcause : ∀ (s : Context) (t : Token) (last : Bool), t.closes? = some c →
      s.partner? t = none → cause ∈ s.causes t last) : ⟨j, cause⟩ ∈ diagnose tokens := by
  obtain ⟨before, t, after, hsplit, hcloses⟩ := hj.exists_split
  have hpartner := Context.partner?_eq_none_of_not_paired hsplit hfree
  rw [diagnose_eq_unclosed, hsplit]
  exact List.mem_append_left _ (Context.mem_reports (hcause _ t _ hcloses hpartner))

section

variable {tokens : List Token} {pairs : List (Nat × Nat)} {i : Nat} {c : Char}

/-- An opener in a pair has no diagnostic for its closer. -/
theorem missingClosers_of_paired (hi : IsOpener tokens i c) (h : Paired (pairsOf tokens) i) :
    missingClosers tokens i = [] := by
  obtain ⟨⟨k, j⟩, hpair, hjoin⟩ := h
  -- an opener is no closer, so it is the first of the pair
  obtain ⟨d, -, hj⟩ := (Context.matching_pairsOf tokens).alike k j hpair
  rw [missingClosers_eq, List.map_eq_nil_iff, List.filter_eq_nil_iff]
  rintro ⟨o, e⟩ ho heq
  obtain rfl : o = i := beq_iff_eq.mp heq
  rcases hjoin with rfl | rfl
  · exact (mem_unpaired.mp ho).2 j hpair
  · exact not_isCloser_of_isOpener hi hj

/-- An opener in no pair has one diagnostic, with the closer of its kind. -/
theorem missingClosers_of_not_paired (hi : IsOpener tokens i c)
    (h : ¬ Paired (pairsOf tokens) i) :
    missingClosers tokens i = [⟨i, .missingClose c⟩] := by
  have hmem : (i, c) ∈ unclosedOpeners tokens := by
    refine mem_unpaired.mpr ⟨mem_openers_entries.mpr hi, fun j hpair => ?_⟩
    exact h ⟨(i, j), hpair, Or.inl rfl⟩
  rw [missingClosers_eq]
  exact congrArg _ (filter_key_eq (sorted_unclosedOpeners tokens) hmem)

/-- Whichever matching is taken, the diagnostics are those of its openers and
    closing brackets without a partner. -/
theorem Matching.diagnosed (h : Matching tokens pairs) :
    (∀ i c, IsOpener tokens i c →
      (Paired pairs i → missingClosers tokens i = []) ∧
      (¬ Paired pairs i → missingClosers tokens i = [⟨i, .missingClose c⟩])) ∧
    ∀ j, ¬ Paired pairs j →
      (IsCloser tokens j ')' → ⟨j, .unexpectedCloseParen⟩ ∈ diagnose tokens) ∧
      (IsCloser tokens j ']' → ⟨j, .unexpectedCloseBracket⟩ ∈ diagnose tokens) := by
  -- the pass makes the one matching there is
  have hpaired : ∀ i, Paired pairs i ↔ Paired (pairsOf tokens) i := fun i =>
    h.paired_iff (Context.matching_pairsOf tokens)
  refine ⟨fun i c hi => ?_, fun j hfree => ?_⟩
  · rw [hpaired]
    exact ⟨missingClosers_of_paired hi, missingClosers_of_not_paired hi⟩
  · rw [hpaired] at hfree
    exact ⟨fun hj => mem_diagnose_of_not_paired hj hfree fun _ _ _ =>
        Context.mem_causes_closeParen,
      fun hj => mem_diagnose_of_not_paired hj hfree fun _ _ _ =>
        Context.mem_causes_closeBracket⟩

end

/-- **BRACKETS AND QUOTES MATCH**: whatever the tokens are, their brackets and
    quotes are in pairs so that an opener has a diagnostic for its missing
    closer, and then only one, where it is in no pair, and a closing bracket
    that is in no pair is unexpected. -/
theorem diagnose_matching (tokens : List Token) :
    ∃ pairs, Matching tokens pairs ∧
      (∀ i c, IsOpener tokens i c →
        (Paired pairs i → missingClosers tokens i = []) ∧
        (¬ Paired pairs i → missingClosers tokens i = [⟨i, .missingClose c⟩])) ∧
      ∀ j, ¬ Paired pairs j →
        (IsCloser tokens j ')' → ⟨j, .unexpectedCloseParen⟩ ∈ diagnose tokens) ∧
        (IsCloser tokens j ']' → ⟨j, .unexpectedCloseBracket⟩ ∈ diagnose tokens) := by
  have hmatching := Context.matching_pairsOf tokens
  exact ⟨pairsOf tokens, hmatching, hmatching.diagnosed⟩

end FormulaBar
