import FormulaBar.Diagnostic
import FormulaBar.Proofs.Grammar

/-! # Diagnosis — the pass over the tokens as a run

    The pass that finds the diagnostics is cut in two: the run of its
    context over the significant tokens, each with its index, and what is
    reported on the way.  Both split where the tokens split, so facts about
    parts of a formula add up.  For each class of tokens it is settled once
    what the token must find behind it to be silent, and which frames it
    leaves. -/

namespace FormulaBar

/-- A significant token with its index among all tokens. -/
abbrev Entry := Nat × Token

/-- The significant tokens with their indices, the first index being `i`. -/
def entries (i : Nat) : List Token → List Entry
  | [] => []
  | t :: rest =>
      if t.isSignificant then (i, t) :: entries (i + 1) rest
      else entries (i + 1) rest

private theorem entries_cons (i : Nat) (t : Token) (rest : List Token) :
    entries i (t :: rest)
      = if t.isSignificant then (i, t) :: entries (i + 1) rest
        else entries (i + 1) rest := rfl

/-- Without their indices the entries are the significant tokens. -/
theorem map_snd_entries (i : Nat) (tokens : List Token) :
    (entries i tokens).map Prod.snd = significant tokens := by
  induction tokens generalizing i with
  | nil => rfl
  | cons t rest ih =>
      rw [entries_cons, significant]
      by_cases ht : t.isSignificant = true
      · rw [if_pos ht, List.filter_cons_of_pos ht, List.map_cons, ih]
        rfl
      · rw [if_neg ht, List.filter_cons_of_neg ht, ih]
        rfl

/-- The indices of the entries are places in the list of tokens. -/
theorem bounds_of_mem_entries {i : Nat} {tokens : List Token} {p : Entry}
    (h : p ∈ entries i tokens) : i ≤ p.1 ∧ p.1 < i + tokens.length := by
  induction tokens generalizing i with
  | nil => cases h
  | cons t rest ih =>
      have hrest : p ∈ entries (i + 1) rest →
          i ≤ p.1 ∧ p.1 < i + (t :: rest).length := by
        intro hp
        have := ih hp
        simp only [List.length_cons]
        omega
      rw [entries_cons] at h
      by_cases ht : t.isSignificant = true
      · rw [if_pos ht] at h
        rcases List.mem_cons.mp h with rfl | hmem
        · simp
        · exact hrest hmem
      · rw [if_neg ht] at h
        exact hrest h

/-- Where the entries split at one of them, the tokens split there too. -/
theorem entries_eq_append_cons {i : Nat} {tokens : List Token} {p : Entry}
    {before after : List Entry} (h : entries i tokens = before ++ p :: after) :
    ∃ left right, tokens = left ++ p.2 :: right ∧ p.1 = i + left.length ∧
      entries i left = before ∧ entries (p.1 + 1) right = after := by
  induction tokens generalizing i before with
  | nil => exact absurd h (by simp [entries])
  | cons t rest ih =>
      rw [entries_cons] at h
      by_cases ht : t.isSignificant = true
      · rw [if_pos ht] at h
        cases before with
        | nil =>
            obtain ⟨rfl, rfl⟩ := List.cons.inj h
            exact ⟨[], rest, rfl, rfl, rfl, rfl⟩
        | cons q before =>
            obtain ⟨rfl, hrest⟩ := List.cons.inj h
            obtain ⟨left, right, rfl, hp, hleft, hright⟩ := ih hrest
            refine ⟨t :: left, right, rfl, ?_, ?_, hright⟩
            · rw [hp, List.length_cons]
              omega
            · rw [entries_cons, if_pos ht, hleft]
      · -- whitespace is no entry, so the split is further on
        rw [if_neg ht] at h
        obtain ⟨left, right, rfl, hp, hleft, hright⟩ := ih h
        refine ⟨t :: left, right, rfl, ?_, ?_, hright⟩
        · rw [hp, List.length_cons]
          omega
        · rw [entries_cons, if_neg ht, hleft]

/-- Tokens in two parts have their entries part by part, the indices of the
    second going on behind the first. -/
theorem entries_append (i : Nat) (ts us : List Token) :
    entries i (ts ++ us) = entries i ts ++ entries (i + ts.length) us := by
  induction ts generalizing i with
  | nil => rfl
  | cons t ts ih =>
      have hlength : i + 1 + ts.length = i + (t :: ts).length := by
        simp only [List.length_cons]
        omega
      rw [List.cons_append, entries_cons, entries_cons, ih, hlength]
      by_cases ht : t.isSignificant = true
      · rw [if_pos ht, if_pos ht]
        rfl
      · rw [if_neg ht, if_neg ht]

/-- A significant token is the entry of its index. -/
theorem mem_entries_iff {tokens : List Token} {i : Nat} {t : Token} :
    (i, t) ∈ entries 0 tokens ↔ tokens[i]? = some t ∧ t.isSignificant = true := by
  constructor
  · intro h
    obtain ⟨before, after, hsplit⟩ := List.append_of_mem h
    obtain ⟨left, right, rfl, hi, -, -⟩ := entries_eq_append_cons hsplit
    obtain rfl : i = left.length := by simpa using hi
    have hsignificant : t ∈ significant (left ++ t :: right) := by
      rw [← map_snd_entries 0]
      exact List.mem_map_of_mem h
    exact ⟨by simp, (List.mem_filter.mp hsignificant).2⟩
  · rintro ⟨ht, hsignificant⟩
    obtain ⟨hi, hget⟩ := List.getElem?_eq_some_iff.mp ht
    rw [← List.take_append_drop i tokens, entries_append, List.drop_eq_getElem_cons hi, hget,
      List.length_take_of_le (Nat.le_of_lt hi), Nat.zero_add, entries, if_pos hsignificant]
    exact List.mem_append_right _ List.mem_cons_self

/-- Indices grow along the list and stay below the number of tokens. -/
structure Indexed (count : Nat) (l : List Entry) : Prop where
  sorted : l.Pairwise fun p q => p.1 < q.1
  below : ∀ p ∈ l, p.1 < count

/-- The entries of the tokens are indexed by their places. -/
theorem indexed_entries (tokens : List Token) :
    Indexed tokens.length (entries 0 tokens) where
  sorted := by
    have hsorted : ∀ i, (entries i tokens).Pairwise fun p q => p.1 < q.1 := by
      induction tokens with
      | nil => intro i; exact List.Pairwise.nil
      | cons t rest ih =>
          intro i
          rw [entries_cons]
          by_cases ht : t.isSignificant = true
          · rw [if_pos ht]
            refine List.Pairwise.cons ?_ (ih (i + 1))
            intro q hq
            exact (bounds_of_mem_entries hq).1
          · rw [if_neg ht]
            exact ih (i + 1)
    exact hsorted 0
  below := by
    intro p hp
    have := bounds_of_mem_entries hp
    omega

namespace Indexed

variable {count : Nat} {p : Entry} {l l' : List Entry}

/-- The first part of indexed entries is indexed. -/
theorem left (h : Indexed count (l ++ l')) : Indexed count l :=
  ⟨(List.pairwise_append.mp h.sorted).1,
    fun p hp => h.below p (List.mem_append_left _ hp)⟩

theorem right (h : Indexed count (l ++ l')) : Indexed count l' :=
  ⟨(List.pairwise_append.mp h.sorted).2.1,
    fun p hp => h.below p (List.mem_append_right _ hp)⟩

/-- Indexed entries stay indexed without the first. -/
theorem tail (h : Indexed count (p :: l)) : Indexed count l :=
  ⟨(List.pairwise_cons.mp h.sorted).2,
    fun q hq => h.below q (List.mem_cons_of_mem _ hq)⟩

/-- An entry with entries behind it is not the last of all tokens. -/
theorem not_last {q : Entry} (h : Indexed count (p :: q :: l)) :
    (p.1 + 1 == count) = false := by
  have hlt : p.1 < q.1 := (List.pairwise_cons.mp h.sorted).1 q List.mem_cons_self
  have hbelow : q.1 < count := h.below q (List.mem_cons_of_mem _ List.mem_cons_self)
  exact beq_false_of_ne (by omega)

end Indexed

namespace Context

/-! ## Runs and reports -/

/-- The context behind the entries. -/
def run (s : Context) : List Entry → Context
  | [] => s
  | p :: l => (s.after p.1 p.2).run l

/-- The diagnostics of the entries, the tokens being `count` in number. -/
def reports (count : Nat) (s : Context) : List Entry → List Diagnostic
  | [] => []
  | p :: l =>
      (s.causes p.2 (p.1 + 1 == count)).map (⟨p.1, ·⟩)
        ++ reports count (s.after p.1 p.2) l

@[simp] theorem run_nil (s : Context) : s.run [] = s := rfl

@[simp] theorem run_cons (s : Context) (p : Entry) (l : List Entry) :
    s.run (p :: l) = (s.after p.1 p.2).run l := rfl

/-- Entries in two parts are run one part after the other. -/
@[simp] theorem run_append (s : Context) (l l' : List Entry) :
    s.run (l ++ l') = (s.run l).run l' := by
  induction l generalizing s with
  | nil => rfl
  | cons p l ih => exact ih (s.after p.1 p.2)

/-- The second part of the entries is reported on in the context that the
    first part leaves. -/
theorem reports_append (count : Nat) (s : Context) (l l' : List Entry) :
    s.reports count (l ++ l')
      = s.reports count l ++ (s.run l).reports count l' := by
  induction l generalizing s with
  | nil => rfl
  | cons p l ih =>
      rw [List.cons_append, reports, reports, ih, List.append_assoc]
      rfl

/-- The pass reports along its run, and what the run leaves open. -/
theorem diagnose_eq_reports (s : Context) (i : Nat) (found : List Diagnostic)
    (tokens : List Token) :
    s.diagnose i found tokens = found.reverse
      ++ (s.reports (i + tokens.length) (entries i tokens)
        ++ (s.run (entries i tokens)).unclosed) := by
  induction tokens generalizing s i found with
  | nil => rfl
  | cons t rest ih =>
      have hlen : i + 1 + rest.length = i + (t :: rest).length := by
        simp only [List.length_cons]
        omega
      rw [diagnose, entries_cons]
      by_cases ht : t.isSignificant = true
      · -- no token follows exactly where the index is the last
        have hlast : rest.isEmpty = (i + 1 == i + (t :: rest).length) := by
          cases rest with
          | nil => simp
          | cons u rest => simp
        rw [if_pos ht, if_pos ht, ih, hlen, reports, hlast]
        simp
      · rw [if_neg ht, if_neg ht, ih, hlen]

/-- Nothing is wrong with the entries in this context. -/
def Quiet (count : Nat) (s : Context) (l : List Entry) : Prop :=
  s.reports count l = []

theorem quiet_nil (count : Nat) (s : Context) : Quiet count s [] := rfl

/-- Nothing is wrong where the first entry is silent and nothing is wrong with
    the others behind it. -/
theorem quiet_cons {count : Nat} {s : Context} {p : Entry} {l : List Entry} :
    Quiet count s (p :: l) ↔
      s.causes p.2 (p.1 + 1 == count) = [] ∧ Quiet count (s.after p.1 p.2) l := by
  rw [Quiet, reports, List.append_eq_nil_iff, List.map_eq_nil_iff]
  rfl

/-- Nothing is wrong with two parts where nothing is wrong with either, the
    second in the context that the first leaves. -/
theorem quiet_append {count : Nat} {s : Context} {l l' : List Entry} :
    Quiet count s (l ++ l') ↔ Quiet count s l ∧ Quiet count (s.run l) l' := by
  rw [Quiet, reports_append, List.append_eq_nil_iff]
  rfl

end Context

/-- The diagnostics of a formula are the reports along the run from the empty
    context, and what that run leaves open. -/
theorem diagnose_eq_reports (tokens : List Token) :
    diagnose tokens
      = Context.reports tokens.length {} (entries 0 tokens)
        ++ (Context.run {} (entries 0 tokens)).unclosed := by
  rw [diagnose, Context.diagnose_eq_reports, Nat.zero_add]
  rfl

/-- A formula has no diagnostics where its run is quiet and leaves nothing
    open. -/
theorem diagnose_eq_nil_iff {tokens : List Token} :
    diagnose tokens = [] ↔
      Context.Quiet tokens.length {} (entries 0 tokens) ∧
        (Context.run {} (entries 0 tokens)).frames = [] := by
  rw [diagnose_eq_reports, List.append_eq_nil_iff, Context.unclosed,
    List.map_eq_nil_iff, List.reverse_eq_nil_iff]
  rfl

namespace Context

variable {s : Context} {t : Token}

/-! ## The context behind a token -/

@[simp] theorem isBehind_after (i : Nat) (k : Token.Kind) :
    (s.after i t).isBehind k = (t.kind == k) := rfl

theorem frames_after (i : Nat) : (s.after i t).frames = s.framesAfter i t := rfl

/-- A token that is neither a quote nor a bracket leaves the frames. -/
theorem framesAfter_of_kind (i : Nat) {k : Token.Kind} (ht : t.kind = k)
    (hk : k ≠ .startQuote ∧ k ≠ .endQuote ∧ k ≠ .bracket) :
    s.framesAfter i t = s.frames := by
  have hbracket : ∀ b, t.isBracket b = false :=
    fun b => Token.isBracket_of_kind b (ht ▸ hk.2.2)
  simp [framesAfter, ht, hk, hbracket]

/-- A start quote opens a quote. -/
theorem framesAfter_startQuote (i : Nat) (ht : t.kind = .startQuote) :
    s.framesAfter i t = ⟨.quote, i⟩ :: s.frames :=
  if_pos ht

/-- An end quote closes the quote it stands in. -/
theorem framesAfter_endQuote (i : Nat) (ht : t.kind = .endQuote)
    (hs : s.innermost = some .quote) : s.framesAfter i t = s.frames.tail := by
  simp [framesAfter, ht, hs]

/-- An opening parenthesis opens a call behind the name of a function and a
    group elsewhere. -/
theorem framesAfter_openParen (i : Nat) (ht : t.isBracket '(' = true) :
    s.framesAfter i t
      = ⟨if s.isBehind .functionName then .call else .group, i⟩ :: s.frames := by
  simp [framesAfter, ht, Token.kind_of_isBracket ht]

/-- A closing parenthesis closes the parentheses it stands in. -/
theorem framesAfter_closeParen (i : Nat) (ht : t.isBracket ')' = true)
    (hs : s.inParentheses = true) : s.framesAfter i t = s.frames.tail := by
  simp [framesAfter, ht, hs, Token.kind_of_isBracket ht,
    Token.isBracket_of_ne '(' ht (by decide)]

/-- An opening bracket opens a reference. -/
theorem framesAfter_openBracket (i : Nat) (ht : t.isBracket '[' = true) :
    s.framesAfter i t = ⟨.reference, i⟩ :: s.frames := by
  simp [framesAfter, ht, Token.kind_of_isBracket ht,
    Token.isBracket_of_ne '(' ht (by decide),
    Token.isBracket_of_ne ')' ht (by decide)]

/-- A closing bracket closes the reference it stands in. -/
theorem framesAfter_closeBracket (i : Nat) (ht : t.isBracket ']' = true)
    (hs : s.innermost = some .reference) : s.framesAfter i t = s.frames.tail := by
  simp [framesAfter, ht, hs, Token.kind_of_isBracket ht,
    Token.isBracket_of_ne '(' ht (by decide),
    Token.isBracket_of_ne ')' ht (by decide),
    Token.isBracket_of_ne '[' ht (by decide)]

/-! ## The innermost frame -/

/-- Calls and groups both count as parentheses. -/
theorem inParentheses_of_frames {i : Nat} {frames : List Frame} (call : Bool)
    (h : s.frames = ⟨if call = true then .call else .group, i⟩ :: frames) :
    s.inParentheses = true := by
  cases call <;> simp [inParentheses, innermost, h]

theorem innermost_of_frames {f : Frame} {frames : List Frame}
    (h : s.frames = f :: frames) : s.innermost = some f.kind := by
  simp [innermost, h]

/-- Right behind the parenthesis that opens a call, the call is empty. -/
theorem atEmptyCall_of_frames {i : Nat} {t : Token} {frames : List Frame}
    (h : s.frames = ⟨.call, i⟩ :: frames) (hprevious : s.previous = some (i, t)) :
    s.atEmptyCall = true := by
  simp [atEmptyCall, h, hprevious]

/-! ## Silent tokens -/

variable {last : Bool}

/-- A cause is reported exactly where its condition holds. -/
theorem reportIf_eq_nil {condition : Bool} {cause : Diagnostic.Cause} :
    reportIf condition cause = [] ↔ condition = false := by
  cases condition <;> simp [reportIf]

/-- An operator is silent behind a value, unless it is the last of all tokens.
    -/
theorem causes_operator (ht : t.kind = .operator) :
    s.causes t last = [] ↔ s.producesValue = true ∧ last = false := by
  simp [causes, ht, reportIf_eq_nil]

/-- A token that starts a value is silent where a value may start. -/
theorem causes_start (ht : t.kind = .functionName ∨ t.kind = .number ∨
    t.kind = .startQuote) : s.causes t last = [] ↔ s.allowsValue = true := by
  rcases ht with ht | ht | ht <;> simp [causes, ht, reportIf_eq_nil]

/-- A comma is silent behind a value in parentheses, those of a group
    included. -/
theorem causes_comma (ht : t.kind = .comma) :
    s.causes t last = [] ↔ s.inParentheses = true ∧ s.producesValue = true := by
  simp [causes, ht, reportIf_eq_nil]

/-- The tokens that only stand where the lexer puts them are always
    silent. -/
theorem causes_inner (ht : t.kind = .endQuote ∨ t.kind = .string ∨
    t.kind = .referenceName) : s.causes t last = [] := by
  rcases ht with ht | ht | ht <;> simp [causes, ht]

/-- An unknown name and an unknown character are never silent. -/
theorem causes_ne_nil (ht : t.kind = .unfinishedFormula ∨ t.kind = .error) :
    s.causes t last ≠ [] := by
  rcases ht with ht | ht <;> simp [causes, ht]

/-- An opening parenthesis is silent behind the name of a function and where a
    value may start. -/
theorem causes_openParen (ht : t.isBracket '(' = true) :
    s.causes t last = [] ↔
      s.isBehind .functionName = true ∨ s.allowsValue = true := by
  simp only [causes, Token.kind_of_isBracket ht, bracketCauses, if_pos ht,
    reportIf_eq_nil]
  cases s.isBehind .functionName <;> simp

/-- A closing parenthesis is silent in parentheses, behind a value or in an
    empty call. -/
theorem causes_closeParen (ht : t.isBracket ')' = true) :
    s.causes t last = [] ↔ s.inParentheses = true ∧
      (s.producesValue = true ∨ s.atEmptyCall = true) := by
  simp only [causes, Token.kind_of_isBracket ht, bracketCauses,
    Token.isBracket_of_ne '(' ht (by decide), Bool.false_eq_true, if_false,
    if_pos ht, reportIf_eq_nil]
  cases s.inParentheses <;> cases s.producesValue <;> simp

/-- An opening bracket is silent where a value may start. -/
theorem causes_openBracket (ht : t.isBracket '[' = true) :
    s.causes t last = [] ↔ s.allowsValue = true := by
  simp [causes, Token.kind_of_isBracket ht, bracketCauses, ht,
    Token.isBracket_of_ne '(' ht (by decide),
    Token.isBracket_of_ne ')' ht (by decide), reportIf_eq_nil]

/-- A closing bracket is silent behind a name in the brackets of a reference.
    -/
theorem causes_closeBracket (ht : t.isBracket ']' = true) :
    s.causes t last = [] ↔
      s.innermost = some .reference ∧ s.isBehind .referenceName = true := by
  simp only [causes, Token.kind_of_isBracket ht, bracketCauses,
    Token.isBracket_of_ne '(' ht (by decide),
    Token.isBracket_of_ne ')' ht (by decide),
    Token.isBracket_of_ne '[' ht (by decide), Bool.false_eq_true, if_false, if_pos ht]
  by_cases hs : s.innermost = some .reference
  · simp [hs, reportIf_eq_nil]
  · simp [hs]

end Context

end FormulaBar
