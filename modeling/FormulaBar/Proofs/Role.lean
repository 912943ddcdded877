import FormulaBar.Proofs.Adjacency
import FormulaBar.Proofs.Diagnosis

/-! # Roles — what a silent token may be

    The latest significant token has one role for what comes next: a value
    may start behind it, a value has ended with it, or it stands inside of a
    call, a text or a reference and admits one or two tokens only.  A token
    that fits and is silent is settled by the role in front of it, so the
    readers of the parser meet few cases.

    A place in a formula without diagnostics is a context together with the
    significant tokens that are left.  What is known there is handed on from
    each place to the next. -/

namespace FormulaBar

/-! ## Roles -/

/-- What a significant token is for the one behind it. -/
inductive Role where
  /-- A value may start. -/
  | start
  /-- A value has ended. -/
  | value
  /-- A function name, in front of its parenthesis. -/
  | name
  /-- A start quote. -/
  | quote
  /-- The string between quotes. -/
  | text
  /-- The bracket that opens a reference. -/
  | bracket
  /-- A reference name, in front of its bracket. -/
  | reference
  /-- What is never silent. -/
  | other
deriving DecidableEq

/-- The role of the tokens of a class other than brackets. -/
def Token.Kind.role : Token.Kind → Role
  | .operator | .comma => .start
  | .number | .endQuote => .value
  | .functionName => .name
  | .startQuote => .quote
  | .string => .text
  | .referenceName => .reference
  | .bracket | .whitespace | .unfinishedFormula | .error => .other

/-- The role of a token: a closing bracket ends a value, an opening
    parenthesis starts one. -/
def Token.role (t : Token) : Role :=
  if t.isBracket '(' then .start
  else if t.isBracket '[' then .bracket
  else if t.kind = .bracket then .value
  else t.kind.role

namespace Token

variable {t : Token}

/-- All tokens of a class other than brackets have its role. -/
theorem role_of_kind {k : Kind} (h : t.kind = k) (hk : k ≠ .bracket) :
    t.role = k.role := by
  subst h
  simp [role, isBracket_of_kind _ hk, hk]

theorem role_of_openParen (h : t.isBracket '(' = true) : t.role = .start :=
  if_pos h

theorem role_of_openBracket (h : t.isBracket '[' = true) : t.role = .bracket := by
  simp [role, h, isBracket_of_ne '(' h (by decide)]

/-- A closing bracket ends a value. -/
theorem role_of_closer {b : Char} (h : t.isBracket b = true)
    (hb : b ≠ '(' ∧ b ≠ '[') : t.role = .value := by
  simp [role, kind_of_isBracket h, isBracket_of_ne '(' h hb.1, isBracket_of_ne '[' h hb.2]

/-- Where a value may start, that is the role. -/
theorem role_of_allowsValue (h : t.allowsValue = true) : t.role = .start := by
  simp only [allowsValue, Bool.or_eq_true, beq_iff_eq] at h
  rcases h with (h | h) | h
  · exact role_of_kind h (by decide)
  · exact role_of_kind h (by decide)
  · exact role_of_openParen h

/-- Where a value has ended, that is the role. -/
theorem role_of_producesValue (h : t.producesValue = true) : t.role = .value := by
  simp only [producesValue, Bool.or_eq_true, beq_iff_eq] at h
  rcases h with ((h | h) | h) | h
  · exact role_of_kind h (by decide)
  · exact role_of_kind h (by decide)
  · exact role_of_closer h (by decide)
  · exact role_of_closer h (by decide)

end Token

namespace Context

variable {s : Context}

/-- The latest token, without its index. -/
def latest (s : Context) : Option Token :=
  s.previous.map Prod.snd

@[simp] theorem latest_after (i : Nat) (t : Token) : (s.after i t).latest = some t := rfl

/-- The role of the latest token; a value may start a formula. -/
def role (s : Context) : Role :=
  (s.latest.map Token.role).getD .start

@[simp] theorem role_after (i : Nat) (t : Token) : (s.after i t).role = t.role := rfl

/-- The role of a context is the role of its latest token. -/
theorem role_of_latest {t : Token} (h : s.latest = some t) : s.role = t.role := by
  rw [role, h]
  rfl

theorem role_of_allowsValue (h : s.allowsValue = true) : s.role = .start := by
  cases hp : s.previous with
  | none => rw [role, latest, hp]; rfl
  | some p =>
      rw [allowsValue, hp] at h
      rw [role_of_latest (t := p.2) (by rw [latest, hp]; rfl)]
      exact Token.role_of_allowsValue h

theorem role_of_producesValue (h : s.producesValue = true) : s.role = .value := by
  obtain ⟨p, hp, hvalue⟩ := (Option.any_eq_true _ _).mp h
  rw [role_of_latest (t := p.2) (by rw [latest, hp]; rfl)]
  exact Token.role_of_producesValue hvalue

/-- A latest token other than a bracket settles the role by its class. -/
theorem role_of_latestKind {k : Token.Kind} (h : s.latest.map (·.kind) = some k)
    (hk : k ≠ .bracket) : s.role = k.role := by
  obtain ⟨t, ht, hkind⟩ := Option.map_eq_some_iff.mp h
  rw [role_of_latest ht]
  exact Token.role_of_kind hkind hk

/-- A place behind a token other than a bracket has the role of its class. -/
theorem role_of_isBehind {k : Token.Kind} (h : s.isBehind k = true) (hk : k ≠ .bracket) :
    s.role = k.role := by
  obtain ⟨p, hp, hkind⟩ := (Option.any_eq_true _ _).mp h
  rw [role_of_latest (t := p.2) (by rw [latest, hp]; rfl)]
  exact Token.role_of_kind (beq_iff_eq.mp hkind) hk

/-- The latest token behind a run is the last one of the run, if any. -/
theorem latest_run (s : Context) (l : List Entry) :
    (s.run l).latest = (l.map Prod.snd).getLast?.or s.latest := by
  induction l generalizing s with
  | nil => rfl
  | cons p l ih =>
      rw [run_cons, ih, latest_after, List.map_cons, List.getLast?_cons]
      cases (l.map Prod.snd).getLast? with
      | none => rfl
      | some t => rfl

/-! ## Silent tokens by role -/

/-- What a silent token that fits can be in a context, by the role in front
    of it. -/
inductive Silent (s : Context) (t : Token) : Role → Prop where
  | start (ht : Grammar.startsOperand t = true) : Silent s t .start
  /-- The parenthesis that closes an empty call. -/
  | closeEmpty (ht : t.isBracket ')' = true) (hempty : s.atEmptyCall = true) :
      Silent s t .start
  | operator (ht : t.kind = .operator) : Silent s t .value
  | comma (ht : t.kind = .comma) (hin : s.inParentheses = true) : Silent s t .value
  | closeParen (ht : t.isBracket ')' = true) (hin : s.inParentheses = true) :
      Silent s t .value
  | call (ht : t.isBracket '(' = true) (hs : s.isBehind .functionName = true) :
      Silent s t .name
  | string (ht : t.kind = .string) : Silent s t .quote
  | emptyText (ht : t.kind = .endQuote) : Silent s t .quote
  | endQuote (ht : t.kind = .endQuote) : Silent s t .text
  | referenceName (ht : t.kind = .referenceName) : Silent s t .bracket
  | closeBracket (ht : t.isBracket ']' = true)
      (hin : s.innermost = some .reference) : Silent s t .reference

/-- A token that starts an operand is what the role of its place says, where a
    value may start. -/
theorem silent_start {t : Token} (ht : Grammar.startsOperand t = true)
    (hs : s.allowsValue = true) : Silent s t s.role := by
  rw [role_of_allowsValue hs]
  exact .start ht

/-- A silent bracket is admitted by the role in front of it. -/
theorem silent_of_bracket {b : Char} {t : Token} {last : Bool} (hb : b ∈ bracketChars)
    (ht : t.isBracket b = true) (h : s.causes t last = [])
    (hopened : s.atEmptyCall = true → s.role = .start) : Silent s t s.role := by
  have hcases : b = '(' ∨ b = ')' ∨ b = '[' ∨ b = ']' := by
    simpa [bracketChars] using hb
  rcases hcases with rfl | rfl | rfl | rfl
  · rcases (causes_openParen ht).mp h with hs | hs
    · rw [role_of_isBehind hs (by decide)]
      exact .call ht hs
    · exact silent_start (by simp [Grammar.startsOperand, ht]) hs
  · obtain ⟨hin, hs | hs⟩ := (causes_closeParen ht).mp h
    · rw [role_of_producesValue hs]
      exact .closeParen ht hin
    · rw [hopened hs]
      exact .closeEmpty ht hs
  · exact silent_start (by simp [Grammar.startsOperand, ht])
      ((causes_openBracket ht).mp h)
  · obtain ⟨hin, hs⟩ := (causes_closeBracket ht).mp h
    rw [role_of_isBehind hs (by decide)]
    exact .closeBracket ht hin

/-- A silent token that fits is admitted by the role in front of it, where
    only a place at which a value may start is at an empty call. -/
theorem silent_of_causes {t : Token} {last : Bool} (hfits : Fits s.latest t)
    (h : s.causes t last = []) (hopened : s.atEmptyCall = true → s.role = .start) :
    Silent s t s.role := by
  -- what the token must find behind it settles the role there
  cases hkind : t.kind with
  | whitespace => exact absurd hfits.significant (by simp [Token.isSignificant, hkind])
  | number =>
      exact silent_start (by simp [Grammar.startsOperand, hkind])
        ((causes_start (Or.inr (Or.inl hkind))).mp h)
  | operator =>
      rw [role_of_producesValue ((causes_operator hkind).mp h).1]
      exact .operator hkind
  | startQuote =>
      exact silent_start (by simp [Grammar.startsOperand, hkind])
        ((causes_start (Or.inr (Or.inr hkind))).mp h)
  | endQuote =>
      rcases hfits.endQuote hkind with hs | hs
      · rw [role_of_latestKind hs (by decide)]
        exact .endQuote hkind
      · rw [role_of_latestKind hs (by decide)]
        exact .emptyText hkind
  | string =>
      rw [role_of_latestKind (hfits.string hkind) (by decide)]
      exact .string hkind
  | bracket =>
      obtain ⟨b, hb, ht⟩ := hfits.bracket hkind
      exact silent_of_bracket hb ht h hopened
  | comma =>
      obtain ⟨hin, hs⟩ := (causes_comma hkind).mp h
      rw [role_of_producesValue hs]
      exact .comma hkind hin
  | functionName =>
      exact silent_start (by simp [Grammar.startsOperand, hkind])
        ((causes_start (Or.inl hkind)).mp h)
  | referenceName =>
      obtain ⟨opener, hlatest, hopener⟩ :=
        (Option.any_eq_true _ _).mp (hfits.referenceName hkind)
      rw [role_of_latest hlatest, Token.role_of_openBracket hopener]
      exact .referenceName hkind
  | unfinishedFormula => exact absurd h (causes_ne_nil (Or.inl hkind))
  | error => exact absurd h (causes_ne_nil (Or.inr hkind))

/-! ## Places -/

/-- A place in a formula without diagnostics: what is left is silent and
    fits, closes all frames and does not end in a function name. -/
structure Site (count : Nat) (s : Context) (l : List Entry) : Prop where
  quiet : Quiet count s l
  closes : (s.run l).frames = []
  called : (s.run l).isBehind .functionName = false
  shaped : Shaped s.latest (l.map Prod.snd)
  indexed : Indexed count l
  /-- What is open was opened before what is left. -/
  ordered : ∀ f ∈ s.frames, ∀ p ∈ l, f.opener < p.1
  opened : s.atEmptyCall = true → s.role = .start

/-- A token opens at most one frame, and a parenthesis alone opens a call. -/
theorem mem_framesAfter {i : Nat} {t : Token} {f : Frame} (h : f ∈ s.framesAfter i t) :
    f ∈ s.frames ∨ f.opener = i ∧ (f.kind = .call → t.isBracket '(' = true) := by
  have hpush : ∀ k, f ∈ ⟨k, i⟩ :: s.frames → (k = .call → t.isBracket '(' = true) →
      f ∈ s.frames ∨ f.opener = i ∧ (f.kind = .call → t.isBracket '(' = true) := by
    intro k hmem hk
    rcases List.mem_cons.mp hmem with rfl | hmem
    · exact Or.inr ⟨rfl, hk⟩
    · exact Or.inl hmem
  have hpop : ∀ c : Prop, [Decidable c] →
      f ∈ (if c then s.frames.tail else s.frames) → f ∈ s.frames := by
    intro c _ hmem
    by_cases hc : c
    · rw [if_pos hc] at hmem
      exact List.mem_of_mem_tail hmem
    · rw [if_neg hc] at hmem
      exact hmem
  -- each branch pushes one frame, pops one or leaves them
  rw [framesAfter] at h
  split at h
  · exact hpush _ h (by intro hk; cases hk)
  split at h
  · exact Or.inl (hpop _ h)
  split at h
  · next hparen => exact hpush _ h (fun _ => hparen)
  split at h
  · exact Or.inl (hpop _ h)
  split at h
  · exact hpush _ h (by intro hk; cases hk)
  split at h
  · exact Or.inl (hpop _ h)
  · exact Or.inl h

namespace Site

variable {count : Nat} {p : Entry} {l l' : List Entry}

/-- The first token left at a place is what its role admits. -/
theorem silent (h : Site count s (p :: l)) : Silent s p.2 s.role :=
  silent_of_causes h.shaped.1 (quiet_cons.mp h.quiet).1 h.opened

/-- Only the parenthesis that opens a call is right in front of its end. -/
theorem isBracket_of_atEmptyCall (h : Site count s (p :: l))
    (hempty : (s.after p.1 p.2).atEmptyCall = true) : p.2.isBracket '(' = true := by
  obtain ⟨f, hf, hcall⟩ := (Option.any_eq_true _ _).mp hempty
  simp only [Bool.and_eq_true, beq_iff_eq] at hcall
  obtain ⟨hkind, hopener⟩ := hcall
  rcases mem_framesAfter (List.mem_of_head? hf) with hmem | ⟨-, hparen⟩
  · -- an older frame was not opened by this token
    have hlt := h.ordered f hmem p List.mem_cons_self
    have heq : p.1 = f.opener := by simpa [after] using hopener
    omega
  · exact hparen hkind

/-- Behind the next token is a place again. -/
theorem next (h : Site count s (p :: l)) : Site count (s.after p.1 p.2) l where
  quiet := (quiet_cons.mp h.quiet).2
  closes := h.closes
  called := h.called
  shaped := h.shaped.2
  indexed := h.indexed.tail
  ordered := by
    intro f hf q hq
    have hlt : p.1 < q.1 := (List.pairwise_cons.mp h.indexed.sorted).1 q hq
    rcases mem_framesAfter hf with hmem | ⟨hopener, -⟩
    · exact h.ordered f hmem q (List.mem_cons_of_mem _ hq)
    · rw [hopener]
      exact hlt
  opened := fun hempty => Token.role_of_openParen (h.isBracket_of_atEmptyCall hempty)

/-- A place is handed on over any part of what is left. -/
theorem run (h : Site count s (l ++ l')) : Site count (s.run l) l' := by
  induction l generalizing s with
  | nil => exact h
  | cons p l ih => exact ih h.next

/-- At the end nothing is open. -/
theorem frames_of_nil (h : Site count s []) : s.frames = [] := h.closes

end Site

end Context

/-- The start of a formula without diagnostics is a place. -/
theorem site_of_tokenize {formula : String} {tokens : List Token}
    (h : tokenize formula = .ok tokens) (hd : diagnose tokens = []) :
    Context.Site tokens.length {} (entries 0 tokens) := by
  obtain ⟨hquiet, hcloses⟩ := diagnose_eq_nil_iff.mp hd
  obtain ⟨hshaped, hlast⟩ := shaped_of_tokenize h
  refine ⟨hquiet, hcloses, ?_, ?_, indexed_entries tokens, ?_, ?_⟩
  · have hlatest : (Context.run {} (entries 0 tokens)).latest
        = (significant tokens).getLast? := by
      rw [Context.latest_run, map_snd_entries]
      exact Option.or_none
    refine Bool.eq_false_iff.mpr fun hbehind => ?_
    obtain ⟨p, hp, hkind⟩ := (Option.any_eq_true _ _).mp hbehind
    rw [Context.latest, hp] at hlatest
    exact hlast p.2 hlatest.symm (beq_iff_eq.mp hkind)
  · rw [map_snd_entries]
    exact hshaped
  · intro f hf
    cases hf
  · intro hempty
    cases hempty

end FormulaBar
