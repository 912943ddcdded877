import FormulaBar.Proofs.Marking
import Mathlib.Data.List.Induction

/-! # Pairing — what is open and what closes it

    The frames of the pass are openers that wait for their closers.  A
    closer of the same kind as the innermost frame takes it off, and so the
    two are partners; any other closer is passed over and leaves all frames
    as they are, and so does a token that opens nothing.  This is all that
    a token can do to the frames, and the run of the pass makes a list of
    pairs of it.

    What is open behind some tokens can then be told from the tokens and
    the pairs: it is the openers that are in no pair, the latest first. -/

namespace FormulaBar

/-! ## What opens and what closes -/

namespace Token

variable {t : Token} {c : Char} {quote : Kind} {paren bracket : Char}

/-- The closing character of the pair of which the token is one end, where a
    token of the class `quote` or one of the two brackets is that end. -/
def delimits? (quote : Kind) (paren bracket : Char) (t : Token) : Option Char :=
  if t.kind = quote then some '"'
  else if t.isBracket paren then some ')'
  else if t.isBracket bracket then some ']'
  else none

/-- The character that closes what the token opens. -/
def opens? (t : Token) : Option Char :=
  t.delimits? .startQuote '(' '['

/-- The character with which the token closes something. -/
def closes? (t : Token) : Option Char :=
  t.delimits? .endQuote ')' ']'

/-- The closing character of an end: a quote for its class, else the closer of
    the bracket that the token is. -/
theorem delimits?_eq_some_iff (hquote : quote ≠ .bracket) (hne : paren ≠ bracket) :
    t.delimits? quote paren bracket = some c ↔
      t.kind = quote ∧ c = '"' ∨ t.isBracket paren = true ∧ c = ')' ∨
        t.isBracket bracket = true ∧ c = ']' := by
  rw [delimits?]
  by_cases hkind : t.kind = quote
  · have hnot : ∀ b, t.isBracket b = false :=
      fun b => isBracket_of_kind b (by rw [hkind]; exact hquote)
    simp [hkind, hnot, @eq_comm Char c]
  by_cases hparen : t.isBracket paren = true
  · simp [hkind, hparen, isBracket_of_ne bracket hparen hne, @eq_comm Char c]
  · simp [hkind, hparen, @eq_comm Char c]

/-- A start quote, an opening parenthesis and an opening bracket open
    something, and nothing else does. -/
theorem opens?_eq_some_iff :
    t.opens? = some c ↔ t.kind = .startQuote ∧ c = '"' ∨ t.isBracket '(' = true ∧ c = ')' ∨
      t.isBracket '[' = true ∧ c = ']' :=
  delimits?_eq_some_iff (by decide) (by decide)

/-- An end quote, a closing parenthesis and a closing bracket close something,
    and nothing else does. -/
theorem closes?_eq_some_iff :
    t.closes? = some c ↔ t.kind = .endQuote ∧ c = '"' ∨ t.isBracket ')' = true ∧ c = ')' ∨
      t.isBracket ']' = true ∧ c = ']' :=
  delimits?_eq_some_iff (by decide) (by decide)

/-- The ends of pairs are significant. -/
theorem isSignificant_of_delimits (hquote : quote ≠ .whitespace)
    (h : t.delimits? quote paren bracket = some c) : t.isSignificant = true := by
  refine bne_iff_ne.mpr fun hspace => ?_
  rw [delimits?, hspace, if_neg hquote.symm] at h
  simp [isBracket_of_kind (t := t) _ (by rw [hspace]; decide)] at h

/-- What opens does not close. -/
theorem closes?_of_opens (h : t.opens? = some c) : t.closes? = none := by
  rcases opens?_eq_some_iff.mp h with ⟨ht, -⟩ | ⟨ht, -⟩ | ⟨ht, -⟩
  · have hnot : ∀ b, t.isBracket b = false :=
      fun b => isBracket_of_kind b (by rw [ht]; decide)
    simp [closes?, delimits?, ht, hnot]
  · simp [closes?, delimits?, kind_of_isBracket ht, isBracket_of_ne ')' ht (by decide),
      isBracket_of_ne ']' ht (by decide)]
  · simp [closes?, delimits?, kind_of_isBracket ht, isBracket_of_ne ')' ht (by decide),
      isBracket_of_ne ']' ht (by decide)]

end Token

/-! ## What a token does to the frames -/

theorem Frame.Kind.closer_eq_quote_iff {k : Frame.Kind} : k.closer = '"' ↔ k = .quote := by
  cases k <;> decide

/-- Groups and calls are closed by a parenthesis, and nothing else is. -/
theorem Frame.Kind.closer_eq_paren_iff {k : Frame.Kind} :
    k.closer = ')' ↔ k = .group ∨ k = .call := by
  cases k <;> decide

theorem Frame.Kind.closer_eq_bracket_iff {k : Frame.Kind} :
    k.closer = ']' ↔ k = .reference := by
  cases k <;> decide

namespace Context

variable {s : Context} {t : Token} {c : Char} {i j : Nat}

/-- The tokens that opened the frames, each with what closes it, the latest
    first. -/
def opened (s : Context) : List (Nat × Char) :=
  s.frames.map fun f => (f.opener, f.kind.closer)

/-- The token that opened the innermost frame, if the token `t` closes it. -/
def partner? (s : Context) (t : Token) : Option Nat :=
  (s.opened.head?.filter fun o => t.closes? == some o.2).map Prod.fst

/-- The partner of a closer is the latest that is open, if it is closed by
    that. -/
theorem partner?_eq_some_iff :
    s.partner? t = some i ↔ ∃ c os, s.opened = (i, c) :: os ∧ t.closes? = some c := by
  simp only [partner?, Option.map_eq_some_iff, Option.filter_eq_some_iff, beq_iff_eq,
    List.head?_eq_some_iff]
  constructor
  · rintro ⟨⟨i, c⟩, ⟨⟨os, hos⟩, hcloses⟩, rfl⟩
    exact ⟨c, os, hos, hcloses⟩
  · rintro ⟨c, os, hos, hcloses⟩
    exact ⟨(i, c), ⟨⟨os, hos⟩, hcloses⟩, rfl⟩

/-- What opens something has no partner behind it. -/
theorem partner?_of_opens (h : t.opens? = some c) : s.partner? t = none := by
  refine Option.eq_none_iff_forall_ne_some.mpr fun j hj => ?_
  obtain ⟨d, os, -, hcloses⟩ := partner?_eq_some_iff.mp hj
  cases (Token.closes?_of_opens h).symm.trans hcloses

/-- A closer without a partner is not the one that the innermost frame waits
    for. -/
theorem closer_ne_of_partner (h : s.partner? t = none) (hcloses : t.closes? = some c)
    {k : Frame.Kind} (hinner : s.innermost = some k) : k.closer ≠ c := by
  rintro rfl
  obtain ⟨f, hf, rfl⟩ := Option.map_eq_some_iff.mp hinner
  obtain ⟨fs, hfs⟩ := List.head?_eq_some_iff.mp hf
  have hopened : s.opened = (f.opener, f.kind.closer) :: fs.map _ :=
    (congrArg (List.map _) hfs).trans List.map_cons
  cases h.symm.trans (partner?_eq_some_iff.mpr ⟨_, _, hopened, hcloses⟩)

/-- A token that opens something is put on what is open. -/
theorem opened_after_of_opens (i : Nat) (h : t.opens? = some c) :
    (s.after i t).opened = (i, c) :: s.opened := by
  rw [opened, frames_after]
  rcases Token.opens?_eq_some_iff.mp h with ⟨ht, rfl⟩ | ⟨ht, rfl⟩ | ⟨ht, rfl⟩
  · rw [framesAfter_startQuote i ht]
    rfl
  · rw [framesAfter_openParen i ht]
    cases s.isBehind .functionName <;> rfl
  · rw [framesAfter_openBracket i ht]
    rfl

/-- A token with a partner takes it off. -/
theorem opened_after_of_partner (i : Nat) (h : s.partner? t = some j) :
    (s.after i t).opened = s.opened.tail := by
  obtain ⟨c, os, hos, hcloses⟩ := partner?_eq_some_iff.mp h
  obtain ⟨f, fs, hfs, heq, -⟩ := List.map_eq_cons_iff.mp hos
  obtain ⟨-, rfl⟩ := Prod.mk.inj heq
  have hinner : s.innermost = some f.kind := innermost_of_frames hfs
  have hframes : s.framesAfter i t = s.frames.tail := by
    rcases Token.closes?_eq_some_iff.mp hcloses with ⟨ht, hk⟩ | ⟨ht, hk⟩ | ⟨ht, hk⟩
    · rw [Frame.Kind.closer_eq_quote_iff.mp hk] at hinner
      exact framesAfter_endQuote i ht hinner
    · refine framesAfter_closeParen i ht ?_
      rcases Frame.Kind.closer_eq_paren_iff.mp hk with hk | hk <;>
        · rw [inParentheses, hinner, hk]
          rfl
    · rw [Frame.Kind.closer_eq_bracket_iff.mp hk] at hinner
      exact framesAfter_closeBracket i ht hinner
  rw [opened, frames_after, hframes, List.map_tail]
  rfl

/-- A closing parenthesis without a partner is not in parentheses. -/
theorem inParentheses_of_partner (ht : t.isBracket ')' = true) (h : s.partner? t = none) :
    s.inParentheses = false := by
  have hcloses := Token.closes?_eq_some_iff.mpr (Or.inr (Or.inl ⟨ht, rfl⟩))
  refine Bool.eq_false_iff.mpr fun hin => ?_
  simp only [inParentheses, Bool.or_eq_true, beq_iff_eq] at hin
  rcases hin with hin | hin
  · exact closer_ne_of_partner h hcloses hin rfl
  · exact closer_ne_of_partner h hcloses hin rfl

/-- A closing bracket without a partner is not in a reference. -/
theorem innermost_of_partner (ht : t.isBracket ']' = true) (h : s.partner? t = none) :
    s.innermost ≠ some .reference :=
  fun hin => closer_ne_of_partner h
    (Token.closes?_eq_some_iff.mpr (Or.inr (Or.inr ⟨ht, rfl⟩))) hin rfl

/-- Any other token leaves what is open. -/
theorem opened_after_of_neither (i : Nat) (hopens : t.opens? = none)
    (hpartner : s.partner? t = none) : (s.after i t).opened = s.opened := by
  have hnone : ∀ {c}, t.opens? = some c → False := fun h => by cases hopens.symm.trans h
  rw [opened, frames_after, framesAfter,
    if_neg fun ht => hnone (Token.opens?_eq_some_iff.mpr (Or.inl ⟨ht, rfl⟩)),
    if_neg fun ht => hnone (Token.opens?_eq_some_iff.mpr (Or.inr (Or.inl ⟨ht, rfl⟩))),
    if_neg fun ht => hnone (Token.opens?_eq_some_iff.mpr (Or.inr (Or.inr ⟨ht, rfl⟩)))]
  split
  · next ht =>
    have hcloses := Token.closes?_eq_some_iff.mpr (Or.inl ⟨ht, rfl⟩)
    rw [if_neg fun hinner => closer_ne_of_partner hpartner hcloses hinner rfl]
    rfl
  split
  · next ht =>
    rw [inParentheses_of_partner ht hpartner]
    rfl
  split
  · next ht =>
    rw [if_neg (innermost_of_partner ht hpartner)]
    rfl
  · rfl

end Context

/-! ## Openers and pairs -/

/-- The entries that open something, each with what closes it. -/
def openers (l : List Entry) : List (Nat × Char) :=
  l.filterMap fun p => p.2.opens?.map (p.1, ·)

section

variable {count : Nat} {l l' : List Entry} {i j : Nat} {c : Char}

theorem openers_append (l l' : List Entry) : openers (l ++ l') = openers l ++ openers l' :=
  List.filterMap_append

/-- The openers are the entries that open something. -/
theorem mem_openers : (i, c) ∈ openers l ↔ ∃ t, (i, t) ∈ l ∧ t.opens? = some c := by
  simp only [openers, List.mem_filterMap, Option.map_eq_some_iff, Prod.mk.injEq]
  constructor
  · rintro ⟨⟨k, t⟩, hmem, d, hopens, rfl, rfl⟩
    exact ⟨t, hmem, hopens⟩
  · rintro ⟨t, hmem, hopens⟩
    exact ⟨(i, t), hmem, c, hopens, rfl, rfl⟩

/-- The openers come in the order of their indices. -/
theorem sorted_openers (h : Indexed count l) :
    (openers l).Pairwise fun o o' => o.1 < o'.1 := by
  refine List.pairwise_filterMap.mpr (h.sorted.imp fun {p q} hlt o ho o' ho' => ?_)
  obtain ⟨c, -, rfl⟩ := Option.map_eq_some_iff.mp ho
  obtain ⟨c', -, rfl⟩ := Option.map_eq_some_iff.mp ho'
  exact hlt

/-- The openers that are in none of the pairs. -/
def unpaired (pairs : List (Nat × Nat)) (openers : List (Nat × Char)) : List (Nat × Char) :=
  openers.filter fun o => o.1 ∉ pairs.map Prod.fst

theorem mem_unpaired {pairs : List (Nat × Nat)} {openers : List (Nat × Char)} :
    (i, c) ∈ unpaired pairs openers ↔ (i, c) ∈ openers ∧ ∀ j, (i, j) ∉ pairs := by
  simp [unpaired]

/-- The unpaired openers, the latest first, come by falling indices. -/
theorem reverse_unpaired_sorted (h : Indexed count l) (pairs : List (Nat × Nat)) :
    (unpaired pairs (openers l)).reverse.Pairwise fun o o' => o'.1 < o.1 :=
  List.pairwise_reverse.mpr ((sorted_openers h).filter _)

end

section

variable {pairs : List (Nat × Nat)} {openers os : List (Nat × Char)} {o : Nat × Char}

/-- An opener that comes later has no partner yet. -/
theorem unpaired_concat (hnew : o.1 ∉ pairs.map Prod.fst) :
    unpaired pairs (openers ++ [o]) = unpaired pairs openers ++ [o] := by
  rw [unpaired, unpaired, List.filter_append, List.filter_cons_of_pos (by simpa using hnew),
    List.filter_nil]

/-- Further pairs leave fewer openers without a partner. -/
theorem unpaired_append (pairs pairs' : List (Nat × Nat)) (openers : List (Nat × Char)) :
    unpaired (pairs ++ pairs') openers
      = (unpaired pairs openers).filter fun o => o.1 ∉ pairs'.map Prod.fst := by
  rw [unpaired, unpaired, List.filter_filter]
  refine List.filter_congr fun o _ => ?_
  rw [List.map_append, ← Bool.decide_and]
  exact decide_eq_decide.mpr (by rw [List.mem_append, not_or, and_comm])

/-- A pair with the latest opener leaves all others. -/
theorem reverse_unpaired_concat (j : Nat) (h : (unpaired pairs openers).reverse = o :: os)
    (hsorted : (unpaired pairs openers).reverse.Pairwise fun o o' => o'.1 < o.1) :
    (unpaired (pairs ++ [(o.1, j)]) openers).reverse = os := by
  rw [h] at hsorted
  have hbelow := (List.pairwise_cons.mp hsorted).1
  rw [unpaired_append, ← List.filter_reverse, h, List.filter_cons_of_neg (by simp),
    List.filter_eq_self.mpr]
  intro o' ho'
  simpa using Nat.ne_of_lt (hbelow o' ho')

end

namespace Context

variable {s : Context} {count : Nat} {l l' : List Entry} {i j : Nat}

/-- The pairs that the closing ones among the entries make, each with the
    opener first. -/
def pairs (s : Context) : List Entry → List (Nat × Nat)
  | [] => []
  | p :: l => ((s.partner? p.2).map (·, p.1)).toList ++ (s.after p.1 p.2).pairs l

/-- The second part of the entries makes its pairs in the context that the
    first leaves. -/
theorem pairs_append (s : Context) (l l' : List Entry) :
    s.pairs (l ++ l') = s.pairs l ++ (s.run l).pairs l' := by
  induction l generalizing s with
  | nil => rfl
  | cons p l ih =>
      rw [List.cons_append, pairs, pairs, ih, List.append_assoc]
      rfl

theorem pairs_singleton (s : Context) (p : Entry) :
    s.pairs [p] = ((s.partner? p.2).map (·, p.1)).toList := List.append_nil _

/-- A pair is made where its closer takes off the frame of its opener. -/
theorem mem_pairs : (i, j) ∈ s.pairs l ↔
    ∃ before t after, l = before ++ (j, t) :: after ∧ (s.run before).partner? t = some i := by
  induction l generalizing s with
  | nil => simp [pairs]
  | cons p l ih =>
      rw [pairs, List.mem_append, ih]
      constructor
      · rintro (hmem | ⟨before, t, after, rfl, hpartner⟩)
        · obtain ⟨i, hpartner, heq⟩ := Option.map_eq_some_iff.mp (Option.mem_toList.mp hmem)
          obtain ⟨rfl, rfl⟩ := Prod.mk.inj heq
          exact ⟨[], p.2, l, rfl, hpartner⟩
        · exact ⟨p :: before, t, after, rfl, hpartner⟩
      · rintro ⟨before, t, after, hsplit, hpartner⟩
        cases before with
        | nil =>
            obtain ⟨rfl, rfl⟩ := List.cons.inj hsplit
            exact Or.inl (Option.mem_toList.mpr (Option.map_eq_some_iff.mpr ⟨i, hpartner, rfl⟩))
        | cons q before =>
            obtain ⟨rfl, rfl⟩ := List.cons.inj hsplit
            exact Or.inr ⟨before, t, after, rfl, hpartner⟩

/-- The partner of a token is in front of it. -/
theorem exists_entry_of_pair (h : (i, j) ∈ pairs {} l) : ∃ p ∈ l, i = p.1 := by
  obtain ⟨before, t, after, rfl, hpartner⟩ := mem_pairs.mp h
  obtain ⟨c, os, hos, -⟩ := partner?_eq_some_iff.mp hpartner
  obtain ⟨f, fs, hfs, heq, -⟩ := List.map_eq_cons_iff.mp hos
  obtain ⟨rfl, -⟩ := Prod.mk.inj heq
  rcases exists_entry_of_frame (hfs ▸ List.mem_cons_self) with hnil | ⟨p, hp, hopener⟩
  · cases hnil
  · exact ⟨p, List.mem_append_left _ hp, hopener⟩

/-- **WHAT IS OPEN HAS NO PARTNER**: behind any entries, just those openers
    among them that are in no pair are open, the latest first. -/
theorem opened_run (h : Indexed count l) :
    (run {} l).opened = (unpaired (pairs {} l) (openers l)).reverse := by
  induction l using List.reverseRecOn with
  | nil => rfl
  | append_singleton l p ih =>
      have hl := ih h.left
      rw [run_append, run_cons, run_nil, pairs_append, pairs_singleton, openers_append]
      cases hopens : p.2.opens? with
      | some c =>
          -- a new opener is in no pair yet
          have hnew : p.1 ∉ (pairs {} l).map Prod.fst := by
            intro hmem
            obtain ⟨⟨i, j⟩, hpair, rfl⟩ := List.mem_map.mp hmem
            obtain ⟨q, hq, heq⟩ := exists_entry_of_pair hpair
            have hlt := (List.pairwise_append.mp h.sorted).2.2 q hq p List.mem_cons_self
            exact absurd heq (Nat.ne_of_gt hlt)
          have hopener : openers [p] = [(p.1, c)] := by simp [openers, hopens]
          rw [opened_after_of_opens p.1 hopens, partner?_of_opens hopens, Option.map_none,
            Option.toList_none, List.append_nil, hopener, unpaired_concat hnew,
            List.reverse_concat, hl]
      | none =>
          have hopener : openers [p] = [] := by simp [openers, hopens]
          rw [hopener, List.append_nil]
          cases hpartner : (run {} l).partner? p.2 with
          | none =>
              rw [opened_after_of_neither p.1 hopens hpartner, Option.map_none,
                Option.toList_none, List.append_nil, hl]
          | some j =>
              -- the closer takes the latest opener without a partner
              obtain ⟨c, os, hos, -⟩ := partner?_eq_some_iff.mp hpartner
              have hlatest := hl.symm.trans hos
              have hsorted := reverse_unpaired_sorted h.left (pairs {} l)
              rw [opened_after_of_partner p.1 hpartner, hos]
              exact (reverse_unpaired_concat p.1 hlatest hsorted).symm

end Context

end FormulaBar
