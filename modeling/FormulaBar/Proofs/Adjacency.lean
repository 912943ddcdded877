import FormulaBar.Proofs.Classification
import FormulaBar.Proofs.Grammar

/-! # Adjacency — what the lexer lets stand together

    The tokens of a formula are no arbitrary sequence: a string has a start
    quote right in front of it, an end quote has a string or a start quote,
    and a reference name has an opening bracket.  A number is a literal, a
    bracket is one of the four, and a function name has a character behind
    it.  Each is settled by the rule that makes the token, and one step of
    the lexer hands them on. -/

namespace FormulaBar

/-- What the lexer grants of a significant token, given the significant
    token in front of it. -/
structure Fits (previous : Option Token) (t : Token) : Prop where
  significant : t.isSignificant = true
  literal : t.kind = .number → (readLiteral? t.text).isSome = true
  bracket : t.kind = .bracket → ∃ b ∈ bracketChars, t.isBracket b = true
  string : t.kind = .string → previous.map (·.kind) = some .startQuote
  endQuote : t.kind = .endQuote → previous.map (·.kind) = some .string ∨
    previous.map (·.kind) = some .startQuote
  referenceName : t.kind = .referenceName → previous.any (·.isBracket '[') = true

/-- Each of the significant tokens fits behind the one in front of it. -/
def Shaped (previous : Option Token) : List Token → Prop
  | [] => True
  | t :: rest => Fits previous t ∧ Shaped (some t) rest

/-- A last token fits behind the ones in front of it. -/
theorem shaped_concat {previous : Option Token} {l : List Token} {t : Token} :
    Shaped previous (l ++ [t]) ↔
      Shaped previous l ∧ Fits (l.getLast?.or previous) t := by
  induction l generalizing previous with
  | nil => simp [Shaped]
  | cons u l ih =>
      rw [List.cons_append, Shaped, Shaped, ih, and_assoc, List.getLast?_cons]
      cases l.getLast? with
      | none => rfl
      | some v => rfl

/-! ## Steps of a lexer -/

namespace Lexer

variable {classifier : Classifier} {l l' : Lexer}

/-- A step puts one token behind the others, as the classifier says. -/
theorem next?_eq_some (h : l.next? classifier = .ok (some l')) :
    ∃ t n, classifier l.cursor l.history = (t.kind, n) ∧
      t.text = String.ofList (l.cursor.rest.take n) ∧
      l'.cursor = l.cursor.advance n ∧ l'.history = t :: l.history := by
  rw [next?] at h
  split at h
  · cases h
  · simp only at h
    split at h
    · cases h
    · obtain rfl := Option.some.inj (Except.ok.inj h)
      exact ⟨_, _, rfl, rfl, rfl, rfl⟩

/-- The lexer has nothing to do at the end of the text only. -/
theorem isEnd_of_next? (h : l.next? classifier = .ok none) : l.cursor.isEnd = true := by
  rw [next?] at h
  split at h
  · next hend => exact hend
  · simp only at h
    split at h
    · cases h
    · cases Except.ok.inj h

/-- What every step keeps holds where a run comes to the end. -/
theorem run_keeps {P : Lexer → Prop}
    (hstep : ∀ l l', P l → l.next? classifier = .ok (some l') → P l') (hl : P l)
    {last : Lexer} (h : l.run classifier = (last, none)) :
    P last ∧ last.cursor.isEnd = true := by
  fun_induction run classifier l with
  | case1 l hnext =>
      obtain rfl := (Prod.mk.inj h).1
      exact ⟨hl, isEnd_of_next? hnext⟩
  | case2 l l' hnext _ ih => exact ih (hstep l l' hl hnext) h
  | case3 l stall hnext => cases (Prod.mk.inj h).2

/-- **A SCAN KEEPS WHAT ITS STEPS KEEP**: what holds of the lexer and is kept
    by each step holds where it ends. -/
theorem tokenize_keeps {P : Lexer → Prop}
    (hstep : ∀ l l', P l → l.next? classifier = .ok (some l') → P l') (hl : P l)
    {tokens : List Token} (h : l.tokenize classifier = .ok tokens) :
    ∃ last, P last ∧ last.cursor.isEnd = true ∧ last.tokens = tokens := by
  rw [tokenize] at h
  split at h
  · next last heq =>
      obtain ⟨hlast, hend⟩ := run_keeps hstep hl heq
      exact ⟨last, hlast, hend, Except.ok.inj h⟩
  · cases h

end Lexer

/-! ## The tokens of a formula -/

/-- The last significant token scanned is the previous one of the lexer. -/
theorem getLast?_significant (history : History) :
    (significant history.reverse).getLast? = history.previous? := by
  rw [significant, List.filter_reverse, List.getLast?_reverse, List.head?_filter]
  rfl

/-- What a pattern matches is the front of the text ahead. -/
theorem take_of_match? {cursor : Cursor} {p : Pattern} {text : List Char}
    (h : cursor.match? p = some text) : cursor.rest.take text.length = text := by
  obtain ⟨rfl, -⟩ := Cursor.match?_eq_some.mp h
  exact (List.prefix_iff_eq_take.mp (p.ahead_isPrefix cursor.rest)).symm

/-- The next character is the front of the text ahead. -/
theorem take_of_peek? {cursor : Cursor} {c : Char} (h : cursor.peek? = some c) :
    cursor.rest.take 1 = [c] := by
  obtain ⟨rest, hrest⟩ := List.head?_eq_some_iff.mp h
  rw [hrest]
  rfl

/-- A token that a rule makes fits. -/
theorem Rule.fits {cursor : Cursor} {history : History} {t : Token} {n : Nat}
    (h : Rule cursor history t.kind n) (ht : t.isSignificant = true)
    (htext : t.text = String.ofList (cursor.rest.take n)) :
    Fits history.previous? t := by
  refine ⟨ht, ?_, ?_, ?_, ?_, ?_⟩
  -- each of these classes is made by one rule alone
  · intro hkind
    rw [hkind] at h
    cases h with
    | number hc hmatch hminus =>
        rw [htext, take_of_match? hmatch]
        exact isSome_readLiteral? hmatch
  · intro hkind
    have hrule := h
    rw [hkind] at hrule
    cases hrule with
    | @bracket c hc hmem =>
        refine ⟨c, hmem, Token.isBracket_iff.mpr ⟨hkind, ?_⟩⟩
        rw [htext, String.toList_ofList, take_of_peek? hc.peek]
  · intro hkind
    rw [hkind] at h
    cases h with
    | string _ _ hbehind => exact hbehind
  · intro hkind
    rw [hkind] at h
    cases h with
    | endQuote _ hopen => exact hopen
  · intro hkind
    rw [hkind] at h
    cases h with
    | referenceName _ hopener _ => exact hopener

/-- What holds of a lexer at every place: its significant tokens fit, and a
    parenthesis is ahead of a function name. -/
structure Lexer.Scanned (l : Lexer) : Prop where
  shaped : Shaped none (significant l.tokens)
  called : l.history.latestKind? = some .functionName → l.cursor.peek? = some '('

/-- A step of the lexer keeps what is known of the tokens behind it. -/
theorem Lexer.Scanned.next {l l' : Lexer} (hl : l.Scanned)
    (h : l.next? classify = .ok (some l')) : l'.Scanned := by
  obtain ⟨t, n, hclassify, htext, hcursor, hhistory⟩ := next?_eq_some h
  have hrule : Rule l.cursor l.history t.kind n := by
    have hrule := rule_of_classify l.cursor l.history
    rw [hclassify] at hrule
    exact hrule
  have htokens : l'.tokens = l.tokens ++ [t] := by
    rw [tokens, hhistory, List.reverse_cons]
    rfl
  by_cases ht : t.isSignificant = true
  · -- the token is the latest significant one now
    have hprevious : l'.history.previous? = some t := by
      rw [hhistory]
      exact List.find?_cons_of_pos ht
    constructor
    · have hsplit : significant (l.tokens ++ [t]) = significant l.tokens ++ [t] := by
        rw [significant, List.filter_append, List.filter_cons_of_pos ht]
        rfl
      rw [htokens, hsplit, shaped_concat, tokens, getLast?_significant, Option.or_none]
      exact ⟨hl.shaped, hrule.fits ht htext⟩
    · intro hlatest
      rw [History.latestKind?, hprevious] at hlatest
      have hkind : t.kind = .functionName := Option.some.inj hlatest
      rw [hkind] at hrule
      rw [hcursor]
      cases hrule with
      | functionName _ _ hparen => exact hparen
  · -- whitespace leaves the latest significant token as it was
    have hkind : t.kind = .whitespace := by
      simpa [Token.isSignificant] using ht
    have hprevious : l'.history.previous? = l.history.previous? := by
      rw [hhistory]
      exact List.find?_cons_of_neg ht
    constructor
    · have hsplit : significant (l.tokens ++ [t]) = significant l.tokens := by
        rw [significant, List.filter_append, List.filter_cons_of_neg ht]
        exact List.append_nil _
      rw [htokens, hsplit]
      exact hl.shaped
    · -- a space stands ahead, where the function name promised a parenthesis
      intro hlatest
      rw [History.latestKind?, hprevious] at hlatest
      have hpeek := hl.called hlatest
      rw [hkind] at hrule
      cases hrule with
      | whitespace hc hbracket _ _ =>
          obtain rfl := Option.some.inj (hpeek.symm.trans hc.peek)
          exact absurd (by decide) hbracket

/-- **ADJACENT TOKENS FIT**: the significant tokens of a formula fit, and
    the last of them is no function name. -/
theorem shaped_of_tokenize {formula : String} {tokens : List Token}
    (h : tokenize formula = .ok tokens) :
    Shaped none (significant tokens) ∧
      ∀ t, (significant tokens).getLast? = some t → t.kind ≠ .functionName := by
  have hstart : (Lexer.ofString formula).Scanned := ⟨trivial, by intro h; cases h⟩
  obtain ⟨l, hl, hend, rfl⟩ :=
    Lexer.tokenize_keeps (fun _ _ hl hnext => hl.next hnext) hstart h
  refine ⟨hl.shaped, fun t ht hkind => ?_⟩
  rw [Lexer.tokens, getLast?_significant] at ht
  have hpeek := hl.called (by rw [History.latestKind?, ht, Option.map_some, hkind])
  -- the parenthesis that a function name promises is not ahead at the end
  rw [Cursor.peek?, List.isEmpty_iff.mp hend] at hpeek
  cases hpeek

end FormulaBar
