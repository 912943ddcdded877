import FormulaBar.Analysis
import FormulaBar.Proofs.Diagnosis
import FormulaBar.Proofs.Reading
import Mathlib.Data.List.TakeDrop

/-! # Silence — what has a tree has no diagnostics

    Along a derivation of the grammar the pass over the tokens reports
    nothing: a phrase that starts where a value may start is quiet, leaves
    the frames as they were and ends in a value.  The one exception is a
    text whose end quote is missing at the end of the formula: its frame
    stays open and is reported there. -/

namespace FormulaBar

namespace Context

variable {count : Nat} {s : Context} {l l' : List Entry}

/-- The entries are quiet and leave the frames as they were. -/
structure Balanced (count : Nat) (s : Context) (l : List Entry) : Prop where
  quiet : Quiet count s l
  frames : (s.run l).frames = s.frames

/-- Balanced entries behind which a value ends. -/
structure ReadsValue (count : Nat) (s : Context) (l : List Entry) : Prop
    extends Balanced count s l where
  value : (s.run l).producesValue = true

/-- Quiet entries that end in a text without an end quote; only the frame
    of that text is left open besides the earlier ones. -/
structure OpensText (count : Nat) (s : Context) (l : List Entry) : Prop where
  quiet : Quiet count s l
  text : ∃ before i quote body, l = before ++ (i, quote) :: body ∧
    quote.kind = .startQuote ∧
    (∃ text, Grammar.Body (body.map Prod.snd) text) ∧
    (s.run l).frames = ⟨.quote, i⟩ :: s.frames

/-- What a phrase of the grammar comes to; a text may stay open only where
    the phrase ends the whole sequence. -/
def Settles (final : Bool) (count : Nat) (s : Context) (l : List Entry) : Prop :=
  ReadsValue count s l ∨ (final = true ∧ OpensText count s l)

theorem balanced_nil : Balanced count s [] := ⟨rfl, rfl⟩

theorem Balanced.append (h : Balanced count s l) (h' : Balanced count (s.run l) l') :
    Balanced count s (l ++ l') where
  quiet := quiet_append.mpr ⟨h.quiet, h'.quiet⟩
  frames := by rw [run_append, h'.frames, h.frames]

/-- A value behind balanced entries is read with them. -/
theorem Balanced.readsValue (h : Balanced count s l)
    (h' : ReadsValue count (s.run l) l') : ReadsValue count s (l ++ l') where
  toBalanced := h.append h'.toBalanced
  value := by
    rw [run_append]
    exact h'.value

/-- A text that is opened behind balanced entries is opened with them. -/
theorem Balanced.opensText (h : Balanced count s l)
    (h' : OpensText count (s.run l) l') : OpensText count s (l ++ l') where
  quiet := quiet_append.mpr ⟨h.quiet, h'.quiet⟩
  text := by
    obtain ⟨before, i, quote, body, rfl, hquote, hbody, hframes⟩ := h'.text
    refine ⟨l ++ before, i, quote, body, ?_, hquote, hbody, ?_⟩
    · rw [List.append_assoc]
    · rw [run_append, hframes, h.frames]

/-- What is settled behind balanced entries is settled with them. -/
theorem Balanced.settles {final : Bool} (h : Balanced count s l)
    (h' : Settles final count (s.run l) l') : Settles final count s (l ++ l') := by
  rcases h' with h' | ⟨hfinal, h'⟩
  · exact Or.inl (h.readsValue h')
  · exact Or.inr ⟨hfinal, h.opensText h'⟩

/-- Inside of the sequence no text stays open. -/
theorem Settles.readsValue (h : Settles false count s l) : ReadsValue count s l := by
  rcases h with h | ⟨hfalse, -⟩
  · exact h
  · cases hfalse

/-- A silent token that leaves the frames. -/
theorem balanced_single {p : Entry}
    (hcauses : s.causes p.2 (p.1 + 1 == count) = [])
    (hframes : s.framesAfter p.1 p.2 = s.frames) : Balanced count s [p] where
  quiet := quiet_cons.mpr ⟨hcauses, quiet_nil _ _⟩
  frames := hframes

/-- A number and an end quote end a value. -/
theorem producesValue_of_kind {t : Token} (ht : t.kind = .number ∨ t.kind = .endQuote) :
    t.producesValue = true := by
  rcases ht with ht | ht <;> simp [Token.producesValue, ht]

theorem producesValue_of_closeParen {t : Token} (ht : t.isBracket ')' = true) :
    t.producesValue = true := by
  simp [Token.producesValue, ht]

theorem producesValue_of_closeBracket {t : Token} (ht : t.isBracket ']' = true) :
    t.producesValue = true := by
  simp [Token.producesValue, ht]

/-- A value may start behind an opening parenthesis. -/
theorem allowsValue_of_openParen {t : Token} (ht : t.isBracket '(' = true) :
    t.allowsValue = true := by
  simp [Token.allowsValue, ht]

theorem allowsValue_of_operator {t : Token} (ht : t.kind = .operator) :
    t.allowsValue = true := by
  simp [Token.allowsValue, ht]

theorem allowsValue_of_comma {t : Token} (ht : t.kind = .comma) :
    t.allowsValue = true := by
  simp [Token.allowsValue, ht]

/-- Whether a place is in parentheses depends on the frames alone. -/
theorem inParentheses_congr {s s' : Context} (h : s.frames = s'.frames) :
    s.inParentheses = s'.inParentheses := by
  simp only [inParentheses, innermost, h]

/-- An operator behind a value and in front of further tokens is silent. -/
theorem balanced_operator {i : Nat} {operator : Token} {tokens : List Token}
    (hoperator : operator.kind = .operator) (htokens : tokens ≠ [])
    (hl : l.map Prod.snd = tokens) (hindexed : Indexed count ((i, operator) :: l))
    (hs : s.producesValue = true) : Balanced count s [(i, operator)] := by
  refine balanced_single ((causes_operator hoperator).mpr ⟨hs, ?_⟩)
    (framesAfter_of_kind i hoperator (by decide))
  -- what follows shows that the operator is not the last token
  cases l with
  | nil => exact absurd hl.symm htokens
  | cons q l => exact hindexed.not_last

/-! ## Operands -/

section

variable {i a b c : Nat} {quote endQuote name opener closer : Token}

/-- A number is a value. -/
theorem readsValue_number {t : Token} (ht : t.kind = .number) (hs : s.allowsValue = true) :
    ReadsValue count s [(i, t)] where
  quiet := quiet_cons.mpr ⟨(causes_start (Or.inr (Or.inl ht))).mpr hs, quiet_nil _ _⟩
  frames := framesAfter_of_kind i ht (by decide)
  value := producesValue_of_kind (Or.inl ht)

/-- Behind a start quote and a body the frame of the text is on top. -/
theorem frames_of_startQuote (hquote : quote.kind = .startQuote)
    (h : Balanced count (s.after i quote) l) :
    ((s.after i quote).run l).frames = ⟨.quote, i⟩ :: s.frames :=
  h.frames.trans (framesAfter_startQuote i hquote)

/-- A text with both of its quotes is a value. -/
theorem readsValue_text (hquote : quote.kind = .startQuote)
    (h : Balanced count (s.after i quote) l) (hend : endQuote.kind = .endQuote)
    (hs : s.allowsValue = true) :
    ReadsValue count s ((i, quote) :: (l ++ [(a, endQuote)])) := by
  have hframes := frames_of_startQuote hquote h
  refine ⟨⟨?_, ?_⟩, ?_⟩
  · refine quiet_cons.mpr ⟨(causes_start (Or.inr (Or.inr hquote))).mpr hs, ?_⟩
    refine quiet_append.mpr ⟨h.quiet, quiet_cons.mpr ⟨?_, quiet_nil _ _⟩⟩
    exact causes_inner (Or.inl hend)
  · rw [run_cons, run_append]
    show framesAfter _ a endQuote = s.frames
    rw [framesAfter_endQuote a hend (innermost_of_frames hframes), hframes]
    rfl
  · rw [run_cons, run_append]
    exact producesValue_of_kind (Or.inr hend)

/-- A text without an end quote stays open. -/
theorem opensText_startQuote {text : String} (hquote : quote.kind = .startQuote)
    (h : Balanced count (s.after i quote) l)
    (hbody : Grammar.Body (l.map Prod.snd) text) (hs : s.allowsValue = true) :
    OpensText count s ((i, quote) :: l) where
  quiet := quiet_cons.mpr ⟨(causes_start (Or.inr (Or.inr hquote))).mpr hs, h.quiet⟩
  text := ⟨[], i, quote, l, rfl, hquote, ⟨text, hbody⟩, frames_of_startQuote hquote h⟩

/-- A name in square brackets is a value. -/
theorem readsValue_reference (hopener : opener.isBracket '[' = true)
    (hname : name.kind = .referenceName) (hcloser : closer.isBracket ']' = true)
    (hs : s.allowsValue = true) :
    ReadsValue count s [(a, opener), (b, name), (c, closer)] := by
  have hframes : ((s.after a opener).after b name).frames = ⟨.reference, a⟩ :: s.frames := by
    show framesAfter _ b name = _
    rw [framesAfter_of_kind b hname (by decide)]
    exact framesAfter_openBracket a hopener
  have hin := innermost_of_frames hframes
  have hbehind : ((s.after a opener).after b name).isBehind .referenceName = true :=
    beq_iff_eq.mpr hname
  refine ⟨⟨?_, ?_⟩, producesValue_of_closeBracket hcloser⟩
  · refine quiet_cons.mpr ⟨(causes_openBracket hopener).mpr hs, ?_⟩
    refine quiet_cons.mpr ⟨causes_inner (Or.inr (Or.inr hname)), ?_⟩
    refine quiet_cons.mpr ⟨?_, quiet_nil _ _⟩
    exact (causes_closeBracket hcloser).mpr ⟨hin, hbehind⟩
  · show framesAfter _ c closer = s.frames
    rw [framesAfter_closeBracket c hcloser hin, hframes]
    rfl

/-- Parentheses around a value are a value. -/
theorem readsValue_parentheses
    (hopen : s.isBehind .functionName = true ∨ s.allowsValue = true)
    (hopener : opener.isBracket '(' = true) (hcloser : closer.isBracket ')' = true)
    (h : ReadsValue count (s.after b opener) l) :
    ReadsValue count s ((b, opener) :: (l ++ [(c, closer)])) := by
  have hframes : ((s.after b opener).run l).frames
      = ⟨if s.isBehind .functionName then .call else .group, b⟩ :: s.frames := by
    rw [h.frames]
    exact framesAfter_openParen b hopener
  have hin := inParentheses_of_frames _ hframes
  refine ⟨⟨?_, ?_⟩, ?_⟩
  · refine quiet_cons.mpr ⟨(causes_openParen hopener).mpr hopen, ?_⟩
    refine quiet_append.mpr ⟨h.quiet, quiet_cons.mpr ⟨?_, quiet_nil _ _⟩⟩
    exact (causes_closeParen hcloser).mpr ⟨hin, Or.inl h.value⟩
  · rw [run_cons, run_append]
    show framesAfter _ c closer = s.frames
    rw [framesAfter_closeParen c hcloser hin, hframes]
    rfl
  · rw [run_cons, run_append]
    exact producesValue_of_closeParen hcloser

/-- Parentheses around nothing are a value behind the name of a function. -/
theorem readsValue_emptyParentheses (hbehind : s.isBehind .functionName = true)
    (hopener : opener.isBracket '(' = true) (hcloser : closer.isBracket ')' = true) :
    ReadsValue count s [(b, opener), (c, closer)] := by
  have hframes : (s.after b opener).frames = ⟨.call, b⟩ :: s.frames := by
    show framesAfter _ b opener = _
    rw [framesAfter_openParen b hopener, if_pos hbehind]
  have hin : (s.after b opener).inParentheses = true := inParentheses_of_frames true hframes
  -- the frame on top was opened by the very token before the closer
  have hempty : (s.after b opener).atEmptyCall = true := atEmptyCall_of_frames hframes rfl
  refine ⟨⟨?_, ?_⟩, producesValue_of_closeParen hcloser⟩
  · refine quiet_cons.mpr ⟨(causes_openParen hopener).mpr (Or.inl hbehind), ?_⟩
    refine quiet_cons.mpr ⟨?_, quiet_nil _ _⟩
    exact (causes_closeParen hcloser).mpr ⟨hin, Or.inr hempty⟩
  · show framesAfter _ c closer = s.frames
    rw [framesAfter_closeParen c hcloser hin, hframes]
    rfl

/-- A name in front of parentheses that are a value behind it. -/
theorem readsValue_functionName (hname : name.kind = .functionName)
    (hs : s.allowsValue = true)
    (h : (s.after a name).isBehind .functionName = true → ReadsValue count (s.after a name) l) :
    ReadsValue count s ((a, name) :: l) := by
  have hfirst : Balanced count s [(a, name)] :=
    balanced_single ((causes_start (Or.inl hname)).mpr hs)
      (framesAfter_of_kind a hname (by decide))
  exact hfirst.readsValue (h (beq_iff_eq.mpr hname))

end

end Context

namespace Grammar

open Context

variable {count : Nat}

/-- The body of a text is silent anywhere. -/
theorem Body.balanced {body : List Token} {text : String} (h : Body body text)
    {l : List Entry} (hl : l.map Prod.snd = body) (s : Context) :
    Balanced count s l := by
  cases h with
  | empty =>
      rw [List.map_eq_nil_iff.mp hl]
      exact balanced_nil
  | string kind =>
      obtain ⟨⟨i, t⟩, rfl, rfl⟩ := List.map_eq_singleton_iff.mp hl
      refine balanced_single (causes_inner (Or.inr (Or.inl kind))) ?_
      exact framesAfter_of_kind i kind (by decide)

mutual

/-- An operand is silent where a value may start. -/
theorem Operand.settles {final : Bool} {n : Nat} {phrase : List Token} {e : Expr}
    (h : Operand final n phrase e) {l : List Entry} (hl : l.map Prod.snd = phrase)
    (hindexed : Indexed count l) {s : Context} (hs : s.allowsValue = true) :
    Settles final count s l :=
  match h with
  | .number kind _ => by
      obtain ⟨⟨i, t⟩, rfl, rfl⟩ := List.map_eq_singleton_iff.mp hl
      exact Or.inl (readsValue_number kind hs)
  | .text hquote hbody hend => by
      obtain ⟨⟨i, quote⟩, _, rfl, rfl, htail⟩ := List.map_eq_cons_iff.mp hl
      obtain ⟨body, closing, rfl, hmap, hclosing⟩ := List.map_eq_append_iff.mp htail
      obtain ⟨⟨j, endQuote⟩, rfl, rfl⟩ := List.map_eq_singleton_iff.mp hclosing
      exact Or.inl (readsValue_text hquote (hbody.balanced hmap _) hend hs)
  | .openText hquote hbody => by
      obtain ⟨⟨i, quote⟩, body, rfl, rfl, hmap⟩ := List.map_eq_cons_iff.mp hl
      exact Or.inr ⟨rfl, opensText_startQuote hquote (hbody.balanced hmap _) (hmap ▸ hbody) hs⟩
  | .reference hopener hname hcloser => by
      obtain ⟨⟨a, opener⟩, _, rfl, rfl, htail⟩ := List.map_eq_cons_iff.mp hl
      obtain ⟨⟨b, name⟩, _, rfl, rfl, hlast⟩ := List.map_eq_cons_iff.mp htail
      obtain ⟨⟨c, closer⟩, rfl, rfl⟩ := List.map_eq_singleton_iff.mp hlast
      exact Or.inl (readsValue_reference hopener hname hcloser hs)
  | .emptyCall hname hopener hcloser => by
      obtain ⟨⟨a, name⟩, _, rfl, rfl, htail⟩ := List.map_eq_cons_iff.mp hl
      obtain ⟨⟨b, opener⟩, _, rfl, rfl, hlast⟩ := List.map_eq_cons_iff.mp htail
      obtain ⟨⟨c, closer⟩, rfl, rfl⟩ := List.map_eq_singleton_iff.mp hlast
      exact Or.inl (readsValue_functionName hname hs fun hbehind =>
        readsValue_emptyParentheses hbehind hopener hcloser)
  | .call hname hopener hinner hcloser => by
      obtain ⟨⟨a, name⟩, _, rfl, rfl, htail⟩ := List.map_eq_cons_iff.mp hl
      obtain ⟨⟨b, opener⟩, _, rfl, rfl, hrest⟩ := List.map_eq_cons_iff.mp htail
      obtain ⟨inner, closing, rfl, hmap, hclosing⟩ := List.map_eq_append_iff.mp hrest
      obtain ⟨⟨c, closer⟩, rfl, rfl⟩ := List.map_eq_singleton_iff.mp hclosing
      refine Or.inl (readsValue_functionName hname hs fun hbehind => ?_)
      refine readsValue_parentheses (Or.inl hbehind) hopener hcloser ?_
      -- the arguments stand right inside of the parentheses of the call
      exact hinner.readsValue hmap hindexed.tail.tail.left (allowsValue_of_openParen hopener)
        (inParentheses_of_frames _ (framesAfter_openParen b hopener))
  | .group hopener hinner hcloser => by
      obtain ⟨⟨b, opener⟩, _, rfl, rfl, htail⟩ := List.map_eq_cons_iff.mp hl
      obtain ⟨inner, closing, rfl, hmap, hclosing⟩ := List.map_eq_append_iff.mp htail
      obtain ⟨⟨c, closer⟩, rfl, rfl⟩ := List.map_eq_singleton_iff.mp hclosing
      have hvalue := hinner.settles hmap hindexed.tail.left (s := s.after b opener)
        (allowsValue_of_openParen hopener)
      exact Or.inl (readsValue_parentheses (Or.inr hs) hopener hcloser hvalue.readsValue)

/-- Operators with their operands are silent behind a value. -/
theorem Links.settles {final : Bool} {n : Nat} {phrase : List Token}
    {links : List (String × Expr)} (h : Links final n phrase links)
    {l : List Entry} (hl : l.map Prod.snd = phrase) (hindexed : Indexed count l)
    {s : Context} (hs : s.producesValue = true) : Settles final count s l :=
  match h with
  | .single hoperator hoperand => by
      obtain ⟨⟨i, operator⟩, _, rfl, rfl, htail⟩ := List.map_eq_cons_iff.mp hl
      have hfirst := balanced_operator hoperator hoperand.ne_nil htail hindexed hs
      have hnext := hoperand.settles htail hindexed.tail (s := s.after i operator)
        (allowsValue_of_operator hoperator)
      exact hfirst.settles hnext
  | .cons hoperator hoperand hmore => by
      obtain ⟨⟨i, operator⟩, _, rfl, rfl, htail⟩ := List.map_eq_cons_iff.mp hl
      obtain ⟨first, more, rfl, hfirst, hmore'⟩ := List.map_eq_append_iff.mp htail
      have hop := balanced_operator hoperator hoperand.ne_nil hfirst
        (Indexed.left (l := (i, operator) :: first) hindexed) hs
      have hnext := (hoperand.settles hfirst hindexed.tail.left
        (s := s.after i operator) (allowsValue_of_operator hoperator)).readsValue
      have hlast := hmore.settles hmore' hindexed.tail.right hnext.value
      exact hop.settles (hnext.toBalanced.settles hlast)

/-- Arguments are silent inside of parentheses. -/
theorem Arguments.readsValue {n : Nat} {phrase : List Token} {es : List Expr}
    (h : Arguments n phrase es) {l : List Entry} (hl : l.map Prod.snd = phrase)
    (hindexed : Indexed count l) {s : Context} (hs : s.allowsValue = true)
    (hin : s.inParentheses = true) : ReadsValue count s l :=
  match h with
  | .single h => (h.settles hl hindexed hs).readsValue
  | .cons h hcomma hmore => by
      obtain ⟨first, tail, rfl, hfirst, htail⟩ := List.map_eq_append_iff.mp hl
      obtain ⟨⟨i, comma⟩, more, rfl, rfl, hmore'⟩ := List.map_eq_cons_iff.mp htail
      have hvalue := (h.settles hfirst hindexed.left hs).readsValue
      -- the first argument leaves the frames, so the comma is still inside
      have hin' : (s.run first).inParentheses = true := by
        rw [inParentheses_congr hvalue.frames]
        exact hin
      have hsep : Balanced count (s.run first) [(i, comma)] :=
        balanced_single ((causes_comma hcomma).mpr ⟨hin', hvalue.value⟩)
          (framesAfter_of_kind i hcomma (by decide))
      have hallows : ((s.run first).after i comma).allowsValue = true :=
        allowsValue_of_comma hcomma
      have hin'' : ((s.run first).after i comma).inParentheses = true := by
        rw [← hin']
        exact inParentheses_congr hsep.frames
      have hlast := hmore.readsValue hmore' hindexed.right.tail hallows hin''
      exact hvalue.toBalanced.readsValue (hsep.readsValue hlast)

/-- An expression is silent where a value may start. -/
theorem Expression.settles {final : Bool} {n : Nat} {phrase : List Token} {e : Expr}
    (h : Expression final n phrase e) {l : List Entry}
    (hl : l.map Prod.snd = phrase) (hindexed : Indexed count l) {s : Context}
    (hs : s.allowsValue = true) : Settles final count s l :=
  match h with
  | .operand h => h.settles hl hindexed hs
  | .chain hfirst hmore => by
      obtain ⟨first, more, rfl, hfirst', hmore'⟩ := List.map_eq_append_iff.mp hl
      have hvalue := (hfirst.settles hfirst' hindexed.left hs).readsValue
      exact hvalue.toBalanced.settles
        (hmore.settles hmore' hindexed.right hvalue.value)

end

end Grammar

/-! ## Diagnostics of formulas with a tree -/

/-- The diagnostics are none, or a single one: that the text at the end of
    the tokens, with nothing or a string behind its start quote, has no end
    quote. -/
def OnlyOpenText (tokens : List Token) (found : List Diagnostic) : Prop :=
  found = [] ∨ ∃ before quote rest text,
    tokens = before ++ quote :: rest ∧ quote.kind = .startQuote ∧
    Grammar.Body (significant rest) text ∧
    found = [⟨before.length, .missingClose '"'⟩]

/-- Tokens that derive a tree lack nothing but the end quote of an open text.
    -/
theorem diagnose_of_derives {tokens : List Token} {n : Nat} {e : Expr}
    (h : Grammar.Expression true n (significant tokens) e) :
    OnlyOpenText tokens (diagnose tokens) := by
  have hsettles : Context.Settles true tokens.length {} (entries 0 tokens) :=
    h.settles (map_snd_entries 0 tokens) (indexed_entries tokens) rfl
  rcases hsettles with hvalue | ⟨-, hopen⟩
  · exact Or.inl (diagnose_eq_nil_iff.mpr ⟨hvalue.quiet, hvalue.frames⟩)
  · obtain ⟨before, i, quote, body, hsplit, hquote, ⟨text, hbody⟩, hframes⟩ := hopen.text
    -- back from the entries to the tokens around the quote
    obtain ⟨left, right, htokens, hi, -, hright⟩ := entries_eq_append_cons hsplit
    refine Or.inr ⟨left, quote, right, text, htokens, hquote, ?_, ?_⟩
    · rw [← map_snd_entries (i + 1) right, hright]
      exact hbody
    · have hreports : Context.reports tokens.length {} (entries 0 tokens) = [] :=
        hopen.quiet
      have hstart : i = left.length := hi.trans (Nat.zero_add _)
      rw [diagnose_eq_reports, hreports, Context.unclosed, hframes, hstart]
      rfl

/-- An analysis has a result only where its tokens have a tree. -/
theorem parse_of_analyze {inputs : Inputs} {formula : String} {a : Analysis}
    {v : Value} (h : analyze inputs formula = .ok a) (hv : a.result = some v) :
    a.diagnostics = diagnose a.tokens ∧ ∃ e, parse a.tokens = .ok e := by
  rw [analyze, analyzeLogged] at h
  simp only at h
  split at h
  · cases h
  · next tokens _ =>
      obtain rfl := Except.ok.inj h
      refine ⟨rfl, ?_⟩
      have hresult : (evaluateLogged inputs tokens).value = some v := hv
      rw [evaluateLogged] at hresult
      split at hresult
      · next e he => exact ⟨e, he⟩
      · cases hresult

/-- **A TREE IS SILENT**: tokens with a tree, and so the tokens of an
    analysis with a result, have no diagnostic but that of a text which
    ends the formula without an end quote. -/
theorem onlyOpenText_of_parse :
    (∀ tokens e, parse tokens = .ok e → OnlyOpenText tokens (diagnose tokens)) ∧
    (∀ inputs formula a v, analyze inputs formula = .ok a → a.result = some v →
      OnlyOpenText a.tokens a.diagnostics) := by
  constructor
  · intro tokens e h
    exact diagnose_of_derives (derives_of_parse h)
  · intro inputs formula a v h hv
    obtain ⟨hdiagnostics, e, he⟩ := parse_of_analyze h hv
    rw [hdiagnostics]
    exact diagnose_of_derives (derives_of_parse he)

/-- In `1&"a` the text is open at the end: the tree, and the result of the
    analysis, come with the one diagnostic of its start quote. -/
theorem onlyOpenText_of_parse_open :
    ∃ tokens e a, tokenize "1&\"a" = .ok tokens ∧ parse tokens = .ok e ∧
      diagnose tokens = [⟨2, .missingClose '"'⟩] ∧ OnlyOpenText tokens (diagnose tokens) ∧
      analyze {} "1&\"a" = .ok a ∧ a.result = some (.text "1a") ∧
      OnlyOpenText a.tokens a.diagnostics := by
  obtain ⟨tokens, htokens, hsplit⟩ : ∃ tokens, tokenize "1&\"a" = .ok tokens ∧
      tokens = [⟨.number, "1", 0, 0⟩, ⟨.operator, "&", 1, 1⟩,
        ⟨.startQuote, "\"", 2, 2⟩, ⟨.string, "a", 3, 3⟩] :=
    ⟨_, by decide +kernel, rfl⟩
  have hparse : parse tokens = .ok (.chain (.number 1) [("&", .text "a")]) := by
    rw [hsplit]
    exact parse_of_derives (n := 1) (by decide)
      (.chain (.number rfl (by decide +kernel)) (.single rfl (.openText rfl (.string rfl))))
  have hdiagnose : diagnose tokens = [⟨2, .missingClose '"'⟩] := by
    rw [hsplit]
    decide
  obtain ⟨a, ha, hresult⟩ : ∃ a, analyze {} "1&\"a" = .ok a ∧ a.result = some (.text "1a") := by
    have hscan : ((Lexer.ofString (stripLineBreaks "1&\"a")).tokenizeLogged classify).value
        = .ok tokens := htokens
    rw [analyze, analyzeLogged, hscan]
    refine ⟨_, rfl, ?_⟩
    show (evaluateLogged {} tokens).value = _
    rw [evaluateLogged, hparse]
    decide +kernel
  obtain ⟨htree, hanalysis⟩ := onlyOpenText_of_parse
  exact ⟨tokens, _, a, htokens, hparse, hdiagnose, htree _ _ hparse, ha, hresult,
    hanalysis _ _ _ _ ha hresult⟩

end FormulaBar
