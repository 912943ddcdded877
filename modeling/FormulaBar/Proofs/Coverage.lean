import FormulaBar.Proofs.Adjacency
import Mathlib.Data.List.Chain

/-! # Coverage — the tokens of a formula lose nothing

    Whatever the classifier, a scan cuts the formula into pieces that lie
    side by side: the texts of the tokens spell what is behind the cursor,
    and the spans are the places of these texts.  A scan that stops early
    has covered the formula up to the place where it stopped.  The
    classifier of formulas takes a character wherever one is left, so its
    scans come to the end.

    A classifier is a class and a number of characters here.  Whatever a
    classifier does with the moves of a cursor comes down to that. -/

namespace FormulaBar

/-! ## Moves of a cursor -/

namespace Cursor

/-- The places that a cursor reaches by its own moves. -/
inductive Reaches (c : Cursor) : Cursor → Prop where
  | refl : Reaches c c
  | advance {d : Cursor} (h : Reaches c d) : Reaches c (d.advance 1)
  | skip {d : Cursor} (p : Pattern) (h : Reaches c d) : Reaches c (d.skip p)

/-- Two moves are one move by both. -/
theorem advance_advance (m n : Nat) (c : Cursor) :
    (c.advance m).advance n = c.advance (m + n) := by
  induction m generalizing c with
  | zero => rw [Nat.zero_add]; rfl
  | succ m ih =>
      rw [Nat.add_right_comm]
      obtain ⟨before, _ | ⟨ch, rest⟩⟩ := c
      · cases n <;> rfl
      · exact ih ⟨ch :: before, rest⟩

/-- Past the end of the text a cursor stays. -/
theorem advance_min (n : Nat) (c : Cursor) :
    c.advance (min n c.rest.length) = c.advance n := by
  fun_induction advance n c with
  | case1 c => rw [Nat.zero_min]; rfl
  | case2 n before => rfl
  | case3 n before ch rest ih =>
      rw [List.length_cons, Nat.succ_eq_add_one, Nat.add_min_add_right]
      exact ih

/-- A cursor reaches the places some number of characters ahead. -/
theorem Reaches.exists_advance {c d : Cursor} (h : c.Reaches d) :
    ∃ n, d = c.advance n := by
  induction h with
  | refl => exact ⟨0, rfl⟩
  | advance _ ih =>
      obtain ⟨n, rfl⟩ := ih
      exact ⟨n + 1, advance_advance n 1 c⟩
  | skip p _ ih =>
      obtain ⟨n, rfl⟩ := ih
      exact ⟨n + _, advance_advance n _ c⟩

/-- What is moved over is behind the cursor, the latest character first. -/
theorem before_advance (n : Nat) (c : Cursor) :
    (c.advance n).before = (c.rest.take n).reverse ++ c.before := by
  fun_induction advance n c with
  | case1 => rfl
  | case2 => rfl
  | case3 n before ch rest ih => rw [ih]; simp

/-- Only the empty text has no bytes. -/
theorem byteLength_eq_zero {text : List Char} : byteLength text = 0 ↔ text = [] := by
  constructor
  · intro h
    cases text with
    | nil => rfl
    | cons c text =>
        have hpos : 0 < c.utf8Size := Char.utf8Size_pos c
        have hsum : c.utf8Size + byteLength text = 0 := h
        omega
  · rintro rfl
    rfl

section

variable {c d : Cursor}

theorem length_sub_length_drop (text : List Char) (n : Nat) :
    text.length - (text.drop n).length = min n text.length := by
  rw [List.length_drop]
  omega

/-- The characters between two places lead from one to the other. -/
theorem Reaches.advance_length (h : c.Reaches d) :
    c.advance (c.rest.length - d.rest.length) = d := by
  obtain ⟨n, rfl⟩ := h.exists_advance
  rw [rest_advance, length_sub_length_drop]
  exact advance_min n c

/-- A place is further on exactly where some characters are between. -/
theorem Reaches.position_le_iff (h : c.Reaches d) :
    d.position ≤ c.position ↔ c.rest.length - d.rest.length = 0 := by
  obtain ⟨n, rfl⟩ := h.exists_advance
  have hzero : byteLength (c.rest.take n).reverse = 0 ↔ (c.rest.take n).reverse = [] :=
    byteLength_eq_zero
  rw [List.reverse_eq_nil_iff, ← List.length_eq_zero_iff, List.length_take] at hzero
  rw [rest_advance, length_sub_length_drop, ← hzero, position, position, before_advance,
    byteLength_append]
  omega

end

end Cursor

/-! ## Spans -/

/-- The text that tokens spell. -/
def spell (tokens : List Token) : List Char :=
  tokens.flatMap fun t => t.text.toList

@[simp] theorem spell_nil : spell [] = [] := rfl

@[simp] theorem spell_cons (t : Token) (ts : List Token) :
    spell (t :: ts) = t.text.toList ++ spell ts := List.flatMap_cons

@[simp] theorem spell_append (ts us : List Token) :
    spell (ts ++ us) = spell ts ++ spell us := List.flatMap_append

/-- The token with its span from the character offset `n` on. -/
def Token.placeAt (n : Nat) (t : Token) : Token :=
  { t with start := n, stop := n + t.text.length - 1 }

/-- The tokens side by side, from the character offset `n` on. -/
def place : Nat → List Token → List Token
  | _, [] => []
  | n, t :: ts => t.placeAt n :: place (n + t.text.length) ts

/-- The tokens cut `text`, which starts at the character offset `n`, into
    nonempty pieces that lie side by side. -/
structure Covers (n : Nat) (text : List Char) (tokens : List Token) : Prop where
  texts : spell tokens = text
  nonempty : ∀ t ∈ tokens, t.text ≠ ""
  first : ∀ t, tokens.head? = some t → t.start = n
  next : tokens.IsChain fun t u => u.start = t.stop + 1
  span : ∀ t ∈ tokens, t.start ≤ t.stop ∧ t.stop - t.start + 1 = t.text.length
  last : ∀ t, tokens.getLast? = some t → t.stop + 1 = n + text.length

theorem length_pos_of_ne {text : String} (h : text ≠ "") : 0 < text.length := by
  rw [← String.length_toList]
  exact List.length_pos_iff.mpr fun hnil => h (String.toList_eq_nil_iff.mp hnil)

/-- No tokens cover the empty text. -/
theorem covers_nil (n : Nat) : Covers n [] [] where
  texts := rfl
  nonempty := List.forall_mem_nil _
  first := by intro t ht; cases ht
  next := List.IsChain.nil
  span := List.forall_mem_nil _
  last := by intro t ht; cases ht

/-- A token in front of covered text. -/
theorem Covers.cons {n : Nat} {t : Token} {text : List Char} {tokens : List Token}
    (ht : t.text ≠ "") (h : Covers (n + t.text.length) text tokens) :
    Covers n (t.text.toList ++ text) (t.placeAt n :: tokens) := by
  have hpos := length_pos_of_ne ht
  refine ⟨?_, ?_, ?_, ?_, ?_, ?_⟩
  · rw [spell_cons, h.texts]
    rfl
  · intro u hu
    rcases List.mem_cons.mp hu with rfl | hu
    · exact ht
    · exact h.nonempty u hu
  · intro u hu
    obtain rfl := Option.some.inj hu
    rfl
  · refine List.isChain_cons.mpr ⟨fun u hu => ?_, h.next⟩
    rw [h.first u hu]
    show n + t.text.length = n + t.text.length - 1 + 1
    omega
  · intro u hu
    rcases List.mem_cons.mp hu with rfl | hu
    · show n ≤ n + t.text.length - 1 ∧ n + t.text.length - 1 - n + 1 = t.text.length
      omega
    · exact h.span u hu
  · intro u hu
    rw [List.length_append, String.length_toList, ← Nat.add_assoc]
    cases htokens : tokens with
    | nil =>
        -- the token is the last one, and no text follows it
        subst htokens
        obtain rfl := Option.some.inj hu
        obtain rfl : [] = text := h.texts
        show n + t.text.length - 1 + 1 = n + t.text.length + 0
        omega
    | cons v rest =>
        rw [htokens, List.getLast?_cons_cons] at hu
        rw [htokens] at h
        exact h.last u hu

/-- Tokens with texts, put side by side, cover what they spell. -/
theorem covers_place {tokens : List Token} (h : ∀ t ∈ tokens, t.text ≠ "") (n : Nat) :
    Covers n (spell tokens) (place n tokens) := by
  induction tokens generalizing n with
  | nil => exact covers_nil n
  | cons t ts ih =>
      have ht := h t List.mem_cons_self
      exact .cons ht (ih (fun u hu => h u (List.mem_cons_of_mem _ hu)) _)

/-! ## Scans -/

namespace Lexer

variable {classifier : Classifier} {l l' : Lexer}

/-- A step of the lexer takes the text of a token off the front of what is
    ahead. -/
structure Step (classifier : Classifier) (l l' : Lexer) (t : Token) : Prop where
  next : l.next? classifier = .ok (some l')
  nonempty : t.text ≠ ""
  classified : ∃ n, classifier l.cursor l.history = (t.kind, n) ∧
    t.text.toList = l.cursor.rest.take n
  rest : l.cursor.rest = t.text.toList ++ l'.cursor.rest
  history : l'.history = t.placeAt l.offset :: l.history
  offset : l'.offset = l.offset + t.text.length

/-- A step adds its token at the offset of the lexer. -/
theorem Step.tokens {t : Token} (h : Step classifier l l' t) :
    l'.tokens = l.tokens ++ [t.placeAt l.offset] := by
  rw [Lexer.tokens, h.history, List.reverse_cons]
  rfl

/-- What the lexer does to go on is a step. -/
theorem step_of_next? (h : l.next? classifier = .ok (some l')) :
    ∃ t, Step classifier l l' t := by
  have hnext := h
  rw [next?] at h
  split at h
  · cases h
  · next hend =>
    simp only at h
    split at h
    · cases h
    · next hn =>
      cases hclassify : classifier l.cursor l.history with
      | mk k n =>
      rw [hclassify] at h hn
      obtain rfl := Option.some.inj (Except.ok.inj h)
      refine ⟨⟨k, .ofList (l.cursor.rest.take n), 0, 0⟩, hnext, ?_, ⟨n, hclassify, ?_⟩,
        ?_, ?_, ?_⟩
      · intro hempty
        rcases List.take_eq_nil_iff.mp (String.ofList_eq_empty_iff.mp hempty) with h0 | hnil
        · exact hn h0
        · exact hend (List.isEmpty_iff.mpr hnil)
      · exact String.toList_ofList
      · simp
      · simp [Token.placeAt]
      · simp

/-- The lexer takes the token that the classifier names. -/
theorem exists_step {t : Token} {rest : List Char} (ht : t.text ≠ "")
    (hrest : l.cursor.rest = t.text.toList ++ rest)
    (hclassify : classifier l.cursor l.history = (t.kind, t.text.length)) :
    ∃ l', Step classifier l l' t ∧ l'.cursor.rest = rest := by
  have hpos := length_pos_of_ne ht
  have hne : t.text.toList ≠ [] := fun hnil => ht (String.toList_eq_nil_iff.mp hnil)
  have hnext : l.next? classifier = .ok (some
      { cursor := l.cursor.advance t.text.length
        history := t.placeAt l.offset :: l.history
        offset := l.offset + t.text.length }) := by
    have hend : ¬ l.cursor.isEnd = true := by
      rw [Cursor.isEnd, hrest, List.isEmpty_iff]
      exact fun hnil => hne (List.append_eq_nil_iff.mp hnil).1
    have htake : l.cursor.rest.take t.text.length = t.text.toList := by
      rw [hrest, ← String.length_toList, List.take_left]
    rw [next?, if_neg hend, hclassify]
    simp only [if_neg (Nat.ne_of_gt hpos), htake, String.ofList_toList,
      String.length_toList, Token.placeAt]
  refine ⟨_, ⟨hnext, ht, ⟨_, hclassify, ?_⟩, ?_, rfl, rfl⟩, ?_⟩
  · rw [hrest, ← String.length_toList, List.take_left]
  · rw [Cursor.rest_advance, hrest, ← String.length_toList, List.drop_left]
  · rw [Cursor.rest_advance, hrest, ← String.length_toList, List.drop_left]

/-- Some steps of the lexer, and the tokens that they take. -/
inductive Steps (classifier : Classifier) : Lexer → List Token → Lexer → Prop where
  | nil {l : Lexer} : Steps classifier l [] l
  | cons {l l' last : Lexer} {t : Token} {ts : List Token}
      (h : Step classifier l l' t) (hsteps : Steps classifier l' ts last) :
      Steps classifier l (t :: ts) last

namespace Steps

variable {last : Lexer} {ts : List Token}

theorem nonempty (h : Steps classifier l ts last) : ∀ t ∈ ts, t.text ≠ "" := by
  induction h with
  | nil => exact List.forall_mem_nil _
  | cons h _ ih => exact List.forall_mem_cons.mpr ⟨h.nonempty, ih⟩

/-- What is behind the tokens was behind them before. -/
theorem rest (h : Steps classifier l ts last) :
    l.cursor.rest = spell ts ++ last.cursor.rest := by
  induction h with
  | nil => rfl
  | cons h _ ih => rw [h.rest, ih, spell_cons, List.append_assoc]

/-- Some steps add their tokens side by side. -/
theorem tokens (h : Steps classifier l ts last) :
    last.tokens = l.tokens ++ place l.offset ts := by
  induction h with
  | nil => exact (List.append_nil _).symm
  | cons h _ ih =>
      rw [ih, h.tokens, h.offset, List.append_assoc]
      rfl

/-- Some steps move the offset by the characters that they take. -/
theorem offset (h : Steps classifier l ts last) :
    last.offset = l.offset + (spell ts).length := by
  induction h with
  | nil => rfl
  | cons h _ ih =>
      rw [ih, h.offset, spell_cons, List.length_append, String.length_toList, Nat.add_assoc]

/-- A run goes through all the steps that lead to the end. -/
theorem run (h : Steps classifier l ts last) (hend : last.cursor.rest = []) :
    l.run classifier = (last, none) := by
  induction h with
  | @nil l =>
      have hempty : l.cursor.isEnd = true := List.isEmpty_iff.mpr hend
      have hnext : l.next? classifier = .ok none := by rw [next?, if_pos hempty]
      rw [Lexer.run]
      split
      · rfl
      · next h => cases hnext.symm.trans h
      · next h => cases hnext.symm.trans h
  | cons h _ ih =>
      rw [Lexer.run]
      split
      · next h' => cases h.next.symm.trans h'
      · next h' =>
          obtain rfl := Option.some.inj (Except.ok.inj (h.next.symm.trans h'))
          exact ih hend
      · next h' => cases h.next.symm.trans h'

end Steps

/-- The lexer stalls at its offset, with text left of which the classifier
    takes nothing. -/
theorem stall_of_next? {stall : Stall} (h : l.next? classifier = .error stall) :
    stall.offset = l.offset ∧ l.cursor.rest ≠ [] ∧
      (classifier l.cursor l.history).2 = 0 := by
  rw [next?] at h
  split at h
  · cases h
  · next hend =>
    simp only at h
    split at h
    · next hn =>
      obtain rfl := Except.error.inj h
      exact ⟨rfl, fun hnil => hend (List.isEmpty_iff.mpr hnil), hn⟩
    · cases h

/-- A run is made of steps; it ends where nothing is ahead, or where the
    classifier takes nothing of what is. -/
theorem steps_run (classifier : Classifier) (l : Lexer) :
    ∃ ts, Steps classifier l ts (l.run classifier).1 ∧
      match (l.run classifier).2 with
      | none => (l.run classifier).1.cursor.rest = []
      | some stall => stall.offset = (l.run classifier).1.offset ∧
          (l.run classifier).1.cursor.rest ≠ [] := by
  fun_induction Lexer.run classifier l with
  | case1 l hnext => exact ⟨[], .nil, List.isEmpty_iff.mp (isEnd_of_next? hnext)⟩
  | case2 l l' hnext _ ih =>
      obtain ⟨t, ht⟩ := step_of_next? hnext
      obtain ⟨ts, hsteps, hend⟩ := ih
      exact ⟨t :: ts, .cons ht hsteps, hend⟩
  | case3 l stall hnext =>
      obtain ⟨hoffset, hne, -⟩ := stall_of_next? hnext
      exact ⟨[], .nil, hoffset, hne⟩

end Lexer

/-! ## The classifier of formulas -/

/-- Each rule takes a character where one is left. -/
theorem Rule.length_ne_zero {cursor : Cursor} {history : History} {k : Token.Kind} {n : Nat}
    (h : Rule cursor history k n) (hrest : cursor.rest ≠ []) : n ≠ 0 := by
  have hmatch : ∀ {p : Pattern} {text : List Char}, cursor.match? p = some text →
      text.length ≠ 0 := by
    intro p text htext
    exact fun h0 => (Cursor.match?_eq_some.mp htext).2 (List.eq_nil_of_length_eq_zero h0)
  cases h with
  | atEnd hend => exact absurd (List.head?_eq_none_iff.mp hend) hrest
  | endQuote => exact Nat.one_ne_zero
  | startQuote => exact Nat.one_ne_zero
  | string hc hquote _ =>
      obtain ⟨tail, htail⟩ := List.head?_eq_some_iff.mp hc
      rw [htail]
      show (List.takeWhile (· != '"') _).length ≠ 0
      rw [List.takeWhile_cons_of_pos (by simpa using hquote)]
      exact Nat.succ_ne_zero _
  | number _ htext _ => exact hmatch htext
  | minus => exact Nat.one_ne_zero
  | operator => exact Nat.one_ne_zero
  | referenceName _ _ hname => exact hmatch (Option.filter_eq_some_iff.mp hname).1
  | functionName _ htext _ => exact hmatch htext
  | unfinishedFormula _ htext _ => exact hmatch htext
  | bracket => exact Nat.one_ne_zero
  | comma => exact Nat.one_ne_zero
  | whitespace _ _ _ htext => exact hmatch htext
  | error => exact Nat.one_ne_zero

/-- The classifier of formulas is never stuck. -/
theorem Lexer.run_classify (l : Lexer) : (l.run classify).2 = none := by
  fun_induction Lexer.run classify l with
  | case1 => rfl
  | case2 _ _ _ _ ih => exact ih
  | case3 l stall hnext =>
      obtain ⟨-, hrest, hzero⟩ := Lexer.stall_of_next? hnext
      exact absurd hzero ((rule_of_classify l.cursor l.history).length_ne_zero hrest)

/-- **EVERY FORMULA HAS TOKENS**: the lexer of formulas never stalls. -/
theorem exists_tokenize (formula : String) : ∃ tokens, tokenize formula = .ok tokens := by
  have hrun := Lexer.run_classify (Lexer.ofString formula)
  rw [tokenize, tokenizeWith, Lexer.tokenize]
  split
  · exact ⟨_, rfl⟩
  · next heq =>
    rw [heq] at hrun
    cases hrun

/-- The tokens of a finished scan are taken by steps that lead to the end. -/
theorem steps_of_tokenizeWith {classifier : Classifier} {formula : String}
    {tokens : List Token} (h : tokenizeWith classifier formula = .ok tokens) :
    ∃ ts last, Lexer.Steps classifier (.ofString formula) ts last ∧
      last.cursor.rest = [] ∧ tokens = place 0 ts := by
  obtain ⟨ts, hsteps, hend⟩ := Lexer.steps_run classifier (Lexer.ofString formula)
  rw [tokenizeWith, Lexer.tokenize] at h
  split at h
  · next last hrun =>
    rw [hrun] at hsteps hend
    obtain rfl := Except.ok.inj h
    exact ⟨ts, last, hsteps, hend, hsteps.tokens⟩
  · cases h

/-- The tokens of a scan that comes to the end cover the formula. -/
theorem covers_of_tokenizeWith {classifier : Classifier} {formula : String}
    {tokens : List Token} (h : tokenizeWith classifier formula = .ok tokens) :
    Covers 0 formula.toList tokens := by
  obtain ⟨ts, last, hsteps, hend, rfl⟩ := steps_of_tokenizeWith h
  have hrest : formula.toList = spell ts ++ last.cursor.rest := hsteps.rest
  rw [hrest, hend, List.append_nil]
  exact covers_place hsteps.nonempty 0

/-- The tokens of a scan that is stuck cover the formula up to that place. -/
theorem covers_of_stall {classifier : Classifier} {formula : String} {stall : Stall}
    (h : tokenizeWith classifier formula = .error stall) :
    stall.offset < formula.length ∧
      Covers 0 (formula.toList.take stall.offset)
        ((Lexer.ofString formula).run classifier).1.tokens := by
  obtain ⟨ts, hsteps, hstuck⟩ := Lexer.steps_run classifier (Lexer.ofString formula)
  rw [tokenizeWith, Lexer.tokenize] at h
  split at h
  · cases h
  · next last stuck hrun =>
    rw [hrun] at hsteps hstuck ⊢
    obtain rfl := Except.error.inj h
    obtain ⟨hoffset, hne⟩ := hstuck
    have htokens : last.tokens = place 0 ts := hsteps.tokens
    have hrest : formula.toList = spell ts ++ last.cursor.rest := hsteps.rest
    have hlength : stuck.offset = (spell ts).length := by
      rw [hoffset, hsteps.offset]
      exact Nat.zero_add _
    constructor
    · have hpos := List.length_pos_iff.mpr hne
      rw [← String.length_toList, hrest, hlength, List.length_append]
      exact Nat.lt_add_of_pos_right hpos
    · show Covers 0 _ last.tokens
      rw [htokens, hrest, hlength, List.take_left]
      exact covers_place hsteps.nonempty 0

/-- What is done by moves of the cursor, a classifier does: it names the
    class and the number of characters between the two places. -/
theorem exists_classifier_of_reaches {scan : Cursor → History → Token.Kind × Cursor}
    (hscan : ∀ (c : Cursor) history, c.Reaches (scan c history).2) :
    ∃ classifier : Classifier, ∀ (c : Cursor) history,
      (classifier c history).1 = (scan c history).1 ∧
      c.advance (classifier c history).2 = (scan c history).2 ∧
      ((classifier c history).2 = 0 ↔ (scan c history).2.position ≤ c.position) := by
  refine ⟨fun c history => ((scan c history).1,
    c.rest.length - (scan c history).2.rest.length), fun c history => ⟨rfl, ?_, ?_⟩⟩
  · exact (hscan c history).advance_length
  · exact (hscan c history).position_le_iff.symm

/-- **THE TOKENS COVER THE FORMULA**: where a scan comes to its end its
    tokens cover the formula, and where the classifier is stuck they cover
    it up to that place, which is in front of the end; the classifier of
    formulas is never stuck.  What a classifier does by moves of the cursor
    is to name a class and a number of characters, none of them where the
    cursor does not move forward. -/
theorem tokens_cover (formula : String) :
    (∀ classifier : Classifier,
      (∀ tokens, tokenizeWith classifier formula = .ok tokens →
        Covers 0 formula.toList tokens) ∧
      (∀ stall, tokenizeWith classifier formula = .error stall →
        stall.offset < formula.length ∧
        Covers 0 (formula.toList.take stall.offset)
          ((Lexer.ofString formula).run classifier).1.tokens)) ∧
    (∃ tokens, tokenize formula = .ok tokens) ∧
    (∀ scan : Cursor → History → Token.Kind × Cursor,
      (∀ (c : Cursor) history, c.Reaches (scan c history).2) →
      ∃ classifier : Classifier, ∀ (c : Cursor) history,
        (classifier c history).1 = (scan c history).1 ∧
        c.advance (classifier c history).2 = (scan c history).2 ∧
        ((classifier c history).2 = 0 ↔ (scan c history).2.position ≤ c.position)) := by
  refine ⟨fun classifier => ⟨fun tokens h => ?_, fun stall h => ?_⟩, ?_, fun scan h => ?_⟩
  · exact covers_of_tokenizeWith h
  · exact covers_of_stall h
  · exact exists_tokenize formula
  · exact exists_classifier_of_reaches h

end FormulaBar
