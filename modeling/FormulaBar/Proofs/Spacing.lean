import FormulaBar.Proofs.Boundary

/-! # Spacing — spaces between the tokens

    Spaces come between tokens, or join those that are there already, and
    the significant tokens stay as they were.  For the tokens in front the
    spaces are a text that recedes: they prolong nothing and lead to the
    same square bracket as what stood there before.  For the tokens behind
    nothing changes at all, since spaces leave in mind what was there.

    The parser reads the classes and texts of the significant tokens, so
    the tree and the value stay, too. -/

namespace FormulaBar

/-! ## Spaces -/

/-- A token of spaces. -/
structure Token.IsSpaces (t : Token) : Prop where
  kind : t.kind = .whitespace
  nonempty : t.text.toList ≠ []
  blank : ∀ c ∈ t.text.toList, c = ' '

namespace Token.IsSpaces

variable {t : Token}

/-- A token of spaces starts with one. -/
theorem exists_cons (h : t.IsSpaces) : ∃ text, t.text.toList = ' ' :: text := by
  obtain ⟨c, text, htext⟩ := List.exists_cons_of_ne_nil h.nonempty
  obtain rfl := h.blank c (htext ▸ List.mem_cons_self)
  exact ⟨text, htext⟩

theorem head?_append (h : t.IsSpaces) (rest : List Char) :
    (t.text.toList ++ rest).head? = some ' ' := by
  obtain ⟨text, htext⟩ := h.exists_cons
  rw [htext]
  rfl

/-- No square bracket is among spaces. -/
theorem nextSquare_append (h : t.IsSpaces) (rest : List Char) :
    nextSquare (t.text.toList ++ rest) = nextSquare rest := by
  rw [FormulaBar.nextSquare_append, nextSquare_of_forall]
  · rfl
  · intro c hc
    rw [h.blank c hc]
    decide

/-- Spaces take the place of a text that leads to the same square bracket. -/
theorem recedes {rest rest' : List Char} (h : t.IsSpaces)
    (hsquare : nextSquare rest' = nextSquare rest) :
    Recedes rest' (t.text.toList ++ rest) where
  stops := by rw [h.head?_append]; rfl
  closes := by rw [h.nextSquare_append, hsquare]; exact id

end Token.IsSpaces

section

variable {m : Memory} {t u : Token} {ts us : List Token} {rest : List Char}

/-- Whitespace that is read off a text is a run of spaces. -/
theorem Next.isSpaces (h : Next m t rest) (hk : t.kind = .whitespace) : t.IsSpaces :=
  ⟨hk, h.toList_ne_nil, (h.whitespace hk).1⟩

/-- Behind a bracket that opens a reference, spaces are read where the next
    square bracket does not close. -/
theorem Next.nextSquare_of_whitespace (h : Next .bracket t rest) (hk : t.kind = .whitespace) :
    nextSquare rest ≠ some ']' := by
  intro hsquare
  rw [← (h.isSpaces hk).nextSquare_append rest] at hsquare
  obtain ⟨-, name, tail, heq, hall⟩ := List.find?_eq_some_iff_append.mp hsquare
  refine h.no_reference_of_whitespace hk (fun c hc => ?_) heq
  simpa using hall c hc

/-- A text that starts with a space starts with a run of spaces. -/
theorem exists_spaces_run {text : List Char} (h : text.head? = some ' ') :
    ∃ run after, text = run ++ after ∧ (run ≠ [] ∧ ∀ c ∈ run, c = ' ') ∧
      after.head? ≠ some ' ' := by
  obtain ⟨tail, rfl⟩ := List.head?_eq_some_iff.mp h
  refine ⟨(' ' :: tail).takeWhile (· == ' '), (' ' :: tail).dropWhile (· == ' '),
    List.takeWhile_append_dropWhile.symm, ⟨List.cons_ne_nil _ _, fun c hc => ?_⟩,
    fun hhead => ?_⟩
  · exact beq_iff_eq.mp (List.mem_takeWhile_imp (p := (· == ' ')) hc)
  · have hstop := List.head?_dropWhile_not (· == ' ') (' ' :: tail)
    rw [hhead] at hstop
    cases hstop

/-- Other spaces may stand where spaces are read. -/
theorem Next.respace (h : Next m t rest) (ht : t.kind = .whitespace) (hu : u.IsSpaces) :
    Next m u rest := by
  obtain ⟨text, htext⟩ := hu.exists_cons
  have hspace : Stands.Separates ' ' := ⟨by decide, by decide, by decide, by decide, by decide⟩
  have hquote : m ≠ .quote := by
    rintro rfl
    rcases h.kind_of_quote with hk | hk
    · cases ht.symm.trans hk
    · cases ht.symm.trans hk
  refine Stands.next_of_classify htext fun cursor history hrest hpeek hm => ?_
  have hchain := hspace.outsideChain hrest (hm ▸ hquote)
  have hrest' : cursor.rest = u.text.toList ++ rest := by rw [hrest, htext]; rfl
  have hmatch : cursor.match? .spaces = some (' ' :: text) := by
    refine Cursor.match?_eq_some.mpr ⟨?_, List.cons_ne_nil _ _⟩
    -- the new spaces end where the old ones did
    have hstop : rest.takeWhile (· == ' ') = [] := by
      cases hrest : rest with
      | nil => rfl
      | cons d rest =>
          refine List.takeWhile_cons_of_neg fun hd => (h.whitespace ht).2 ?_
          rw [hrest, ← beq_iff_eq.mp hd]
          rfl
    rw [hrest', ← htext]
    show List.takeWhile (· == ' ') (u.text.toList ++ rest) = _
    rw [List.takeWhile_append_of_pos (fun c hc => beq_iff_eq.mpr (hu.blank c hc)), hstop,
      List.append_nil]
  rw [hu.kind]
  refine Rule.classify_eq (.whitespace ⟨hchain, fun hopener => ?_, hspace.no_identifier hrest⟩
    (by decide) (by decide) hmatch) ?_
  · -- spaces hide no reference name, and the old ones had none ahead
    obtain rfl := hm.symm.trans (History.any_isBracket_iff.mp hopener)
    refine Classical.byContradiction fun hsome => ?_
    have hsquare := (referenceAhead?_ne_none_iff.mp hsome).1
    rw [hrest', hu.nextSquare_append] at hsquare
    exact h.nextSquare_of_whitespace ht hsquare
  · rintro (hk | hk)
    · cases hk
    · cases hk

/-- In front of a space there is no token that needs something else there. -/
theorem Next.mayEnd (h : Next m t rest) (hspace : rest.head? = some ' ') (rest' : List Char) :
    t.kind.MayEnd rest' := by
  refine ⟨fun hk => ?_, fun hk => ?_, ?_⟩
  · cases hspace.symm.trans (h.head?_of_functionName hk)
  · cases hspace.symm.trans (h.referenceName hk).2.2
  · rintro (hk | hk)
    · have hquote := (h.string hk).2
      rw [hspace] at hquote
      cases hquote
    · exact absurd hspace (h.whitespace hk).2

/-- The spaces between tokens may be others. -/
theorem Lexed.respace (h : Lexed m (ts ++ t :: us) rest) (ht : t.kind = .whitespace)
    (hu : u.IsSpaces) : Lexed m (ts ++ u :: us) rest := by
  obtain ⟨hfront, hspaces, hback⟩ := lexed_append.mp h
  have ht' := hspaces.isSpaces ht
  rw [Memory.after_of_whitespace ht] at hback
  refine lexed_append.mpr ⟨?_, hspaces.respace ht hu, ?_⟩
  · rw [spell_cons, List.append_assoc] at hfront ⊢
    refine hfront.recede (hu.recedes (ht'.nextSquare_append _)) fun v hv => ?_
    obtain ⟨m', hnext⟩ := hfront.next_of_getLast? hv
    exact hnext.mayEnd (ht'.head?_append _) _
  · rw [Memory.after_of_whitespace hu.kind]
    exact hback

/-- Outside of texts and references what starts with a space is whitespace. -/
theorem Next.kind_of_space (h : Next m t rest) (hm : m ≠ .quote ∧ m ≠ .bracket)
    (hspace : (t.text.toList ++ rest).head? = some ' ') : t.kind = .whitespace := by
  obtain ⟨run, after, hsplit, hrun, hafter⟩ := exists_spaces_run hspace
  have htext : (Token.ofText .whitespace (.ofList run)).text.toList = run :=
    String.toList_ofList
  have hspaces : Next m (.ofText .whitespace (.ofList run)) after :=
    Stands.next_whitespace rfl (by rw [htext]; exact hrun) hm hafter
  exact (h.unique hspaces (by rw [htext, hsplit])).1

/-- What comes first in a text that starts with no whitespace token is no
    space. -/
theorem Lexed.head?_ne_space (h : Lexed m ts []) (hm : m ≠ .quote ∧ m ≠ .bracket)
    (hts : ∀ t, ts.head? = some t → t.kind ≠ .whitespace) :
    (spell ts).head? ≠ some ' ' := by
  cases ts with
  | nil => nofun
  | cons t ts =>
      intro hspace
      have ht : Next m t (spell ts ++ []) := h.1
      refine hts t rfl (ht.kind_of_space hm ?_)
      rw [List.append_nil, ← spell_cons]
      exact hspace

/-- What a token grants that may have spaces behind it. -/
structure Token.Separable (t : Token) : Prop where
  startQuote : t.kind ≠ .startQuote
  string : t.kind ≠ .string
  functionName : t.kind ≠ .functionName
  referenceName : t.kind ≠ .referenceName
  openBracket : t.isBracket '[' = false

instance (t : Token) : Decidable t.Separable :=
  decidable_of_iff (t.kind ≠ .startQuote ∧ t.kind ≠ .string ∧ t.kind ≠ .functionName ∧
      t.kind ≠ .referenceName ∧ t.isBracket '[' = false)
    ⟨fun h => ⟨h.1, h.2.1, h.2.2.1, h.2.2.2.1, h.2.2.2.2⟩,
      fun h => ⟨h.startQuote, h.string, h.functionName, h.referenceName, h.openBracket⟩⟩

/-- Behind a token that may be separated neither a quote nor a bracket is in
    mind. -/
theorem Token.Separable.memory (h : t.Separable) : t.memory ≠ .quote ∧ t.memory ≠ .bracket := by
  refine ⟨fun hm => h.startQuote (memory_eq_quote.mp hm), fun hm => ?_⟩
  cases h.openBracket.symm.trans (memory_eq_bracket.mp hm)

/-- Spaces may come between tokens where there were none. -/
theorem Lexed.space (h : Lexed .other (ts ++ us) []) (hu : u.IsSpaces)
    (hlast : ∀ t, ts.getLast? = some t → t.Separable ∧ t.kind ≠ .whitespace)
    (hhead : ∀ t, us.head? = some t → t.kind ≠ .whitespace) :
    Lexed .other (ts ++ u :: us) [] := by
  obtain ⟨hfront, hback⟩ := lexed_append.mp h
  have hm : Memory.afterAll .other ts ≠ .quote ∧ Memory.afterAll .other ts ≠ .bracket := by
    rcases List.eq_nil_or_concat ts with rfl | ⟨init, t, rfl⟩
    · decide
    · rw [List.concat_eq_append] at hlast ⊢
      obtain ⟨ht, hspace⟩ := hlast t List.getLast?_concat
      rw [Memory.afterAll_append, Memory.afterAll_cons, Memory.afterAll_nil,
        Memory.after_of_kind rfl hspace]
      exact ht.memory
  refine lexed_append.mpr ⟨?_, ?_, ?_⟩
  · rw [spell_cons, List.append_assoc]
    refine hfront.recede (hu.recedes rfl) fun t ht => ?_
    obtain ⟨hsep, hspace⟩ := hlast t ht
    exact ⟨hsep.functionName, hsep.referenceName, fun hk => hk.elim
      (fun hk => absurd hk hsep.string) fun hk => absurd hk hspace⟩
  · refine Stands.next_whitespace hu.kind ⟨hu.nonempty, hu.blank⟩ hm ?_
    rw [List.append_nil]
    exact hback.head?_ne_space hm hhead
  · rw [Memory.after_of_whitespace hu.kind]
    exact hback

end

/-! ## Formulas with more spaces -/

/-- A token of the spaces `text`. -/
def Token.ofSpaces (text : List Char) : Token :=
  .ofText .whitespace (.ofList text)

theorem Token.toList_ofSpaces (text : List Char) : (ofSpaces text).text.toList = text :=
  String.toList_ofList

theorem Token.isSpaces_ofSpaces {text : List Char} (hne : text ≠ [])
    (hblank : ∀ c ∈ text, c = ' ') : (ofSpaces text).IsSpaces :=
  ⟨rfl, by rwa [toList_ofSpaces], by rwa [toList_ofSpaces]⟩

section

variable {left right : List Token} {t : Token} {text : List Char} {n : Nat}

theorem spell_ofSpaces (left right : List Token) (text : List Char) :
    spell (left ++ .ofSpaces text :: right) = spell left ++ (text ++ spell right) := by
  rw [spell_append, spell_cons, Token.toList_ofSpaces]

/-- Whitespace between tokens leaves the significant ones. -/
theorem significant_of_whitespace (left right : List Token) (ht : t.kind = .whitespace) :
    significant (left ++ t :: right) = significant (left ++ right) := by
  rw [significant_append, significant_cons_of_whitespace right ht, significant_append]

/-- Where there are spaces between two parts of a formula there may be
    others. -/
theorem exists_respaced (h : Lexed .other (left ++ t :: right) []) (ht : t.kind = .whitespace)
    (hne : text ≠ []) (hblank : ∀ c ∈ text, c = ' ') :
    ∃ ts, Lexed .other ts [] ∧ spell ts = spell left ++ (text ++ spell right) ∧
      significant ts = significant (left ++ t :: right) := by
  refine ⟨left ++ .ofSpaces text :: right, h.respace ht (Token.isSpaces_ofSpaces hne hblank),
    spell_ofSpaces left right text, ?_⟩
  rw [significant_of_whitespace left right rfl, significant_of_whitespace left right ht]

/-- Where spaces come between two parts of a formula the significant tokens
    stay.  The spaces join those that are there already. -/
theorem exists_spaced (hn : n ≠ 0) (h : Lexed .other (left ++ right) [])
    (hleft : ∀ t, left.getLast? = some t → t.Separable) :
    ∃ ts, Lexed .other ts [] ∧ spell ts = spell left ++ (List.replicate n ' ' ++ spell right) ∧
      significant ts = significant (left ++ right) := by
  have hne : List.replicate n ' ' ≠ [] := mt (List.replicate_eq_nil_iff ' ').mp hn
  have hblank : ∀ c ∈ List.replicate n ' ', c = ' ' := fun c hc => List.eq_of_mem_replicate hc
  by_cases hlast : ∃ t, left.getLast? = some t ∧ t.kind = .whitespace
  · -- spaces at the end of the first part are prolonged
    obtain ⟨t, ht, hk⟩ := hlast
    obtain ⟨init, rfl⟩ := List.getLast?_eq_some_iff.mp ht
    rw [List.append_assoc, List.singleton_append] at h ⊢
    have htext := (lexed_append.mp h).2.1.isSpaces hk
    obtain ⟨ts, hts, hspell, hsignificant⟩ := exists_respaced h hk
      (mt List.append_eq_nil_iff.mp fun hnil => hne hnil.2)
      (List.forall_mem_append.mpr ⟨htext.blank, hblank⟩)
    refine ⟨ts, hts, ?_, hsignificant⟩
    rw [hspell, spell_append, spell_cons, spell_nil, List.append_nil, List.append_assoc,
      List.append_assoc]
  by_cases hhead : ∃ t, right.head? = some t ∧ t.kind = .whitespace
  · -- spaces at the start of the second part are prolonged
    obtain ⟨t, ht, hk⟩ := hhead
    obtain ⟨us, rfl⟩ := List.head?_eq_some_iff.mp ht
    have htext := (lexed_append.mp h).2.1.isSpaces hk
    obtain ⟨ts, hts, hspell, hsignificant⟩ := exists_respaced h hk
      (mt List.append_eq_nil_iff.mp fun hnil => hne hnil.1)
      (List.forall_mem_append.mpr ⟨hblank, htext.blank⟩)
    refine ⟨ts, hts, ?_, hsignificant⟩
    rw [hspell, spell_cons, List.append_assoc]
  · -- the spaces are a token of their own
    refine ⟨left ++ .ofSpaces (List.replicate n ' ') :: right,
      h.space (Token.isSpaces_ofSpaces hne hblank)
        (fun t ht => ⟨hleft t ht, fun hk => hlast ⟨t, ht, hk⟩⟩)
        (fun t ht hk => hhead ⟨t, ht, hk⟩), spell_ofSpaces _ _ _,
      significant_of_whitespace left right rfl⟩

end

/-- Tokens with the same significant texts have the same tree, or none. -/
theorem parse_of_lexemes {tokens tokens' : List Token}
    (h : (significant tokens').map Token.lexeme = (significant tokens).map Token.lexeme)
    (e : Expr) : parse tokens' = .ok e ↔ parse tokens = .ok e :=
  ⟨fun he => parse_of_derives (Nat.le_refl _) ((derives_of_parse he).of_lexemes h.symm),
    fun he => parse_of_derives (Nat.le_refl _) ((derives_of_parse he).of_lexemes h)⟩

/-- What has the same trees has the same value. -/
theorem evaluate_of_parse {tokens tokens' : List Token}
    (h : ∀ e, parse tokens' = .ok e ↔ parse tokens = .ok e) (inputs : Inputs) :
    evaluate inputs tokens' = evaluate inputs tokens :=
  evaluate_of_values (fun e he => ⟨e, (h e).mpr he, rfl⟩) fun e he => ⟨e, (h e).mp he⟩

/-- **SPACES BETWEEN TOKENS DO NOT MATTER**: any number of spaces may come
    where a token ends, or in front of the formula, but for the ends of start
    quotes, strings, names of functions and references and of the bracket that
    opens a reference.  The significant tokens keep their classes and texts, so
    the formula has the same tree, or none as before, and the same value. -/
theorem significant_spaced {s t : String} {tokens : List Token} (n : Nat)
    (h : tokenize (s ++ t) = .ok tokens) (hs : IsBoundary tokens s.length)
    (hleft : ∀ u ∈ tokens, u.stop + 1 = s.length → u.Separable) :
    ∃ tokens', tokenize (s ++ String.ofList (List.replicate n ' ') ++ t) = .ok tokens' ∧
      (significant tokens').map Token.lexeme = (significant tokens).map Token.lexeme ∧
      (∀ e, parse tokens' = .ok e ↔ parse tokens = .ok e) ∧
      ∀ inputs, evaluate inputs tokens' = evaluate inputs tokens := by
  obtain ⟨tokens', htokens', hlexemes⟩ : ∃ tokens',
      tokenize (s ++ String.ofList (List.replicate n ' ') ++ t) = .ok tokens' ∧
      (significant tokens').map Token.lexeme = (significant tokens).map Token.lexeme := by
    by_cases hn : n = 0
    · subst hn
      exact ⟨tokens, by simpa using h, rfl⟩
    obtain ⟨left, right, rfl, hlength, hlast⟩ := exists_split_of_isBoundary h hs
    obtain ⟨hlexed, hspell⟩ := lexed_of_tokenize h
    rw [spell_append, String.toList_append] at hspell
    rw [← String.length_toList] at hlength
    obtain ⟨hfront, hback⟩ := List.append_inj hspell hlength
    obtain ⟨ts, hts, hspell', hsignificant⟩ := exists_spaced hn hlexed fun u hu =>
      hleft u (List.mem_append_left _ (List.mem_of_getLast? hu)) (hlast u hu)
    refine ⟨place 0 ts, tokenize_of_lexed hts ?_, ?_⟩
    · rw [hspell', hfront, hback]
      simp
    · rw [map_lexeme_significant (map_lexeme_place 0 ts), hsignificant]
  have hparse := parse_of_lexemes hlexemes
  exact ⟨tokens', htokens', hlexemes, hparse, evaluate_of_parse hparse⟩

/-- A minus sign belongs to its number over any spaces behind an operator. -/
theorem significant_spaced_sign :
    ∃ tokens tokens', tokenize ("[a b]*" ++ " -1") = .ok tokens ∧
      IsBoundary tokens "[a b]*".length ∧
      (∀ u ∈ tokens, u.stop + 1 = "[a b]*".length → u.Separable) ∧
      tokenize ("[a b]*" ++ String.ofList (List.replicate 2 ' ') ++ " -1") = .ok tokens' ∧
      (significant tokens').map Token.lexeme = (significant tokens).map Token.lexeme ∧
      (significant tokens).map Token.lexeme = [(.bracket, "["), (.referenceName, "a b"),
        (.bracket, "]"), (.operator, "*"), (.number, "-1")] ∧
      (∀ e, parse tokens' = .ok e ↔ parse tokens = .ok e) ∧
      ∀ inputs, evaluate inputs tokens' = evaluate inputs tokens := by
  obtain ⟨tokens, htokens, rfl⟩ : ∃ tokens, tokenize ("[a b]*" ++ " -1") = .ok tokens ∧
      tokens = [⟨.bracket, "[", 0, 0⟩, ⟨.referenceName, "a b", 1, 3⟩, ⟨.bracket, "]", 4, 4⟩,
        ⟨.operator, "*", 5, 5⟩, ⟨.whitespace, " ", 6, 6⟩, ⟨.number, "-1", 7, 8⟩] :=
    ⟨_, by decide +kernel, rfl⟩
  obtain ⟨tokens', htokens', hlexemes, hparse, hvalue⟩ :=
    significant_spaced 2 htokens (by decide) (by decide)
  exact ⟨_, tokens', htokens, by decide, by decide, htokens', hlexemes, by decide, hparse, hvalue⟩

end FormulaBar
