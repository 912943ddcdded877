import FormulaBar.Proofs.Composition
import FormulaBar.Proofs.Role

/-! # Marking — the overlay shows all that is wrong

    The user sees a diagnostic where the overlay marks a token, so an index
    that is off would make it disappear.  Diagnostics get their indices in
    two ways: from the token at which the pass is, and from the frames left
    open at the end, each with the index of the token that opened it.  The
    frames carry their indices through the whole pass, and none is made up
    on the way.  So each diagnostic points at a token that is not
    whitespace, that token is marked, and no other is. -/

namespace FormulaBar

/-! ## Where diagnostics point -/

/-- The index is that of a token, and not of whitespace. -/
def PointsAt (tokens : List Token) (i : Nat) : Prop :=
  ∃ t, tokens[i]? = some t ∧ t.kind ≠ .whitespace

theorem pointsAt_of_mem_entries {tokens : List Token} {p : Entry}
    (h : p ∈ entries 0 tokens) : PointsAt tokens p.1 := by
  obtain ⟨ht, hsignificant⟩ := mem_entries_iff.mp h
  exact ⟨p.2, ht, bne_iff_ne.mp hsignificant⟩

namespace Context

variable {s : Context} {l : List Entry}

/-- What is reported on the way is wrong with the token where it is found. -/
theorem exists_cause_of_report {count : Nat} {d : Diagnostic} (h : d ∈ s.reports count l) :
    ∃ s' : Context, ∃ p ∈ l, d.token = p.1 ∧ d.cause ∈ s'.causes p.2 (p.1 + 1 == count) := by
  induction l generalizing s with
  | nil => cases h
  | cons p l ih =>
      rcases List.mem_append.mp h with hnew | hrest
      · obtain ⟨cause, hcause, rfl⟩ := List.mem_map.mp hnew
        exact ⟨s, p, List.mem_cons_self, rfl, hcause⟩
      · obtain ⟨s', q, hq, htoken, hcause⟩ := ih hrest
        exact ⟨s', q, List.mem_cons_of_mem p hq, htoken, hcause⟩

/-- What is reported on the way points at the token where it is found. -/
theorem exists_entry_of_report {count : Nat} {d : Diagnostic} (h : d ∈ s.reports count l) :
    ∃ p ∈ l, d.token = p.1 := by
  obtain ⟨-, p, hp, htoken, -⟩ := exists_cause_of_report h
  exact ⟨p, hp, htoken⟩

/-- A frame behind a run was open in front of it, or one of its tokens opened
    it. -/
theorem exists_entry_of_frame {f : Frame} (h : f ∈ (s.run l).frames) :
    f ∈ s.frames ∨ ∃ p ∈ l, f.opener = p.1 := by
  induction l generalizing s with
  | nil => exact Or.inl h
  | cons p l ih =>
      rcases ih h with hafter | ⟨q, hq, hopener⟩
      · rcases mem_framesAfter hafter with hs | ⟨hopener, -⟩
        · exact Or.inl hs
        · exact Or.inr ⟨p, List.mem_cons_self, hopener⟩
      · exact Or.inr ⟨q, List.mem_cons_of_mem p hq, hopener⟩

end Context

/-- **DIAGNOSTICS POINT AT TOKENS**: each has the index of a token that is not
    whitespace. -/
theorem pointsAt_of_mem_diagnose {tokens : List Token} {d : Diagnostic}
    (h : d ∈ diagnose tokens) : PointsAt tokens d.token := by
  rw [diagnose_eq_reports] at h
  rcases List.mem_append.mp h with hreport | hopen
  · obtain ⟨p, hp, htoken⟩ := Context.exists_entry_of_report hreport
    exact htoken ▸ pointsAt_of_mem_entries hp
  · obtain ⟨f, hf, rfl⟩ := List.mem_map.mp hopen
    rcases Context.exists_entry_of_frame (List.mem_reverse.mp hf) with hnil | ⟨p, hp, hopener⟩
    · -- nothing is open at the start
      cases hnil
    · exact hopener ▸ pointsAt_of_mem_entries hp

/-! ## The overlay -/

section

variable (tokens : List Token) (diagnostics : List Diagnostic)

/-- The overlay has one span for each token. -/
theorem length_highlight : (highlight tokens diagnostics).length = tokens.length := by
  rw [highlight, List.length_map, List.length_zipIdx]

/-- A span has the text and the class of its token, and the flag of its
    place. -/
theorem getElem?_highlight (i : Nat) :
    (highlight tokens diagnostics)[i]? = tokens[i]?.map fun t =>
      ⟨t.text, t.kind.name, (diagnostics.map (·.token)).contains i⟩ := by
  rw [highlight, List.getElem?_map, List.getElem?_zipIdx, Option.map_map, Nat.zero_add]
  refine Option.map_congr fun t _ => ?_
  simp only [Function.comp_apply, Std.HashSet.contains_ofList]

theorem map_text_highlight :
    (highlight tokens diagnostics).map (·.text) = tokens.map (·.text) := by
  refine List.ext_getElem? fun i => ?_
  rw [List.getElem?_map, List.getElem?_map, getElem?_highlight, Option.map_map]
  rfl

end

section

variable {tokens : List Token} {diagnostics : List Diagnostic} {i : Nat} {s : Span}

/-- A span is marked where some diagnostic points at its token. -/
theorem hasError_iff (h : (highlight tokens diagnostics)[i]? = some s) :
    s.hasError = true ↔ ∃ d ∈ diagnostics, d.token = i := by
  rw [getElem?_highlight] at h
  obtain ⟨t, -, rfl⟩ := Option.map_eq_some_iff.mp h
  rw [List.contains_iff_mem, List.mem_map]

/-- A diagnostic that points at a token has its span. -/
theorem exists_marked {d : Diagnostic} (h : d ∈ diagnostics)
    (hpoints : PointsAt tokens d.token) :
    ∃ s, (highlight tokens diagnostics)[d.token]? = some s ∧ s.hasError = true := by
  obtain ⟨t, ht, -⟩ := hpoints
  obtain ⟨s, hs⟩ : ∃ s, (highlight tokens diagnostics)[d.token]? = some s := by
    rw [getElem?_highlight, ht]
    exact ⟨_, rfl⟩
  exact ⟨s, hs, (hasError_iff hs).mpr ⟨d, h, rfl⟩⟩

/-- There are no diagnostics exactly where nothing is marked. -/
theorem diagnostics_eq_nil_iff (h : ∀ d ∈ diagnostics, PointsAt tokens d.token) :
    diagnostics = [] ↔ ∀ s ∈ highlight tokens diagnostics, s.hasError = false := by
  constructor
  · rintro rfl s hs
    obtain ⟨i, hi⟩ := List.mem_iff_getElem?.mp hs
    refine Bool.eq_false_iff.mpr fun hmarked => ?_
    obtain ⟨d, hd, -⟩ := (hasError_iff hi).mp hmarked
    cases hd
  · intro hclear
    refine List.eq_nil_iff_forall_not_mem.mpr fun d hd => ?_
    obtain ⟨s, hs, hmarked⟩ := exists_marked hd (h d hd)
    exact absurd hmarked (Bool.eq_false_iff.mp (hclear s (List.mem_of_getElem? hs)))

end

/-! ## Analyses -/

/-- An analysis always comes to its end. -/
theorem exists_analyze (inputs : Inputs) (formula : String) :
    ∃ a, analyze inputs formula = .ok a ∧
      tokenize (stripLineBreaks formula) = .ok a.tokens ∧
      a.diagnostics = diagnose a.tokens := by
  have htokens := tokenize_eq_ok (stripLineBreaks formula)
  have hscan : ((Lexer.ofString (stripLineBreaks formula)).tokenizeLogged classify).value =
      .ok (tokensOf (stripLineBreaks formula)) := htokens
  rw [analyze, analyzeLogged, hscan]
  exact ⟨_, rfl, htokens, rfl⟩

/-- What the overlay of an analysis grants: it shows the formula without
    line breaks, a span for each token, and marks a span where a diagnostic
    points at its token.  No diagnostic is lost that way. -/
structure Marks (formula : String) (a : Analysis) : Prop where
  text : (String.join (a.highlighted.map (·.text))).toList =
    formula.toList.filter fun c => c != '\r' && c != '\n'
  length : a.highlighted.length = a.tokens.length
  marked : ∀ i s, a.highlighted[i]? = some s →
    (s.hasError = true ↔ ∃ d ∈ a.diagnostics, d.token = i)
  pointsAt : ∀ d ∈ a.diagnostics, PointsAt a.tokens d.token
  shown : ∀ d ∈ a.diagnostics, ∃ s, a.highlighted[d.token]? = some s ∧ s.hasError = true
  isValid : a.isValid = true ↔ ∀ s ∈ a.highlighted, s.hasError = false

/-- **ALL THAT IS WRONG IS SHOWN**: any formula has an analysis, with the
    diagnostics of its tokens.  Each of them points at a token that is not
    whitespace, the overlay marks these tokens and no others, and so the
    formula is valid exactly where nothing in its overlay is marked. -/
theorem analyze_marks (inputs : Inputs) (formula : String) :
    ∃ a, analyze inputs formula = .ok a ∧
      tokenize (stripLineBreaks formula) = .ok a.tokens ∧
      a.diagnostics = diagnose a.tokens ∧ Marks formula a := by
  obtain ⟨a, ha, htokens, hdiagnostics⟩ := exists_analyze inputs formula
  -- a diagnostic of whitespace could not be marked
  have hpoints : ∀ d ∈ a.diagnostics, PointsAt a.tokens d.token := by
    intro d hd
    rw [hdiagnostics] at hd
    exact pointsAt_of_mem_diagnose hd
  refine ⟨a, ha, htokens, hdiagnostics, ?_⟩
  constructor
  · show (String.join ((highlight a.tokens a.diagnostics).map (·.text))).toList = _
    have hspell : spell a.tokens = (stripLineBreaks formula).toList :=
      (covers_of_tokenizeWith htokens).texts
    rw [stripLineBreaks, String.toList_ofList] at hspell
    rw [map_text_highlight, String.toList_join, List.flatMap_map]
    exact hspell
  · exact length_highlight a.tokens a.diagnostics
  · intro i s hs
    exact hasError_iff hs
  · exact hpoints
  · intro d hd
    exact exists_marked hd (hpoints d hd)
  · rw [Analysis.isValid, List.isEmpty_iff]
    exact diagnostics_eq_nil_iff hpoints

end FormulaBar
