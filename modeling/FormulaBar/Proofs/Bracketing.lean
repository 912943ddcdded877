import FormulaBar.Proofs.Obstacle

/-! # Bracketing — the brackets that are open at a position

    Which brackets are open is said of the tokens alone, without a pass
    that reports anything: an opening bracket is open up to the closing one
    that takes it off, whatever its kind.  Positions count significant
    tokens, and position `p` is right in front of the token `p`.  On a
    formula without diagnostics the frames of the pass, but for the quotes,
    are exactly these brackets. -/

namespace FormulaBar

/-! ## Positions -/

/-- Whether the token at the position is the bracket `b`. -/
def bracketAt (tokens : List Token) (b : Char) (p : Nat) : Bool :=
  tokens[p]?.any fun t => t.isBracket b

/-- The positions of the brackets that are open in front of a position, the
    innermost first. -/
def openBrackets (tokens : List Token) : Nat → List Nat
  | 0 => []
  | p + 1 =>
      if bracketAt tokens '(' p || bracketAt tokens '[' p then
        p :: openBrackets tokens p
      else if bracketAt tokens ')' p || bracketAt tokens ']' p then
        (openBrackets tokens p).tail
      else openBrackets tokens p

/-- Whether the token in front of the position is a function name. -/
def behindName (tokens : List Token) : Nat → Bool
  | 0 => false
  | p + 1 => tokens[p]?.any fun t => t.kind == .functionName

/-- Whether a parenthesis at the position groups: it belongs to no call. -/
def opensGroup (tokens : List Token) (p : Nat) : Bool :=
  bracketAt tokens '(' p && !behindName tokens p

/-- Whether a parenthesis at the position opens a call without arguments. -/
def opensEmptyCall (tokens : List Token) (p : Nat) : Bool :=
  bracketAt tokens '(' p && behindName tokens p && bracketAt tokens ')' (p + 1)

/-- The number of parentheses that are open at a position, without those of
    calls that have no arguments. -/
def nestingAt (tokens : List Token) (p : Nat) : Nat :=
  (openBrackets tokens p).countP fun q =>
    bracketAt tokens '(' q && !opensEmptyCall tokens q

variable {tokens : List Token} {p q : Nat}

theorem bracketAt_iff {b : Char} :
    bracketAt tokens b p = true ↔ ∃ t, tokens[p]? = some t ∧ t.isBracket b = true :=
  Option.any_eq_true _ _

/-- A token is one bracket at most. -/
theorem bracketAt_unique {b c : Char} (hb : bracketAt tokens b p = true)
    (hc : bracketAt tokens c p = true) : b = c := by
  obtain ⟨t, ht, hb⟩ := bracketAt_iff.mp hb
  obtain ⟨u, hu, hc⟩ := bracketAt_iff.mp hc
  obtain rfl := Option.some.inj (ht.symm.trans hu)
  exact Token.isBracket_unique hb hc

theorem lt_of_mem_openBrackets (h : q ∈ openBrackets tokens p) : q < p := by
  induction p with
  | zero => cases h
  | succ p ih =>
      rw [openBrackets] at h
      split at h
      · rcases List.mem_cons.mp h with rfl | h
        · exact Nat.lt_succ_self _
        · exact Nat.lt_succ_of_lt (ih h)
      split at h
      · exact Nat.lt_succ_of_lt (ih (List.mem_of_mem_tail h))
      · exact Nat.lt_succ_of_lt (ih h)

/-- Behind an opening parenthesis it is the innermost bracket. -/
theorem openBrackets_openParen (h : bracketAt tokens '(' p = true) :
    openBrackets tokens (p + 1) = p :: openBrackets tokens p := by
  rw [openBrackets, h]
  rfl

/-- The parenthesis of an empty call is open only right behind it. -/
theorem eq_succ_of_opensEmptyCall (hempty : opensEmptyCall tokens q = true)
    (h : q ∈ openBrackets tokens p) : p = q + 1 := by
  simp only [opensEmptyCall, Bool.and_eq_true] at hempty
  obtain ⟨⟨hparen, -⟩, hcloser⟩ := hempty
  induction p with
  | zero => cases h
  | succ p ih =>
      rw [openBrackets] at h
      split at h
      · next hopener =>
          rcases List.mem_cons.mp h with rfl | h
          · rfl
          · -- the token behind `q` closes, so it opens nothing
            rw [← ih h] at hcloser
            rcases Bool.or_eq_true_iff.mp hopener with hopener | hopener
            · exact absurd (bracketAt_unique hopener hcloser) (by decide)
            · exact absurd (bracketAt_unique hopener hcloser) (by decide)
      next hopener =>
      split at h
      · next hclose =>
          -- the closer right behind `q` takes `q` off
          obtain rfl := ih (List.mem_of_mem_tail h)
          rw [openBrackets_openParen hparen] at h
          exact absurd (lt_of_mem_openBrackets h) (Nat.lt_irrefl _)
      next hclose =>
        rw [ih h] at hclose
        rw [hcloser] at hclose
        exact absurd rfl hclose

/-- The parentheses that count are all that are open, but for the one of an
    empty call right in front of the position. -/
theorem nestingAt_succ :
    nestingAt tokens (p + 1)
      = (openBrackets tokens (p + 1)).countP (bracketAt tokens '(')
        - if opensEmptyCall tokens p then 1 else 0 := by
  have hcounts : ∀ l : List Nat, (∀ q ∈ l, q ∈ openBrackets tokens (p + 1)) →
      (∀ q ∈ l, opensEmptyCall tokens q = true → q ≠ p) →
      (l.countP fun q => bracketAt tokens '(' q && !opensEmptyCall tokens q)
        = l.countP (bracketAt tokens '(') := by
    intro l hmem hne
    refine List.countP_congr fun q hq => ?_
    have hfull : opensEmptyCall tokens q = false := by
      refine Bool.eq_false_iff.mpr fun hempty => ?_
      have heq := eq_succ_of_opensEmptyCall hempty (hmem q hq)
      exact hne q hq hempty (Nat.succ.inj heq).symm
    rw [hfull]
    simp
  rw [nestingAt]
  cases hempty : opensEmptyCall tokens p with
  | false =>
      -- the only candidate is the position in front, and it is no empty call
      refine hcounts _ (fun q hq => hq) fun q _ hq heq => ?_
      rw [heq, hempty] at hq
      cases hq
  | true =>
      have hparen : bracketAt tokens '(' p = true := by
        simp only [opensEmptyCall, Bool.and_eq_true] at hempty
        exact hempty.1.1
      -- the empty call is the innermost; all others are open behind it
      have hopen := openBrackets_openParen hparen
      have htail := hcounts (openBrackets tokens p)
        (fun q hq => hopen ▸ List.mem_cons_of_mem p hq)
        (fun q hq _ => Nat.ne_of_lt (lt_of_mem_openBrackets hq))
      rw [hopen, List.countP_cons_of_neg (by simp [hempty]), htail,
        List.countP_cons_of_pos hparen]
      rfl

/-! ## Frames and open brackets -/

/-- The kind of frame that a bracket at the position opens. -/
def frameKind (tokens : List Token) (p : Nat) : Frame.Kind :=
  if bracketAt tokens '(' p then
    if behindName tokens p then .call else .group
  else .reference

namespace Context

variable {s : Context} {t : Token} {count : Nat} {l : List Entry}

/-- The kinds of the brackets among the frames. -/
def bracketKinds (frames : List Frame) : List Frame.Kind :=
  (frames.map (·.kind)).filter (· != .quote)

/-- Taking off a frame of a bracket takes off a bracket. -/
theorem bracketKinds_tail {k : Frame.Kind} (hk : k ≠ .quote)
    (h : s.innermost = some k) :
    bracketKinds s.frames.tail = (bracketKinds s.frames).tail := by
  obtain ⟨f, hf, rfl⟩ := Option.map_eq_some_iff.mp h
  obtain ⟨fs, hfs⟩ := List.head?_eq_some_iff.mp hf
  simp [bracketKinds, hfs, hk]

/-- Taking off a quote leaves the brackets. -/
theorem bracketKinds_tail_quote (h : s.innermost = some .quote) :
    bracketKinds s.frames.tail = bracketKinds s.frames := by
  obtain ⟨f, hf, hk⟩ := Option.map_eq_some_iff.mp h
  obtain ⟨fs, hfs⟩ := List.head?_eq_some_iff.mp hf
  simp [bracketKinds, hfs, hk]

/-- The innermost parentheses are those of a group or of a call. -/
theorem inParentheses_iff :
    s.inParentheses = true ↔ s.innermost = some .group ∨ s.innermost = some .call := by
  simp [inParentheses]

/-- What a silent token does to the brackets that are open. -/
theorem bracketKinds_framesAfter {last : Bool} (i : Nat) (h : s.causes t last = []) :
    bracketKinds (s.framesAfter i t)
      = if t.isBracket '(' then
          (if s.isBehind .functionName then .call else .group) :: bracketKinds s.frames
        else if t.isBracket '[' then .reference :: bracketKinds s.frames
        else if t.isBracket ')' || t.isBracket ']' then (bracketKinds s.frames).tail
        else bracketKinds s.frames := by
  by_cases hopen : t.isBracket '(' = true
  · rw [if_pos hopen, framesAfter_openParen i hopen]
    cases s.isBehind .functionName with
    | true => rfl
    | false => rfl
  by_cases hopen' : t.isBracket '[' = true
  · rw [if_neg hopen, if_pos hopen', framesAfter_openBracket i hopen']
    rfl
  by_cases hclose : t.isBracket ')' = true
  · have hin := ((causes_closeParen hclose).mp h).1
    rw [if_neg hopen, if_neg hopen', hclose, framesAfter_closeParen i hclose hin]
    rcases inParentheses_iff.mp hin with hin | hin
    · exact bracketKinds_tail (by decide) hin
    · exact bracketKinds_tail (by decide) hin
  by_cases hclose' : t.isBracket ']' = true
  · have hin := ((causes_closeBracket hclose').mp h).1
    rw [if_neg hopen, if_neg hopen', hclose', Bool.or_true,
      framesAfter_closeBracket i hclose' hin]
    exact bracketKinds_tail (by decide) hin
  · -- quotes come and go in the frames and are left out
    have hneither : ¬ (t.isBracket ')' || t.isBracket ']') = true := by
      simp [hclose, hclose']
    rw [if_neg hopen, if_neg hopen', if_neg hneither, framesAfter]
    simp only [hopen, hopen', hclose, hclose', Bool.false_eq_true, if_false]
    split
    · rfl
    split
    · split
      · next hquote => exact bracketKinds_tail_quote hquote
      · rfl
    · rfl

/-- The place in front of an entry. -/
theorem site_at (hsite : Site count {} l) (hp : p < l.length) :
    Site count (run {} (l.take p)) (l[p] :: l.drop (p + 1)) := by
  rw [← List.take_append_drop p l, List.drop_eq_getElem_cons hp] at hsite
  exact hsite.run

/-- The run goes on by one entry from each position to the next. -/
theorem run_take_succ (s : Context) (hp : p < l.length) :
    s.run (l.take (p + 1)) = (s.run (l.take p)).after l[p].1 l[p].2 := by
  rw [List.take_succ_eq_append_getElem hp, run_append]
  rfl

theorem bracketAt_map (b : Char) (hp : p < l.length) :
    bracketAt (l.map Prod.snd) b p = l[p].2.isBracket b := by
  simp [bracketAt, hp]

theorem isBehind_run (hp : p ≤ l.length) :
    (run {} (l.take p)).isBehind .functionName = behindName (l.map Prod.snd) p := by
  cases p with
  | zero => rfl
  | succ p =>
      have hlt : p < l.length := hp
      rw [run_take_succ {} hlt, isBehind_after]
      simp [behindName, hlt]

/-- **FRAMES ARE OPEN BRACKETS**: at each place of a formula without
    diagnostics, the brackets among the frames are those that are open. -/
theorem bracketKinds_run (hsite : Site count {} l) (hp : p ≤ l.length) :
    bracketKinds (run {} (l.take p)).frames
      = (openBrackets (l.map Prod.snd) p).map (frameKind (l.map Prod.snd)) := by
  induction p with
  | zero => rfl
  | succ p ih =>
      have hlt : p < l.length := hp
      have hcauses := (quiet_cons.mp (site_at hsite hlt).quiet).1
      rw [run_take_succ {} hlt, frames_after, bracketKinds_framesAfter _ hcauses,
        ih (Nat.le_of_lt hlt), isBehind_run (Nat.le_of_lt hlt), openBrackets]
      simp only [bracketAt_map _ hlt]
      by_cases hopen : l[p].2.isBracket '(' = true
      · simp [hopen, frameKind, bracketAt_map _ hlt]
      by_cases hopen' : l[p].2.isBracket '[' = true
      · simp [hopen, hopen', frameKind, bracketAt_map _ hlt]
      by_cases hclose : (l[p].2.isBracket ')' || l[p].2.isBracket ']') = true
      · simp [hopen, hopen', hclose]
      · simp [hopen, hopen', hclose]

/-! ## Nesting -/

/-- The open parentheses are the groups and the calls among the brackets. -/
theorem openParens_eq_countP (fs : List Frame) :
    openParens fs = (bracketKinds fs).countP fun k => k == .group || k == .call := by
  rw [openParens, bracketKinds, List.countP_filter, List.countP_map]
  refine List.countP_congr fun f _ => ?_
  cases hk : f.kind <;> simp [hk]

/-- On a formula without diagnostics the run has as many parentheses open as
    the tokens. -/
theorem openParens_run (hsite : Site count {} l) (hp : p ≤ l.length) :
    openParens (run {} (l.take p)).frames
      = (openBrackets (l.map Prod.snd) p).countP (bracketAt (l.map Prod.snd) '(') := by
  rw [openParens_eq_countP, bracketKinds_run hsite hp, List.countP_map]
  refine List.countP_congr fun q _ => ?_
  simp only [Function.comp_apply, frameKind]
  by_cases hq : bracketAt (l.map Prod.snd) '(' q = true
  · rw [if_pos hq, hq]
    cases behindName (l.map Prod.snd) q <;> simp
  · rw [if_neg hq]
    simp [hq]

/-- The pass is at an empty call right behind the parenthesis of a call. -/
theorem atEmptyCall_run (hsite : Site count {} l) (hp : p < l.length) :
    (run {} (l.take (p + 1))).atEmptyCall = true ↔
      bracketAt (l.map Prod.snd) '(' p = true ∧ behindName (l.map Prod.snd) p = true := by
  rw [run_take_succ {} hp, bracketAt_map _ hp, ← isBehind_run (Nat.le_of_lt hp)]
  have hframes : ∀ call, (run {} (l.take p)).isBehind .functionName = call →
      l[p].2.isBracket '(' = true →
      ((run {} (l.take p)).after l[p].1 l[p].2).frames
        = ⟨if call then .call else .group, l[p].1⟩ :: (run {} (l.take p)).frames := by
    rintro call rfl hparen
    exact framesAfter_openParen _ hparen
  constructor
  · intro hempty
    have hparen := (site_at hsite hp).isBracket_of_atEmptyCall hempty
    refine ⟨hparen, ?_⟩
    cases hname : (run {} (l.take p)).isBehind .functionName with
    | true => rfl
    | false =>
        rw [atEmptyCall, hframes false hname hparen] at hempty
        cases hempty
  · rintro ⟨hparen, hname⟩
    exact atEmptyCall_of_frames (hframes true hname hparen) rfl

/-- Behind an entry the run leaves an empty call where the tokens open one. -/
theorem leavesEmptyCall_run (hsite : Site count {} l) (hp : p < l.length) :
    (run {} (l.take (p + 1))).leavesEmptyCall (l.drop (p + 1))
      = opensEmptyCall (l.map Prod.snd) p := by
  have hcloser : (l.drop (p + 1)).head?.any (fun q => q.2.isBracket ')')
      = bracketAt (l.map Prod.snd) ')' (p + 1) := by
    rw [List.head?_drop, bracketAt, List.getElem?_map, Option.any_map]
  have hempty := atEmptyCall_run hsite hp
  rw [leavesEmptyCall, opensEmptyCall, hcloser, Bool.eq_iff_iff]
  simp only [Bool.and_eq_true]
  rw [hempty]

/-- On a formula without diagnostics the nesting along the run is the one of
    the tokens. -/
theorem nesting_run (hsite : Site count {} l) (hp : p ≤ l.length) :
    (run {} (l.take p)).nesting (l.drop p) = nestingAt (l.map Prod.snd) p := by
  rw [nesting, openParens_run hsite hp]
  cases p with
  | zero => rfl
  | succ p => rw [leavesEmptyCall_run hsite hp, nestingAt_succ]

end Context

end FormulaBar
