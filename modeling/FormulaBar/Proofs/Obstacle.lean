import FormulaBar.Proofs.Reading
import FormulaBar.Proofs.Role

/-! # Obstacles — where the parser fails on a formula without diagnostics

    Three things that the pass over the tokens admits stop the parser: too
    many open parentheses, a comma inside of a parenthesis that groups, and
    an end behind an operator.  The readers are followed along the run of
    the pass.  A reader that succeeds has met no obstacle on its way and has
    left the frames as they were, and one that fails stands at the first
    obstacle ahead and reports it.  Each reader is settled for an arbitrary
    reader of the inner expressions, in the order in which they are built. -/

namespace FormulaBar

namespace Context

/-- The number of parentheses among the frames. -/
def openParens (frames : List Frame) : Nat :=
  frames.countP fun f => f.kind == .group || f.kind == .call

/-- Whether a call that is open ends right here without arguments. -/
def leavesEmptyCall (s : Context) (l : List Entry) : Bool :=
  s.atEmptyCall && l.head?.any fun p => p.2.isBracket ')'

/-- The number of parentheses that are open, without that of such a call. -/
def nesting (s : Context) (l : List Entry) : Nat :=
  openParens s.frames - if s.leavesEmptyCall l then 1 else 0

/-- What stops the parser at this place, where `l` is left. -/
def obstacle? (s : Context) (l : List Entry) : Option ParseError :=
  if maxLevels ≤ s.nesting l then some .tooDeep
  else
    match l with
    | [] => if s.isBehind .operator then some (.missingValue none) else none
    | p :: _ =>
        if p.2.kind = .comma ∧ s.innermost = some .group then
          some (.missingBracket ')' (some p.2))
        else none

/-- The first obstacle from this place on. -/
def firstObstacle? (s : Context) : List Entry → Option ParseError
  | [] => s.obstacle? []
  | p :: l => (s.obstacle? (p :: l)).or (firstObstacle? (s.after p.1 p.2) l)

variable {count : Nat} {s : Context} {p : Entry} {l : List Entry}

/-- An empty call that is left out makes the nesting no greater. -/
theorem nesting_le (s : Context) (l : List Entry) : s.nesting l ≤ openParens s.frames :=
  Nat.sub_le _ _

/-- Where too many parentheses are open, that is the obstacle. -/
theorem obstacle?_of_deep (h : maxLevels ≤ s.nesting l) :
    s.obstacle? l = some .tooDeep :=
  if_pos h

/-- At the end, where there is room, only a value that is missing behind an
    operator is an obstacle. -/
theorem obstacle?_nil (hroom : s.nesting [] < maxLevels) :
    s.obstacle? [] = if s.isBehind .operator then some (.missingValue none) else none :=
  if_neg (Nat.not_le.mpr hroom)

/-- In front of an entry, where there is room, only a comma in a group is an
    obstacle. -/
theorem obstacle?_cons (hroom : s.nesting (p :: l) < maxLevels) :
    s.obstacle? (p :: l)
      = if p.2.kind = .comma ∧ s.innermost = some .group then
          some (.missingBracket ')' (some p.2))
        else none :=
  if_neg (Nat.not_le.mpr hroom)

/-- A token that is no obstacle is passed by. -/
theorem firstObstacle?_cons (hroom : s.nesting (p :: l) < maxLevels)
    (hcomma : p.2.kind = .comma → s.innermost ≠ some .group) :
    s.firstObstacle? (p :: l) = (s.after p.1 p.2).firstObstacle? l := by
  have hclear : s.obstacle? (p :: l) = none := by
    rw [obstacle?_cons hroom]
    exact if_neg fun h => hcomma h.1 h.2
  rw [firstObstacle?, hclear]
  rfl

/-- An obstacle right here is the first. -/
theorem firstObstacle?_of_obstacle {error : ParseError}
    (h : s.obstacle? l = some error) : s.firstObstacle? l = some error := by
  cases l with
  | nil => exact h
  | cons p l => rw [firstObstacle?, h]; rfl

/-! ## Readers along a run -/

/-- Reading the entries `l` in the context `s` either takes some of them,
    without an obstacle on the way and up to a place with `Behind`, or fails
    with the first obstacle. -/
def Tracks {α : Type} (s : Context) (l : List Entry)
    (Behind : Context → List Entry → Prop) : Outcome α → Prop
  | .done _ rest => ∃ l₁ l₂, l = l₁ ++ l₂ ∧ rest = l₂.map Prod.snd ∧
      s.firstObstacle? l = (s.run l₁).firstObstacle? l₂ ∧ Behind (s.run l₁) l₂
  | .failed error _ _ => s.firstObstacle? l = some error

namespace Tracks

variable {α β : Type} {o : Outcome α} {Mid Behind : Context → List Entry → Prop}

/-- A reader that is done has met no obstacle. -/
theorem done (value : α) (h : Behind s l) :
    Tracks s l Behind (.done value (l.map Prod.snd)) :=
  ⟨[], l, rfl, rfl, rfl, h⟩

/-- What is taken without an obstacle goes in front of what is read. -/
theorem append {l₁ l₂ : List Entry}
    (hclear : s.firstObstacle? (l₁ ++ l₂) = (s.run l₁).firstObstacle? l₂)
    (h : Tracks (s.run l₁) l₂ Behind o) : Tracks s (l₁ ++ l₂) Behind o := by
  cases o with
  | done value rest =>
      obtain ⟨m₁, m₂, rfl, hrest, hclear', hbehind⟩ := h
      refine ⟨l₁ ++ m₁, m₂, (List.append_assoc _ _ _).symm, hrest, ?_, ?_⟩
      · rw [run_append]
        exact hclear.trans hclear'
      · rw [run_append]
        exact hbehind
  | failed error rest levels => exact hclear.trans h

/-- A reader that passes the first entry tracks the obstacles behind it. -/
theorem cons (hpass : s.firstObstacle? (p :: l) = (s.after p.1 p.2).firstObstacle? l)
    (h : Tracks (s.after p.1 p.2) l Behind o) : Tracks s (p :: l) Behind o := by
  show Tracks s ([p] ++ l) Behind o
  exact append hpass h

/-- Where there is room, only a comma is not passed by. -/
theorem pass {k : Token.Kind} (hroom : openParens s.frames < maxLevels)
    (hp : p.2.kind = k) (hk : k ≠ .comma)
    (h : Tracks (s.after p.1 p.2) l Behind o) : Tracks s (p :: l) Behind o := by
  refine cons (firstObstacle?_cons ?_ fun hcomma => ?_) h
  · exact Nat.lt_of_le_of_lt (nesting_le s _) hroom
  · exact absurd (hp.symm.trans hcomma) hk

/-- Obstacles are tracked whatever the value is mapped to. -/
theorem map (f : α → β) (h : Tracks s l Behind o) : Tracks s l Behind (o.map f) := by
  cases o with
  | done value rest => exact h
  | failed error rest levels => exact h

theorem enclose (h : Tracks s l Behind o) : Tracks s l Behind o.enclose := by
  cases o with
  | done value rest => exact h
  | failed error rest levels => exact h

/-- Two readers in a row: the second starts at the place that the first
    leaves. -/
theorem andThen {f : α → List Token → Outcome β} (hsite : Site count s l)
    (ho : Tracks s l Mid o)
    (hf : ∀ value s' l', Site count s' l' → Mid s' l' →
      Tracks s' l' Behind (f value (l'.map Prod.snd))) :
    Tracks s l Behind (o.andThen f) := by
  cases o with
  | done value rest =>
      obtain ⟨l₁, l₂, rfl, rfl, hclear, hmid⟩ := ho
      exact append hclear (hf value _ _ hsite.run hmid)
  | failed error rest levels => exact ho

end Tracks

/-- A value has ended and the frames are `fs`, with room for one more
    parenthesis. -/
structure Ends (fs : List Frame) (s : Context) : Prop where
  frames : s.frames = fs
  role : s.role = .value
  room : openParens fs < maxLevels

/-- Where a value has ended there is room left. -/
theorem Ends.nesting_lt {fs : List Frame} (h : Ends fs s) (l : List Entry) :
    s.nesting l < maxLevels := by
  refine Nat.lt_of_le_of_lt (nesting_le s l) ?_
  rw [h.frames]
  exact h.room

/-- A value has to start here. -/
structure Ready (s : Context) (l : List Entry) : Prop where
  role : s.role = .start
  operator : l = [] → s.frames = [] → s.isBehind .operator = true
  filled : s.leavesEmptyCall l = false

/-- A place inside of a frame is not at the end. -/
theorem Site.exists_cons {f : Frame} {fs : List Frame} (h : Site count s l)
    (hframes : s.frames = f :: fs) : ∃ p l', l = p :: l' := by
  cases l with
  | nil => exact absurd (hframes.symm.trans h.frames_of_nil) (List.cons_ne_nil f fs)
  | cons p l => exact ⟨p, l, rfl⟩

/-! ## Texts and references -/

variable {fs : List Frame} {i : Nat}

/-- The end quote takes the frame of its text. -/
theorem closeQuote_tracks (hq : p.2.kind = .endQuote)
    (hframes : s.frames = ⟨.quote, i⟩ :: fs) (hroom : openParens fs < maxLevels)
    (text : String) :
    Tracks s (p :: l) (fun s' _ => Ends fs s')
      (closeQuote text ((p :: l).map Prod.snd)) := by
  have hclose : closeQuote text ((p :: l).map Prod.snd)
      = .done (.text text) (l.map Prod.snd) := if_pos hq
  have hfs : (s.after p.1 p.2).frames = fs := by
    rw [frames_after, framesAfter_endQuote p.1 hq (innermost_of_frames hframes), hframes]
    rfl
  rw [hclose]
  refine Tracks.pass ?_ hq (by decide) ?_
  · rw [hframes]
    exact hroom
  · exact Tracks.done _ ⟨hfs, Token.role_of_kind hq (by decide), hroom⟩

/-- Behind a start quote stands the rest of a text. -/
theorem textBody_tracks (hsite : Site count s l) (hrole : s.role = .quote)
    (hframes : s.frames = ⟨.quote, i⟩ :: fs) (hroom : openParens fs < maxLevels) :
    Tracks s l (fun s' _ => Ends fs s') (textBody (l.map Prod.snd)) := by
  obtain ⟨p, l, rfl⟩ := hsite.exists_cons hframes
  have hsilent := hsite.silent
  rw [hrole] at hsilent
  cases hsilent with
  | string ht =>
      have hframes' : (s.after p.1 p.2).frames = ⟨.quote, i⟩ :: fs := by
        rw [frames_after, framesAfter_of_kind p.1 ht (by decide), hframes]
      obtain ⟨q, l, rfl⟩ := hsite.next.exists_cons hframes'
      have hbody : textBody ((p :: q :: l).map Prod.snd)
          = closeQuote p.2.text ((q :: l).map Prod.snd) := if_pos ht
      have hsilent' := hsite.next.silent
      rw [role_after, Token.role_of_kind ht (by decide)] at hsilent'
      rw [hbody]
      refine Tracks.pass ?_ ht (by decide) ?_
      · rw [hframes]
        exact hroom
      · cases hsilent' with
        | endQuote hq => exact closeQuote_tracks hq hframes' hroom _
  | emptyText ht =>
      have hbody : textBody ((p :: l).map Prod.snd)
          = closeQuote "" ((p :: l).map Prod.snd) := if_neg (by rw [ht]; decide)
      rw [hbody]
      exact closeQuote_tracks ht hframes hroom ""

/-- Behind the bracket that opens a reference stands the rest of it. -/
theorem referenceBody_tracks (hsite : Site count s l) (hrole : s.role = .bracket)
    (hframes : s.frames = ⟨.reference, i⟩ :: fs) (hroom : openParens fs < maxLevels) :
    Tracks s l (fun s' _ => Ends fs s') (referenceBody (l.map Prod.snd)) := by
  obtain ⟨p, l, rfl⟩ := hsite.exists_cons hframes
  have hsilent := hsite.silent
  rw [hrole] at hsilent
  cases hsilent with
  | referenceName ht =>
      have hframes' : (s.after p.1 p.2).frames = ⟨.reference, i⟩ :: fs := by
        rw [frames_after, framesAfter_of_kind p.1 ht (by decide), hframes]
      obtain ⟨q, l, rfl⟩ := hsite.next.exists_cons hframes'
      have hsilent' := hsite.next.silent
      rw [role_after, Token.role_of_kind ht (by decide)] at hsilent'
      cases hsilent' with
      | closeBracket hq hin =>
          have hbody : referenceBody ((p :: q :: l).map Prod.snd)
              = .done (.reference p.2.text) (l.map Prod.snd) := by
            show referenceBody (p.2 :: q.2 :: l.map Prod.snd) = _
            rw [referenceBody, if_pos ht, expectBracket_cons _ hq]
            rfl
          have hfs : ((s.after p.1 p.2).after q.1 q.2).frames = fs := by
            rw [frames_after, framesAfter_closeBracket q.1 hq hin, hframes']
            rfl
          rw [hbody]
          refine Tracks.pass ?_ ht (by decide) ?_
          · rw [hframes]
            exact hroom
          refine Tracks.pass ?_ (Token.kind_of_isBracket hq) (by decide) ?_
          · rw [hframes']
            exact hroom
          · exact Tracks.done _ ⟨hfs, Token.role_of_closer hq (by decide), hroom⟩

/-! ## Arguments -/

/-- What is granted of a reader of expressions with `n` levels: wherever a
    value has to start, and the levels fill up the room that is left, it
    follows the run of the pass, and no operator is left behind a value. -/
def Follows (count n : Nat) (inner : Reader Expr) : Prop :=
  ∀ s l, Site count s l → Ready s l → n + openParens s.frames = maxLevels →
    Tracks s l (fun s' l' => Ends s.frames s' ∧
      Grammar.EndsChain (l'.map Prod.snd)) (inner.read (l.map Prod.snd))

theorem openParens_cons (call : Bool) :
    openParens (⟨if call = true then .call else .group, i⟩ :: fs) = openParens fs + 1 := by
  cases call <;> simp [openParens]

/-- The parenthesis behind a value that it encloses. -/
theorem expectBracket_tracks (call : Bool) (hp : p.2.isBracket ')' = true)
    (hframes : s.frames = ⟨if call = true then .call else .group, i⟩ :: fs)
    (hroom : openParens s.frames < maxLevels) :
    Tracks s (p :: l) (fun s' _ => Ends fs s')
      (expectBracket ')' ((p :: l).map Prod.snd)) := by
  have hclose : expectBracket ')' ((p :: l).map Prod.snd) = .done () (l.map Prod.snd) :=
    expectBracket_cons _ hp
  have hin : s.inParentheses = true := inParentheses_of_frames _ hframes
  have hfs : (s.after p.1 p.2).frames = fs := by
    rw [frames_after, framesAfter_closeParen p.1 hp hin, hframes]
    rfl
  rw [hclose]
  refine Tracks.pass hroom (Token.kind_of_isBracket hp) (by decide) ?_
  rw [hframes, openParens_cons] at hroom
  exact Tracks.done _ ⟨hfs, Token.role_of_closer hp (by decide), Nat.lt_of_succ_lt hroom⟩

/-- Behind an operator, and behind a comma inside of a frame, a value has to
    start. -/
theorem Site.ready (hsite : Site count s (p :: l))
    (hp : p.2.kind = .operator ∨ p.2.kind = .comma ∧ s.frames ≠ []) :
    Ready (s.after p.1 p.2) l := by
  have hkind : p.2.kind = .operator ∨ p.2.kind = .comma := hp.imp_right And.left
  have hparen : p.2.isBracket '(' = false := by
    rcases hkind with hkind | hkind
    · exact Token.isBracket_of_kind _ (by rw [hkind]; decide)
    · exact Token.isBracket_of_kind _ (by rw [hkind]; decide)
  refine ⟨?_, ?_, ?_⟩
  · rcases hkind with hkind | hkind
    · exact Token.role_of_kind hkind (by decide)
    · exact Token.role_of_kind hkind (by decide)
  · rintro - hnil
    rcases hp with hp | ⟨hp, hne⟩
    · exact beq_iff_eq.mpr hp
    · rw [frames_after, framesAfter_of_kind p.1 hp (by decide)] at hnil
      exact absurd hnil hne
  · refine Bool.eq_false_iff.mpr fun hleaves => ?_
    have hempty := (Bool.and_eq_true_iff.mp hleaves).1
    rw [hsite.isBracket_of_atEmptyCall hempty] at hparen
    cases hparen

/-- The loop over arguments comes to the parenthesis that closes the call. -/
theorem argumentList_tracks {n : Nat} {inner : Reader Expr} (hinner : Follows count n inner)
    (hsite : Site count s l) (hready : Ready s l)
    (hframes : s.frames = ⟨.call, i⟩ :: fs) (hn : n + openParens s.frames = maxLevels)
    (read : List Expr) :
    Tracks s l (fun s' _ => Ends fs s') (argumentList inner read (l.map Prod.snd)) := by
  generalize htokens : l.map Prod.snd = tokens
  -- the frame of the call stays on top from one argument to the next
  fun_induction argumentList inner read tokens generalizing s l with
  | case1 read tokens error rest levels hread =>
      have hfirst := hinner s l hsite hready hn
      rw [htokens, hread] at hfirst
      exact hfirst
  | case2 read tokens e hread =>
      have hfirst := hinner s l hsite hready hn
      rw [htokens, hread] at hfirst
      -- the frame of the call is open, so an argument is not the end
      obtain ⟨l₁, l₂, rfl, hrest, -, hends, -⟩ := hfirst
      rw [hframes] at hends
      obtain ⟨p, l', rfl⟩ := hsite.run.exists_cons hends.frames
      cases hrest
  | case3 read tokens e t rest hread _ hcomma ih =>
      have hfirst := hinner s l hsite hready hn
      rw [htokens, hread] at hfirst
      obtain ⟨l₁, l₂, rfl, hrest, hclear, hends, -⟩ := hfirst
      obtain ⟨p, l', rfl⟩ := hsite.run.exists_cons (hends.frames.trans hframes)
      obtain ⟨rfl, rfl⟩ := List.cons.inj hrest
      have hframes' := hends.frames.trans hframes
      have hne : (s.run l₁).frames ≠ [] := by
        rw [hframes']
        exact List.cons_ne_nil _ _
      have hsame : ((s.run l₁).after p.1 p.2).frames = s.frames := by
        rw [frames_after, framesAfter_of_kind p.1 hcomma (by decide), hends.frames]
      refine Tracks.append hclear
        (Tracks.cons (firstObstacle?_cons (hends.nesting_lt _) ?_) ?_)
      · intro _
        rw [innermost_of_frames hframes']
        intro h; cases h
      · refine ih hsite.run.next (hsite.run.ready (Or.inr ⟨hcomma, hne⟩))
          (hsame.trans hframes) ?_ rfl
        rw [hsame]
        exact hn
  | case4 read tokens e t rest hread _ hcomma =>
      have hfirst := hinner s l hsite hready hn
      rw [htokens, hread] at hfirst
      obtain ⟨l₁, l₂, rfl, hrest, hclear, hends, hchain⟩ := hfirst
      obtain ⟨p, l', rfl⟩ := hsite.run.exists_cons (hends.frames.trans hframes)
      obtain ⟨rfl, rfl⟩ := List.cons.inj hrest
      have hsilent := hsite.run.silent
      rw [hends.role] at hsilent
      cases hsilent with
      | operator ht => exact absurd ht (hchain _ rfl)
      | comma ht => exact absurd ht hcomma
      | closeParen ht =>
          refine Tracks.append hclear (Tracks.map _ ?_)
          refine expectBracket_tracks true ht (hends.frames.trans hframes) ?_
          rw [hends.frames]
          exact hends.room

/-! ## Operands -/

/-- The parenthesis that closes a call right behind the one that opens it is
    passed by, whatever the room: the call is not counted there. -/
theorem emptyCall_tracks (hp : p.2.isBracket ')' = true)
    (hframes : s.frames = ⟨.call, i⟩ :: fs) (hempty : s.atEmptyCall = true)
    (hroom : openParens fs < maxLevels) {α : Type} (value : α) :
    Tracks s (p :: l) (fun s' _ => Ends fs s') (.done value (l.map Prod.snd)) := by
  have hin : s.inParentheses = true := inParentheses_of_frames true hframes
  have hfs : (s.after p.1 p.2).frames = fs := by
    rw [frames_after, framesAfter_closeParen p.1 hp hin, hframes]
    rfl
  have hleaves : s.leavesEmptyCall (p :: l) = true := by
    simp [leavesEmptyCall, hempty, hp]
  have hnesting : s.nesting (p :: l) = openParens fs := by
    rw [nesting, hframes, if_pos hleaves]
    exact Nat.sub_eq_of_eq_add (openParens_cons true)
  refine Tracks.cons (firstObstacle?_cons (hnesting ▸ hroom) ?_) ?_
  · rw [Token.kind_of_isBracket hp]
    intro h; cases h
  · exact Tracks.done _ ⟨hfs, Token.role_of_closer hp (by decide), hroom⟩

/-- Behind the name of a function stand its arguments, or none. -/
theorem callArguments_tracks {n : Nat} {inner : Reader Expr}
    (hinner : Follows count n inner) (hsite : Site count s l)
    (hname : s.isBehind .functionName = true)
    (hn : n + 1 + openParens s.frames = maxLevels) :
    Tracks s l (fun s' _ => Ends s.frames s') (callArguments inner (l.map Prod.snd)) := by
  have hroom : openParens s.frames < maxLevels := by omega
  cases l with
  | nil => cases hname.symm.trans hsite.called
  | cons p l =>
      have hsilent := hsite.silent
      rw [role_of_isBehind hname (by decide)] at hsilent
      cases hsilent with
      | call hp _ =>
          have hkind := Token.kind_of_isBracket hp
          have hframes : (s.after p.1 p.2).frames = ⟨.call, p.1⟩ :: s.frames := by
            rw [frames_after, framesAfter_openParen p.1 hp, if_pos hname]
          have hdeeper : openParens (s.after p.1 p.2).frames = openParens s.frames + 1 := by
            rw [hframes]
            exact openParens_cons true
          obtain ⟨q, l, rfl⟩ := hsite.next.exists_cons hframes
          by_cases hq : q.2.isBracket ')' = true
          · have hread : callArguments inner ((p :: q :: l).map Prod.snd)
                = .done [] (l.map Prod.snd) := Grammar.callArguments_empty inner _ hp hq
            rw [hread]
            have hempty := atEmptyCall_of_frames hframes rfl
            refine Tracks.pass hroom hkind (by decide) ?_
            exact emptyCall_tracks hq hframes hempty hroom []
          · have hread : callArguments inner ((p :: q :: l).map Prod.snd)
                = argumentList inner [] ((q :: l).map Prod.snd) :=
              Grammar.callArguments_cons inner _ hp (Bool.eq_false_iff.mpr hq)
            rw [hread]
            refine Tracks.pass hroom hkind (by decide) ?_
            refine argumentList_tracks hinner hsite.next ⟨?_, ?_, ?_⟩ hframes ?_ []
            · exact Token.role_of_openParen hp
            · intro hnil
              cases hnil
            · simp [leavesEmptyCall, hq]
            · omega

/-- A parenthesis that opens no call groups one expression. -/
theorem group_tracks {n : Nat} {inner : Reader Expr} (hinner : Follows count n inner)
    (hsite : Site count s (p :: l)) (hp : p.2.isBracket '(' = true)
    (hname : s.isBehind .functionName = false)
    (hn : n + 1 + openParens s.frames = maxLevels) :
    Tracks s (p :: l) (fun s' _ => Ends s.frames s')
      ((inner.read (l.map Prod.snd)).andThen fun e rest =>
        (expectBracket ')' rest).map fun _ => e) := by
  have hroom : openParens s.frames < maxLevels := by omega
  have hframes : (s.after p.1 p.2).frames = ⟨.group, p.1⟩ :: s.frames := by
    rw [frames_after, framesAfter_openParen p.1 hp, hname]
    rfl
  have hdeeper : openParens (s.after p.1 p.2).frames = openParens s.frames + 1 := by
    rw [hframes]
    exact openParens_cons false
  have hready : Ready (s.after p.1 p.2) l := by
    refine ⟨Token.role_of_openParen hp, ?_, ?_⟩
    · rintro - hnil
      rw [hframes] at hnil
      exact absurd hnil (List.cons_ne_nil _ _)
    · simp [leavesEmptyCall, atEmptyCall, hframes]
  refine Tracks.pass hroom (Token.kind_of_isBracket hp) (by decide) ?_
  refine Tracks.andThen hsite.next (hinner _ _ hsite.next hready (by omega)) ?_
  rintro e s' l' hsite' ⟨hends, hchain⟩
  refine Tracks.map _ ?_
  rw [hframes] at hends
  obtain ⟨q, l', rfl⟩ := hsite'.exists_cons hends.frames
  have hsilent := hsite'.silent
  rw [hends.role] at hsilent
  cases hsilent with
  | operator hq => exact absurd hq (hchain _ rfl)
  | comma hq _ =>
      -- the one failure of a group that is well bracketed
      have hobstacle : s'.obstacle? (q :: l') = some (.missingBracket ')' (some q.2)) := by
        rw [obstacle?_cons (hends.nesting_lt _)]
        exact if_pos ⟨hq, innermost_of_frames hends.frames⟩
      have hread : expectBracket ')' ((q :: l').map Prod.snd)
          = .failed (.missingBracket ')' (some q.2)) ((q :: l').map Prod.snd) 0 := by
        have hcloser : q.2.isBracket ')' = false :=
          Token.isBracket_of_kind _ (by rw [hq]; decide)
        exact if_neg (Bool.eq_false_iff.mp hcloser)
      rw [hread]
      exact firstObstacle?_of_obstacle hobstacle
  | closeParen hq _ =>
      refine expectBracket_tracks false hq hends.frames ?_
      rw [hends.frames]
      exact hends.room

/-- An operand is read where a value has to start. -/
theorem operand_tracks {n : Nat} {inner : Reader Expr}
    (hinner : Follows count n inner) (hsite : Site count s l) (hready : Ready s l)
    (hn : n + 1 + openParens s.frames = maxLevels) :
    Tracks s l (fun s' _ => Ends s.frames s') (operand inner (l.map Prod.snd)) := by
  have hroom : openParens s.frames < maxLevels := by omega
  cases l with
  | nil =>
      -- nothing is open at the end, so an operator is what asks for a value
      show s.firstObstacle? [] = some (.missingValue none)
      rw [firstObstacle?, obstacle?_nil (Nat.lt_of_le_of_lt (nesting_le s []) hroom)]
      exact if_pos (hready.operator rfl hsite.frames_of_nil)
  | cons p l =>
      have hsilent := hsite.silent
      rw [hready.role] at hsilent
      cases hsilent with
      | closeEmpty hp hempty =>
          have hfilled := hready.filled
          simp [leavesEmptyCall, hempty, hp] at hfilled
      | start hp =>
          have hname : s.isBehind .functionName = false := by
            refine Bool.eq_false_iff.mpr fun h => ?_
            cases hready.role.symm.trans (role_of_isBehind h (by decide))
          have hframes : ∀ k, p.2.kind = k → k = .number ∨ k = .functionName →
              (s.after p.1 p.2).frames = s.frames := by
            rintro k hkind (rfl | rfl)
            · exact framesAfter_of_kind p.1 hkind (by decide)
            · exact framesAfter_of_kind p.1 hkind (by decide)
          simp only [Grammar.startsOperand, Bool.or_eq_true, beq_iff_eq] at hp
          rcases hp with (((hp | hp) | hp) | hp) | hp
          · -- a number, which reads since the token fits
            obtain ⟨value, hvalue⟩ := Option.isSome_iff_exists.mp (hsite.shaped.1.literal hp)
            have hread : operand inner ((p :: l).map Prod.snd)
                = .done (.number value) (l.map Prod.snd) :=
              Grammar.operand_number inner _ hp hvalue
            rw [hread]
            refine Tracks.pass hroom hp (by decide) ?_
            exact Tracks.done _ ⟨hframes _ hp (Or.inl rfl),
              Token.role_of_kind hp (by decide), hroom⟩
          · -- a text
            have hread : operand inner ((p :: l).map Prod.snd)
                = textBody (l.map Prod.snd) := Grammar.operand_startQuote inner _ hp
            rw [hread]
            refine Tracks.pass hroom hp (by decide) ?_
            exact textBody_tracks hsite.next (Token.role_of_kind hp (by decide))
              (framesAfter_startQuote p.1 hp) hroom
          · -- a call
            have hread : operand inner ((p :: l).map Prod.snd)
                = (callArguments inner (l.map Prod.snd)).map (.call p.2.text) :=
              Grammar.operand_functionName inner _ hp
            have hsame := hframes _ hp (Or.inr rfl)
            have harguments := callArguments_tracks hinner hsite.next
              (beq_iff_eq.mpr hp) (by rw [hsame]; exact hn)
            rw [hsame] at harguments
            rw [hread]
            refine Tracks.pass hroom hp (by decide) ?_
            exact Tracks.map _ harguments
          · -- a group
            have hread : operand inner ((p :: l).map Prod.snd) = _ :=
              Grammar.operand_openParen inner _ hp
            rw [hread]
            exact group_tracks hinner hsite hp hname hn
          · -- a reference
            have hread : operand inner ((p :: l).map Prod.snd)
                = referenceBody (l.map Prod.snd) := Grammar.operand_openBracket inner _ hp
            rw [hread]
            refine Tracks.pass hroom (Token.kind_of_isBracket hp) (by decide) ?_
            exact referenceBody_tracks hsite.next (Token.role_of_openBracket hp)
              (framesAfter_openBracket p.1 hp) hroom

/-! ## Expressions -/

/-- Behind an operator stands an operand. -/
theorem operand_tracks_behind {n : Nat} {inner : Reader Expr}
    (hinner : Follows count n inner) (hsite : Site count s (p :: l))
    (hp : p.2.kind = .operator) (hends : Ends fs s)
    (hn : n + 1 + openParens fs = maxLevels) :
    Tracks (s.after p.1 p.2) l (fun s' _ => Ends fs s')
      (operand inner (l.map Prod.snd)) := by
  have hsame : (s.after p.1 p.2).frames = fs := by
    rw [frames_after, framesAfter_of_kind p.1 hp (by decide), hends.frames]
  have hoperand := operand_tracks hinner hsite.next (hsite.ready (Or.inl hp))
    (by rw [hsame]; exact hn)
  rw [hsame] at hoperand
  exact hoperand

/-- The loop over operators stops where no operator is left. -/
theorem links_tracks {n : Nat} {inner : Reader Expr}
    (hinner : Follows count n inner) (hsite : Site count s l) (hends : Ends fs s)
    (hn : n + 1 + openParens fs = maxLevels) (read : List (String × Expr)) :
    Tracks s l (fun s' l' => Ends fs s' ∧ Grammar.EndsChain (l'.map Prod.snd))
      (links (operandReader inner) read (l.map Prod.snd)) := by
  generalize htokens : l.map Prod.snd = tokens
  -- the frames are those at the start of the chain all along the loop
  fun_induction links (operandReader inner) read tokens generalizing s l with
  | case1 read =>
      rw [← htokens]
      exact Tracks.done _ ⟨hends, htokens ▸ Grammar.endsChain_nil⟩
  | case2 read t rest ht e rest' hread _ ih =>
      obtain ⟨p, l, rfl, rfl, rfl⟩ := List.map_eq_cons_iff.mp htokens
      have hfirst := operand_tracks_behind hinner hsite ht hends hn
      rw [show operand inner (l.map Prod.snd) = _ from hread] at hfirst
      obtain ⟨l₁, l₂, rfl, rfl, hclear, hends'⟩ := hfirst
      refine Tracks.pass ?_ ht (by decide) ?_
      · rw [hends.frames]
        exact hends.room
      · exact Tracks.append hclear (ih hsite.next.run hends' rfl)
  | case3 read t rest ht error rest' levels hread =>
      obtain ⟨p, l, rfl, rfl, rfl⟩ := List.map_eq_cons_iff.mp htokens
      have hfirst := operand_tracks_behind hinner hsite ht hends hn
      rw [show operand inner (l.map Prod.snd) = _ from hread] at hfirst
      refine Tracks.pass ?_ ht (by decide) hfirst
      rw [hends.frames]
      exact hends.room
  | case4 read t rest ht =>
      rw [← htokens]
      refine Tracks.done _ ⟨hends, ?_⟩
      rw [htokens]
      exact Grammar.endsChain_of_kind rest rfl ht

/-- **READERS FOLLOW THE PASS**: the reader with `n` levels either reads a
    value or fails with the first obstacle ahead. -/
theorem expression_tracks (n : Nat) : Follows count n (expression n) := by
  induction n with
  | zero =>
      intro s l _ hready hn
      -- no level is left, so all the room is taken
      have hfull : maxLevels ≤ s.nesting l := by
        rw [nesting, hready.filled]
        exact Nat.le_of_eq ((Nat.zero_add _).symm.trans hn).symm
      exact firstObstacle?_of_obstacle (obstacle?_of_deep hfull)
  | succ n ih =>
      intro s l hsite hready hn
      show Tracks s l _ (level (expression n) (l.map Prod.snd))
      rw [level]
      -- an operand, then the loop from where the operand ends
      refine Tracks.enclose (Tracks.andThen hsite (operand_tracks ih hsite hready hn) ?_)
      intro first s' l' hsite' hends
      exact Tracks.map _ (links_tracks ih hsite' hends hn [])

/-! ## The first obstacle of a formula -/

/-- Where a value has ended and nothing is open, nothing is left either. -/
theorem Site.eq_nil (hsite : Site count s l) (hends : Ends [] s)
    (hchain : Grammar.EndsChain (l.map Prod.snd)) : l = [] := by
  cases l with
  | nil => rfl
  | cons p l =>
      have houtside : s.inParentheses = false := by
        simp [inParentheses, innermost, hends.frames]
      have hsilent := hsite.silent
      rw [hends.role] at hsilent
      cases hsilent with
      | operator hp => exact absurd hp (hchain _ rfl)
      | comma _ hin => cases houtside.symm.trans hin
      | closeParen _ hin => cases houtside.symm.trans hin

/-- At the end there is no obstacle behind a value. -/
theorem firstObstacle?_of_ends (hends : Ends fs s) : s.firstObstacle? [] = none := by
  have hbehind : ¬ s.isBehind .operator = true := by
    intro h
    cases hends.role.symm.trans (role_of_isBehind h (by decide))
  rw [firstObstacle?, obstacle?_nil (hends.nesting_lt [])]
  exact if_neg hbehind

end Context

/-- **THE PARSER FAILS AT OBSTACLES ONLY**: on a formula without diagnostics
    that has significant tokens, the parser reports the first obstacle, and
    it succeeds where there is none. -/
theorem parse_eq_error_iff_firstObstacle? {formula : String} {tokens : List Token}
    (h : tokenize formula = .ok tokens) (hd : diagnose tokens = [])
    (hne : significant tokens ≠ []) (error : ParseError) :
    parse tokens = .error error ↔
      Context.firstObstacle? {} (entries 0 tokens) = some error := by
  have hsite := site_of_tokenize h hd
  have hready : Context.Ready {} (entries 0 tokens) := by
    refine ⟨rfl, fun hnil _ => ?_, rfl⟩
    rw [← map_snd_entries 0 tokens, hnil] at hne
    exact absurd rfl hne
  have htracks := Context.expression_tracks maxLevels {} _ hsite hready rfl
  rw [map_snd_entries] at htracks
  rw [parse_of_significant_ne_nil hne]
  cases hread : (expression maxLevels).read (significant tokens) with
  | done e rest =>
      rw [hread] at htracks
      obtain ⟨l₁, l₂, hsplit, rfl, hclear, hends, hchain⟩ := htracks
      rw [hsplit] at hsite hclear ⊢
      obtain rfl := hsite.run.eq_nil hends hchain
      rw [hclear, Context.firstObstacle?_of_ends hends]
      constructor
      · intro hok
        cases hok
      · intro hnone
        cases hnone
  | failed e rest levels =>
      rw [hread] at htracks
      rw [show Context.firstObstacle? {} (entries 0 tokens) = some e from htracks]
      constructor
      · intro herror
        rw [Except.error.inj herror]
      · intro hsome
        rw [Option.some.inj hsome]
        rfl

end FormulaBar
