import FormulaBar.Expr.Evaluate
import FormulaBar.Proofs.Reading

/-! # Height — how deep the tree of a formula nests

    A tree is evaluated and printed by functions that call themselves on
    the parts of a node.  How many of these calls are open at once is the
    length of a path through the tree, and a formula may be as long as it
    likes.

    What bounds the paths is the number of levels.  An expression of the
    grammar adds two nodes to a path at most, the chain of its operators
    and one of their operands: a group adds none, and the arguments of a
    call are expressions of the next level.  So 256 levels make paths of
    512 nodes, and neither the number of links in a chain nor the number
    of arguments in a call counts. -/

namespace FormulaBar

namespace Expr

/-! ## Paths -/

/-- The trees right below the root: the operands of a chain, the arguments
    of a call. -/
def parts : Expr → List Expr
  | .number _ | .text _ | .reference _ => []
  | .chain first links => first :: links.map Prod.snd
  | .call _ arguments => arguments

/-- The paths from the root of a tree to a leaf, by the subtrees that they
    pass. -/
inductive Path : Expr → List Expr → Prop where
  | leaf {e : Expr} (h : e.parts = []) : Path e [e]
  | cons {e part : Expr} {path : List Expr} (h : part ∈ e.parts)
      (hpath : Path part path) : Path e (e :: path)

/-- Whether at most `n` nodes of the tree are below each other. -/
def NestsWithin : Nat → Expr → Prop
  | 0, _ => False
  | n + 1, e => ∀ part ∈ e.parts, NestsWithin n part

/-- A tree that nests within some number of nodes nests within every greater
    one. -/
theorem NestsWithin.mono {m n : Nat} {e : Expr} (h : NestsWithin m e) (hmn : m ≤ n) :
    NestsWithin n e := by
  induction m generalizing n e with
  | zero => exact h.elim
  | succ m ih =>
      cases n with
      | zero => exact absurd hmn (Nat.not_succ_le_zero m)
      | succ n =>
          intro part hpart
          exact ih (h part hpart) (Nat.le_of_succ_le_succ hmn)

/-- A path goes down one level of the nesting with each node. -/
theorem NestsWithin.length_le {n : Nat} {e : Expr} {path : List Expr}
    (h : NestsWithin n e) (hpath : Path e path) : path.length ≤ n := by
  induction hpath generalizing n with
  | leaf =>
      cases n with
      | zero => exact h.elim
      | succ n => exact Nat.succ_le_succ (Nat.zero_le n)
  | cons hpart _ ih =>
      cases n with
      | zero => exact h.elim
      | succ n => exact Nat.succ_le_succ (ih (h _ hpart))

/-- A leaf is a path of one node. -/
theorem nestsWithin_of_leaf {n : Nat} {e : Expr} (h : e.parts = []) :
    NestsWithin (n + 1) e := by
  intro part hpart
  rw [h] at hpart
  cases hpart

/-- A chain nests one node deeper than its operands. -/
theorem nestsWithin_chain {n : Nat} {first : Expr} {links : List (String × Expr)} :
    NestsWithin (n + 1) (.chain first links) ↔
      NestsWithin n first ∧ ∀ link ∈ links, NestsWithin n link.2 := by
  show (∀ part ∈ first :: links.map Prod.snd, NestsWithin n part) ↔ _
  rw [List.forall_mem_cons, List.forall_mem_map]

/-- A call nests one node deeper than its arguments. -/
theorem nestsWithin_call {n : Nat} {name : String} {arguments : List Expr} :
    NestsWithin (n + 1) (.call name arguments) ↔
      ∀ argument ∈ arguments, NestsWithin n argument :=
  Iff.rfl

end Expr

/-! ## Levels bound the nesting -/

namespace Grammar

open FormulaBar.Expr

mutual

/-- An operand adds a node to the paths of two for each level. -/
theorem Operand.nestsWithin {final : Bool} {n : Nat} {tokens : List Token} {e : Expr}
    (h : Operand final n tokens e) : NestsWithin (2 * n + 1) e :=
  match h with
  | .number _ _ => nestsWithin_of_leaf rfl
  | .text _ _ _ => nestsWithin_of_leaf rfl
  | .openText _ _ => nestsWithin_of_leaf rfl
  | .reference _ _ _ => nestsWithin_of_leaf rfl
  | .emptyCall _ _ _ => nestsWithin_of_leaf rfl
  | .call _ _ hinner _ => nestsWithin_call.mpr hinner.nestsWithin
  | .group _ hinner _ => hinner.nestsWithin.mono (Nat.le_succ _)

/-- The operands of a chain have the same bound, however many they are. -/
theorem Links.nestsWithin {final : Bool} {n : Nat} {tokens : List Token}
    {links : List (String × Expr)} (h : Links final n tokens links) :
    ∀ link ∈ links, NestsWithin (2 * n + 1) link.2 :=
  match h with
  | .single _ hoperand => List.forall_mem_singleton.mpr hoperand.nestsWithin
  | .cons _ hoperand hrest =>
      List.forall_mem_cons.mpr ⟨hoperand.nestsWithin, hrest.nestsWithin⟩

/-- The arguments of a call have the bound of their level, however many they
    are. -/
theorem Arguments.nestsWithin {n : Nat} {tokens : List Token} {es : List Expr}
    (h : Arguments n tokens es) : ∀ e ∈ es, NestsWithin (2 * n) e :=
  match h with
  | .single h => List.forall_mem_singleton.mpr h.nestsWithin
  | .cons h _ hrest => List.forall_mem_cons.mpr ⟨h.nestsWithin, hrest.nestsWithin⟩

/-- A level of expressions adds a chain and an operand. -/
theorem Expression.nestsWithin {final : Bool} {n : Nat} {tokens : List Token} {e : Expr}
    (h : Expression final n tokens e) : NestsWithin (2 * n) e :=
  match h with
  | .operand h => h.nestsWithin.mono (Nat.le_succ _)
  | .chain hfirst hrest => nestsWithin_chain.mpr ⟨hfirst.nestsWithin, hrest.nestsWithin⟩

end

end Grammar

/-- The tree of a formula nests within 512 nodes. -/
theorem nestsWithin_of_parse {tokens : List Token} {e : Expr} (h : parse tokens = .ok e) :
    e.NestsWithin 512 :=
  (derives_of_parse h).nestsWithin

/-! ## Evaluation with a bounded number of open calls -/

namespace Expr

/-- The links of a chain, by an evaluation of their operands. -/
def runLinksBy? (evaluation : List Record → Expr → Option (Option Value × List Record))
    (acc : Option Value) (log : List Record) :
    List (String × Expr) → Option (Option Value × List Record)
  | [] => some (acc, log)
  | (operator, operand) :: links =>
      (evaluation log operand).bind fun (value, log) =>
        let params := [acc, value]
        runLinksBy? evaluation (executeOperator operator params)
          (operatorRecords operator params ++ log) links

/-- The arguments of a call, by an evaluation of each. -/
def runArgumentsBy? (evaluation : List Record → Expr → Option (Option Value × List Record))
    (params : List (Option Value)) (log : List Record) :
    List Expr → Option (List (Option Value) × List Record)
  | [] => some (params.reverse, log)
  | argument :: arguments =>
      (evaluation log argument).bind fun (value, log) =>
        runArgumentsBy? evaluation (value :: params) log arguments

/-- The evaluation of a tree with at most `n` calls of itself open at once;
    none where it takes more. -/
def runWithin? (inputs : Inputs) :
    Nat → List Record → Expr → Option (Option Value × List Record)
  | 0, _, _ => none
  | _ + 1, log, .number value => some (some (.number value), log)
  | _ + 1, log, .text value => some (some (.text value), log)
  | _ + 1, log, .reference name =>
      match inputs[name]? with
      | some value => some (some value, log)
      | none => some (none, .noInput name :: log)
  | n + 1, log, .chain first links =>
      (runWithin? inputs n log first).bind fun (value, log) =>
        runLinksBy? (runWithin? inputs n) value log links
  | n + 1, log, .call name arguments =>
      (runArgumentsBy? (runWithin? inputs n) [] log arguments).map fun (params, log) =>
        (executeFunction name params, functionRecords name params ++ log)

section

variable {inputs : Inputs}
  {evaluation : List Record → Expr → Option (Option Value × List Record)}

/-- Links are evaluated as they are where their operands are. -/
theorem runLinksBy?_eq {links : List (String × Expr)}
    (h : ∀ link ∈ links, ∀ log, evaluation log link.2 = some (link.2.run inputs log))
    (acc : Option Value) (log : List Record) :
    runLinksBy? evaluation acc log links = some (runLinks inputs acc log links) := by
  induction links generalizing acc log with
  | nil => rfl
  | cons link links ih =>
      obtain ⟨hlink, hlinks⟩ := List.forall_mem_cons.mp h
      rw [runLinksBy?, hlink log, runLinks]
      exact ih hlinks _ _

/-- Arguments are evaluated as they are where each of them is. -/
theorem runArgumentsBy?_eq {arguments : List Expr}
    (h : ∀ argument ∈ arguments, ∀ log,
      evaluation log argument = some (argument.run inputs log))
    (params : List (Option Value)) (log : List Record) :
    runArgumentsBy? evaluation params log arguments
      = some (runArguments inputs params log arguments) := by
  induction arguments generalizing params log with
  | nil => rfl
  | cons argument arguments ih =>
      obtain ⟨hargument, harguments⟩ := List.forall_mem_cons.mp h
      rw [runArgumentsBy?, hargument log, runArguments]
      exact ih harguments _ _

/-- As many calls as nodes are below each other suffice. -/
theorem runWithin?_eq {n : Nat} {e : Expr} (h : NestsWithin n e) (log : List Record) :
    runWithin? inputs n log e = some (e.run inputs log) := by
  induction n generalizing e log with
  | zero => exact h.elim
  | succ n ih =>
      cases e with
      | number value => rfl
      | text value => rfl
      | reference name =>
          rw [runWithin?, run]
          cases inputs[name]? with
          | none => rfl
          | some value => rfl
      | chain first links =>
          obtain ⟨hfirst, hlinks⟩ := nestsWithin_chain.mp h
          rw [runWithin?, ih hfirst, run]
          exact runLinksBy?_eq (fun link hlink log => ih (hlinks link hlink) log) _ _
      | call name arguments =>
          have harguments := runArgumentsBy?_eq
            (fun argument hargument log => ih (nestsWithin_call.mp h argument hargument) log)
            [] log
          rw [runWithin?, harguments, run]
          rfl

end

/-! ## Printing with a bounded number of open calls -/

/-- The links of a chain, by a way to print their operands. -/
def linkPiecesBy? (print : Expr → Option (List String)) :
    List (String × Expr) → Option (List String)
  | [] => some []
  | (operator, operand) :: links =>
      (print operand).bind fun pieces =>
        (linkPiecesBy? print links).map fun rest =>
          " " :: operator :: " " :: (pieces ++ rest)

/-- The arguments of a call, by a way to print each. -/
def argumentPiecesBy? (print : Expr → Option (List String)) :
    List Expr → Option (List String)
  | [] => some []
  | [argument] => print argument
  | argument :: arguments =>
      (print argument).bind fun pieces =>
        (argumentPiecesBy? print arguments).map fun rest => pieces ++ "," :: " " :: rest

/-- The printed form of a tree with at most `n` calls of the printer open at
    once; none where it takes more. -/
def piecesWithin? : Nat → Expr → Option (List String)
  | 0, _ => none
  | _ + 1, .number value => some [numberFormat.write value]
  | _ + 1, .text value => some ["\"", value, "\""]
  | _ + 1, .reference name => some ["[", name, "]"]
  | n + 1, .chain first links =>
      (piecesWithin? n first).bind fun pieces =>
        (linkPiecesBy? (piecesWithin? n) links).map fun rest =>
          "(" :: (pieces ++ rest ++ [")"])
  | n + 1, .call name arguments =>
      (argumentPiecesBy? (piecesWithin? n) arguments).map fun pieces =>
        name :: "(" :: (pieces ++ [")"])

/-- The tree as text, with at most `n` calls of the printer open at once. -/
def displayWithin? (n : Nat) (e : Expr) : Option String :=
  (e.piecesWithin? n).map String.join

section

variable {print : Expr → Option (List String)}

theorem linkPiecesBy?_eq {links : List (String × Expr)}
    (h : ∀ link ∈ links, print link.2 = some link.2.pieces) :
    linkPiecesBy? print links = some (linkPieces links) := by
  induction links with
  | nil => rfl
  | cons link links ih =>
      obtain ⟨hlink, hlinks⟩ := List.forall_mem_cons.mp h
      rw [linkPiecesBy?, hlink, ih hlinks, linkPieces]
      rfl

theorem argumentPiecesBy?_eq {arguments : List Expr}
    (h : ∀ argument ∈ arguments, print argument = some argument.pieces) :
    argumentPiecesBy? print arguments = some (argumentPieces arguments) := by
  induction arguments with
  | nil => rfl
  | cons argument arguments ih =>
      obtain ⟨hargument, harguments⟩ := List.forall_mem_cons.mp h
      cases arguments with
      | nil => exact hargument
      | cons next arguments =>
          rw [argumentPiecesBy?, hargument, ih harguments]
          · rfl
          · exact List.cons_ne_nil next arguments

/-- A tree that nests within `n` nodes is printed with `n` open calls. -/
theorem piecesWithin?_eq {n : Nat} {e : Expr} (h : NestsWithin n e) :
    piecesWithin? n e = some e.pieces := by
  induction n generalizing e with
  | zero => exact h.elim
  | succ n ih =>
      cases e with
      | number value => rfl
      | text value => rfl
      | reference name => rfl
      | chain first links =>
          obtain ⟨hfirst, hlinks⟩ := nestsWithin_chain.mp h
          have hrest := linkPiecesBy?_eq fun link hlink => ih (hlinks link hlink)
          rw [piecesWithin?, ih hfirst, hrest, pieces]
          rfl
      | call name arguments =>
          have harguments := argumentPiecesBy?_eq
            fun argument hargument => ih (nestsWithin_call.mp h argument hargument)
          rw [piecesWithin?, harguments, pieces]
          rfl

end

/-- A tree that nests within `n` nodes is shown in full with `n` open calls.
    -/
theorem displayWithin?_eq {n : Nat} {e : Expr} (h : NestsWithin n e) :
    e.displayWithin? n = some e.display := by
  rw [displayWithin?, piecesWithin?_eq h]
  rfl

end Expr

/-! ## Trees with the longest paths -/

/-- Calls inside of each other, each with a chain for its argument. -/
def nestedCalls : Nat → Expr
  | 0 => .reference "A"
  | n + 1 => .call "F" [.chain (.reference "A") [("+", nestedCalls n)]]

/-- The tokens of `[A]`. -/
def referenceTokens : List Token :=
  [⟨.bracket, "[", 0, 0⟩, ⟨.referenceName, "A", 0, 0⟩, ⟨.bracket, "]", 0, 0⟩]

/-- The tokens of `[A]+F([A]+F([A]+ ⋯ ))`, without the first `[A]+`. -/
def nestedTokens : Nat → List Token
  | 0 => referenceTokens
  | n + 1 =>
      ⟨.functionName, "F", 0, 0⟩ :: ⟨.bracket, "(", 0, 0⟩ ::
        ((referenceTokens ++ ⟨.operator, "+", 0, 0⟩ :: nestedTokens n) ++
          [⟨.bracket, ")", 0, 0⟩])

theorem derives_referenceTokens {final : Bool} {n : Nat} :
    Grammar.Operand final n referenceTokens (.reference "A") := by
  rw [referenceTokens]
  exact .reference rfl rfl rfl

/-- The tokens derive the nested calls, one level for each. -/
theorem derives_nestedTokens {final : Bool} (n : Nat) :
    Grammar.Operand final n (nestedTokens n) (nestedCalls n) := by
  induction n generalizing final with
  | zero => exact derives_referenceTokens
  | succ n ih =>
      exact .call rfl rfl (.single (.chain derives_referenceTokens (.single rfl ih))) rfl

theorem isSignificant_of_mem_nestedTokens {n : Nat} :
    ∀ t ∈ nestedTokens n, t.isSignificant = true := by
  have hreference : ∀ t ∈ referenceTokens, t.isSignificant = true := by decide
  induction n with
  | zero => exact hreference
  | succ n ih =>
      intro t ht
      simp only [nestedTokens, List.mem_cons, List.mem_append, List.not_mem_nil, or_false] at ht
      rcases ht with rfl | rfl | (ht | rfl | ht) | rfl
      · rfl
      · rfl
      · exact hreference t ht
      · rfl
      · exact ih t ht
      · rfl

/-- Each of the nested calls adds two nodes to a path. -/
theorem exists_path_nestedCalls (n : Nat) :
    ∃ path, (nestedCalls n).Path path ∧ path.length = 2 * n + 1 := by
  induction n with
  | zero => exact ⟨_, .leaf rfl, rfl⟩
  | succ n ih =>
      obtain ⟨path, hpath, hlength⟩ := ih
      have hlink : nestedCalls n ∈ Expr.parts (.chain (.reference "A") [("+", nestedCalls n)]) :=
        List.mem_cons_of_mem _ List.mem_cons_self
      refine ⟨_, .cons List.mem_cons_self (.cons hlink hpath), ?_⟩
      rw [List.length_cons, List.length_cons, hlength]
      omega

/-- **TREES ARE SHALLOW**: a path through the tree of a formula has at most
    512 nodes, however long the formula is, and so many open calls suffice
    to evaluate the tree and to print it. -/
theorem path_length_le_of_parse {tokens : List Token} {e : Expr}
    (h : parse tokens = .ok e) :
    (∀ path, e.Path path → path.length ≤ 512) ∧
    (∀ inputs log, e.runWithin? inputs 512 log = some (e.run inputs log)) ∧
    e.displayWithin? 512 = some e.display := by
  have hnests := nestsWithin_of_parse h
  refine ⟨fun path hpath => ?_, fun inputs log => ?_, ?_⟩
  · exact hnests.length_le hpath
  · exact Expr.runWithin?_eq hnests log
  · exact Expr.displayWithin?_eq hnests

/-- The bound is met: in `[A]+F([A]+F( ⋯ ))` with 255 calls a path has two
    nodes for each of the 256 levels. -/
theorem path_length_eq_of_nestedCalls :
    ∃ tokens e, parse tokens = .ok e ∧ (∃ path, e.Path path ∧ path.length = 512) ∧
      (∀ path, e.Path path → path.length ≤ 512) ∧
      e.displayWithin? 512 = some e.display := by
  obtain ⟨path, hpath, hlength⟩ := exists_path_nestedCalls 255
  have hparse : parse (referenceTokens ++ ⟨.operator, "+", 0, 0⟩ :: nestedTokens 255)
      = .ok (.chain (.reference "A") [("+", nestedCalls 255)]) := by
    refine parse_of_derives (n := 256) (Nat.le_refl _) ?_
    have hsignificant := isSignificant_of_mem_nestedTokens (n := 255)
    rw [significant, List.filter_append, List.filter_cons_of_pos rfl,
      List.filter_eq_self.mpr hsignificant]
    exact .chain derives_referenceTokens (.single rfl (derives_nestedTokens 255))
  have hlink : nestedCalls 255
      ∈ Expr.parts (.chain (.reference "A") [("+", nestedCalls 255)]) :=
    List.mem_cons_of_mem _ List.mem_cons_self
  obtain ⟨hpaths, -, hdisplay⟩ := path_length_le_of_parse hparse
  refine ⟨_, _, hparse, ⟨_, .cons hlink hpath, ?_⟩, hpaths, hdisplay⟩
  rw [List.length_cons, hlength]

end FormulaBar
