import FormulaBar.Proofs.Dependence
import Mathlib.Data.List.Induction

/-! # Walk — the nodes of a tree from left to right

    The prompts of a formula are listed by a scan of its tokens, before any
    tree is there.  Once there is one, the prompts should be what a walk
    through it meets: the references in the order of the walk, each name
    where it is met first.

    The walk is in preorder, so a node stands in front of its operands or
    arguments.  As only references have a name and these have no parts, the
    names on the walk are those of the tree from left to right, and these
    are the names of the tokens. -/

namespace FormulaBar

/-! ## The walk -/

namespace Expr

mutual

/-- The nodes of a tree: each in front of its parts, the parts from left to
    right. -/
def preorder : Expr → List Expr
  | .number value => [.number value]
  | .text value => [.text value]
  | .reference name => [.reference name]
  | .chain first links => .chain first links :: (first.preorder ++ linkPreorder links)
  | .call name arguments => .call name arguments :: argumentPreorder arguments

/-- The nodes of the operands in the links of a chain. -/
def linkPreorder : List (String × Expr) → List Expr
  | [] => []
  | (_, operand) :: links => operand.preorder ++ linkPreorder links

/-- The nodes of the arguments of a call. -/
def argumentPreorder : List Expr → List Expr
  | [] => []
  | argument :: arguments => argument.preorder ++ argumentPreorder arguments

end

/-- The name of a node that is a reference. -/
def referenceName? : Expr → Option String
  | .reference name => some name
  | _ => none

mutual

/-- The references of a tree are those on its walk. -/
theorem filterMap_referenceName?_preorder (e : Expr) :
    e.preorder.filterMap referenceName? = e.references :=
  match e with
  | .number _ => rfl
  | .text _ => rfl
  | .reference _ => rfl
  | .chain first links => by
      show (first.preorder ++ linkPreorder links).filterMap referenceName? = _
      rw [List.filterMap_append, filterMap_referenceName?_preorder first,
        filterMap_referenceName?_linkPreorder links]
      rfl
  | .call _ arguments => filterMap_referenceName?_argumentPreorder arguments

/-- The references among the nodes of links are those of the links. -/
theorem filterMap_referenceName?_linkPreorder (links : List (String × Expr)) :
    (linkPreorder links).filterMap referenceName? = linkReferences links :=
  match links with
  | [] => rfl
  | (_, operand) :: links => by
      show (operand.preorder ++ linkPreorder links).filterMap referenceName? = _
      rw [List.filterMap_append, filterMap_referenceName?_preorder operand,
        filterMap_referenceName?_linkPreorder links]
      rfl

/-- The references among the nodes of arguments are those of the arguments. -/
theorem filterMap_referenceName?_argumentPreorder (arguments : List Expr) :
    (argumentPreorder arguments).filterMap referenceName? = argumentReferences arguments :=
  match arguments with
  | [] => rfl
  | argument :: arguments => by
      show (argument.preorder ++ argumentPreorder arguments).filterMap referenceName? = _
      rw [List.filterMap_append, filterMap_referenceName?_preorder argument,
        filterMap_referenceName?_argumentPreorder arguments]
      rfl

end

end Expr

/-! ## First occurrences -/

/-- The names without those that have an equal one in front of them. -/
def firstOccurrences (names : List String) : List String :=
  (names.zipIdx.filter fun p => p.1 ∉ names.take p.2).map Prod.fst

/-- One more name is kept unless it was there before. -/
theorem firstOccurrences_concat (names : List String) (name : String) :
    firstOccurrences (names ++ [name])
      = firstOccurrences names ++ if name ∈ names then [] else [name] := by
  -- in front of the new name the earlier ones are as they were
  have hearlier : names.zipIdx.filter (fun p => p.1 ∉ (names ++ [name]).take p.2)
      = names.zipIdx.filter fun p => p.1 ∉ names.take p.2 := by
    refine List.filter_congr fun p hp => ?_
    have hlt := List.snd_lt_of_mem_zipIdx hp
    rw [List.take_append_of_le_length (by omega)]
  have hlast : (names ++ [name]).take (0 + names.length) = names := by
    rw [Nat.zero_add, List.take_left]
  rw [firstOccurrences, List.zipIdx_append, List.filter_append, List.map_append, hearlier,
    List.zipIdx_singleton]
  by_cases h : name ∈ names
  · rw [if_pos h, List.filter_cons_of_neg (by simpa [hlast] using h)]
    rfl
  · rw [if_neg h, List.filter_cons_of_pos (by simpa [hlast] using h)]
    rfl

/-- A list without what it repeats is the list of its first occurrences. -/
theorem eraseDups_eq_firstOccurrences (names : List String) :
    names.eraseDups = firstOccurrences names := by
  induction names using List.reverseRecOn with
  | nil => rfl
  | append_singleton names name ih =>
      rw [firstOccurrences_concat, List.eraseDups_append, ih]
      by_cases h : name ∈ names
      · have hnew : [name].removeAll names = [] := by simp [List.removeAll, h]
        rw [if_pos h, hnew]
        rfl
      · have hnew : [name].removeAll names = [name] := by simp [List.removeAll, h]
        rw [if_neg h, hnew]
        rfl

/-- **THE LIST OF REFERENCES IS THAT OF THE TREE**: where tokens have a tree,
    the references listed for them are the names that a walk through the tree
    meets, each where it is met first. -/
theorem referencesUsed_of_parse {tokens : List Token} {e : Expr}
    (h : parse tokens = .ok e) :
    referencesUsed tokens = firstOccurrences (e.preorder.filterMap Expr.referenceName?) := by
  rw [referencesUsed_eq, eraseDups_eq_firstOccurrences, referenceNames_of_parse h,
    e.filterMap_referenceName?_preorder]

/-- In `[B]&F([A],[B])` the name `B` is met twice and listed once, in front of
    `A`. -/
theorem referencesUsed_of_repeated :
    ∃ tokens e, parse tokens = .ok e ∧ tokens = tokensOf "[B]&F([A],[B])" ∧
      e = .chain (.reference "B") [("&", .call "F" [.reference "A", .reference "B"])] ∧
      e.preorder.filterMap Expr.referenceName? = ["B", "A", "B"] ∧
      referencesUsed tokens = ["B", "A"] := by
  obtain ⟨tokens, htokens, hsplit⟩ : ∃ tokens, tokenize "[B]&F([A],[B])" = .ok tokens ∧
      tokens = [⟨.bracket, "[", 0, 0⟩, ⟨.referenceName, "B", 1, 1⟩, ⟨.bracket, "]", 2, 2⟩,
        ⟨.operator, "&", 3, 3⟩, ⟨.functionName, "F", 4, 4⟩, ⟨.bracket, "(", 5, 5⟩,
        ⟨.bracket, "[", 6, 6⟩, ⟨.referenceName, "A", 7, 7⟩, ⟨.bracket, "]", 8, 8⟩,
        ⟨.comma, ",", 9, 9⟩, ⟨.bracket, "[", 10, 10⟩, ⟨.referenceName, "B", 11, 11⟩,
        ⟨.bracket, "]", 12, 12⟩, ⟨.bracket, ")", 13, 13⟩] :=
    ⟨_, by decide +kernel, rfl⟩
  have hparse : parse tokens = .ok (.chain (.reference "B")
      [("&", .call "F" [.reference "A", .reference "B"])]) := by
    rw [hsplit]
    exact parse_of_derives (n := 2) (by decide)
      (.chain (.reference rfl rfl rfl) (.single rfl (.call rfl rfl
        (.cons (.operand (.reference rfl rfl rfl)) rfl
          (.single (.operand (.reference rfl rfl rfl)))) rfl)))
  refine ⟨tokens, _, hparse, (tokensOf_eq htokens).symm, rfl, rfl, ?_⟩
  rw [referencesUsed_of_parse hparse]
  decide +kernel

end FormulaBar
