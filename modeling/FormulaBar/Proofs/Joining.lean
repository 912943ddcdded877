import FormulaBar.Proofs.Composition

/-! # Joining — concatenation in groups

    Concatenation takes any number of parameters, and a formula writes it
    between two.  How a formula groups its parts does not matter: whether
    they stand in one chain or in chains of chains, the text is that of all
    parts in their order.

    The reason is that a concatenation is always a text, and that a text
    counts as itself where it is joined again.  A value that is missing
    counts as the empty text, and a number as the text that is written for
    it; either happens once, where the part is joined first. -/

namespace FormulaBar

/-- Concatenation joins its parameters as texts. -/
theorem executeOperator_concat (params : List (Option Value)) :
    executeOperator "&" params = some (.text (String.join (params.map Value.textOf))) := rfl

/-! ## Trees that join expressions -/

mutual

/-- The tree joins the expressions in their order, by `&` alone; a chain may
    group any number of them. -/
inductive Joins : List Expr → Expr → Prop where
  | single (e : Expr) : Joins [e] e
  | chain {es fs : List Expr} {first : Expr} {links : List (String × Expr)}
      (hfirst : Joins es first) (hlinks : JoinsLinks fs links) :
      Joins (es ++ fs) (.chain first links)

/-- The operands of the links join the expressions in their order. -/
inductive JoinsLinks : List Expr → List (String × Expr) → Prop where
  | nil : JoinsLinks [] []
  | cons {es fs : List Expr} {operand : Expr} {links : List (String × Expr)}
      (hoperand : Joins es operand) (hlinks : JoinsLinks fs links) :
      JoinsLinks (es ++ fs) (("&", operand) :: links)

end

/-- The texts of the values of the expressions, one behind the other. -/
def joinedText (inputs : Inputs) (es : List Expr) : String :=
  String.join (es.map fun e => Value.textOf (e.value inputs))

section

variable {inputs : Inputs}

/-- The texts of two lists of trees are joined one list after the other. -/
theorem joinedText_append (es fs : List Expr) :
    joinedText inputs (es ++ fs) = joinedText inputs es ++ joinedText inputs fs := by
  rw [joinedText, List.map_append, String.join_append]
  rfl

theorem joinedText_singleton (e : Expr) :
    joinedText inputs [e] = Value.textOf (e.value inputs) := by
  rw [joinedText, List.map_singleton, String.join_cons, String.join_nil, String.append_empty]

/-- Two values are joined to the text of the first and the text of the second.
    -/
theorem textOf_concat (left right : Option Value) :
    Value.textOf (executeOperator "&" [left, right])
      = Value.textOf left ++ Value.textOf right := by
  rw [executeOperator_concat]
  show String.join [Value.textOf left, Value.textOf right] = _
  rw [String.join_cons, String.join_cons, String.join_nil, String.append_empty]

/-! ## The text of a join -/

mutual

/-- A tree that joins expressions counts as their texts. -/
theorem Joins.textOf_value {es : List Expr} {e : Expr} (h : Joins es e) :
    Value.textOf (e.value inputs) = joinedText inputs es :=
  match h with
  | .single e => (joinedText_singleton e).symm
  | .chain hfirst hlinks => by
      rw [Expr.value_chain, hlinks.textOf_foldl, hfirst.textOf_value, joinedText_append]

/-- The links append the texts of their operands to what is in front. -/
theorem JoinsLinks.textOf_foldl {es : List Expr} {links : List (String × Expr)}
    (h : JoinsLinks es links) (acc : Option Value) :
    Value.textOf (links.foldl
        (fun acc link => executeOperator link.1 [acc, link.2.value inputs]) acc)
      = Value.textOf acc ++ joinedText inputs es :=
  match h with
  | .nil => String.append_empty.symm
  | .cons hoperand hlinks => by
      rw [List.foldl_cons, hlinks.textOf_foldl, textOf_concat, hoperand.textOf_value,
        String.append_assoc, joinedText_append]

end

/-- Links leave a text where a text is in front of them. -/
theorem JoinsLinks.exists_text {es : List Expr} {links : List (String × Expr)}
    (h : JoinsLinks es links) (s : String) :
    ∃ s', links.foldl
      (fun acc link => executeOperator link.1 [acc, link.2.value inputs])
      (some (.text s)) = some (.text s') := by
  induction links generalizing es s with
  | nil => exact ⟨s, rfl⟩
  | cons link links ih =>
      cases h with
      | cons hoperand hlinks =>
          rw [List.foldl_cons, executeOperator_concat]
          exact ih hlinks _

/-- A tree that joins two expressions or more has a text for its value: a
    chain without links has its first operand's, and one link makes a text. -/
theorem Joins.exists_text {es : List Expr} {e : Expr} (h : Joins es e)
    (hes : 2 ≤ es.length) : ∃ s, e.value inputs = some (.text s) :=
  match h, hes with
  | .single _, hes => absurd hes (Nat.not_succ_le_self 1)
  | .chain hfirst hlinks, hes => by
      rw [Expr.value_chain]
      cases hlinks with
      | nil =>
          rw [List.append_nil] at hes
          exact hfirst.exists_text hes
      | cons hoperand hlinks =>
          rw [List.foldl_cons, executeOperator_concat]
          exact hlinks.exists_text _

/-- However two trees or more are joined, the value is the text of all of
    them. -/
theorem Joins.value_eq {es : List Expr} {e : Expr} (h : Joins es e) (hes : 2 ≤ es.length) :
    e.value inputs = some (.text (joinedText inputs es)) := by
  obtain ⟨s, hs⟩ : ∃ s, e.value inputs = some (.text s) := h.exists_text hes
  have htext : s = joinedText inputs es := by
    rw [← h.textOf_value, hs]
    rfl
  rw [hs, htext]

end

/-- **GROUPING DOES NOT MATTER**: every tree that joins two expressions or more
    by concatenation alone has the same value, the text of their values one
    behind the other; that is also the value of one concatenation of all of
    them. -/
theorem value_of_joins (inputs : Inputs) {es : List Expr} {e : Expr} (h : Joins es e)
    (hes : 2 ≤ es.length) :
    e.value inputs
        = some (.text (String.join (es.map fun e => Value.textOf (e.value inputs)))) ∧
      executeOperator "&" (es.map (·.value inputs)) = e.value inputs ∧
      ∀ e', Joins es e' → e'.value inputs = e.value inputs := by
  refine ⟨h.value_eq hes, ?_, fun e' h' => ?_⟩
  · rw [h.value_eq hes, executeOperator_concat, List.map_map]
    rfl
  · rw [h.value_eq hes, h'.value_eq hes]

/-- A reference without an input, a number and a text give `2x`, in either
    grouping and at once. -/
theorem value_of_joins_number :
    ∃ es left right, es = [.reference "A", .number 2, .text "x"] ∧
      left = .chain (.chain (.reference "A") [("&", .number 2)]) [("&", .text "x")] ∧
      right = .chain (.reference "A") [("&", .chain (.number 2) [("&", .text "x")])] ∧
      Joins es left ∧ Joins es right ∧ 2 ≤ es.length ∧
      left.value {} = some (.text "2x") ∧ right.value {} = left.value {} ∧
      executeOperator "&" (es.map (·.value {})) = left.value {} := by
  have hleft : Joins [.reference "A", .number 2, .text "x"]
      (.chain (.chain (.reference "A") [("&", .number 2)]) [("&", .text "x")]) :=
    .chain (.chain (.single _) (.cons (.single _) .nil)) (.cons (.single _) .nil)
  have hright : Joins [.reference "A", .number 2, .text "x"]
      (.chain (.reference "A") [("&", .chain (.number 2) [("&", .text "x")])]) :=
    .chain (.single _) (.cons (.chain (.single _) (.cons (.single _) .nil)) .nil)
  obtain ⟨hvalue, hall, hsame⟩ := value_of_joins {} hleft (by decide)
  have htext : joinedText {} [.reference "A", .number 2, .text "x"] = "2x" := by decide +kernel
  exact ⟨_, _, _, rfl, rfl, rfl, hleft, hright, by decide,
    hvalue.trans (congrArg (fun s => some (Value.text s)) htext), hsame _ hright, hall⟩

end FormulaBar
