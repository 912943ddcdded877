import FormulaBar.Proofs.Walk

/-! # Recording — what an evaluation records

    An evaluation takes no shortcut.  All operands and arguments are
    evaluated, each once and from left to right, also where the operator or
    the function above them is unknown and their values are lost.  The
    records show it: a reference without an input leaves one, and so does a
    call of a known function without arguments, and both are leaves of the
    tree.  Nothing else in a tree leaves any.  An operator is never refused
    for the number of its parameters, since a chain hands it the value so
    far and that of one operand.

    So the records are those of the leaves in their order.  The invariant
    of the evaluation says this of the log it starts with: the records of
    the part at hand go in front of it, the latest first. -/

namespace FormulaBar

/-! ## Leaves and their records -/

namespace Expr

/-- Whether the node has neither operands nor arguments. -/
def isLeaf : Expr → Bool
  | .number _ | .text _ | .reference _ => true
  | .chain _ _ => false
  | .call _ arguments => arguments.isEmpty

/-- The leaves of a tree from left to right. -/
def leaves (e : Expr) : List Expr :=
  e.preorder.filter isLeaf

/-- The record that a leaf makes. -/
def leafRecord? (inputs : Inputs) : Expr → Option Record
  | .reference name => if name ∈ inputs then none else some (.noInput name)
  | .call name [] => (Function.ofName? name).map .noParameters
  | _ => none

/-- The level and the message of the record that a leaf makes. -/
def leafMessage? (inputs : Inputs) : Expr → Option (String × String)
  | .reference name =>
      if name ∈ inputs then none
      else some ("TRACE", s!"reference [{name}] has no input value")
  | .call name [] =>
      if hasFunction name then
        some ("DEBUG", s!"{upperCase name} called without parameters")
      else none
  | _ => none

end Expr

/-- A function has its name in upper case. -/
theorem Function.name_of_ofName? {name : String} {f : Function}
    (h : Function.ofName? name = some f) : f.name = upperCase name := by
  rw [Function.ofName?] at h
  split at h
  · next hname =>
      obtain rfl := Option.some.inj h
      exact hname.symm
  · next hname =>
      obtain rfl := Option.some.inj h
      exact hname.symm
  · cases h

namespace Expr

/-- A record of a leaf reads as its message. -/
theorem map_leafRecord? (inputs : Inputs) (e : Expr) :
    (leafRecord? inputs e).map (fun r => (r.level.name, r.message))
      = leafMessage? inputs e := by
  cases e with
  | number value => rfl
  | text value => rfl
  | chain first links => rfl
  | reference name =>
      rw [leafRecord?, leafMessage?]
      by_cases h : name ∈ inputs
      · rw [if_pos h, if_pos h]
        rfl
      · rw [if_neg h, if_neg h]
        rfl
  | call name arguments =>
      cases arguments with
      | cons argument arguments => rfl
      | nil =>
          rw [leafRecord?, leafMessage?, hasFunction]
          cases h : Function.ofName? name with
          | none => rfl
          | some f =>
              rw [← Function.name_of_ofName? h]
              rfl

end Expr

/-! ## The records of an evaluation -/

/-- Two parameters are never refused. -/
theorem operatorRecords_pair (symbol : String) (left right : Option Value) :
    operatorRecords symbol [left, right] = [] := by
  rw [operatorRecords]
  cases Operator.ofSymbol? symbol with
  | none => rfl
  | some op => exact if_neg (by simp [Operator.refuses])

/-- A call with arguments makes no record. -/
theorem functionRecords_of_ne_nil (name : String) {params : List (Option Value)}
    (h : params ≠ []) : functionRecords name params = [] := by
  rw [functionRecords]
  cases Function.ofName? name with
  | none => rfl
  | some f => exact if_neg (by simpa using h)

namespace Expr

variable {inputs : Inputs}

/-- The records of the leaves among the nodes. -/
def leafRecords (inputs : Inputs) (nodes : List Expr) : List Record :=
  (nodes.filter isLeaf).filterMap (leafRecord? inputs)

/-- The records of two lists of nodes are made one list after the other. -/
theorem leafRecords_append (nodes more : List Expr) :
    leafRecords inputs (nodes ++ more)
      = leafRecords inputs nodes ++ leafRecords inputs more := by
  rw [leafRecords, List.filter_append, List.filterMap_append]
  rfl

/-- Records of the second part are made later, and stand first. -/
theorem reverse_leafRecords_append (nodes more : List Expr) (log : List Record) :
    (leafRecords inputs (nodes ++ more)).reverse ++ log
      = (leafRecords inputs more).reverse ++ ((leafRecords inputs nodes).reverse ++ log) := by
  rw [leafRecords_append, List.reverse_append, List.append_assoc]

/-- A node with something below it makes no record of its own. -/
theorem leafRecords_cons_of_not_isLeaf {e : Expr} (nodes : List Expr)
    (h : e.isLeaf = false) : leafRecords inputs (e :: nodes) = leafRecords inputs nodes := by
  rw [leafRecords, List.filter_cons_of_neg (by rw [h]; exact Bool.false_ne_true)]
  rfl

/-- A leaf makes its own record, if any. -/
theorem leafRecords_singleton {e : Expr} (h : e.isLeaf = true) :
    leafRecords inputs [e] = (leafRecord? inputs e).toList := by
  rw [leafRecords, List.filter_cons_of_pos h, List.filter_nil]
  cases hrecord : leafRecord? inputs e with
  | none => simp [hrecord]
  | some r => simp [hrecord]

theorem run_snd_reference (name : String) (log : List Record) :
    ((Expr.reference name).run inputs log).2
      = (leafRecords inputs [.reference name]).reverse ++ log := by
  rw [run, leafRecords_singleton rfl, leafRecord?]
  by_cases h : name ∈ inputs
  · obtain ⟨value, hvalue⟩ :=
      Option.isSome_iff_exists.mp (Std.TreeMap.isSome_getElem?_iff_mem.mpr h)
    rw [hvalue, if_pos h]
    rfl
  · rw [Std.TreeMap.getElem?_eq_none h, if_neg h]
    rfl

/-- A call without arguments makes its record if the function is known. -/
theorem functionRecords_nil (name : String) :
    functionRecords name [] = (leafRecords inputs [.call name []]).reverse := by
  rw [functionRecords, leafRecords_singleton rfl, leafRecord?]
  cases Function.ofName? name with
  | none => rfl
  | some f => rfl

mutual

/-- **ONE RECORD PER LEAF**: evaluating a tree puts the records of its leaves
    in front of the log, the latest first. -/
theorem run_snd (e : Expr) (log : List Record) :
    (e.run inputs log).2 = (leafRecords inputs e.preorder).reverse ++ log :=
  match e with
  | .number _ => rfl
  | .text _ => rfl
  | .reference name => run_snd_reference name log
  | .chain first links => by
      rw [run]
      show (runLinks inputs (first.run inputs log).1 (first.run inputs log).2 links).2
        = (leafRecords inputs (_ :: (first.preorder ++ linkPreorder links))).reverse ++ log
      rw [runLinks_snd links, run_snd first log, leafRecords_cons_of_not_isLeaf _ rfl,
        reverse_leafRecords_append]
  | .call name arguments => by
      have hparams : (runArguments inputs [] log arguments).1 = _ :=
        runArguments_fst arguments [] log
      have hlog := runArguments_snd arguments [] log
      rw [run]
      show functionRecords name (runArguments inputs [] log arguments).1
          ++ (runArguments inputs [] log arguments).2
        = (leafRecords inputs (_ :: argumentPreorder arguments)).reverse ++ log
      rw [hlog, hparams]
      cases arguments with
      | nil => exact congrArg (· ++ log) (functionRecords_nil name)
      | cons argument arguments =>
          rw [functionRecords_of_ne_nil name (by simp), leafRecords_cons_of_not_isLeaf _ rfl]
          rfl

/-- The links of a chain put their records in front of the log, the latest
    first. -/
theorem runLinks_snd (links : List (String × Expr)) (acc : Option Value)
    (log : List Record) :
    (runLinks inputs acc log links).2
      = (leafRecords inputs (linkPreorder links)).reverse ++ log :=
  match links with
  | [] => rfl
  | (operator, operand) :: links => by
      rw [runLinks]
      show (runLinks inputs (executeOperator operator [acc, (operand.run inputs log).1])
          (operatorRecords operator [acc, (operand.run inputs log).1]
            ++ (operand.run inputs log).2) links).2
        = (leafRecords inputs (operand.preorder ++ linkPreorder links)).reverse ++ log
      rw [runLinks_snd links, operatorRecords_pair, List.nil_append, run_snd operand log,
        reverse_leafRecords_append]

/-- The arguments of a call put their records in front of the log, the latest
    first. -/
theorem runArguments_snd (arguments : List Expr) (params : List (Option Value))
    (log : List Record) :
    (runArguments inputs params log arguments).2
      = (leafRecords inputs (argumentPreorder arguments)).reverse ++ log :=
  match arguments with
  | [] => rfl
  | argument :: arguments => by
      rw [runArguments]
      show (runArguments inputs ((argument.run inputs log).1 :: params)
          (argument.run inputs log).2 arguments).2
        = (leafRecords inputs (argument.preorder ++ argumentPreorder arguments)).reverse ++ log
      rw [runArguments_snd arguments, run_snd argument log, reverse_leafRecords_append]

end

theorem log_evaluate_eq (inputs : Inputs) (e : Expr) :
    (e.evaluate inputs).log = e.leaves.filterMap (leafRecord? inputs) := by
  show (e.run inputs []).2.reverse = _
  rw [run_snd, List.append_nil, List.reverse_reverse]
  rfl

/-- No leaf makes a record about the parameters of an operator. -/
theorem leafRecord?_ne_wrongCount (inputs : Inputs) (e : Expr) (op : Operator) (count : Nat) :
    leafRecord? inputs e ≠ some (.wrongCount op count) := by
  cases e with
  | number value => exact nofun
  | text value => exact nofun
  | chain first links => exact nofun
  | reference name =>
      rw [leafRecord?]
      by_cases h : name ∈ inputs
      · rw [if_pos h]
        exact nofun
      · rw [if_neg h]
        exact nofun
  | call name arguments =>
      cases arguments with
      | cons argument arguments => exact nofun
      | nil =>
          rw [leafRecord?]
          cases Function.ofName? name with
          | none => exact nofun
          | some f => exact nofun

/-- **EVERY LEAF ONCE, FROM LEFT TO RIGHT**: the records of an evaluation are
    those of the leaves of the tree in their order, with the messages said of
    them, and none tells that an operator refused its parameters. -/
theorem log_evaluate (inputs : Inputs) (e : Expr) :
    (e.evaluate inputs).log = e.leaves.filterMap (leafRecord? inputs) ∧
    (e.evaluate inputs).log.map (fun r => (r.level.name, r.message))
      = e.leaves.filterMap (leafMessage? inputs) ∧
    ∀ op count, .wrongCount op count ∉ (e.evaluate inputs).log := by
  refine ⟨log_evaluate_eq inputs e, ?_, fun op count hmem => ?_⟩
  · rw [log_evaluate_eq, List.map_filterMap]
    exact congrArg (e.leaves.filterMap ·) (funext (map_leafRecord? inputs))
  · rw [log_evaluate_eq] at hmem
    obtain ⟨leaf, -, hleaf⟩ := List.mem_filterMap.mp hmem
    exact leafRecord?_ne_wrongCount inputs leaf op count hleaf

/-- The unknown operator and the unknown function lose the values below them,
    but not the records. -/
theorem log_evaluate_of_unknown :
    ∃ e, e = Expr.chain (.call "Nope" [.reference "A", .call "round" []])
        [("=", .reference "B"), ("+", .call "Nope" [])] ∧
      Operator.ofSymbol? "=" = none ∧ Function.ofName? "Nope" = none ∧
      (e.evaluate {}).log = [.noInput "A", .noParameters .round, .noInput "B"] ∧
      (e.evaluate {}).log.map (fun r => (r.level.name, r.message))
        = [("TRACE", "reference [A] has no input value"),
          ("DEBUG", "ROUND called without parameters"),
          ("TRACE", "reference [B] has no input value")] ∧
      ∀ op count, .wrongCount op count ∉ (e.evaluate {}).log := by
  obtain ⟨hlog, hmessages, hcounts⟩ := log_evaluate {}
    (.chain (.call "Nope" [.reference "A", .call "round" []])
      [("=", .reference "B"), ("+", .call "Nope" [])])
  refine ⟨_, rfl, by decide, by decide +kernel, ?_, ?_, hcounts⟩
  · rw [hlog]
    decide +kernel
  · rw [hmessages]
    decide +kernel

end Expr

end FormulaBar
