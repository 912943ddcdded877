import FormulaBar.Proofs.Growth

/-! # Dependence — which inputs the value of a formula depends on

    One input is asked for each listed reference, and for nothing else, so
    nothing else may matter.  The list is a scan of the tokens and knows of
    no tree, while the value comes from the tree alone.  The two meet in the
    derivation of the tree: in a phrase a reference name is only where a
    reference is, so the names among the tokens are those of the tree, in
    the same order and as often.

    Two evaluations of a tree that find the same inputs at its names then
    go through the same values and make the same records. -/

namespace FormulaBar

/-! ## The references of a tree -/

namespace Expr

mutual

/-- The names of the references in a tree, each time they occur, from left to
    right. -/
def references : Expr → List String
  | .number _ => []
  | .text _ => []
  | .reference name => [name]
  | .chain first links => first.references ++ linkReferences links
  | .call _ arguments => argumentReferences arguments

/-- The names of the references in the links of a chain. -/
def linkReferences : List (String × Expr) → List String
  | [] => []
  | (_, operand) :: links => operand.references ++ linkReferences links

/-- The names of the references in the arguments of a call. -/
def argumentReferences : List Expr → List String
  | [] => []
  | argument :: arguments => argument.references ++ argumentReferences arguments

end

end Expr

namespace Grammar

/-- Between quotes nothing is a reference. -/
theorem Body.referenceNames_eq {body : List Token} {text : String} (h : Body body text) :
    referenceNames body = [] := by
  cases h with
  | empty => rfl
  | string kind => exact referenceNames_cons_of_kind [] kind (by decide)

/-- Brackets and what is between them have the references between them. -/
theorem referenceNames_enclosed {inner : List Token} {opener closer : Token} {b c : Char}
    (hopener : opener.isBracket b = true) (hcloser : closer.isBracket c = true) :
    referenceNames (opener :: (inner ++ [closer])) = referenceNames inner := by
  have hlast : referenceNames [closer] = [] := referenceNames_cons_of_isBracket [] hcloser
  rw [referenceNames_cons_of_isBracket _ hopener, referenceNames_append, hlast,
    List.append_nil]

mutual

/-- The reference names of a phrase are those of its tree. -/
theorem Operand.referenceNames_eq {final : Bool} {n : Nat} {phrase : List Token} {e : Expr}
    (h : Operand final n phrase e) : referenceNames phrase = e.references :=
  match h with
  | .number kind _ => referenceNames_cons_of_kind [] kind (by decide)
  | .text hquote hbody hend => by
      rw [referenceNames_cons_of_kind _ hquote (by decide), referenceNames_append,
        hbody.referenceNames_eq, referenceNames_cons_of_kind _ hend (by decide)]
      rfl
  | .openText hquote hbody => by
      rw [referenceNames_cons_of_kind _ hquote (by decide), hbody.referenceNames_eq]
      rfl
  | .reference hopener hname hcloser => by
      rw [referenceNames_cons_of_isBracket _ hopener, referenceNames_cons_of_eq _ hname,
        referenceNames_cons_of_isBracket _ hcloser]
      rfl
  | .emptyCall hname hopener hcloser => by
      rw [referenceNames_cons_of_kind _ hname (by decide),
        referenceNames_cons_of_isBracket _ hopener,
        referenceNames_cons_of_isBracket _ hcloser]
      rfl
  | .call hname hopener hinner hcloser => by
      rw [referenceNames_cons_of_kind _ hname (by decide),
        referenceNames_enclosed hopener hcloser]
      exact hinner.referenceNames_eq
  | .group hopener hinner hcloser => by
      rw [referenceNames_enclosed hopener hcloser]
      exact hinner.referenceNames_eq

/-- The names among the tokens of links are those of the links. -/
theorem Links.referenceNames_eq {final : Bool} {n : Nat} {phrase : List Token}
    {links : List (String × Expr)} (h : Links final n phrase links) :
    referenceNames phrase = Expr.linkReferences links :=
  match h with
  | .single hoperator hoperand => by
      rw [referenceNames_cons_of_kind _ hoperator (by decide), hoperand.referenceNames_eq]
      exact (List.append_nil _).symm
  | .cons hoperator hoperand hmore => by
      rw [referenceNames_cons_of_kind _ hoperator (by decide), referenceNames_append,
        hoperand.referenceNames_eq, hmore.referenceNames_eq]
      rfl

/-- The names among the tokens of arguments are those of the arguments. -/
theorem Arguments.referenceNames_eq {n : Nat} {phrase : List Token} {es : List Expr}
    (h : Arguments n phrase es) : referenceNames phrase = Expr.argumentReferences es :=
  match h with
  | .single h => h.referenceNames_eq.trans (List.append_nil _).symm
  | .cons h hcomma hmore => by
      rw [referenceNames_append, referenceNames_cons_of_kind _ hcomma (by decide),
        h.referenceNames_eq, hmore.referenceNames_eq]
      rfl

/-- The names among the tokens of an expression are those of its tree. -/
theorem Expression.referenceNames_eq {final : Bool} {n : Nat} {phrase : List Token}
    {e : Expr} (h : Expression final n phrase e) : referenceNames phrase = e.references :=
  match h with
  | .operand h => h.referenceNames_eq
  | .chain hfirst hmore => by
      rw [referenceNames_append, hfirst.referenceNames_eq, hmore.referenceNames_eq]
      rfl

end

end Grammar

/-- **THE SCAN AND THE TREE NAME THE SAME**: where tokens have a tree, their
    reference names are the references of the tree, in its order. -/
theorem referenceNames_of_parse {tokens : List Token} {e : Expr}
    (h : parse tokens = .ok e) : referenceNames tokens = e.references := by
  rw [← referenceNames_significant]
  exact (derives_of_parse h).referenceNames_eq

/-! ## Inputs that agree -/

/-- Each of the names has the same value in both inputs, or none in either. -/
def AgreeOn (names : List String) (inputs inputs' : Inputs) : Prop :=
  ∀ name ∈ names, inputs[name]? = inputs'[name]?

instance (names : List String) (inputs inputs' : Inputs) :
    Decidable (AgreeOn names inputs inputs') :=
  inferInstanceAs (Decidable (∀ name ∈ names, inputs[name]? = inputs'[name]?))

variable {inputs inputs' : Inputs}

theorem agreeOn_append {names more : List String} :
    AgreeOn (names ++ more) inputs inputs' ↔
      AgreeOn names inputs inputs' ∧ AgreeOn more inputs inputs' :=
  List.forall_mem_append

/-- Another name is free to change. -/
theorem agreeOn_insert {names : List String} {name : String} (h : name ∉ names)
    (inputs : Inputs) (value : Value) :
    AgreeOn names (inputs.insert name value) inputs := by
  intro other hother
  have hne : name ≠ other := fun heq => h (heq ▸ hother)
  rw [Std.TreeMap.getElem?_insert, if_neg (mt Std.LawfulEqCmp.eq_of_compare hne)]

namespace Expr

mutual

/-- Inputs that agree on the references of a tree give it the same value, with
    the same records. -/
theorem run_congr (e : Expr) (h : AgreeOn e.references inputs inputs') (log : List Record) :
    e.run inputs log = e.run inputs' log :=
  match e with
  | .number _ => rfl
  | .text _ => rfl
  | .reference name => by
      have hname : inputs[name]? = inputs'[name]? := h name List.mem_cons_self
      rw [run, run, hname]
  | .chain first links => by
      obtain ⟨hfirst, hlinks⟩ := agreeOn_append.mp h
      rw [run, run, run_congr first hfirst log]
      exact runLinks_congr links hlinks _ _
  | .call name arguments => by
      rw [run, run, runArguments_congr arguments h [] log]

/-- Links are evaluated alike where the inputs agree on their references. -/
theorem runLinks_congr (links : List (String × Expr))
    (h : AgreeOn (linkReferences links) inputs inputs') (acc : Option Value)
    (log : List Record) : runLinks inputs acc log links = runLinks inputs' acc log links :=
  match links with
  | [] => rfl
  | (operator, operand) :: links => by
      obtain ⟨hoperand, hlinks⟩ := agreeOn_append.mp h
      rw [runLinks, runLinks, run_congr operand hoperand log]
      exact runLinks_congr links hlinks _ _

/-- Arguments are evaluated alike where the inputs agree on their references.
    -/
theorem runArguments_congr (arguments : List Expr)
    (h : AgreeOn (argumentReferences arguments) inputs inputs')
    (params : List (Option Value)) (log : List Record) :
    runArguments inputs params log arguments = runArguments inputs' params log arguments :=
  match arguments with
  | [] => rfl
  | argument :: arguments => by
      obtain ⟨hargument, harguments⟩ := agreeOn_append.mp h
      rw [runArguments, runArguments, run_congr argument hargument log]
      exact runArguments_congr arguments harguments _ _

end

end Expr

/-- Inputs that agree on the listed references give the tokens the same value,
    with the same records. -/
theorem evaluateLogged_congr {tokens : List Token}
    (h : AgreeOn (referencesUsed tokens) inputs inputs') :
    evaluateLogged inputs tokens = evaluateLogged inputs' tokens := by
  rw [evaluateLogged, evaluateLogged]
  cases he : parse tokens with
  | error error => rfl
  | ok e =>
      have hagree : AgreeOn e.references inputs inputs' := by
        intro name hname
        refine h name ?_
        rw [referencesUsed_eq, List.mem_eraseDups, referenceNames_of_parse he]
        exact hname
      show e.evaluate inputs = e.evaluate inputs'
      rw [Expr.evaluate, Expr.evaluate, e.run_congr hagree []]

/-- **ONLY LISTED REFERENCES MATTER**: inputs that agree on the listed
    references give the tokens the same value, and a value put under another
    name does not change it. -/
theorem evaluate_congr (tokens : List Token) :
    (∀ inputs inputs', AgreeOn (referencesUsed tokens) inputs inputs' →
      evaluate inputs tokens = evaluate inputs' tokens) ∧
    (∀ inputs name value, name ∉ referencesUsed tokens →
      evaluate (inputs.insert name value) tokens = evaluate inputs tokens) := by
  have hcongr : ∀ inputs inputs', AgreeOn (referencesUsed tokens) inputs inputs' →
      evaluate inputs tokens = evaluate inputs' tokens := by
    intro inputs inputs' h
    rw [evaluate, evaluate, evaluateLogged_congr h]
  constructor
  · exact hcongr
  · intro inputs name value h
    exact hcongr _ _ (agreeOn_insert h inputs value)

/-- What `B` and `C` are does not matter for the value of `[A]`. -/
theorem evaluate_reference_alone :
    AgreeOn (referencesUsed (tokensOf "[A]"))
        ((({} : Inputs).insert "A" (.text "x")).insert "B" (.text "y"))
        ((({} : Inputs).insert "A" (.text "x")).insert "C" (.text "z")) ∧
      evaluate ((({} : Inputs).insert "A" (.text "x")).insert "B" (.text "y")) (tokensOf "[A]") =
        evaluate ((({} : Inputs).insert "A" (.text "x")).insert "C" (.text "z"))
          (tokensOf "[A]") ∧
      "B" ∉ referencesUsed (tokensOf "[A]") ∧
      evaluate ((({} : Inputs).insert "A" (.text "x")).insert "B" (.text "y")) (tokensOf "[A]") =
        evaluate (({} : Inputs).insert "A" (.text "x")) (tokensOf "[A]") := by
  obtain ⟨hcongr, hother⟩ := evaluate_congr (tokensOf "[A]")
  have hagree : AgreeOn (referencesUsed (tokensOf "[A]"))
      ((({} : Inputs).insert "A" (.text "x")).insert "B" (.text "y"))
      ((({} : Inputs).insert "A" (.text "x")).insert "C" (.text "z")) := by decide +kernel
  have hB : "B" ∉ referencesUsed (tokensOf "[A]") := by decide +kernel
  exact ⟨hagree, hcongr _ _ hagree, hB, hother _ "B" _ hB⟩

end FormulaBar
