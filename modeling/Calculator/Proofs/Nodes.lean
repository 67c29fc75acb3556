import Calculator.Proofs.Dependence

/-!
# The nodes that a check visits

A check visits the nodes of a formula from the top down and from left to right, and stops at the
first one that the language does not know. Which nodes come before that one can be read off the
formula, and the check adds the names of the variables among them and no others.

So neither the answer of a check nor the names that it adds depend on the names it starts from.
Where several formulas are checked into one set of names their order makes no difference to the
set, and to check one of them again adds nothing.
-/

namespace Calculator.Formula

mutual

/-- The nodes of a formula from the top down and from left to right, each of them together with
what is below it. -/
def nodes : Formula → List Formula
  | .literal value => [.literal value]
  | .variable name => [.variable name]
  | .unary symbol operand => .unary symbol operand :: operand.nodes
  | .binary left symbol right => .binary left symbol right :: (left.nodes ++ right.nodes)
  | .call name arguments => .call name arguments :: nodesAll arguments

/-- The nodes of formulas, one formula after the other. -/
def nodesAll : List Formula → List Formula
  | [] => []
  | formula :: formulas => formula.nodes ++ nodesAll formulas

end

/-- What the language does not know about the topmost node of a formula, if there is anything. -/
def ownDefect? : Formula → Option Defect
  | .literal _ => none
  | .variable _ => none
  | .unary symbol _ => if symbol ∈ ['+', '-'] then none else some (.unknownSign symbol)
  | .binary _ symbol _ =>
    if symbol ∈ ['+', '-', '*', '/'] then none else some (.unknownOperator symbol)
  | .call name arguments =>
    match Builtin.ofName? name with
    | none => some (.unknownFunction name)
    | some builtin =>
      if arguments.length = builtin.arity then none
      else some (.wrongArity name arguments.length builtin.arity)

/-- The name of a formula that is a variable. -/
def variableName? : Formula → Option String
  | .variable name => some name
  | _ => none

/-- The names of the variables among nodes. -/
def variablesAmong (nodes : List Formula) : Names :=
  .ofList (nodes.filterMap variableName?)

/-- Nodes one after the other up to the first that has a defect, which is answered, and the names
with the variables before it. -/
def visit : List Formula → Names → Except Defect Unit × Names
  | [], names => (.ok (), names)
  | node :: rest, names =>
    match node.ownDefect? with
    | some defect => (.error defect, names)
    | none => visit rest (names ∪ variablesAmong [node])

/-- One check after the other into one set of names: the answers, and the names at the end. -/
def checkInTurn : List Formula → Names → List (Except Defect Unit) × Names
  | [], names => ([], names)
  | formula :: formulas, names =>
    let checked := formula.check names
    let others := checkInTurn formulas checked.2
    (checked.1 :: others.1, others.2)

/-- A name is among the variables of nodes if one of the nodes is the variable. -/
theorem mem_variablesAmong {nodes : List Formula} {name : String} :
    name ∈ variablesAmong nodes ↔ .variable name ∈ nodes := by
  have hnode (node : Formula) : node.variableName? = some name ↔ node = .variable name := by
    cases node <;> simp [variableName?]
  simp [variablesAmong, Std.ExtTreeSet.mem_ofList, hnode]

/-- The variables of nodes are added at once or one after the other. -/
theorem union_variablesAmong_cons (names : Names) (node : Formula) (rest : List Formula) :
    names ∪ variablesAmong [node] ∪ variablesAmong rest =
      names ∪ variablesAmong (node :: rest) := by
  apply Std.ExtTreeSet.ext_mem
  intro name
  simp only [Std.ExtTreeSet.mem_union_iff, mem_variablesAmong, List.mem_cons, List.not_mem_nil,
    or_false, or_assoc]

/-- No node adds no names. -/
theorem union_variablesAmong_nil (names : Names) : names ∪ variablesAmong [] = names := by
  apply Std.ExtTreeSet.ext_mem
  intro name
  simp [Std.ExtTreeSet.mem_union_iff, mem_variablesAmong]

/-- A variable adds its own name. -/
theorem union_variablesAmong_variable (names : Names) (name : String) :
    names ∪ variablesAmong [.variable name] = names.insert name := by
  apply Std.ExtTreeSet.ext_mem
  intro other
  rw [Std.ExtTreeSet.mem_union_iff, mem_variablesAmong, List.mem_singleton, variable.injEq,
    Std.ExtTreeSet.mem_insert, Std.LawfulEqCmp.compare_eq_iff_eq, or_comm, eq_comm]

/-- A node that is no variable adds no name. -/
theorem union_variablesAmong_of_ne (names : Names) {node : Formula}
    (h : ∀ name, node ≠ .variable name) : names ∪ variablesAmong [node] = names := by
  apply Std.ExtTreeSet.ext_mem
  intro name
  rw [Std.ExtTreeSet.mem_union_iff, mem_variablesAmong, List.mem_singleton]
  exact or_iff_left (h name).symm

section Symbols

variable {α : Type} {ofSymbol? : Char → Option α} {symbol : α → Char}

/-- If reading symbols is inverse to writing them then those that are written can be read. -/
theorem isSome_ofSymbol?_iff (h : ∀ {c value}, ofSymbol? c = some value ↔ symbol value = c)
    {values : List α} (hall : ∀ value, value ∈ values) {c : Char} :
    (ofSymbol? c).isSome = true ↔ c ∈ values.map symbol := by
  rw [Option.isSome_iff_exists, List.mem_map]
  exact exists_congr fun value => h.trans (and_iff_right (hall value)).symm

/-- If the symbols that can be read are those listed then any other has a defect. -/
theorem ite_mem_eq_elim {symbols : List Char}
    (h : ∀ {c}, (ofSymbol? c).isSome = true ↔ c ∈ symbols) (c : Char) (defect : Defect) :
    (if c ∈ symbols then none else some defect) =
      (ofSymbol? c).elim (some defect) fun _ => none := by
  cases hread : ofSymbol? c with
  | some value => exact if_pos (h.1 (by rw [hread]; rfl))
  | none => exact if_neg fun hmem => by simpa [hread] using h.2 hmem

end Symbols

/-- The signs are plus and minus. -/
theorem isSome_sign_iff {symbol : Char} :
    (Sign.ofSymbol? symbol).isSome = true ↔ symbol ∈ ['+', '-'] := by
  have hall (sign : Sign) : sign ∈ [.plus, .minus] := by cases sign <;> decide
  exact isSome_ofSymbol?_iff Sign.ofSymbol?_eq_some_iff hall

/-- The operators are those of addition, subtraction, multiplication and division. -/
theorem isSome_operator_iff {symbol : Char} :
    (Operator.ofSymbol? symbol).isSome = true ↔ symbol ∈ ['+', '-', '*', '/'] := by
  have hall (operator : Operator) : operator ∈ [.add, .subtract, .multiply, .divide] := by
    cases operator <;> decide
  exact isSome_ofSymbol?_iff Operator.ofSymbol?_eq_some_iff hall

/-- The defect of a node with a sign is that of its symbol. -/
theorem ownDefect?_unary (symbol : Char) (operand : Formula) :
    ownDefect? (.unary symbol operand) = match knownSign symbol with
      | .error defect => some defect
      | .ok _ => none := by
  rw [ownDefect?, ite_mem_eq_elim isSome_sign_iff, knownSign]
  cases Sign.ofSymbol? symbol <;> rfl

/-- The defect of a node with an operator is that of its symbol. -/
theorem ownDefect?_binary (left : Formula) (symbol : Char) (right : Formula) :
    ownDefect? (.binary left symbol right) = match knownOperator symbol with
      | .error defect => some defect
      | .ok _ => none := by
  rw [ownDefect?, ite_mem_eq_elim isSome_operator_iff, knownOperator]
  cases Operator.ofSymbol? symbol <;> rfl

/-- The defect of a call is that of its name with so many arguments. -/
theorem ownDefect?_call (name : String) (arguments : List Formula) :
    ownDefect? (.call name arguments) = match knownBuiltin name arguments.length with
      | .error defect => some defect
      | .ok _ => none := by
  rw [ownDefect?, knownBuiltin]
  cases Builtin.ofName? name with
  | none => rfl
  | some builtin =>
    dsimp only
    split <;> rfl

/-- A node with a defect is the last one visited. -/
theorem visit_cons_of_some {node : Formula} {defect : Defect}
    (h : node.ownDefect? = some defect) (rest : List Formula) (names : Names) :
    visit (node :: rest) names = (.error defect, names) := by
  rw [visit, h]

/-- After a node without a defect, and that is no variable, the others are visited. -/
theorem visit_cons_of_none {node : Formula} (h : node.ownDefect? = none)
    (hvariable : ∀ name, node ≠ .variable name) (rest : List Formula) (names : Names) :
    visit (node :: rest) names = visit rest names := by
  rw [visit, h, union_variablesAmong_of_ne names hvariable]

/-- What comes after two checks comes after the second of them. -/
theorem thenCheck_thenCheck (checked : Except Defect Unit × Names)
    (next last : Names → Except Defect Unit × Names) :
    thenCheck checked (fun names => thenCheck (next names) last) =
      thenCheck (thenCheck checked next) last := by
  obtain ⟨_ | _, names⟩ := checked <;> rfl

mutual

/-- Visiting the nodes of a formula and then other nodes is a check of the formula and, if it finds
no defect, a visit of the others. -/
theorem visit_nodes_append (formula : Formula) (rest : List Formula) (names : Names) :
    visit (formula.nodes ++ rest) names = thenCheck (formula.check names) (visit rest) := by
  -- The other nodes may be any, since those of a right operand come after those of a left one.
  cases formula with
  | literal value => exact visit_cons_of_none rfl (by simp) rest names
  | «variable» name =>
    change visit rest (names ∪ variablesAmong [.variable name]) = visit rest (names.insert name)
    rw [union_variablesAmong_variable]
  | unary symbol operand =>
    have hdefect := ownDefect?_unary symbol operand
    rw [nodes, List.cons_append, check]
    cases hknown : knownSign symbol with
    | error defect => exact visit_cons_of_some (by rw [hdefect, hknown]) _ names
    | ok sign =>
      rw [visit_cons_of_none (by rw [hdefect, hknown]) (by simp)]
      exact operand.visit_nodes_append rest names
  | binary left symbol right =>
    have hdefect := ownDefect?_binary left symbol right
    rw [nodes, List.cons_append, List.append_assoc]
    cases hknown : knownOperator symbol with
    | error defect =>
      rw [check, hknown]
      exact visit_cons_of_some (by rw [hdefect, hknown]) _ names
    | ok operator =>
      rw [visit_cons_of_none (by rw [hdefect, hknown]) (by simp), check_binary hknown,
        left.visit_nodes_append, ← thenCheck_thenCheck]
      congr
      funext seen
      exact right.visit_nodes_append rest seen
  | call name arguments =>
    have hdefect := ownDefect?_call name arguments
    rw [nodes, List.cons_append, check]
    cases hknown : knownBuiltin name arguments.length with
    | error defect => exact visit_cons_of_some (by rw [hdefect, hknown]) _ names
    | ok builtin =>
      rw [visit_cons_of_none (by rw [hdefect, hknown]) (by simp)]
      exact visit_nodesAll_append arguments rest names

/-- Visiting the nodes of formulas and then other nodes is a check of the formulas and, if it finds
no defect, a visit of the others. -/
theorem visit_nodesAll_append (formulas : List Formula) (rest : List Formula) (names : Names) :
    visit (nodesAll formulas ++ rest) names = thenCheck (checkAll formulas names) (visit rest) := by
  cases formulas with
  | nil => rfl
  | cons formula formulas =>
    rw [nodesAll, List.append_assoc, formula.visit_nodes_append, checkAll_cons,
      ← thenCheck_thenCheck]
    congr
    funext seen
    exact visit_nodesAll_append formulas rest seen

end

/-- A check visits the nodes of a formula. -/
theorem check_eq_visit (formula : Formula) (names : Names) :
    formula.check names = visit formula.nodes names := by
  have hvisit := formula.visit_nodes_append [] names
  rw [List.append_nil] at hvisit
  rw [hvisit]
  obtain ⟨_ | _, seen⟩ := formula.check names <;> rfl

/-- Nodes without a defect are passed, and their variables are added. -/
theorem visit_append {before : List Formula} (h : ∀ node ∈ before, node.ownDefect? = none)
    (rest : List Formula) (names : Names) :
    visit (before ++ rest) names = visit rest (names ∪ variablesAmong before) := by
  induction before generalizing names with
  | nil => rw [List.nil_append, union_variablesAmong_nil]
  | cons node before ih =>
    obtain ⟨hnode, hothers⟩ := List.forall_mem_cons.1 h
    rw [List.cons_append, visit, hnode]
    dsimp only
    rw [ih hothers, union_variablesAmong_cons]

/-- Either no node has a defect or there is a first one that has. -/
theorem exists_first_ownDefect (nodes : List Formula) :
    (∀ node ∈ nodes, node.ownDefect? = none) ∨
      ∃ before node after defect, nodes = before ++ node :: after ∧
        (∀ earlier ∈ before, earlier.ownDefect? = none) ∧ node.ownDefect? = some defect := by
  induction nodes with
  | nil => exact .inl (by simp)
  | cons node nodes ih =>
    cases hnode : node.ownDefect? with
    | some defect => exact .inr ⟨[], node, nodes, defect, rfl, by simp, hnode⟩
    | none =>
      refine ih.imp (fun h => List.forall_mem_cons.2 ⟨hnode, h⟩) ?_
      intro ⟨before, other, after, defect, hsplit, hbefore, hother⟩
      exact ⟨node :: before, other, after, defect, by rw [hsplit, List.cons_append],
        List.forall_mem_cons.2 ⟨hnode, hbefore⟩, hother⟩

/-- The nodes before the first one that has a defect are those up to any defect. -/
theorem eq_takeWhile_of_first {nodes before after : List Formula} {node : Formula}
    {defect : Defect} (hsplit : nodes = before ++ node :: after)
    (hbefore : ∀ earlier ∈ before, earlier.ownDefect? = none)
    (hnode : node.ownDefect? = some defect) :
    before = nodes.takeWhile fun node => node.ownDefect?.isNone := by
  have hnone : ∀ earlier ∈ before, earlier.ownDefect?.isNone = true := by simpa using hbefore
  rw [hsplit, List.takeWhile_append_of_pos hnone, List.takeWhile_cons, hnode]
  exact (List.append_nil before).symm

/-- A check of a formula without a defective node adds all its variables. -/
theorem check_of_known {formula : Formula} (h : ∀ node ∈ formula.nodes, node.ownDefect? = none)
    (names : Names) : formula.check names = (.ok (), names ∪ variablesAmong formula.nodes) := by
  have hvisit := visit_append h [] names
  rw [List.append_nil] at hvisit
  rw [check_eq_visit, hvisit, visit]

/-- A check answers the defect of the first node that has one and adds the variables before it. -/
theorem check_of_first {formula node : Formula} {before after : List Formula} {defect : Defect}
    (hsplit : formula.nodes = before ++ node :: after)
    (hbefore : ∀ earlier ∈ before, earlier.ownDefect? = none)
    (hnode : node.ownDefect? = some defect) (names : Names) :
    formula.check names = (.error defect, names ∪ variablesAmong before) := by
  rw [check_eq_visit, hsplit, visit_append hbefore, visit_cons_of_some hnode]

/-- What a check answers and which names it adds does not depend on the names before it. -/
theorem check_eq_union (formula : Formula) (names : Names) :
    formula.check names = ((formula.check ∅).1, names ∪ (formula.check ∅).2) := by
  have hunion (added : Names) : names ∪ added = names ∪ (∅ ∪ added) := by
    apply Std.ExtTreeSet.ext_mem
    intro name
    simp [Std.ExtTreeSet.mem_union_iff]
  rcases exists_first_ownDefect formula.nodes with
    hknown | ⟨before, node, after, defect, hsplit, hbefore, hnode⟩
  · rw [check_of_known hknown, check_of_known hknown, ← hunion]
  · rw [check_of_first hsplit hbefore hnode, check_of_first hsplit hbefore hnode, ← hunion]

/-- Checks in turn answer what each of them answers on its own. -/
theorem checkInTurn_fst (formulas : List Formula) (names : Names) :
    (checkInTurn formulas names).1 = formulas.map fun formula => (formula.check ∅).1 := by
  induction formulas generalizing names with
  | nil => rfl
  | cons formula formulas ih =>
    rw [checkInTurn, List.map_cons, ih, check_eq_union]

/-- Checks in turn add what each of them adds on its own. -/
theorem mem_checkInTurn_snd {formulas : List Formula} {names : Names} {name : String} :
    name ∈ (checkInTurn formulas names).2 ↔
      name ∈ names ∨ ∃ formula ∈ formulas, name ∈ (formula.check ∅).2 := by
  induction formulas generalizing names with
  | nil => simp [checkInTurn]
  | cons formula formulas ih =>
    rw [checkInTurn]
    dsimp only
    rw [ih, check_eq_union, Std.ExtTreeSet.mem_union_iff, List.exists_mem_cons_iff, or_assoc]

/-- A check collects the variables before the first node that has a defect. If no node has one,
then the check succeeds and adds the names of all variables of the formula. Otherwise it answers
the defect of the first such node, from the top down and from left to right, and adds the names of
the variables before it, none below it and none after it. In both cases the answer and the names
added are the same whatever names there were. So of formulas checked in turn each one answers as
it does on its own and the set ends up with what each of them adds on its own, whatever their
order; and to check one of them again adds nothing and answers the same. -/
theorem check_collects (formula : Formula) :
    ((∀ node ∈ formula.nodes, node.ownDefect? = none) ∧
        (∀ names, formula.check names = (.ok (), names ∪ variablesAmong formula.nodes)) ∨
      ∃ before node after defect, formula.nodes = before ++ node :: after ∧
        (∀ earlier ∈ before, earlier.ownDefect? = none) ∧ node.ownDefect? = some defect ∧
        ∀ names, formula.check names = (.error defect, names ∪ variablesAmong before)) ∧
    (∀ names, formula.check names = ((formula.check ∅).1, names ∪ (formula.check ∅).2)) ∧
    (∀ formulas names,
      (checkInTurn formulas names).1 = formulas.map (fun formula => (formula.check ∅).1) ∧
      ∀ name, name ∈ (checkInTurn formulas names).2 ↔
        name ∈ names ∨ ∃ formula ∈ formulas, name ∈ (formula.check ∅).2) ∧
    (∀ formulas others names, formulas.Perm others →
      (checkInTurn formulas names).2 = (checkInTurn others names).2) ∧
    (∀ formulas names, formula ∈ formulas →
      formula.check (checkInTurn formulas names).2 =
        ((formula.check ∅).1, (checkInTurn formulas names).2)) := by
  refine ⟨?_, formula.check_eq_union, fun formulas names =>
    ⟨checkInTurn_fst formulas names, fun name => mem_checkInTurn_snd⟩, ?_, ?_⟩
  · rcases exists_first_ownDefect formula.nodes with
      hknown | ⟨before, node, after, defect, hsplit, hbefore, hnode⟩
    · exact .inl ⟨hknown, check_of_known hknown⟩
    · exact .inr ⟨before, node, after, defect, hsplit, hbefore, hnode,
        check_of_first hsplit hbefore hnode⟩
  · intro formulas others names hperm
    apply Std.ExtTreeSet.ext_mem
    intro name
    simp only [mem_checkInTurn_snd, hperm.mem_iff]
  · intro formulas names hmem
    rw [check_eq_union]
    congr 1
    apply Std.ExtTreeSet.ext_mem
    intro name
    rw [Std.ExtTreeSet.mem_union_iff, mem_checkInTurn_snd]
    exact or_iff_left_of_imp fun hadded => .inr ⟨formula, hmem, hadded⟩

/-- Of a sum with two defects a check answers the first and collects the variable before it, and in
both orders a product checked into the same set adds its two variables and nothing else. -/
theorem check_collects_defects :
    let defective : Formula := .binary (.binary (.variable "a") '+' (.call "foo" [.variable "b"]))
      '+' (.call "pow" [.variable "c"])
    let product : Formula := .binary (.variable "y") '*' (.variable "z")
    (defective.check ∅).1 = .error (.unknownFunction "foo") ∧
      (∀ name, name ∈ (defective.check ∅).2 ↔ name = "a") ∧
      (∀ name, name ∈ (checkInTurn [defective, product] ∅).2 ↔
        name = "a" ∨ name = "y" ∨ name = "z") ∧
      (checkInTurn [defective, product] ∅).2 = (checkInTurn [product, defective] ∅).2 ∧
      defective.check (checkInTurn [defective, product] ∅).2 =
        (.error (.unknownFunction "foo"), (checkInTurn [defective, product] ∅).2) := by
  intro defective product
  obtain ⟨hfirst, _, hturn, hperm, hagain⟩ := check_collects defective
  have hdefect : (defective.check ∅).1 = .error (.unknownFunction "foo") := rfl
  have hpartial (name : String) : name ∈ (defective.check ∅).2 ↔ name = "a" := by
    rcases hfirst with ⟨_, hknown⟩ | ⟨before, node, after, defect, hsplit, hbefore, hnode, hcheck⟩
    · rw [hknown] at hdefect
      cases hdefect
    · have hnodes : before = [defective, .binary (.variable "a") '+' (.call "foo" [.variable "b"]),
          .variable "a"] := eq_takeWhile_of_first hsplit hbefore hnode
      rw [hcheck, Std.ExtTreeSet.mem_union_iff, mem_variablesAmong, hnodes]
      simp [defective]
  have hproduct (name : String) : name ∈ (product.check ∅).2 ↔ name = "y" ∨ name = "z" := by
    have hknown : ∀ node ∈ product.nodes, node.ownDefect? = none := by decide
    rw [check_of_known hknown, Std.ExtTreeSet.mem_union_iff, mem_variablesAmong]
    simp [product, nodes]
  have hboth (name : String) : name ∈ (checkInTurn [defective, product] ∅).2 ↔
      name = "a" ∨ name = "y" ∨ name = "z" := by
    rw [(hturn _ _).2]
    simp [hpartial, hproduct]
  refine ⟨hdefect, hpartial, hboth, hperm _ _ _ (List.Perm.swap product defective []), ?_⟩
  rw [hagain _ ∅ List.mem_cons_self, hdefect]

end Calculator.Formula
