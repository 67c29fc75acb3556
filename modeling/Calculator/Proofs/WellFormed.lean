import Calculator.Proofs.Nodes
import Calculator.Proofs.Proper
import Calculator.Proofs.TokenLanguage

/-!
# Parsed formulas are well formed

A formula put together by hand may hold any symbol, any name and any number. One that is parsed
may not: its symbols come from marks, its names and its literals from tokens, and its calls have
arguments. So every node of it is one that can be written.

Then no sign and no operator of a parsed formula is unknown. What a check may still find is a call
of a function that there is not, or a call with the wrong number of arguments.
-/

namespace Calculator.Formula

/-- A literal is finite and without a minus sign. -/
def IsPlain (value : Float) : Prop :=
  ∃ units, Number.Binary64.ofFloat value = .finite false units

/-- A node is one that can be written: its symbol is one of the signs or of the operators, its name
is an identifier, a call has arguments, and a literal is finite and without a minus sign. -/
def IsWellFormed : Formula → Prop
  | .literal value => IsPlain value
  | .variable name => name.toList ∈ Lexical.identifier
  | .unary symbol _ => symbol ∈ ['+', '-']
  | .binary _ symbol _ => symbol ∈ ['+', '-', '*', '/']
  | .call name arguments => name.toList ∈ Lexical.identifier ∧ arguments ≠ []

mutual

/-- The nodes of a formula that can be written are well formed, if its literals have no minus
sign. -/
theorem isWellFormed_of_isWritable (formula : Formula) (hwritable : formula.isWritable = true)
    (hliterals : ∀ x ∈ formula.literals, IsPlain x) :
    ∀ node ∈ formula.nodes, node.IsWellFormed := by
  cases formula with
  | literal value =>
    have hplain : IsPlain value := List.forall_mem_singleton.1 hliterals
    exact List.forall_mem_singleton.2 hplain
  | «variable» name => exact List.forall_mem_singleton.2 (Lexical.mem_identifier.2 hwritable)
  | unary symbol operand =>
    obtain ⟨hsymbol, hoperand⟩ := Bool.and_eq_true_iff.1 hwritable
    exact List.forall_mem_cons.2 ⟨isSome_sign_iff.1 hsymbol,
      operand.isWellFormed_of_isWritable hoperand hliterals⟩
  | binary left symbol right =>
    obtain ⟨hfront, hright⟩ := Bool.and_eq_true_iff.1 hwritable
    obtain ⟨hsymbol, hleft⟩ := Bool.and_eq_true_iff.1 hfront
    obtain ⟨hleftLiterals, hrightLiterals⟩ := List.forall_mem_append.1 hliterals
    exact List.forall_mem_cons.2 ⟨isSome_operator_iff.1 hsymbol, List.forall_mem_append.2
      ⟨left.isWellFormed_of_isWritable hleft hleftLiterals,
        right.isWellFormed_of_isWritable hright hrightLiterals⟩⟩
  | call name arguments =>
    obtain ⟨hfront, hall⟩ := Bool.and_eq_true_iff.1 hwritable
    obtain ⟨hname, hnonempty⟩ := Bool.and_eq_true_iff.1 hfront
    have harguments : arguments ≠ [] := by simpa using hnonempty
    exact List.forall_mem_cons.2 ⟨⟨Lexical.mem_identifier.2 hname, harguments⟩,
      isWellFormed_of_areWritable arguments hall hliterals⟩

/-- The nodes of formulas that can be written are well formed, if their literals have no minus
sign. -/
theorem isWellFormed_of_areWritable (formulas : List Formula)
    (hwritable : areWritable formulas = true)
    (hliterals : ∀ x ∈ literalsAll formulas, IsPlain x) :
    ∀ node ∈ nodesAll formulas, node.IsWellFormed := by
  cases formulas with
  | nil => simp [nodesAll]
  | cons formula formulas =>
    obtain ⟨hfirst, hothers⟩ := Bool.and_eq_true_iff.1 hwritable
    obtain ⟨hfirstLiterals, hotherLiterals⟩ := List.forall_mem_append.1 hliterals
    exact List.forall_mem_append.2 ⟨formula.isWellFormed_of_isWritable hfirst hfirstLiterals,
      isWellFormed_of_areWritable formulas hothers hotherLiterals⟩

end

/-- A call is of a function that there is not, or has not as many arguments as this takes. -/
def IsMiscall (name : String) (arguments : List Formula) (defect : Defect) : Prop :=
  (Builtin.ofName? name = none ∧ defect = .unknownFunction name) ∨
    ∃ builtin, Builtin.ofName? name = some builtin ∧ arguments.length ≠ builtin.arity ∧
      defect = .wrongArity name arguments.length builtin.arity

/-- The only defects of well-formed nodes are those of calls. -/
theorem exists_call_of_ownDefect {node : Formula} {defect : Defect} (hnode : node.IsWellFormed)
    (h : node.ownDefect? = some defect) :
    ∃ name arguments, node = .call name arguments ∧ IsMiscall name arguments defect := by
  cases node with
  | literal value => cases h
  | «variable» name => cases h
  | unary symbol operand =>
    have hsymbol : symbol ∈ ['+', '-'] := hnode
    rw [ownDefect?, if_pos hsymbol] at h
    cases h
  | binary left symbol right =>
    have hsymbol : symbol ∈ ['+', '-', '*', '/'] := hnode
    rw [ownDefect?, if_pos hsymbol] at h
    cases h
  | call name arguments =>
    refine ⟨name, arguments, rfl, ?_⟩
    rw [ownDefect?] at h
    cases hbuiltin : Builtin.ofName? name with
    | none =>
      rw [hbuiltin] at h
      cases h
      exact .inl ⟨hbuiltin, rfl⟩
    | some builtin =>
      rw [hbuiltin] at h
      dsimp only at h
      split at h
      · cases h
      · rename_i harity
        cases h
        exact .inr ⟨builtin, hbuiltin, harity, rfl⟩

/-- A check that fails has found the defect of a node. -/
theorem exists_ownDefect_of_check {formula : Formula} {names : Names} {defect : Defect}
    (h : (formula.check names).1 = .error defect) :
    ∃ node ∈ formula.nodes, node.ownDefect? = some defect := by
  rcases exists_first_ownDefect formula.nodes with
    hknown | ⟨before, node, after, found, hsplit, hbefore, hnode⟩
  · rw [check_of_known hknown] at h
    cases h
  · rw [check_of_first hsplit hbefore hnode] at h
    cases h
    exact ⟨node, hsplit ▸ List.mem_append_right before List.mem_cons_self, hnode⟩

/-- All nodes of a formula that is parsed are well formed: its signs are plus and minus, its
operators are the four that there are, its names are identifiers, its calls have arguments, and its
literals are finite and without a minus sign. So a check of the formula never finds an unknown sign
or operator; if it fails then because of a call, which is of an unknown function or has the wrong
number of arguments. -/
theorem isWellFormed_of_parse {text : String} {formula : Formula}
    (h : parse text = .ok formula) :
    (∀ node ∈ formula.nodes, node.IsWellFormed) ∧
      ∀ names defect, (formula.check names).1 = .error defect →
        ∃ name arguments, .call name arguments ∈ formula.nodes ∧
          IsMiscall name arguments defect := by
  have hnodes := formula.isWellFormed_of_isWritable (isWritable_of_parse h)
    fun x hx => finite_of_mem_literals h hx
  refine ⟨hnodes, ?_⟩
  intro names defect hcheck
  obtain ⟨node, hmem, hdefect⟩ := exists_ownDefect_of_check hcheck
  obtain ⟨name, arguments, rfl, hcall⟩ := exists_call_of_ownDefect (hnodes node hmem) hdefect
  exact ⟨name, arguments, hmem, hcall⟩

/-- A signed call of an unknown function is parsed into well-formed nodes, and its check fails
because of the call. -/
theorem isWellFormed_of_parse_signed_call :
    ∃ formula, parse "-f(x)" = .ok formula ∧ (∀ node ∈ formula.nodes, node.IsWellFormed) ∧
      (formula.check ∅).1 = .error (.unknownFunction "f") ∧
      ∃ name arguments, .call name arguments ∈ formula.nodes ∧
        IsMiscall name arguments (.unknownFunction "f") := by
  have hname : isIdentifier "f".toList = true := by decide
  have hargument : isIdentifier "x".toList = true := by decide
  have hspells := (Spells.call hname (Spells.identifier hargument)).mark_cons
    (.operator .subtract)
  have hparse : parse "-f(x)" = .ok (.unary '-' (.call "f" [.variable "x"])) :=
    parse_of_spells (.term (.operand (.signed .minus
      (.call "f" (.last (.term (.operand (.identifier "x")))))))) hspells (by decide)
  have hcheck : (check (.unary '-' (.call "f" [.variable "x"])) ∅).1 =
      .error (.unknownFunction "f") := rfl
  obtain ⟨hnodes, hdefects⟩ := isWellFormed_of_parse hparse
  exact ⟨_, hparse, hnodes, hcheck, hdefects ∅ _ hcheck⟩

end Calculator.Formula
