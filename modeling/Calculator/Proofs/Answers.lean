import Calculator.Proofs.Acceptance
import Calculator.Proofs.Keeping

/-!
# Answers of a session

What a session keeps never shows in its answers: it answers each request as it would be
answered without a session, by parsing, checking and evaluating the text anew. A text that is
kept was checked when its tree was made, so it is evaluated without another check and still
without a fault.
-/

namespace Calculator

/-- An error that has been renamed after mapping a list is the renamed first error. -/
theorem mapError_mapM {α β ε ε' : Type} (f : α → Except ε β) (rename : ε → ε') (xs : List α) :
    (xs.mapM f).mapError rename = xs.mapM fun x => (f x).mapError rename := by
  induction xs with
  | nil => rfl
  | cons x xs ih =>
    rw [List.mapM_cons, List.mapM_cons, ← ih]
    cases f x with
    | error error => rfl
    | ok y => cases xs.mapM f <;> rfl

/-- An identifier is a formula. -/
theorem compile_identifier {name : String} (h : isIdentifier name.toList = true) :
    compile name = .ok (.variable name) := by
  have hlevels : 1 ≤ nestingLimit := by decide
  have hparse := Formula.parse_of_spells (.term (.operand (.identifier name)))
    (Spells.identifier h) hlevels
  rw [compile_eq, hparse]
  rfl

/-- A call of an unknown function fails the check, whatever its argument is. -/
theorem compile_unknownCall {name argument : String} (hname : isIdentifier name.toList = true)
    (hargument : isIdentifier argument.toList = true) (hunknown : Builtin.ofName? name = none) :
    compile (name ++ "(" ++ argument ++ ")") = .error (.check (.unknownFunction name)) := by
  have hspells : Spells (name ++ "(" ++ argument ++ ")").toList
      [.identifier name, .mark .opening, .identifier argument, .mark .closing] := by
    have hcall := Spells.call hname (Spells.identifier hargument)
    simpa using hcall
  have hlevels : 2 ≤ nestingLimit := by decide
  have hparse : Formula.parse (name ++ "(" ++ argument ++ ")") =
      .ok (.call name [.variable argument]) := Formula.parse_of_spells
    (.term (.operand (.call name (.last (.term (.operand (.identifier argument))))))) hspells
    hlevels
  have hcheck : (Formula.check (.call name [.variable argument]) ∅).1 =
      .error (.unknownFunction name) := by
    simp only [Formula.check, knownBuiltin, hunknown]
  rw [compile_eq, hparse]
  dsimp only
  rw [hcheck]

namespace Answer

variable {τ τ' : Type}

/-- What is known of a tree does not change the error that an answer is. -/
@[simp] theorem error?_map (f : τ → τ') (answer : Answer τ) :
    (answer.map f).error? = answer.error? := by
  rcases answer with (_ | _) | (_ | _) | (_ | _) <;> rfl

/-- What is known of a tree does not change whether an answer is an error. -/
@[simp] theorem isSuccess_map (f : τ → τ') (answer : Answer τ) :
    (answer.map f).isSuccess = answer.isSuccess := by
  rw [isSuccess, error?_map, isSuccess]

end Answer

namespace Request

variable {τ τ' : Type}

/-- What a request answers once its text is compiled. -/
def answerOf (formulaOf : τ → Formula) (compiled : Except Error τ) : Request → Answer τ
  | compile _ => .tree compiled
  | evaluate _ environment =>
    .value (compiled.bind fun tree => ((formulaOf tree).eval environment).mapError .fault)
  | evaluateAll _ environments =>
    .values (compiled.bind fun tree => ((formulaOf tree).evalAll environments).mapError .fault)

/-- What is known of a tree does not change what is made of its formula. -/
theorem map_answerOf (formulaOf : τ → Formula) (compiled : Except Error τ) (request : Request) :
    (request.answerOf formulaOf compiled).map formulaOf =
      request.answerOf id (compiled.map formulaOf) := by
  cases compiled <;> cases request <;> rfl

/-- An error in the text of a request is its answer. -/
theorem error?_answerOf_error (formulaOf : τ → Formula) (error : Error) (request : Request) :
    (request.answerOf formulaOf (.error error)).error? = some error := by
  cases request <;> rfl

/-- What a request makes of a checked formula is no error. -/
theorem error?_answerOf_ok {formula : Formula} (h : (formula.check ∅).1 = .ok ())
    (request : Request) : (request.answerOf id (.ok formula)).error? = none := by
  cases request with
  | compile text => rfl
  | evaluate text environment =>
    obtain ⟨value, hvalue⟩ := Formula.exists_eval_of_check h environment
    rw [answerOf, Except.bind, id, hvalue]
    rfl
  | evaluateAll text environments =>
    obtain ⟨values, hvalues⟩ := Formula.exists_evalAll_of_check h environments
    rw [answerOf, Except.bind, id, hvalues]
    rfl

/-- Without a session a request is answered once its text is compiled. -/
theorem answer_eq (request : Request) :
    request.answer = request.answerOf id (Calculator.compile request.text) := by
  cases request with
  | compile text => rfl
  | evaluate text environment => rfl
  | evaluateAll text environments =>
    have hevaluate (formula : Formula) (h : Calculator.compile text = .ok formula) :
        (fun environment => Calculator.evaluate text environment) =
          fun environment => (formula.eval environment).mapError .fault := by
      funext environment
      rw [Calculator.evaluate, h]
      rfl
    rw [answer, answerOf, Request.text]
    cases h : Calculator.compile text with
    | error error => rfl
    | ok formula =>
      rw [hevaluate formula h, Except.bind, id, Formula.evalAll, mapError_mapM]
      rfl

/-- A request is answered with an error exactly if its text has this error. -/
theorem error?_answer_eq_some_iff {request : Request} {error : Error} :
    request.answer.error? = some error ↔ Calculator.compile request.text = .error error := by
  rw [answer_eq]
  cases h : Calculator.compile request.text with
  | error error' => simp [error?_answerOf_error]
  | ok formula => simp [error?_answerOf_ok (compile_eq_ok_iff.1 h).2]

/-- A request is not answered with an error. -/
def succeeds (request : Request) : Bool :=
  request.answer.isSuccess

/-- A request succeeds exactly if its text has a formula. -/
theorem succeeds_iff {request : Request} :
    request.succeeds = true ↔ ∃ formula, Calculator.compile request.text = .ok formula := by
  rw [succeeds, Answer.isSuccess, Option.isNone_iff_eq_none, Option.eq_none_iff_forall_ne_some]
  simp only [Ne, error?_answer_eq_some_iff]
  cases Calculator.compile request.text <;> simp

end Request

namespace Session

variable {σ : Type} [Store σ Compiled]

/-- A session answers a request once it has compiled the text, and is changed by this alone. -/
theorem answer_eq (session : Session σ) (request : Request) :
    session.answer request =
      (request.answerOf Compiled.formula (session.compile request.text).1,
        (session.compile request.text).2) := by
  cases request <;> rfl

variable [LawfulStore σ Compiled]

/-- A sound session compiles a text to the formula that it has without the session. -/
theorem IsSound.map_compile {session : Session σ} (h : session.IsSound) (text : String) :
    (session.compile text).1.map Compiled.formula = Calculator.compile text := by
  cases htext : Calculator.compile text with
  | error error =>
    rw [(h.compile_of_error htext).1]
    rfl
  | ok formula =>
    rw [(h.compile_of_ok htext).1, Except.map, h.formula_treeOf htext]

/-- A sound session gives the answer that is given without a session. -/
theorem IsSound.map_answer {session : Session σ} (h : session.IsSound) (request : Request) :
    (session.answer request).1.map Compiled.formula = request.answer := by
  rw [answer_eq, Request.map_answerOf, h.map_compile, ← Request.answer_eq]

/-- A request leaves a sound session sound. -/
theorem IsSound.answer {session : Session σ} (h : session.IsSound) (request : Request) :
    (session.answer request).2.IsSound := by
  rw [answer_eq]
  cases htext : Calculator.compile request.text with
  | error error => exact (h.compile_of_error htext).2.isSound h
  | ok formula => exact (h.compile_of_ok htext).2.isSound h htext

/-- A sound session gives the answers that are given without a session, and is left sound. -/
theorem IsSound.run {session : Session σ} (h : session.IsSound) (requests : List Request) :
    (session.run requests).1.map (Answer.map Compiled.formula) = requests.map Request.answer ∧
      (session.run requests).2.IsSound := by
  induction requests generalizing session with
  | nil => exact ⟨rfl, h⟩
  | cons request requests ih =>
    obtain ⟨hanswers, hafter⟩ := ih (h.answer request)
    rw [run_cons, List.map_cons, List.map_cons, h.map_answer, hanswers]
    exact ⟨rfl, hafter⟩

/-- No answer of a sound session is a fault. -/
theorem IsSound.error?_ne_fault {session : Session σ} (h : session.IsSound)
    (requests : List Request) (defect : Defect) :
    ∀ answer ∈ (session.run requests).1, answer.error? ≠ some (.fault defect) := by
  intro answer hanswer
  have hplain := List.mem_map_of_mem (f := Answer.map Compiled.formula) hanswer
  rw [(h.run requests).1] at hplain
  obtain ⟨request, _, hrequest⟩ := List.mem_map.1 hplain
  rw [← Answer.error?_map Compiled.formula, ← hrequest, Ne, Request.error?_answer_eq_some_iff]
  exact compile_ne_fault request.text defect

/-- A session never shows what it keeps, whatever its capacity and its kind of store. It answers
requests as they are answered without it, and none of them with a fault: a text is compiled to
the formula that is parsed if a check accepts it, and otherwise to the first error of the two,
and evaluated to the value or values of this formula. -/
theorem run_start_answers (capacity : ℕ) (requests : List Request) :
    ((start capacity : Session σ).run requests).1.map (Answer.map Compiled.formula) =
        requests.map Request.answer ∧
      (∀ answer ∈ ((start capacity : Session σ).run requests).1, ∀ defect,
        answer.error? ≠ some (.fault defect)) ∧
      (∀ text, Calculator.compile text = match Formula.parse text with
        | .error error => .error (.parse error)
        | .ok formula => match (formula.check ∅).1 with
          | .error defect => .error (.check defect)
          | .ok () => .ok formula) := by
  have hsound : (start capacity : Session σ).IsSound := isSound_start capacity
  exact ⟨(hsound.run requests).1,
    fun answer hanswer defect => hsound.error?_ne_fault requests defect answer hanswer,
    compile_eq⟩

/-- A session with room for one tree answers a text again that it keeps, and refuses a text
with an error also where nothing is to be evaluated. -/
theorem run_start_answers_again :
    ((start 0 : Session).run [.compile "x", .evaluate "x" ∅, .evaluateAll "f(x)" []]).1.map
        (Answer.map Compiled.formula) =
      [.tree (.ok (.variable "x")), .value (.ok 0.0),
        .values (.error (.check (.unknownFunction "f")))] := by
  have hname : isIdentifier "x".toList = true := by decide
  have hfunction : isIdentifier "f".toList = true := by decide
  have hkept := compile_identifier hname
  have hrefused := compile_unknownCall hfunction hname (by decide)
  rw [show "f" ++ "(" ++ "x" ++ ")" = "f(x)" by decide] at hrefused
  rw [(run_start_answers 0 _).1]
  simp only [List.map_cons, List.map_nil, Request.answer, Calculator.evaluate, hkept, hrefused]
  rfl

end Session

end Calculator
