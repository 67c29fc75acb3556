import Calculator.Session

/-!
# Requests

A session is used by requests, one after the other: to compile a text, or to evaluate it in one
environment or in several. Each request has an answer of its own, which may be an error. Without
a session a request is answered by parsing, checking and evaluating its text anew.
-/

namespace Calculator

/-- A request to a session. -/
inductive Request where
  /-- The tree of a text is asked for. -/
  | compile (text : String)
  /-- The value of a text in an environment is asked for. -/
  | evaluate (text : String) (environment : Environment)
  /-- The values of a text in several environments are asked for. -/
  | evaluateAll (text : String) (environments : List Environment)

/-- The answer to a request. What is known of a tree is a `τ`. -/
inductive Answer (τ : Type) where
  | tree (result : Except Error τ)
  | value (result : Except Error Float)
  | values (result : Except Error (List Float))

namespace Answer

variable {τ τ' : Type}

/-- The error that an answer is, if it is one. -/
def error? : Answer τ → Option Error
  | tree (.error error) | value (.error error) | values (.error error) => some error
  | tree (.ok _) | value (.ok _) | values (.ok _) => none

/-- The answer is no error. -/
def isSuccess (answer : Answer τ) : Bool :=
  answer.error?.isNone

/-- The answer with something else known of its tree. -/
def map (f : τ → τ') : Answer τ → Answer τ'
  | tree result => tree (result.map f)
  | value result => value result
  | values result => values result

end Answer

namespace Request

/-- The text of a request. -/
def text : Request → String
  | compile text => text
  | evaluate text _ => text
  | evaluateAll text _ => text

/-- The answer to a request without a session. Several environments are refused for an error in
the text even if there are none of them. -/
def answer : Request → Answer Formula
  | compile text => .tree (Calculator.compile text)
  | evaluate text environment => .value (Calculator.evaluate text environment)
  | evaluateAll text environments => .values do
    let _ ← Calculator.compile text
    environments.mapM fun environment => Calculator.evaluate text environment

end Request

namespace Session

variable {σ : Type} [Store σ Compiled]

/-- The answer of a session to a request, and the session after it. -/
def answer (session : Session σ) : Request → Answer Compiled × Session σ
  | .compile text =>
    let (result, after) := session.compile text
    (.tree result, after)
  | .evaluate text environment =>
    let (result, after) := session.evaluate text environment
    (.value result, after)
  | .evaluateAll text environments =>
    let (result, after) := session.evaluateAll text environments
    (.values result, after)

/-- The answers of a session to requests, in their order, and the session after them all. -/
def run (session : Session σ) : List Request → List (Answer Compiled) × Session σ
  | [] => ([], session)
  | request :: requests =>
    let (answer, next) := session.answer request
    let (answers, after) := next.run requests
    (answer :: answers, after)

/-- The first of several requests is answered before the others. -/
theorem run_cons (session : Session σ) (request : Request) (requests : List Request) :
    session.run (request :: requests) =
      ((session.answer request).1 :: ((session.answer request).2.run requests).1,
        ((session.answer request).2.run requests).2) :=
  rfl

end Session

end Calculator
