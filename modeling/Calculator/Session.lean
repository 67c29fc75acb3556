import Calculator.Cache
import Calculator.Evaluate

/-!
# Sessions

A session keeps the trees of the texts it used last, so that a text used again is neither
parsed nor checked anew. Each tree made has a serial number of its own, which shows whether
two uses of a text share one tree. A text with an error leaves the trees kept as they were.
-/

namespace Calculator

/-- A checked formula and the serial number it was given when it was made. -/
structure Compiled where
  formula : Formula
  serial : Nat

/-- The trees kept in a store, by their texts, and the number of trees made so far. The store
is a cache unless another one is chosen. -/
structure Session (σ : Type := Cache Compiled) where
  trees : σ
  made : Nat

namespace Session

/-- The number of trees that a session keeps unless it is told otherwise. -/
def defaultCapacity : Nat := 100

variable {σ : Type} [Store σ Compiled]

/-- A session that has not been used; it keeps at least one tree. -/
def start (capacity : Nat) : Session σ :=
  ⟨Store.empty (max capacity 1), 0⟩

/-- The number of trees kept. -/
def size (session : Session σ) : Nat :=
  Store.size session.trees

/-- No tree is kept. -/
def isEmpty (session : Session σ) : Bool :=
  Store.isEmpty session.trees

/-- The tree of a text, made anew if it is not kept, and the session after its use. -/
def compile (session : Session σ) (text : String) : Except Error Compiled × Session σ :=
  match Store.use session.trees text with
  | (some compiled, trees) => (.ok compiled, { session with trees })
  | (none, trees) =>
    match Calculator.compile text with
    | .error error => (.error error, { session with trees })
    | .ok formula =>
      let compiled : Compiled := ⟨formula, session.made⟩
      (.ok compiled, ⟨Store.put trees text compiled, session.made + 1⟩)

/-- The value of a text in an environment, and the session after its use. -/
def evaluate (session : Session σ) (text : String) (environment : Environment) :
    Except Error Float × Session σ :=
  let (compiled, after) := session.compile text
  (compiled.bind fun compiled => (compiled.formula.eval environment).mapError .fault, after)

/-- The values of a text in several environments, and the session after its use. -/
def evaluateAll (session : Session σ) (text : String) (environments : List Environment) :
    Except Error (List Float) × Session σ :=
  let (compiled, after) := session.compile text
  (compiled.bind fun compiled => (compiled.formula.evalAll environments).mapError .fault, after)

end Session

end Calculator
