import Std.Data.ExtTreeMap

/-!
# Built-in functions

A builtin is a function with a name and the number of values it takes. A registry holds one
builtin for each name. A call has a fixed number of slots for its values, so a builtin that
takes more values than there are slots is not registered.

The main statements say which registrations are accepted and what a registry finds after one.
-/

namespace Calculator

/-- The number of slots that a call has for its values. -/
def slotCount : Nat := 2

/-- A function that formulas may call. -/
structure Builtin where
  /-- The name it is called by. -/
  name : String
  /-- The number of values it takes. -/
  arity : Nat
  /-- Its result on exactly that many values. -/
  apply : List Float → Float

namespace Builtin

/-- The first value raised to the power of the second. -/
def pow : Builtin where
  name := "pow"
  arity := 2
  apply
    | [base, exponent] => Float.pow base exponent
    | _ => 0.0

/-- The sine of an angle in radians. -/
def sin : Builtin where
  name := "sin"
  arity := 1
  apply
    | [angle] => Float.sin angle
    | _ => 0.0

/-- The square root. -/
def sqrt : Builtin where
  name := "sqrt"
  arity := 1
  apply
    | [square] => Float.sqrt square
    | _ => 0.0

/-- A builtin's values fit into the slots of a call. -/
def Fits (builtin : Builtin) : Prop :=
  builtin.arity ≤ slotCount

instance (builtin : Builtin) : Decidable builtin.Fits :=
  inferInstanceAs (Decidable (builtin.arity ≤ slotCount))

end Builtin

/-- A builtin was not registered because its values do not fit into the slots of a call. -/
structure TooWide where
  name : String
  arity : Nat
deriving Repr, DecidableEq

/-- How many values the builtin takes, and how many there may be. -/
def TooWide.message (error : TooWide) : String :=
  s!"{error.name} takes {error.arity} args, at most {slotCount} are supported"

/-- The builtins by their names. -/
structure Registry where
  builtins : Std.ExtTreeMap String Builtin

namespace Registry

/-- A registry without builtins. -/
def empty : Registry :=
  ⟨∅⟩

/-- The builtin of a name. -/
def get? (registry : Registry) (name : String) : Option Builtin :=
  registry.builtins[name]?

/-- The registry with a builtin that fits, in place of any other of its name. -/
def insert (registry : Registry) (builtin : Builtin) (_ : builtin.Fits) : Registry :=
  ⟨registry.builtins.insert builtin.name builtin⟩

/-- Registers a builtin, in place of any other of its name, if its values fit: whether it has
been accepted, and the registry that is left either way. -/
def tryRegister (registry : Registry) (builtin : Builtin) : Except TooWide Unit × Registry :=
  if hfits : builtin.Fits then (.ok (), registry.insert builtin hfits)
  else (.error ⟨builtin.name, builtin.arity⟩, registry)

/-- The registry after a builtin has been accepted, or why it has been refused. -/
def register (registry : Registry) (builtin : Builtin) : Except TooWide Registry :=
  let (answer, after) := registry.tryRegister builtin
  answer.map fun _ => after

/-- The registry with the elementary functions. -/
def withElementary (registry : Registry) : Registry :=
  ((registry.insert .pow (by decide)).insert .sin (by decide)).insert .sqrt (by decide)

/-- The builtins that formulas may call. -/
def standard : Registry :=
  empty.withElementary

/-- Nothing is found in a registry without builtins. -/
@[simp] theorem get?_empty (name : String) : empty.get? name = none := by
  simp [empty, get?]

/-- A builtin inserted is found by its name, and the others as before. -/
theorem get?_insert (registry : Registry) (builtin : Builtin) (hfits : builtin.Fits)
    (name : String) :
    (registry.insert builtin hfits).get? name =
      if builtin.name = name then some builtin else registry.get? name := by
  simp [insert, get?, Std.ExtTreeMap.getElem?_insert]

section Register

variable {registry : Registry} {builtin : Builtin}

/-- A builtin that fits is accepted and inserted. -/
theorem tryRegister_of_fits (h : builtin.Fits) :
    registry.tryRegister builtin = (.ok (), registry.insert builtin h) :=
  dif_pos h

/-- A builtin that does not fit is refused with its name and the number of values it takes, and
the registry is left as it is. -/
theorem tryRegister_of_not_fits (h : ¬builtin.Fits) :
    registry.tryRegister builtin = (.error ⟨builtin.name, builtin.arity⟩, registry) :=
  dif_neg h

/-- With a builtin that fits there is a registry that holds it. -/
theorem register_of_fits (h : builtin.Fits) :
    registry.register builtin = .ok (registry.insert builtin h) := by
  rw [register, tryRegister_of_fits h]
  rfl

/-- With a builtin that does not fit there is only the reason. -/
theorem register_of_not_fits (h : ¬builtin.Fits) :
    registry.register builtin = .error ⟨builtin.name, builtin.arity⟩ := by
  rw [register, tryRegister_of_not_fits h]
  rfl

end Register

end Registry

/-- The builtin that formulas call by a name. -/
def Builtin.ofName? (name : String) : Option Builtin :=
  Registry.standard.get? name

/-- There are three names that formulas may call. -/
theorem Builtin.ofName?_eq (name : String) :
    ofName? name =
      if "sqrt" = name then some .sqrt
      else if "sin" = name then some .sin
      else if "pow" = name then some .pow
      else none := by
  simp only [ofName?, Registry.standard, Registry.withElementary, Registry.get?_insert,
    Registry.get?_empty]
  rfl

end Calculator
