import Std.Data.ExtTreeMap

/-!
# Environments

An environment gives values to variables. A variable it does not hold is zero.
-/

namespace Calculator

/-- Values of variables by their names. -/
abbrev Environment := Std.ExtTreeMap String Float

namespace Environment

/-- The value of a variable, zero if the environment does not hold it. -/
def value (environment : Environment) (name : String) : Float :=
  environment.getD name 0.0

/-- A variable set has its new value, and the others are as before. -/
theorem value_insert (environment : Environment) (name name' : String) (x : Float) :
    value (environment.insert name x) name' =
      if name = name' then x else environment.value name' := by
  simp [value, Std.ExtTreeMap.getD_insert]

/-- A variable removed is zero, and the others are as before. -/
theorem value_erase (environment : Environment) (name name' : String) :
    value (environment.erase name) name' =
      if name = name' then 0.0 else environment.value name' := by
  simp [value, Std.ExtTreeMap.getD_erase]

end Environment

end Calculator
