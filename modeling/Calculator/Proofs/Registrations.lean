import Calculator.Builtin
import Mathlib.Data.List.Basic

/-!
# Histories of registrations

A registry goes through any number of registrations, single ones and those of the elementary
functions. A refused registration leaves it as it was, so only the builtins that fit count, and
what a name finds is the last one of them that has this name. No history leads to a registry with
a builtin that does not fit or that stands under another name than its own.
-/

namespace Calculator

/-- The message about a builtin that does not fit says how many values there may be. -/
theorem TooWide.message_eq (error : TooWide) :
    error.message = error.name ++ " takes " ++ toString error.arity ++
      " args, at most 2 are supported" := by
  have hend : " args, at most 2 are supported" = " args, at most " ++ "2" ++ " are supported" := rfl
  rw [hend, ← String.append_assoc, ← String.append_assoc]
  rfl

/-- What is registered at a time. -/
inductive Registration where
  /-- A single builtin. -/
  | single (builtin : Builtin)
  /-- The elementary functions. -/
  | elementary

/-- The builtins that are registered at a time, in order. -/
def Registration.builtins : Registration → List Builtin
  | single builtin => [builtin]
  | elementary => [.pow, .sin, .sqrt]

/-- The builtins of a history that fit, in order. -/
def Registration.accepted (history : List Registration) : List Builtin :=
  (history.flatMap builtins).filter fun builtin => builtin.Fits

namespace Registry

/-- The registry that a registration leaves, be it accepted or refused. -/
def after (registry : Registry) : Registration → Registry
  | .single builtin => (registry.tryRegister builtin).2
  | .elementary => registry.withElementary

/-- The registry after a history of registrations. -/
def afterAll (registry : Registry) (history : List Registration) : Registry :=
  history.foldl after registry

/-- After a builtin that fits the registry holds it. -/
theorem after_of_fits {registry : Registry} {builtin : Builtin} (h : builtin.Fits) :
    registry.after (.single builtin) = registry.insert builtin h := by
  rw [after, tryRegister_of_fits h]

/-- After a builtin that does not fit the registry is as it was. -/
theorem after_of_not_fits {registry : Registry} {builtin : Builtin} (h : ¬builtin.Fits) :
    registry.after (.single builtin) = registry := by
  rw [after, tryRegister_of_not_fits h]

/-- A history of two parts is gone through one part after the other. -/
theorem afterAll_append (registry : Registry) (history later : List Registration) :
    registry.afterAll (history ++ later) = (registry.afterAll history).afterAll later :=
  List.foldl_append

/-- Registering several builtins at a time is registering them one by one. -/
theorem after_eq_afterAll (registry : Registry) (registration : Registration) :
    registry.after registration = registry.afterAll (registration.builtins.map .single) := by
  cases registration with
  | single builtin => rfl
  | elementary => rfl

example : Registration.elementary.builtins.map (fun builtin => (builtin.name, builtin.arity)) =
    [("pow", 2), ("sin", 1), ("sqrt", 1)] := rfl

/-- A history is one of single registrations. -/
theorem afterAll_eq_afterAll_single (registry : Registry) (history : List Registration) :
    registry.afterAll history =
      registry.afterAll ((history.flatMap Registration.builtins).map .single) := by
  induction history generalizing registry with
  | nil => rfl
  | cons registration history ih =>
    rw [List.flatMap_cons, List.map_append, afterAll_append, ← after_eq_afterAll, ← ih]
    rfl

/-- After single registrations a name finds the last of its builtins that fits, or what it has
found before if there is none. -/
theorem get?_afterAll_single (registry : Registry) (builtins : List Builtin) (name : String) :
    (registry.afterAll (builtins.map .single)).get? name =
      (((builtins.filter fun builtin => builtin.Fits).filter
        fun builtin => builtin.name = name).getLast?).or (registry.get? name) := by
  induction builtins generalizing registry with
  | nil => rfl
  | cons builtin builtins ih =>
    change ((registry.after (.single builtin)).afterAll (builtins.map .single)).get? name = _
    rw [ih]
    by_cases hfits : builtin.Fits
    · rw [after_of_fits hfits, get?_insert]
      by_cases hname : builtin.name = name
      · simp [hfits, hname, List.getLast?_cons, Option.or_some]
      · simp [hfits, hname]
    · simp [after_of_not_fits hfits, hfits]

/-- After a history a name finds the last of its builtins that has been accepted, or what it has
found before if there is none. -/
theorem get?_afterAll (registry : Registry) (history : List Registration) (name : String) :
    (registry.afterAll history).get? name =
      (((Registration.accepted history).filter
        fun builtin => builtin.name = name).getLast?).or (registry.get? name) := by
  rw [afterAll_eq_afterAll_single, get?_afterAll_single, Registration.accepted]

/-- Every builtin of a registry fits and is found by its own name. -/
structure IsSound (registry : Registry) : Prop where
  /-- It fits. -/
  fits {name : String} {builtin : Builtin} : registry.get? name = some builtin → builtin.Fits
  /-- Its name finds it. -/
  named {name : String} {builtin : Builtin} :
    registry.get? name = some builtin → builtin.name = name

/-- A registry without builtins is sound. -/
theorem isSound_empty : IsSound empty where
  fits h := by simp at h
  named h := by simp at h

/-- A sound registry is sound with one more builtin that fits. -/
theorem IsSound.insert {registry : Registry} (h : registry.IsSound) {builtin : Builtin}
    (hfits : builtin.Fits) : (registry.insert builtin hfits).IsSound where
  fits hfound := by
    rw [get?_insert] at hfound
    split at hfound
    · cases hfound
      exact hfits
    · exact h.fits hfound
  named hfound := by
    rw [get?_insert] at hfound
    split at hfound
    · rename_i hname
      cases hfound
      exact hname
    · exact h.named hfound

/-- A registration keeps a registry sound, be it accepted or refused. -/
theorem IsSound.after {registry : Registry} (h : registry.IsSound) (registration : Registration) :
    (registry.after registration).IsSound := by
  cases registration with
  | single builtin =>
    by_cases hfits : builtin.Fits
    · rw [after_of_fits hfits]
      exact h.insert hfits
    · rwa [after_of_not_fits hfits]
  | elementary => exact ((h.insert (by decide)).insert (by decide)).insert (by decide)

/-- A history keeps a registry sound. -/
theorem IsSound.afterAll {registry : Registry} (h : registry.IsSound)
    (history : List Registration) : (registry.afterAll history).IsSound := by
  induction history generalizing registry with
  | nil => exact h
  | cons registration history ih => exact ih (h.after registration)

/-- What a registry holds after any history of registrations. A name finds the last accepted
builtin of this name, and nothing if there is none. A builtin that takes more values than a call
has slots is refused, the message says how many it takes, the registry is left as it is, and
whatever comes later, every name finds what it would have found without it; any other builtin is
accepted and found by its name. Every builtin found takes no more values than a call has slots
and has the name that found it. -/
theorem get?_after_history (history : List Registration) :
    (∀ name, (empty.afterAll history).get? name =
      ((Registration.accepted history).filter fun builtin => builtin.name = name).getLast?) ∧
    (∀ builtin : Builtin, slotCount < builtin.arity →
      (∃ error, (empty.afterAll history).register builtin = .error error ∧
        (empty.afterAll history).tryRegister builtin = (.error error, empty.afterAll history) ∧
        error.message = builtin.name ++ " takes " ++ toString builtin.arity ++
          " args, at most 2 are supported") ∧
      ∀ later name, (empty.afterAll (history ++ .single builtin :: later)).get? name =
        (empty.afterAll (history ++ later)).get? name) ∧
    (∀ builtin : Builtin, builtin.arity ≤ slotCount →
      (empty.afterAll history).register builtin =
          .ok (empty.afterAll (history ++ [.single builtin])) ∧
        (empty.afterAll history).tryRegister builtin =
          (.ok (), empty.afterAll (history ++ [.single builtin])) ∧
        (empty.afterAll (history ++ [.single builtin])).get? builtin.name = some builtin) ∧
    ∀ name builtin, (empty.afterAll history).get? name = some builtin →
      builtin.arity ≤ slotCount ∧ builtin.name = name := by
  refine ⟨?_, ?_, ?_, ?_⟩
  · intro name
    rw [get?_afterAll, get?_empty, Option.or_none]
  · intro builtin hwide
    have hrefused : ¬builtin.Fits := Nat.not_le_of_lt hwide
    refine ⟨⟨_, register_of_not_fits hrefused, tryRegister_of_not_fits hrefused,
      TooWide.message_eq _⟩, ?_⟩
    intro later name
    have hstep : (empty.afterAll history).after (.single builtin) = empty.afterAll history :=
      after_of_not_fits hrefused
    rw [afterAll_append, afterAll_append]
    change (((empty.afterAll history).after (.single builtin)).afterAll later).get? name = _
    rw [hstep]
  · intro builtin hfits
    change builtin.Fits at hfits
    have hstep : empty.afterAll (history ++ [.single builtin]) =
        (empty.afterAll history).insert builtin hfits := by
      rw [afterAll_append]
      exact after_of_fits hfits
    rw [hstep]
    exact ⟨register_of_fits hfits, tryRegister_of_fits hfits, by rw [get?_insert, if_pos rfl]⟩
  · intro name builtin hfound
    have hsound : (empty.afterAll history).IsSound := isSound_empty.afterAll history
    exact ⟨hsound.fits hfound, hsound.named hfound⟩

/-- A power of one value takes the place of the elementary one, and a sine of three values does
not take the place of any. -/
theorem get?_after_history_replaced :
    (empty.afterAll [.elementary, .single ⟨"pow", 1, fun _ => 1.0⟩]).get? "pow" =
      some ⟨"pow", 1, fun _ => 1.0⟩ ∧
    (empty.afterAll [.elementary, .single ⟨"sin", 3, fun _ => 1.0⟩]).get? "sin" = some .sin ∧
    Builtin.sin.arity ≤ slotCount := by
  obtain ⟨hfound, hrefused, haccepted, hsound⟩ := get?_after_history [.elementary]
  have hpow := (haccepted ⟨"pow", 1, fun _ => 1.0⟩ (by decide)).2.2
  have hsame := (hrefused ⟨"sin", 3, fun _ => 1.0⟩ (by decide)).2 [] "sin"
  have hsin : (empty.afterAll [.elementary]).get? "sin" = some .sin := (hfound "sin").trans rfl
  exact ⟨hpow, hsame.trans hsin, (hsound "sin" .sin hsin).1⟩

end Registry

end Calculator
