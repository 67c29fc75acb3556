/-!
# Stores of recent values

A store keeps values by their keys and has room for a number of them. It is used only through
the operations here, so that a session does not depend on how a store keeps its values.

What is relied on is said of the entries of a store, the most recently used first. A value
found counts as used. A value put in under a new key is the most recently used one, and if the
store is full it takes the place of the least recently used one.
-/

namespace Calculator

/-- A kind of store of values by their keys. -/
class Store (σ : Type) (α : outParam Type) where
  /-- A store without values that has room for a number of them. -/
  empty (capacity : Nat) : σ
  /-- The number of values that there is room for. -/
  capacity (store : σ) : Nat
  /-- The keys and their values, the most recently used first. -/
  entries (store : σ) : List (String × α)
  /-- The value of a key, if there is one, and the store after its use. -/
  use (store : σ) (key : String) : Option α × σ
  /-- The store with a value for a key. -/
  put (store : σ) (key : String) (value : α) : σ
  /-- The number of values. -/
  size (store : σ) : Nat
  /-- There is no value. -/
  isEmpty (store : σ) : Bool

/-- The entries of all keys but one, in their order. -/
def otherEntries {α : Type} (entries : List (String × α)) (key : String) : List (String × α) :=
  entries.filter fun entry => entry.1 ≠ key

/-- All entries have other keys than one that is not kept. -/
theorem otherEntries_of_lookup_eq_none {α : Type} {entries : List (String × α)} {key : String}
    (h : entries.lookup key = none) : otherEntries entries key = entries := by
  rw [List.lookup_eq_none_iff] at h
  rw [otherEntries, List.filter_eq_self]
  intro entry hentry
  refine decide_eq_true fun heq => ?_
  have hother := h entry hentry
  simp [heq] at hother

/-- There are fewer entries of other keys than entries, if one has the key. -/
theorem length_otherEntries_lt {α : Type} {entries : List (String × α)} {key : String} {value : α}
    (h : entries.lookup key = some value) :
    (otherEntries entries key).length < entries.length := by
  obtain ⟨front, back, rfl, _⟩ := List.lookup_eq_some_iff.1 h
  rw [otherEntries, List.length_filter_lt_length_iff_exists]
  exact ⟨(key, value), by simp⟩

open Store in
/-- A store forgets the least recently used value, and only when there is no room for a new
one. A store has room for at least one value. -/
class LawfulStore (σ : Type) (α : outParam Type) [Store σ α] : Prop where
  /-- A new store has the room that was asked for. -/
  capacity_empty (capacity : Nat) (hpos : 0 < capacity) :
    Store.capacity (empty capacity : σ) = capacity
  /-- A new store has no entries. -/
  entries_empty (capacity : Nat) : entries (empty capacity : σ) = []
  /-- A use does not change the room. -/
  capacity_use (store : σ) (key : String) : capacity (use store key).2 = capacity store
  /-- The use of a key that is kept finds its value and moves the entry to the front. -/
  use_of_lookup_eq_some {store : σ} {key : String} {value : α}
    (hfound : (entries store).lookup key = some value) :
    (use store key).1 = some value ∧
      entries (use store key).2 = (key, value) :: otherEntries (entries store) key
  /-- The use of a key that is not kept finds nothing and changes no entry. -/
  use_of_lookup_eq_none {store : σ} {key : String} (hmissing : (entries store).lookup key = none) :
    (use store key).1 = none ∧ entries (use store key).2 = entries store
  /-- Putting in a value does not change the room. -/
  capacity_put (store : σ) (key : String) (value : α) :
    capacity (put store key value) = capacity store
  /-- A value with a new key goes to the front if there is room left. -/
  entries_put_of_lt {store : σ} {key : String} (value : α)
    (hmissing : (entries store).lookup key = none)
    (hroom : (entries store).length < capacity store) :
    entries (put store key value) = (key, value) :: entries store
  /-- A value with a new key goes to the front of a full store and the last entry leaves it. -/
  entries_put_of_eq {store : σ} {key : String} (value : α)
    (hmissing : (entries store).lookup key = none) (hpos : 0 < capacity store)
    (hfull : (entries store).length = capacity store) :
    entries (put store key value) = (key, value) :: (entries store).dropLast
  /-- The entries are counted. -/
  size_eq (store : σ) : size store = (entries store).length
  /-- The store is empty if it has no entries. -/
  isEmpty_eq (store : σ) : isEmpty store = (entries store).isEmpty

end Calculator
