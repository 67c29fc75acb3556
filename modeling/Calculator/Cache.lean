import Calculator.Store

/-!
# Caches

A cache is a store that keeps its entries in a list, the most recently used first, and no more
of them than its capacity.

The main statement is that a cache is a store as it should be.
-/

namespace Calculator

/-- Values by their keys, the most recently used first. -/
structure Cache (α : Type) where
  /-- The number of entries kept. -/
  capacity : Nat
  /-- The entries, the most recently used first. -/
  entries : List (String × α)
deriving Repr, DecidableEq

namespace Cache

variable {α : Type}

/-- The cache with a value as the most recently used one of its key. -/
def put (cache : Cache α) (key : String) (value : α) : Cache α :=
  { cache with entries := ((key, value) :: otherEntries cache.entries key).take cache.capacity }

/-- The value of a key, and the cache after its use. -/
def use (cache : Cache α) (key : String) : Option α × Cache α :=
  match cache.entries.lookup key with
  | none => (none, cache)
  | some value =>
    (some value, { cache with entries := (key, value) :: otherEntries cache.entries key })

instance : Store (Cache α) α where
  empty capacity := ⟨capacity, []⟩
  capacity := Cache.capacity
  entries := Cache.entries
  use := use
  put := put
  size cache := cache.entries.length
  isEmpty cache := cache.entries.isEmpty

/-- A cache is a store that forgets the least recently used value. -/
instance : LawfulStore (Cache α) α where
  capacity_empty _ _ := rfl
  entries_empty _ := rfl
  capacity_use cache key := by
    change (cache.use key).2.capacity = _
    unfold use
    split <;> rfl
  use_of_lookup_eq_some {cache key value} hfound := by
    change cache.entries.lookup key = some value at hfound
    change (cache.use key).1 = _ ∧ (cache.use key).2.entries = _
    unfold use
    rw [hfound]
    exact ⟨rfl, rfl⟩
  use_of_lookup_eq_none {cache key} hmissing := by
    change cache.entries.lookup key = none at hmissing
    change (cache.use key).1 = _ ∧ (cache.use key).2.entries = _
    unfold use
    rw [hmissing]
    exact ⟨rfl, rfl⟩
  capacity_put _ _ _ := rfl
  entries_put_of_lt {cache key} value hmissing hroom := by
    change cache.entries.lookup key = none at hmissing
    change ((key, value) :: otherEntries cache.entries key).take cache.capacity = _
    rw [otherEntries_of_lookup_eq_none hmissing]
    exact List.take_of_length_le hroom
  entries_put_of_eq {cache key} value hmissing hpos hfull := by
    change cache.entries.lookup key = none at hmissing
    change ((key, value) :: otherEntries cache.entries key).take cache.capacity = _
    rw [otherEntries_of_lookup_eq_none hmissing, List.dropLast_eq_take, hfull]
    exact List.take_cons hpos
  size_eq _ := rfl
  isEmpty_eq _ := rfl

end Cache

end Calculator
