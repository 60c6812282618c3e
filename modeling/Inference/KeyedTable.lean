set_option autoImplicit false
set_option relaxedAutoImplicit false

/-!
# Keyed tables

A finite map from numbers, kept in the order of its keys, so that two tables with the same
contents are equal however they were built.

## Main definitions

* `KeyedTable` — entries in the order of their keys.
* `KeyedTable.find?`, `KeyedTable.set` — the value of a key, and the table with a new value.
-/

namespace Inference

/-- A finite map from numbers to values, in the order of the keys. -/
structure KeyedTable (α : Type) where
  entries : List (Nat × α)

namespace KeyedTable

variable {α : Type}

/-- A table without entries. -/
def empty : KeyedTable α := ⟨[]⟩

/-- The entries with a key set to a value, in the order of the keys. -/
def setEntry (key : Nat) (value : α) : List (Nat × α) → List (Nat × α)
  | [] => [(key, value)]
  | (k, v) :: rest =>
    if key < k then (key, value) :: (k, v) :: rest
    else if key = k then (key, value) :: rest
    else (k, v) :: setEntry key value rest

/-- The table in which a key has a value, whatever it had before. -/
def set (table : KeyedTable α) (key : Nat) (value : α) : KeyedTable α :=
  ⟨setEntry key value table.entries⟩

/-- The value of the first entry with a key. -/
def findEntry? (key : Nat) : List (Nat × α) → Option α
  | [] => none
  | (k, v) :: rest => if k = key then some v else findEntry? key rest

/-- The value of a key. -/
def find? (table : KeyedTable α) (key : Nat) : Option α :=
  findEntry? key table.entries

/-- The keys, in order. -/
def keys (table : KeyedTable α) : List Nat :=
  table.entries.map Prod.fst

/-- The values, in the order of their keys. -/
def values (table : KeyedTable α) : List α :=
  table.entries.map Prod.snd

/-- A key that was set has its new value, and every other key the value it had. -/
theorem find?_set (table : KeyedTable α) (key other : Nat) (value : α) :
    (table.set key value).find? other = if key = other then some value else table.find? other := by
  obtain ⟨entries⟩ := table
  simp only [set, find?]
  induction entries with
  | nil => simp [setEntry, findEntry?]
  | cons entry rest ih =>
    obtain ⟨k, v⟩ := entry
    by_cases hlt : key < k
    · simp [setEntry, hlt, findEntry?]
    · by_cases heq : key = k
      · subst heq
        by_cases ho : key = other <;> simp [setEntry, findEntry?, ho]
      · by_cases hk : k = other
        · subst hk
          simp [setEntry, hlt, heq, findEntry?]
        · simp [setEntry, hlt, heq, findEntry?, hk, ih]

end KeyedTable

end Inference
