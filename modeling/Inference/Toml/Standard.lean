import Inference.Toml.Document

set_option autoImplicit false
set_option relaxedAutoImplicit false

/-!
# The standard library

A library that reads TOML in full and writes plain tables, one line for each key.

## Main definitions

* `Toml.Item.kept` — what is kept of what a key stands for.
* `Toml.lineOf?`, `Toml.textOf?` — the line of a definition, and the text of a table.
* `Toml.standard` — the library.
-/

namespace Inference

namespace Toml

/-- What is kept of what a key stands for: of tables, nothing but that they are there. -/
def Item.kept : Item → Value
  | value v => v
  | table _ => .other
  | elements .. => .other

/-- A value as it is written, absent for the values that are none of a plain table. -/
def valueText? : Value → Option (List Char)
  | .text s => some (writeQuoted s.toList)
  | .integer n => some (toString n).toList
  | .truth b => some (toString b).toList
  | .other => none

/-- The line of a definition. -/
def lineOf? (entry : String × Value) : Option (List Char) :=
  if entry.1.toList ≠ [] ∧ entry.1.toList.all isBareKey then
    (valueText? entry.2).map fun written => entry.1.toList ++ " = ".toList ++ written ++ ['\n']
  else none

/-- The text of a table: one line after another. -/
def textOf? : List (String × Value) → Option (List Char)
  | [] => some []
  | entry :: rest => do
    let line ← lineOf? entry
    let lines ← textOf? rest
    return line ++ lines

/-- The keys of a root table and what is kept of what they stand for. -/
def Table.root (t : Table) (h : t.Distinct) : Root where
  entries := t.entries.map fun entry => (entry.1, entry.2.kept)
  distinct := by
    rw [List.map_map]
    exact h

/-- The standard library. -/
def standard : Library where
  read text := (document? text).pmap Table.root fun _ => distinct_document?
  write root := (textOf? root.entries).map String.ofList

end Toml

end Inference
