set_option autoImplicit false
set_option relaxedAutoImplicit false

/-!
# Reading and writing TOML

Settings are stored as TOML, and TOML is read and written by a library of the host. What the
settings need of it is a record: texts are read as tables of keys and values, and tables are
written as texts. The one thing that is relied on is that a library reads back what it writes.

## Main definitions

* `Toml.Value`, `Toml.Root` — what is kept of a value, and of a text.
* `Toml.Library` — what reads and writes texts.
* `Toml.Library.Faithful` — a library that reads back the plain tables that it writes.
-/

namespace Inference

namespace Toml

/-- What is kept of a value. -/
inductive Value where
  | text (s : String)
  | integer (n : Int)
  | truth (b : Bool)
  /-- A well-formed value of another kind: a fraction, a moment, an array or a table. -/
  | other
deriving DecidableEq

/-- What is kept of a text: the keys of its root table and what they stand for. -/
structure Root where
  /-- The keys and their values, in the order of their definition. -/
  entries : List (String × Value)
  /-- A key is defined at most once. -/
  distinct : (entries.map Prod.fst).Nodup

/-- What reads and writes texts. -/
structure Library where
  /-- The root table of a text, absent if the text is no TOML. -/
  read : String → Option Root
  /-- A text for a root table, absent if the library has none for it. -/
  write : Root → Option String

/-! ## Plain tables -/

/-- A character of a key without quotes. -/
def isBareKey (c : Char) : Bool :=
  c.isAlphanum || c = '_' || c = '-'

/-- A text, an integer of 64 bits or a truth value. -/
def Value.Plain : Value → Prop
  | text _ => True
  | integer n => -0x8000000000000000 ≤ n ∧ n < 0x8000000000000000
  | truth _ => True
  | other => False

/-- A table of plain values, under keys that need no quotes. -/
structure Root.Plain (root : Root) : Prop where
  bare : ∀ entry ∈ root.entries,
    entry.1.toList ≠ [] ∧ ∀ c ∈ entry.1.toList, isBareKey c = true
  values : ∀ entry ∈ root.entries, entry.2.Plain

/-- A library that writes plain tables, and reads them back as they were. -/
structure Library.Faithful (library : Library) : Prop where
  reads_written : ∀ root : Root, root.Plain →
    ∃ text, library.write root = some text ∧ library.read text = some root

/-! ## Looking up keys -/

/-- What a key stands for. -/
def Root.find? (root : Root) (key : String) : Option Value :=
  (root.entries.find? fun entry => entry.1 == key).map Prod.snd

end Toml

end Inference
