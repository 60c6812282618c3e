import Inference.Toml.Literal

set_option autoImplicit false
set_option relaxedAutoImplicit false

/-!
# Tables

The tables that a settings text builds up. A key can be defined once; a table can be opened once
by a header, and be extended by dotted keys only where dotted keys made it.

## Main definitions

* `Toml.Table`, `Toml.Item` — tables, and what a key can stand for.
* `Toml.Table.define` — the table with one more key.
* `Toml.Table.openTable`, `Toml.Table.openElement` — the table after a header.
* `Toml.Table.Distinct` — no key of a table stands twice.

## Main results

* `Toml.Table.Distinct.define`, `Toml.Table.Distinct.openTable`,
  `Toml.Table.Distinct.openElement` — keys stay distinct.
-/

namespace Inference

namespace Toml

/-- How a table came to be. -/
inductive Origin where
  /-- By a header, or by braces. -/
  | header
  /-- As part of the path of a header. -/
  | path
  /-- As part of a dotted key. -/
  | dotted
deriving DecidableEq

mutual

/-- What a key stands for. -/
inductive Item where
  | value (v : Value)
  | table (t : Table)
  /-- Tables opened by headers in double brackets; the latest one comes first. -/
  | elements (latest : Table) (earlier : List Table)

/-- A table: how it came to be, and its keys in the order of their definition. -/
inductive Table where
  | mk (origin : Origin) (entries : List (String × Item))

end

namespace Table

/-- How a table came to be. -/
def origin : Table → Origin
  | .mk origin _ => origin

/-- The keys of a table, in the order of their definition. -/
def entries : Table → List (String × Item)
  | .mk _ entries => entries

/-- A table without keys. -/
def empty (origin : Origin) : Table := .mk origin []

/-- What a key stands for. -/
def find? (t : Table) (key : String) : Option Item :=
  (t.entries.find? fun entry => entry.1 == key).map Prod.snd

/-- The table in which a key stands for something else, or is new and comes last. -/
def set (t : Table) (key : String) (item : Item) : Table :=
  if (t.find? key).isSome then
    .mk t.origin (t.entries.map fun entry => if entry.1 == key then (key, item) else entry)
  else .mk t.origin (t.entries ++ [(key, item)])

/-- Changes the table at the end of a path. Tables that are missing on the way come to be as
`made` says; a dotted key does not pass through a table opened by a header. -/
def update (made : Origin) (f : Table → Option Table) : List String → Table → Option Table
  | [], t => f t
  | key :: path, t =>
    match t.find? key with
    | none => (update made f path (empty made)).map fun child => t.set key (.table child)
    | some (.value _) => none
    | some (.elements latest earlier) =>
      (update made f path latest).map fun child => t.set key (.elements child earlier)
    | some (.table child) =>
      if made = .dotted && child.origin = .header then none
      else (update made f path child).map fun child => t.set key (.table child)

/-- Defines the last key of a dotted key. The path before it must lead to a table made by dotted
keys, and a key without a path stands in the table itself. -/
def define (path : List String) (key : String) (v : Value) (t : Table) : Option Table :=
  t.update .dotted (fun target =>
    if (target.origin = .dotted) = path.isEmpty then none
    else if (target.find? key).isSome then none
    else some (target.set key (.value v))) path

/-- Opens the table that a header names. -/
def openTable (path : List String) (key : String) (t : Table) : Option Table :=
  t.update .path (fun parent =>
    match parent.find? key with
    | none => some (parent.set key (.table (empty .header)))
    | some (.table (.mk .path entries)) => some (parent.set key (.table (.mk .header entries)))
    | _ => none) path

/-- Opens one more table of the list of tables that a header in double brackets names. -/
def openElement (path : List String) (key : String) (t : Table) : Option Table :=
  t.update .path (fun parent =>
    match parent.find? key with
    | none => some (parent.set key (.elements (empty .header) []))
    | some (.elements latest earlier) =>
      some (parent.set key (.elements (empty .header) (latest :: earlier)))
    | _ => none) path

/-- Changes the table that a header opened, the latest one in a list of tables. -/
def within (f : Table → Option Table) : List String → Table → Option Table
  | [], t => f t
  | key :: path, t =>
    match t.find? key with
    | some (.table child) => (within f path child).map fun child => t.set key (.table child)
    | some (.elements latest earlier) =>
      (within f path latest).map fun child => t.set key (.elements child earlier)
    | _ => none

/-! ## Distinct keys -/

/-- A key has no meaning in a table if it is none of its keys. -/
theorem find?_eq_none_iff {t : Table} {key : String} :
    t.find? key = none ↔ key ∉ t.entries.map Prod.fst := by
  rw [find?, Option.map_eq_none_iff, List.find?_eq_none]
  constructor
  · intro h hmem
    obtain ⟨entry, hentry, rfl⟩ := List.mem_map.mp hmem
    exact h entry hentry (beq_self_eq_true _)
  · intro h entry hentry heq
    exact h (List.mem_map.mpr ⟨entry, hentry, by simpa using heq⟩)

/-- No key of the table stands twice. -/
def Distinct (t : Table) : Prop :=
  (t.entries.map Prod.fst).Nodup

section

variable {t t' : Table}

/-- Distinct keys stay distinct when a key gets another meaning or is new. -/
theorem Distinct.set (h : t.Distinct) (key : String) (item : Item) : (t.set key item).Distinct := by
  unfold Table.set
  split
  · have hkeys : ((t.entries.map fun entry => if entry.1 == key then (key, item) else entry).map
        Prod.fst) = t.entries.map Prod.fst := by
      rw [List.map_map]
      refine List.map_congr_left fun entry _ => ?_
      by_cases heq : entry.1 = key
      · simp [heq]
      · simp [heq]
    unfold Distinct
    rw [entries, hkeys]
    exact h
  · next hnone =>
    have hnew := find?_eq_none_iff.mp (Option.not_isSome_iff_eq_none.mp hnone)
    unfold Distinct entries
    rw [List.map_append, List.nodup_append]
    refine ⟨h, by simp, fun other hother found hfound heq => hnew ?_⟩
    rw [List.map_singleton, List.mem_singleton] at hfound
    rwa [heq, hfound] at hother

variable {f : Table → Option Table} (hf : ∀ t t', f t = some t' → t.Distinct → t'.Distinct)
include hf

/-- They stay distinct when a table on a path is changed. -/
theorem Distinct.update {made : Origin} {path : List String} (h : t.Distinct)
    (hsome : t.update made f path = some t') : t'.Distinct := by
  cases path with
  | nil => exact hf t t' hsome h
  | cons key path =>
    rw [Table.update] at hsome
    split at hsome
    · obtain ⟨child, -, rfl⟩ := Option.map_eq_some_iff.mp hsome
      exact h.set _ _
    · contradiction
    · obtain ⟨child, -, rfl⟩ := Option.map_eq_some_iff.mp hsome
      exact h.set _ _
    · split at hsome
      · contradiction
      · obtain ⟨child, -, rfl⟩ := Option.map_eq_some_iff.mp hsome
        exact h.set _ _

/-- So they do when the table of a header is changed. -/
theorem Distinct.within {path : List String} (h : t.Distinct)
    (hsome : t.within f path = some t') : t'.Distinct := by
  cases path with
  | nil => exact hf t t' hsome h
  | cons key path =>
    rw [Table.within] at hsome
    split at hsome
    · obtain ⟨child, -, rfl⟩ := Option.map_eq_some_iff.mp hsome
      exact h.set _ _
    · obtain ⟨child, -, rfl⟩ := Option.map_eq_some_iff.mp hsome
      exact h.set _ _
    · contradiction

end

section

variable {t t' : Table} {path : List String} {key : String} (h : t.Distinct)
include h

/-- A definition keeps keys distinct. -/
theorem Distinct.define {v : Value} (hsome : t.define path key v = some t') : t'.Distinct := by
  refine h.update (fun target target' htarget hdistinct => ?_) hsome
  split at htarget
  · contradiction
  split at htarget
  · contradiction
  · exact Option.some.inj htarget ▸ hdistinct.set _ _

/-- So does a header. -/
theorem Distinct.openTable (hsome : t.openTable path key = some t') : t'.Distinct := by
  refine h.update (fun parent parent' hparent hdistinct => ?_) hsome
  split at hparent
  · exact Option.some.inj hparent ▸ hdistinct.set _ _
  · exact Option.some.inj hparent ▸ hdistinct.set _ _
  · contradiction

/-- So does a header in double brackets. -/
theorem Distinct.openElement (hsome : t.openElement path key = some t') : t'.Distinct := by
  refine h.update (fun parent parent' hparent hdistinct => ?_) hsome
  split at hparent
  · exact Option.some.inj hparent ▸ hdistinct.set _ _
  · exact Option.some.inj hparent ▸ hdistinct.set _ _
  · contradiction

end

end Table

end Toml

end Inference
