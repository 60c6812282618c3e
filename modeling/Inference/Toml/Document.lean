import Inference.Toml.Table

set_option autoImplicit false
set_option relaxedAutoImplicit false

/-!
# Documents

A settings text is a sequence of lines: definitions of keys, and headers that say in which table
the definitions after them stand. Values nest at most as deep as `Toml.depthLimit` says.

## Main definitions

* `Toml.keyPath` — a key with dots.
* `Toml.value` — any value.
* `Toml.document?` — the root table of a text, absent if the text is no TOML.

## Main results

* `Toml.distinct_document?` — the keys of a text are distinct.
-/

namespace Inference

namespace Toml

/-- Values and keys nest less deep than this. -/
def depthLimit : Nat := 80

/-! ## Keys -/

/-- A key without dots. -/
def simpleKey : Reader String := fun text =>
  match lineText text with
  | some (key, rest) => some (String.ofList key, rest)
  | none =>
    let key := text.takeWhile isBareKey
    if key.isEmpty then none else some (String.ofList key, text.drop key.length)

/-- The parts of a key, at most `fuel` of them. -/
def keyParts : (fuel : Nat) → Reader (List String)
  | 0, _ => none
  | fuel + 1, text => do
    let (key, rest) ← simpleKey (skipBlanks text)
    match skipBlanks rest with
    | '.' :: rest =>
      let (keys, rest) ← keyParts fuel rest
      return (key :: keys, rest)
    | rest => return ([key], rest)

/-- A key with dots: the parts before the last one, and the last one. -/
def keyPath : Reader (List String × String) := fun text => do
  let (keys, rest) ← keyParts (depthLimit - 1) text
  let last ← keys.getLast?
  return ((keys.dropLast, last), rest)

/-! ## Values -/

/-- The items of an array and its closing bracket, at most `fuel` items. Line ends and comments
may stand between them, and a comma after the last one. -/
def arrayItems (item : Reader Value) : (fuel : Nat) → Reader Unit
  | 0, _ => none
  | fuel + 1, text =>
    match skipLines text with
    | ']' :: rest => some ((), rest)
    | start => do
      let (_, rest) ← item start
      match skipLines rest with
      | ',' :: rest => arrayItems item fuel rest
      | ']' :: rest => return ((), rest)
      | _ => none

/-- A definition: a key, an equals sign and a value. -/
def definition (item : Reader Value) : Reader ((List String × String) × Value) := fun text => do
  let (key, rest) ← keyPath text
  let '=' :: rest := rest | none
  let (v, rest) ← item (skipBlanks rest)
  return ((key, v), rest)

/-- The definitions of a table in braces and its closing brace, at most `fuel` definitions. No
comma may come after the last one. -/
def braceItems (item : Reader Value) : (fuel : Nat) → Table → Reader Unit
  | 0, _, _ => none
  | fuel + 1, t, text => do
    let (((path, key), v), rest) ← definition item (skipBlanks text)
    let t ← t.define path key v
    match skipBlanks rest with
    | ',' :: rest => braceItems item fuel t rest
    | '\x7d' :: rest => return ((), rest)
    | _ => none

/-- Any value, with arrays and braces nested at most `depth` deep. -/
def value : (depth : Nat) → Reader Value
  | 0, _ => none
  | depth + 1, text =>
    match text with
    | '\x22' :: _ => (quotedText text).map fun (s, rest) => (.text (String.ofList s), rest)
    | '\x27' :: _ => (quotedText text).map fun (s, rest) => (.text (String.ofList s), rest)
    | '[' :: rest =>
      if depth = 0 then none
      else (arrayItems (value depth) text.length rest).map fun (_, rest) => (.other, rest)
    | '\x7b' :: rest =>
      if depth = 0 then none
      else
        match skipBlanks rest with
        | '\x7d' :: rest => some (.other, rest)
        | rest => (braceItems (value depth) text.length (.empty .header) rest).map
          fun (_, rest) => (.other, rest)
    | _ => literalValue text

/-! ## Lines -/

/-- A text in the middle of its lines: the root table, and the path of the table that the latest
header opened. -/
structure Progress where
  root : Table
  current : List String

/-- The line of a header, after its first bracket. -/
def headerLine (progress : Progress) (text : List Char) : Option (Progress × List Char) :=
  match text with
  | '[' :: text => do
    let ((path, key), rest) ← keyPath text
    let ']' :: ']' :: rest := rest | none
    let root ← progress.root.openElement path key
    return (⟨root, path ++ [key]⟩, rest)
  | _ => do
    let ((path, key), rest) ← keyPath text
    let ']' :: rest := rest | none
    let root ← progress.root.openTable path key
    return (⟨root, path ++ [key]⟩, rest)

/-- The line of a definition. -/
def definitionLine (progress : Progress) (text : List Char) : Option (Progress × List Char) := do
  let (((path, key), v), rest) ← definition (value depthLimit) text
  let root ← progress.root.within (fun t => t.define path key v) progress.current
  return (⟨root, progress.current⟩, rest)

/-- All lines of a text, at most `fuel` of them. -/
def readLines : (fuel : Nat) → Progress → List Char → Option Table
  | 0, _, _ => none
  | fuel + 1, progress, text =>
    match skipLines text with
    | [] => some progress.root
    | start => do
      let (progress, rest) ←
        match start with
        | '[' :: rest => headerLine progress rest
        | _ => definitionLine progress start
      let rest ← lineEnd rest
      readLines fuel progress rest

/-- The root table of a text. A byte-order mark in front of it does not count. -/
def document? (text : String) : Option Table :=
  let chars := match text.toList with
    | '\ufeff' :: rest => rest
    | chars => chars
  readLines (chars.length + 1) ⟨.empty .header, []⟩ chars

/-! ## Distinct keys -/

/-- One line keeps the keys of the root distinct. -/
theorem distinct_headerLine {progress progress' : Progress} {text rest : List Char}
    (h : progress.root.Distinct) (hsome : headerLine progress text = some (progress', rest)) :
    progress'.root.Distinct := by
  unfold headerLine at hsome
  split at hsome
  · obtain ⟨⟨⟨path, key⟩, rest'⟩, -, hsome⟩ := Option.bind_eq_some_iff.mp hsome
    dsimp only at hsome
    split at hsome
    · obtain ⟨root, hroot, hsome⟩ := Option.bind_eq_some_iff.mp hsome
      cases hsome
      exact h.openElement hroot
    · contradiction
  · obtain ⟨⟨⟨path, key⟩, rest'⟩, -, hsome⟩ := Option.bind_eq_some_iff.mp hsome
    dsimp only at hsome
    split at hsome
    · obtain ⟨root, hroot, hsome⟩ := Option.bind_eq_some_iff.mp hsome
      cases hsome
      exact h.openTable hroot
    · contradiction

/-- So does the line of a definition. -/
theorem distinct_definitionLine {progress progress' : Progress} {text rest : List Char}
    (h : progress.root.Distinct)
    (hsome : definitionLine progress text = some (progress', rest)) :
    progress'.root.Distinct := by
  unfold definitionLine at hsome
  obtain ⟨⟨⟨⟨path, key⟩, v⟩, rest'⟩, -, hsome⟩ := Option.bind_eq_some_iff.mp hsome
  obtain ⟨root, hroot, hsome⟩ := Option.bind_eq_some_iff.mp hsome
  cases hsome
  exact h.within (fun _ _ htarget hdistinct => hdistinct.define htarget) hroot

/-- All lines do. -/
theorem distinct_readLines {fuel : Nat} {progress : Progress} {text : List Char} {root : Table}
    (h : progress.root.Distinct) (hsome : readLines fuel progress text = some root) :
    root.Distinct := by
  induction fuel generalizing progress text with
  | zero => cases hsome
  | succ fuel ih =>
    rw [readLines] at hsome
    split at hsome
    · exact Option.some.inj hsome ▸ h
    dsimp only at hsome
    split at hsome
    · obtain ⟨⟨progress', rest⟩, hline, hsome⟩ := Option.bind_eq_some_iff.mp hsome
      obtain ⟨rest', -, hsome⟩ := Option.bind_eq_some_iff.mp hsome
      exact ih (distinct_headerLine h hline) hsome
    · obtain ⟨⟨progress', rest⟩, hline, hsome⟩ := Option.bind_eq_some_iff.mp hsome
      obtain ⟨rest', -, hsome⟩ := Option.bind_eq_some_iff.mp hsome
      exact ih (distinct_definitionLine h hline) hsome

/-- **The keys of a text** are distinct: it defines none of them twice. -/
theorem distinct_document? {text : String} {root : Table} (h : document? text = some root) :
    root.Distinct := by
  have hstart : (Progress.mk (.empty .header) []).root.Distinct := List.nodup_nil
  exact distinct_readLines hstart h

end Toml

end Inference
