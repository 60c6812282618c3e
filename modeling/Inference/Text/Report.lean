set_option autoImplicit false
set_option relaxedAutoImplicit false

/-!
# Structured reports

Tables and timings can be printed as JSON. A report is the value that is printed: counts, texts,
lists and records whose fields keep their order.

## Main definitions

* `Report` — a structured value.
* `Report.render` — its JSON text, indented by two blanks a level.
-/

namespace Inference

/-- A structured value: what is printed as JSON. -/
inductive Report where
  | count (n : Nat)
  | text (s : String)
  | list (items : List Report)
  | record (fields : List (String × Report))

namespace Report

/-- A list of counts. -/
def counts (ns : List Nat) : Report :=
  .list (ns.map .count)

/-! ## Quoting -/

/-- A digit below sixteen as a lower-case letter or figure. -/
def hexDigit (n : Nat) : Char :=
  if n < 10 then Char.ofNat (48 + n) else Char.ofNat (87 + n)

/-- A character inside a quoted JSON text. -/
def escape (c : Char) : List Char :=
  match c.toNat with
  | 0x22 => ['\x5c', '\x22']
  | 0x5c => ['\x5c', '\x5c']
  | 0x08 => ['\x5c', 'b']
  | 0x0c => ['\x5c', 'f']
  | 0x0a => ['\x5c', 'n']
  | 0x0d => ['\x5c', 'r']
  | 0x09 => ['\x5c', 't']
  | n => if n < 0x20 then ['\x5c', 'u', '0', '0', hexDigit (n / 16), hexDigit (n % 16)] else [c]

/-- A text in JSON quotes. -/
def quote (s : String) : String :=
  String.ofList ('\x22' :: s.toList.flatMap escape ++ ['\x22'])

/-! ## Layout -/

/-- The blanks that start a line at a given level. -/
def indent (level : Nat) : String :=
  String.ofList (List.replicate (2 * level) ' ')

/-- Lines between brackets, each one level deeper than the brackets; nothing between them if
there are no lines. -/
def bracket (opening closing : String) (level : Nat) (lines : List String) : String :=
  if lines.isEmpty then opening ++ closing
  else
    opening ++ "\n" ++ ",\n".intercalate (lines.map (indent (level + 1) ++ ·)) ++ "\n" ++
      indent level ++ closing

mutual

/-- The JSON text of a value that stands at a given level. -/
def renderAt (level : Nat) : Report → String
  | .count n => toString n
  | .text s => quote s
  | .list items => bracket "[" "]" level (renderItems (level + 1) items)
  | .record fields => bracket "\x7b" "\x7d" level (renderFields (level + 1) fields)

/-- The texts of the items of a list. -/
def renderItems (level : Nat) : List Report → List String
  | [] => []
  | item :: rest => renderAt level item :: renderItems level rest

/-- The texts of the fields of a record. -/
def renderFields (level : Nat) : List (String × Report) → List String
  | [] => []
  | field :: rest => renderField level field :: renderFields level rest

/-- The text of a field: its name and its value. -/
def renderField (level : Nat) : String × Report → String
  | (name, value) => quote name ++ ": " ++ renderAt level value

end

/-- The JSON text of a report. -/
def render (report : Report) : String :=
  renderAt 0 report

end Report

end Inference
