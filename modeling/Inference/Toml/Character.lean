import Inference.Toml.Library

set_option autoImplicit false
set_option relaxedAutoImplicit false

/-!
# Characters of TOML

Character classes of the settings format, and the reading of blanks, comments and line ends.

## Main definitions

* `Toml.Reader` — reads a value off the front of a text, or fails.
* `Toml.isControl`, `Toml.isForbidden` — the classes.
* `Toml.skipBlanks`, `Toml.lineEnd`, `Toml.skipLines` — what may stand between tokens.
-/

namespace Inference

namespace Toml

/-- Reads a value off the front of a text: the value and the rest, or nothing where the text
does not start with one. -/
abbrev Reader (α : Type) := List Char → Option (α × List Char)

/-- The quotation mark. -/
def quote : Char := '\x22'

/-- The apostrophe. -/
def apostrophe : Char := '\x27'

/-- The backslash. -/
def backslash : Char := '\x5c'

/-- A control character. -/
def isControl (c : Char) : Bool :=
  c.toNat < 0x20 || c.toNat = 0x7f

/-- A control character that stands neither in a comment nor in a quoted text. -/
def isForbidden (c : Char) : Bool :=
  isControl c && c != '\t'

/-- A blank between tokens of a line. -/
def isLineBlank (c : Char) : Bool :=
  c = ' ' || c = '\t'

/-- A text without its leading blanks. -/
def skipBlanks (text : List Char) : List Char :=
  text.dropWhile isLineBlank

/-- A text after its comment, if it starts with one. A comment reaches to the end of its line. -/
def skipComment (text : List Char) : List Char :=
  match text with
  | '#' :: rest => rest.dropWhile fun c => !isForbidden c
  | _ => text

/-- A text after its line end; absent if it does not start with one. -/
def newline? (text : List Char) : Option (List Char) :=
  match text with
  | '\n' :: rest => some rest
  | '\r' :: '\n' :: rest => some rest
  | _ => none

/-- A text after the end of its line: blanks, a comment, and a line end or the end of the text. -/
def lineEnd (text : List Char) : Option (List Char) :=
  match skipComment (skipBlanks text) with
  | [] => some []
  | rest => newline? rest

/-- A text after the blanks, comments and line ends that it starts with; at most `fuel` lines. -/
def skipLinesUpTo : (fuel : Nat) → List Char → List Char
  | 0, text => text
  | fuel + 1, text =>
    let rest := skipComment (skipBlanks text)
    match newline? rest with
    | some next => skipLinesUpTo fuel next
    | none => rest

/-- A text after all the blanks, comments and line ends that it starts with. -/
def skipLines (text : List Char) : List Char :=
  skipLinesUpTo (text.length + 1) text

end Toml

end Inference
