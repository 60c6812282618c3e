import Inference.Text.Blank
import Inference.Text.Extending
import Inference.Text.Unassigned

set_option autoImplicit false
set_option relaxedAutoImplicit false

/-!
# Texts in diagnostics

A text is shown in double quotes, on one line. Quotes, backslashes and what cannot be seen are
escaped.

## Main definitions

* `Text.undrawn` — characters that nothing is drawn for.
* `Text.isAttached` — characters that are drawn onto the one before them.
* `Text.isInvisible` — characters that are shown by their number.
* `Text.escaped` — a text in quotes.
-/

namespace Inference

namespace Text

/-- Characters, other than blanks, that nothing is drawn for: the controls, the formats and the
private characters of Unicode 17.0 (`Cc`, `Cf`, `Co`), and the letters that fill a place
(`Default_Ignorable_Code_Point`). -/
def undrawn : CodePoints where
  ranges :=
    [(0x0, 0x8), (0xe, 0x1f), (0x7f, 0x84), (0x86, 0x9f), (0xad, 0xad), (0x600, 0x605),
     (0x61c, 0x61c), (0x6dd, 0x6dd), (0x70f, 0x70f), (0x890, 0x891), (0x8e2, 0x8e2),
     (0x115f, 0x1160), (0x180e, 0x180e), (0x200b, 0x200b), (0x200d, 0x200f), (0x202a, 0x202e),
     (0x2060, 0x2064), (0x2066, 0x206f), (0x3164, 0x3164), (0xe000, 0xf8ff), (0xfeff, 0xfeff),
     (0xffa0, 0xffa0), (0xfff9, 0xfffb), (0x110bd, 0x110bd), (0x110cd, 0x110cd), (0x13430, 0x1343f),
     (0x1bca0, 0x1bca3), (0x1d173, 0x1d17a), (0xe0001, 0xe0001), (0xf0000, 0xffffd),
     (0x100000, 0x10fffd)]

/-- The halfwidth voiced and semi-voiced sound marks. They extend the letter before them, yet they
are letters with a place of their own (`Lm`), the only ones among the extending characters. -/
def soundMarks : CodePoints where
  ranges := [(0xff9e, 0xff9f)]

/-- Whether a character is drawn onto the one before it. -/
def isAttached (c : Char) : Bool :=
  extending.contains c && !soundMarks.contains c

/-- Whether a character cannot be seen by itself, so that it is shown by its number. A plain space
can. -/
def isInvisible (c : Char) : Bool :=
  (isBlank c && c != ' ') || undrawn.contains c || isAttached c || unassigned.contains c

/-- The number of a character in base sixteen, lower case. -/
def numberText (c : Char) : List Char :=
  Nat.toDigits 16 c.toNat

/-- A character inside the quotes. -/
def escapeVisible (c : Char) : List Char :=
  match c.toNat with
  | 0x00 => ['\x5c', '0']
  | 0x09 => ['\x5c', 't']
  | 0x0a => ['\x5c', 'n']
  | 0x0d => ['\x5c', 'r']
  | 0x22 => ['\x5c', '\x22']
  | 0x5c => ['\x5c', '\x5c']
  | _ => if isInvisible c then ['\x5c', 'u', '\x7b'] ++ numberText c ++ ['\x7d'] else [c]

/-- A text in double quotes. -/
def escaped (text : String) : String :=
  String.ofList ('\x22' :: text.toList.flatMap escapeVisible ++ ['\x22'])

end Text

end Inference
