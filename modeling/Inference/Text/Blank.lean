import Inference.Text.CodePoints

set_option autoImplicit false
set_option relaxedAutoImplicit false

/-!
# White space

The characters with the Unicode property `White_Space`, and the removal of a run of them from
both ends of a text.

## Main definitions

* `Text.isBlank` — membership in `White_Space`.
* `Text.trim` — a text without the whiteSpace around it.
-/

namespace Inference

namespace Text

/-- The code points with the property `White_Space`. -/
def whiteSpace : CodePoints where
  ranges :=
    [(0x9, 0xd), (0x20, 0x20), (0x85, 0x85), (0xa0, 0xa0), (0x1680, 0x1680), (0x2000, 0x200a),
     (0x2028, 0x2029), (0x202f, 0x202f), (0x205f, 0x205f), (0x3000, 0x3000)]

/-- Whether a character has the property `White_Space`. -/
def isBlank (c : Char) : Bool :=
  whiteSpace.contains c

/-- A text without the whiteSpace before its first and after its last other character. -/
def trim (text : List Char) : List Char :=
  ((text.dropWhile isBlank).reverse.dropWhile isBlank).reverse

end Text

end Inference
