set_option autoImplicit false
set_option relaxedAutoImplicit false

/-!
# Columns

The cells of a table are filled up with blanks to the width of their column; a cell that is wider
than its column is kept whole.

## Main definitions

* `Text.padRight`, `Text.padLeft` — a cell filled up on the right or on the left.
-/

namespace Inference

namespace Text

/-- A run of blanks. -/
def blanks (count : Nat) : String :=
  String.ofList (List.replicate count ' ')

/-- A cell with its text at the left. -/
def padRight (width : Nat) (cell : String) : String :=
  cell ++ blanks (width - cell.length)

/-- A cell with its text at the right. -/
def padLeft (width : Nat) (cell : String) : String :=
  blanks (width - cell.length) ++ cell

end Text

end Inference
