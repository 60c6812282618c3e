import Inference.Bytes
import Inference.Text.Blank

set_option autoImplicit false
set_option relaxedAutoImplicit false

/-!
# Memory budgets

A budget is the ceiling on the one store that a bound network allocates. People write it as a
count with an optional binary unit, so it can stand in a settings file.

## Main definitions

* `Budget` — a ceiling in bytes.
* `Budget.parse` — the budget a text names: a count, optional blanks, an optional unit.
* `Budget.text` — a budget in the largest unit that divides it.
* `BudgetFault` — why a text names no budget.
-/

namespace Inference

/-- A ceiling on the size of a store, in bytes. -/
structure Budget where
  bytes : Nat
deriving DecidableEq

/-- Why a text names no budget. -/
inductive BudgetReason where
  /-- Nothing but blanks. -/
  | empty
  /-- What stands before the unit is no count, or a count that is too large for a word. -/
  | notANumber
  /-- The count times the unit does not fit a word. -/
  | overflow
  /-- A budget of no bytes. -/
  | zero
deriving DecidableEq

/-- A text that names no budget, without the blanks around it, and the reason. -/
structure BudgetFault where
  input : String
  reason : BudgetReason
deriving DecidableEq

/-- What is wrong with a budget text. -/
def BudgetReason.message : BudgetReason → String
  | .empty => "empty string"
  | .notANumber => "expected a number followed by an optional suffix (K, M, G)"
  | .overflow => "value overflows"
  | .zero => "budget must be non-zero"

/-- The fault with the text it is about. -/
def BudgetFault.message (fault : BudgetFault) : String :=
  s!"invalid memory budget '{fault.input}': {fault.reason.message}"

namespace Budget

/-! ## Units -/

/-- Bytes in a `K`. -/
def kilo : Nat := 1024

/-- Bytes in an `M`. -/
def mega : Nat := 1024 * kilo

/-- Bytes in a `G`. -/
def giga : Nat := 1024 * mega

/-- The units a budget text may end in, in the order in which they are tried: a longer one comes
before every one that it ends in. -/
def units : List (List Char × Nat) :=
  [(['G', 'B'], giga), (['M', 'B'], mega), (['K', 'B'], kilo),
   (['G'], giga), (['M'], mega), (['K'], kilo), (['B'], 1)]

/-- A count of units as a budget; one that does not fit a word becomes the largest word. -/
def ofUnits (count unit : Nat) : Budget :=
  ⟨min (count * unit) (wordLimit - 1)⟩

/-- Whole `M`s in a budget. -/
def wholeMega (budget : Budget) : Nat :=
  budget.bytes / mega

/-- Whether a request stays within the budget. -/
def fits (budget : Budget) (request : Nat) : Bool :=
  request ≤ budget.bytes

/-! ## Reading -/

/-- The value of a run of decimal digits, appended to the digits read so far. -/
def digitsValue? : List Char → Nat → Option Nat
  | [], value => some value
  | c :: rest, value =>
    if c.isDigit then digitsValue? rest (10 * value + (c.toNat - 48)) else none

/-- A decimal count: an optional plus sign and at least one digit, below the word limit. -/
def count? (text : List Char) : Option Nat :=
  let digits := match text with
    | '+' :: rest => rest
    | _ => text
  if digits.isEmpty then none
  else (digitsValue? digits 0).filter (· < wordLimit)

/-- A text without the unit it ends in, and the bytes in that unit; one byte if it ends in none. -/
def splitUnit (text : List Char) : List Char × Nat :=
  match units.find? fun (letters, _) => letters.isSuffixOf text with
  | some (letters, unit) => (text.take (text.length - letters.length), unit)
  | none => (text, 1)

/-- The budget a text names. Letters count in either case, and blanks around the text and before
the unit are skipped. -/
def parse (text : String) : Except BudgetFault Budget :=
  let input := Text.trim text.toList
  let fault (reason : BudgetReason) : BudgetFault := ⟨String.ofList input, reason⟩
  if input.isEmpty then .error (fault .empty)
  else
    let (digits, unit) := splitUnit (input.map Char.toUpper)
    match count? (Text.trim digits) with
    | none => .error (fault .notANumber)
    | some count =>
      if wordLimit ≤ count * unit then .error (fault .overflow)
      else if count * unit = 0 then .error (fault .zero)
      else .ok ⟨count * unit⟩

/-! ## Printing -/

/-- The units a budget is printed in, largest first. -/
def labels : List (String × Nat) :=
  [("GB", giga), ("MB", mega), ("KB", kilo)]

/-- A budget in the largest unit that divides it and is not larger than it, or in bytes. -/
def text (budget : Budget) : String :=
  match labels.find? fun (_, unit) => unit ≤ budget.bytes && budget.bytes % unit = 0 with
  | some (label, unit) => s!"{budget.bytes / unit} {label}"
  | none => s!"{budget.bytes} B"

end Budget

end Inference
