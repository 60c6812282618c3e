import Inference.Binding.Slot
import Inference.KeyedTable
import Inference.Total

set_option autoImplicit false
set_option relaxedAutoImplicit false

/-!
# Registry of built-in implementations

Built-in implementations are registered under an operator and a variant. A variant without an
entry of its own falls back to variant 0 of the same operator.

## Main definitions

* `Installation`, `Installer` — checks a node and fills a slot for it.
* `Registry`, `Registry.register` — the table, and the table with one more entry.
* `Registry.lookup?` — the installer for an operator and a variant.
* `Registry.operators` — the operators with an entry.
-/

namespace Inference

/-- What an installer leaves. -/
structure Installation (σ : Type) where
  /-- The slot, with whatever was installed in it before the installer was done. -/
  slot : Slot σ
  /-- Whether the installer takes the node. -/
  result : Except DescriptorFault Unit

/-- Checks a node and installs an implementation for it in a slot. -/
abbrev Installer (σ : Type) := Node → Slot σ → Installation σ

/-- Installers by operator and variant. -/
structure Registry (σ : Type) where
  /-- For each operator, by its number, the installers by variant. -/
  byOperator : KeyedTable (KeyedTable (Installer σ))

namespace Registry

variable {σ : Type}

/-- A registry without entries. -/
def empty : Registry σ := ⟨.empty⟩

/-- The installers of an operator by variant. -/
def variants (registry : Registry σ) (op : Operator) : KeyedTable (Installer σ) :=
  (registry.byOperator.find? op.key).getD .empty

/-- The registry with an installer under an operator and a variant, in place of the one it had
there. -/
def register (registry : Registry σ) (op : Operator) (variant : UInt16)
    (installer : Installer σ) : Registry σ :=
  ⟨registry.byOperator.set op.key ((registry.variants op).set variant.toNat installer)⟩

/-- The installer for an operator and a variant: the variant's own, or the one of variant 0. -/
def lookup? (registry : Registry σ) (op : Operator) (variant : UInt16) : Option (Installer σ) :=
  let variants := registry.variants op
  match variants.find? variant.toNat with
  | some installer => some installer
  | none => variants.find? 0

/-- Whether any variant of an operator has an entry. -/
def supports (registry : Registry σ) (op : Operator) : Bool :=
  (registry.byOperator.find? op.key).isSome

/-- The operators with an entry, in the order of their codes. -/
def operators (registry : Registry σ) : List Operator :=
  registry.byOperator.keys.map Operator.ofKey

/-- Number of entries. -/
def count (registry : Registry σ) : Nat :=
  total (registry.byOperator.values.map fun variants => variants.entries.length)

/-- Whether there are no entries. -/
def isEmpty (registry : Registry σ) : Bool :=
  registry.byOperator.entries.isEmpty

/-- The operators with an entry, for diagnostics. -/
def diagnostic (registry : Registry σ) : String :=
  "[" ++ ", ".intercalate (registry.operators.map Operator.diagnostic) ++ "]"

end Registry

end Inference
