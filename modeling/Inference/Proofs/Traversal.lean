import Inference.Traverse
import Mathlib.Tactic.Common
import Mathlib.Data.List.Basic

set_option autoImplicit false
set_option relaxedAutoImplicit false

/-!
# Reading tables in full

A chain of steps that can fail succeeds when every step does, and a table is read in full when
every entry can be read.

## Main results

* `bind_eq_ok_iff` — a chain of two steps succeeds when both do.
* `traverse_eq_ok_iff` — a table is read in full when every entry can be read, and gives the
  entries' values in order.
-/

namespace Inference

variable {ε α β : Type}

/-! ## Chains -/

/-- A chain of two steps succeeds when the first does and the second does on its result. -/
lemma bind_eq_ok_iff {x : Except ε α} {f : α → Except ε β} {r : β} :
    (x >>= f) = .ok r ↔ ∃ a, x = .ok a ∧ f a = .ok r := by
  cases x with
  | error fault => simp [bind, Except.bind]
  | ok a => simp [bind, Except.bind]

/-- A pure last step succeeds with its value. -/
lemma pure_eq_ok_iff {a r : α} : (pure a : Except ε α) = .ok r ↔ r = a := by
  simp only [pure, Except.pure, Except.ok.injEq, eq_comm]

/-- A missing value is a fault. -/
lemma orFault_eq_ok_iff {value : Option α} {fault : ε} {r : α} :
    orFault value fault = .ok r ↔ value = some r := by
  cases value <;> simp [orFault]

/-- A guard in front of a chain: the chain succeeds when the condition fails and the rest
succeeds. -/
lemma guard_eq_ok_iff {p : Prop} [Decidable p] {fault : ε} {f : α → Except ε β}
    {rest : Except ε β} {r : β} :
    (if p then (throw fault : Except ε α) >>= f else rest) = .ok r ↔ ¬p ∧ rest = .ok r := by
  by_cases h : p
  · simp [h, bind, Except.bind, throw, throwThe, MonadExceptOf.throw]
  · simp [h]

/-- A refusal in front of a result: the result is given when the condition fails. -/
lemma refusal_eq_ok_iff {p : Prop} [Decidable p] {fault : ε} {rest : Except ε β} {r : β} :
    (if p then .error fault else rest) = .ok r ↔ ¬p ∧ rest = .ok r := by
  by_cases h : p <;> simp [h]

/-- A result that is transformed is there when the result is. -/
lemma map_eq_ok_iff {x : Except ε α} {f : α → β} {r : β} :
    x.map f = .ok r ↔ ∃ a, x = .ok a ∧ f a = r := by
  cases x with
  | error fault => simp [Except.map]
  | ok a => simp [Except.map]

/-- Whether there is a result does not change when it is transformed. -/
lemma exists_map_eq_ok_iff {x : Except ε α} {f : α → β} :
    (∃ r, x.map f = .ok r) ↔ ∃ a, x = .ok a := by
  cases x with
  | error fault => simp [Except.map]
  | ok a => simp [Except.map]

/-! ## Tables -/

/-- A transformation of entries that does not look at their indices. -/
lemma mapIdx_const {entries : List α} {f : α → β} :
    (entries.mapIdx fun _ => f) = entries.map f := by
  apply List.ext_getElem <;> simp

section

variable {P : α → Prop} {f : Nat → α → Except ε β}

/-- An entry after another is read at the next index. -/
lemma traverseFrom_cons_eq_ok_iff {start : Nat} {x : α} {rest : List α} {results : List β} :
    traverseFrom f start (x :: rest) = .ok results ↔
      ∃ y ys, f start x = .ok y ∧ traverseFrom f (start + 1) rest = .ok ys ∧
        results = y :: ys := by
  simp only [traverseFrom]
  cases f start x with
  | error fault => simp
  | ok y =>
    cases traverseFrom f (start + 1) rest with
    | error fault => simp
    | ok ys => simp [eq_comm]

/-- A table that is read from an index on is read in full when every entry can be read. -/
lemma traverseFrom_eq_ok_iff {g : Nat → α → β}
    (h : ∀ i x y, f i x = .ok y ↔ P x ∧ y = g i x) {start : Nat} {entries : List α}
    {results : List β} :
    traverseFrom f start entries = .ok results ↔
      (∀ x ∈ entries, P x) ∧ results = entries.mapIdx fun i => g (start + i) := by
  induction entries generalizing start results with
  | nil => simp [traverseFrom, eq_comm]
  | cons x rest ih =>
    simp only [traverseFrom_cons_eq_ok_iff, h, ih, List.forall_mem_cons, List.mapIdx_cons,
      Nat.add_zero, Nat.add_assoc, Nat.add_comm 1]
    constructor
    · rintro ⟨y, ys, ⟨hx, rfl⟩, ⟨hrest, rfl⟩, rfl⟩
      exact ⟨⟨hx, hrest⟩, rfl⟩
    · rintro ⟨⟨hx, hrest⟩, rfl⟩
      exact ⟨_, _, ⟨hx, rfl⟩, ⟨hrest, rfl⟩, rfl⟩

/-- A table is read in full when every entry can be read; its results are the entries' values in
order. -/
theorem traverse_eq_ok_iff {g : Nat → α → β}
    (h : ∀ i x y, f i x = .ok y ↔ P x ∧ y = g i x) {entries : List α} {results : List β} :
    traverse f entries = .ok results ↔ (∀ x ∈ entries, P x) ∧ results = entries.mapIdx g := by
  simp only [traverse, traverseFrom_eq_ok_iff h, Nat.zero_add]

/-- The same for entries whose values do not depend on their index. -/
theorem traverse_eq_ok_iff_map {g : α → β} (h : ∀ i x y, f i x = .ok y ↔ P x ∧ y = g x)
    {entries : List α} {results : List β} :
    traverse f entries = .ok results ↔ (∀ x ∈ entries, P x) ∧ results = entries.map g := by
  rw [traverse_eq_ok_iff h, mapIdx_const]

end

end Inference
