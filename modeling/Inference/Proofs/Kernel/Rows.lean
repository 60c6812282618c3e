import Inference.Kernel.Loop
import Inference.Kernel.Rows
import Mathlib.Algebra.BigOperators.Group.List.Basic
import Mathlib.Tactic.Common

set_option autoImplicit false
set_option relaxedAutoImplicit false

/-!
# Rows of one width

Kernels work on flat lists that are cut into rows. This file says how wide the rows are, which row
and which element stands where, and what is found between the ends of a row.

## Main definitions

* `Kernel.replace?` — other elements in place of those between two positions.

## Main results

* `Kernel.getElem?_rows`, `Kernel.getElem?_flatten` — rows and their elements by their numbers.
* `Kernel.between?_row`, `Kernel.between?_append`, `Kernel.replace?_append` — rows by their ends.
-/

namespace Inference

namespace Kernel

variable {α : Type}

/-! ## Widths -/

/-- Rows of one width, one after another, have as many elements as they are times as wide. -/
lemma length_flatten_of_width {lines : List (List α)} {width : Nat}
    (h : ∀ line ∈ lines, line.length = width) : lines.flatten.length = lines.length * width := by
  rw [List.length_flatten, List.map_congr_left h, List.map_const', List.sum_replicate_nat]

/-- Rows that the elements suffice for have their width. -/
lemma length_of_mem_rows {count width : Nat} {elements : List α}
    (h : count * width ≤ elements.length) : ∀ row ∈ rows count width elements,
      row.length = width := by
  induction count generalizing elements with
  | zero => simp [rows]
  | succ count ih =>
    rw [Nat.succ_mul] at h
    rw [rows, List.forall_mem_cons]
    refine ⟨List.length_take_of_le (by omega), ih ?_⟩
    rw [List.length_drop]
    omega

/-- A row that is worked on step by step keeps its width if every step keeps it. -/
lemma length_foldl_of_width {β : Type} {step : List α → β → List α} {items : List β} {width : Nat}
    {start : List α} (hstart : start.length = width)
    (hstep : ∀ row item, item ∈ items → row.length = width → (step row item).length = width) :
    (items.foldl step start).length = width := by
  induction items generalizing start with
  | nil => exact hstart
  | cons item items ih =>
    rw [List.foldl_cons]
    apply ih (hstep start item List.mem_cons_self hstart)
    exact fun row other hother => hstep row other (List.mem_cons_of_mem _ hother)

/-- Two rows of one width, joined element by element, have this width. -/
lemma length_zipWith_of_width {β γ : Type} {width : Nat} {left : List α} {right : List β}
    (f : α → β → γ) (hleft : left.length = width) (hright : right.length = width) :
    (left.zipWith f right).length = width := by
  rw [List.length_zipWith, hleft, hright, Nat.min_self]

/-! ## Positions -/

/-- New elements in place of those from a position up to another, absent unless they are as many
and all of those are there. -/
def replace? (elements : List α) (start stop : Nat) (new : List α) : Option (List α) :=
  if start ≤ stop ∧ stop ≤ elements.length ∧ new.length = stop - start then
    some (elements.take start ++ new ++ elements.drop stop)
  else none

/-- A row by its number. -/
lemma getElem?_rows {count width i : Nat} (hi : i < count) (elements : List α) :
    (rows count width elements)[i]? = some ((elements.drop (i * width)).take width) := by
  induction count generalizing i elements with
  | zero => omega
  | succ count ih =>
    rw [rows]
    cases i with
    | zero => simp
    | succ i =>
      rw [List.getElem?_cons_succ, ih (by omega), List.drop_drop]
      congr 3
      rw [Nat.succ_mul, Nat.add_comm]

/-- An element of a row by its position. -/
lemma getElem?_row {width j : Nat} (hj : j < width) (elements : List α) (start : Nat) :
    ((elements.drop start).take width)[j]? = elements[start + j]? := by
  rw [List.getElem?_take_of_lt hj, List.getElem?_drop]

/-- An element of rows of one width that are put one after another. -/
lemma getElem?_flatten {lines : List (List α)} {width i j : Nat}
    (h : ∀ line ∈ lines, line.length = width) (hi : i < lines.length) (hj : j < width) :
    lines.flatten[i * width + j]? = lines[i][j]? := by
  induction lines generalizing i with
  | nil => simp at hi
  | cons line lines ih =>
    rw [List.forall_mem_cons] at h
    rw [List.flatten_cons]
    cases i with
    | zero =>
      rw [List.getElem?_append_left (by omega)]
      simp
    | succ i =>
      have hposition : (i + 1) * width + j - line.length = i * width + j := by
        rw [h.1, Nat.succ_mul]
        omega
      rw [List.getElem?_append_right (by rw [h.1, Nat.succ_mul]; omega), hposition,
        ih h.2 (by simpa using hi), List.getElem_cons_succ]

/-- Elements between two positions are there in full. -/
lemma le_of_between? {elements found : List α} {start stop : Nat}
    (h : between? elements start stop = some found) : start ≤ stop ∧ stop ≤ elements.length := by
  unfold between? at h
  split at h
  next hends => exact hends
  next => cases h

/-- Elements that are replaced are there in full, and as many as the new ones. -/
lemma replace?_eq_some_iff {elements new replaced : List α} {start stop : Nat} :
    replace? elements start stop new = some replaced ↔
      (start ≤ stop ∧ stop ≤ elements.length ∧ new.length = stop - start) ∧
        replaced = elements.take start ++ new ++ elements.drop stop := by
  unfold replace?
  split
  next hends => simp [hends, eq_comm]
  next hends => simp [hends]

/-- What lies between the ends of a row is the row. -/
lemma between?_row {elements : List α} {count width i : Nat} (hi : i < count)
    (hlength : count * width ≤ elements.length) :
    between? elements (i * width) ((i + 1) * width) =
      some ((elements.drop (i * width)).take width) := by
  have hle : (i + 1) * width ≤ count * width := Nat.mul_le_mul_right _ hi
  rw [between?, if_pos ⟨Nat.mul_le_mul_right _ (Nat.le_succ i), Nat.le_trans hle hlength⟩,
    Nat.succ_mul, Nat.add_sub_cancel_left]

/-- What lies between a front part and a back part is there. -/
lemma between?_append {front middle back : List α} {start stop : Nat}
    (hstart : front.length = start) (hstop : start + middle.length = stop) :
    between? (front ++ (middle ++ back)) start stop = some middle := by
  subst hstart hstop
  rw [between?, if_pos (by simp), List.drop_left, Nat.add_sub_cancel_left, List.take_left]

/-- It can be replaced by as many elements. -/
lemma replace?_append {front middle back new : List α} {start stop : Nat}
    (hstart : front.length = start) (hstop : start + middle.length = stop)
    (hnew : new.length = middle.length) :
    replace? (front ++ (middle ++ back)) start stop new = some (front ++ (new ++ back)) := by
  subst hstart hstop
  rw [replace?, if_pos (by simp [hnew]), List.take_left, ← List.drop_drop, List.drop_left,
    List.drop_left, List.append_assoc]

/-- So can all elements. -/
lemma replace?_all {old new : List α} (hnew : new.length = old.length) :
    replace? old 0 old.length new = some new := by
  simp [replace?, hnew]

end Kernel

end Inference
