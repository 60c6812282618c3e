import Inference.Proofs.Descriptor.Acceptance

set_option autoImplicit false
set_option relaxedAutoImplicit false

/-!
# Consistent tables

The tables of a network that was read refer to each other in order: entries know their own places,
indices lead to entries, and no function writes a variable that it reads or writes a variable
twice.

## Main definitions

* `FunctionEntry.Consistent`, `Network.Consistent` — tables that refer to each other in order.

## Main results

* `Network.consistent_of_decode` — a network that was read is consistent.
* `Network.map_index_select` — the variables with given indices have these indices.
-/

namespace Inference

open Format

/-- A function whose variables exist, with outputs that are distinct and no inputs. -/
structure FunctionEntry.Consistent (entry : FunctionEntry) (variableCount : Nat) : Prop where
  inputs_lt : ∀ index ∈ entry.inputs, index < variableCount
  outputs_lt : ∀ index ∈ entry.outputs, index < variableCount
  outputs_nodup : entry.outputs.Nodup
  disjoint : entry.inputs.Disjoint entry.outputs

/-- Tables that refer to each other in order. -/
structure Network.Consistent (network : Network) : Prop where
  variable_index : ∀ (i : Nat) (v : Variable), network.variableTable[i]? = some v → v.index = i
  function_index : ∀ (i : Nat) (entry : FunctionEntry),
    network.functions[i]? = some entry → entry.index = i
  inputs_lt : ∀ index ∈ network.inputs, index < network.variableTable.length
  outputs_lt : ∀ index ∈ network.outputs, index < network.variableTable.length
  functions_consistent : ∀ entry ∈ network.functions,
    entry.Consistent network.variableTable.length

/-! ## Reading -/

/-- Indices that can be followed lie below their count. -/
lemma lt_of_indicesFit {blocks : BlockContents} {ref : ListRef} {count : Nat}
    (h : IndicesFit blocks ref count) : ∀ index ∈ indices blocks ref, index < count := by
  intro index hindex
  obtain ⟨value, hvalue, rfl⟩ := List.mem_map.mp hindex
  obtain ⟨hpos, hlt⟩ := h.2 value hvalue
  omega

/-- The function of an entry that is in order is consistent. -/
lemma consistent_functionAt {blocks : BlockContents} {variableCount : Nat} {entry : Bytes}
    (h : FunctionFits blocks variableCount entry) (index : Nat) :
    (functionAt blocks index entry).Consistent variableCount where
  inputs_lt := lt_of_indicesFit h.inputs
  outputs_lt := lt_of_indicesFit h.outputs
  outputs_nodup := h.distinct
  disjoint := h.disjoint

namespace Network

/-- There are as many variables as the variable table lists. -/
lemma length_variableTable (bytes : Bytes) :
    (Format.network bytes).variableTable.length = variableCount bytes := by
  rw [network_variableTable, List.length_mapIdx, length_items, variableCount]

/-- **Consistency**: a network that was read is consistent.

**Proof sketch.** Each table is the list of the entries that a list of references leads to
(`Network.decode_eq_ok_iff`), so an entry has its own place, and what it refers to was in order
when it was read. -/
theorem consistent_of_decode {bytes : Bytes} {network : Network}
    (h : Network.decode bytes = .ok network) : network.Consistent := by
  obtain ⟨hformed, rfl⟩ := Network.decode_eq_ok_iff.mp h
  refine ⟨?_, ?_, ?_, ?_, ?_⟩
  · intro i v hv
    rw [network_variableTable, List.getElem?_mapIdx, Option.map_eq_some_iff] at hv
    obtain ⟨reference, -, rfl⟩ := hv
    rfl
  · intro i entry hentry
    rw [network_functions, List.getElem?_mapIdx, Option.map_eq_some_iff] at hentry
    obtain ⟨reference, -, rfl⟩ := hentry
    rfl
  · rw [length_variableTable]
    exact lt_of_indicesFit hformed.inputs
  · rw [length_variableTable]
    exact lt_of_indicesFit hformed.outputs
  · intro entry hentry
    rw [length_variableTable]
    obtain ⟨i, hi⟩ := List.getElem?_of_mem hentry
    rw [network_functions, List.getElem?_mapIdx, Option.map_eq_some_iff] at hi
    obtain ⟨reference, hreference, rfl⟩ := hi
    obtain ⟨bytes', hnamed, hfits⟩ :=
      hformed.functionEntries reference (List.mem_of_getElem? hreference)
    rw [named_eq hnamed]
    exact consistent_functionAt hfits i

variable {network : Network}

/-- The variables with given indices have these indices. -/
theorem map_index_select (h : network.Consistent) {indices : List Nat}
    (hlt : ∀ index ∈ indices, index < network.variableTable.length) :
    (network.select indices).map Variable.index = indices := by
  induction indices with
  | nil => rfl
  | cons index indices ih =>
    have hindex := hlt index List.mem_cons_self
    have hfound := List.getElem?_eq_getElem hindex
    have hrest := ih fun other hother => hlt other (List.mem_cons_of_mem _ hother)
    rw [select, List.filterMap_cons, hfound, List.map_cons, ← select, hrest,
      h.variable_index _ _ hfound]

/-- The functions have their positions as indices. -/
lemma map_index_functions (h : network.Consistent) :
    network.functions.map FunctionEntry.index = List.range network.functions.length := by
  apply List.ext_getElem
  · simp
  · intro i hi _
    rw [List.getElem_map, List.getElem_range]
    exact h.function_index i _ (List.getElem?_eq_getElem (by simpa using hi))

end Network

end Inference
