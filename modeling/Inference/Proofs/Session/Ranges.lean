import Inference.Proofs.Builtin.Overwriting
import Inference.Proofs.Descriptor.Fields

set_option autoImplicit false
set_option relaxedAutoImplicit false

/-!
# Numbers that stay in range

Once a descriptor was read, sizes are added and multiplied in machine words without checks. This
file shows that this is right: the words of a descriptor have 32 bits and so have the lengths of
its lists and blocks, which bounds every size, every sum of sizes and every layout of a network
that was read. The products of a part of the dimensions of a variable are bounded by its element
count, unless a dimension is zero.

## Main definitions

* `Network.InRange` — a network whose sizes, totals, layout and products are in range.

## Main results

* `Network.elementCount_lt` — a variable has fewer than 2 to the 32 elements.
* `Session.load_in_range` — what is loaded is in range, and the budget alone limits its store.
-/

namespace Inference

/-! ## Totals -/

/-- Leaving counts out does not make their total larger. -/
lemma total_filter_le {α : Type} (p : α → Bool) (count : α → Nat) (xs : List α) :
    total ((xs.filter p).map count) ≤ total (xs.map count) := by
  induction xs with
  | nil => exact Nat.le_refl _
  | cons x xs ih =>
    rw [List.filter_cons, List.map_cons, total]
    split
    · exact Nat.add_le_add_left ih _
    · exact Nat.le_trans ih (Nat.le_add_left _ _)

/-- Rounding sizes up does not make their total smaller. -/
lemma Arena.total_le_paddedTotal (sizes : List Nat) : total sizes ≤ paddedTotal sizes := by
  induction sizes with
  | nil => exact Nat.le_refl _
  | cons size sizes ih => exact Nat.add_le_add (le_alignUp size) ih

/-! ## Networks -/

/-- A network all of whose numbers are in range: of no variable does the element count or the size
leave the range of what can be allocated, nor do the totals and the layout of all variables, and
the nodes without an empty dimension are in range. -/
structure Network.InRange (network : Network) : Prop where
  countable : ∀ v ∈ network.variableTable, v.Countable
  elementCount_le : ∀ v ∈ network.variableTable, v.elementCount ≤ Arena.allocationLimit
  byteSize_le : ∀ v ∈ network.variableTable, v.byteSize ≤ Arena.allocationLimit
  parameterBytes_le : network.parameterBytes ≤ Arena.allocationLimit
  variableBytes_le : network.variableBytes ≤ Arena.allocationLimit
  layout : ∃ spans, Arena.layout 0 0 (network.variableTable.map Variable.byteSize) =
    .ok (spans, Session.required network)
  required_le : Session.required network ≤ Arena.allocationLimit
  nodes : ∀ node ∈ network.nodes, (∀ v ∈ node.inputs ++ node.outputs, 0 ∉ v.shape.dims) →
    node.InRange

namespace Network

open Format

variable {bytes : Bytes} {network : Network} {v : Variable}

/-- A variable of a network that was read has fewer than 2 to the 32 elements: it has no more than
its buffer, whose count is a signed word, and no more than its block has bytes. -/
theorem elementCount_lt (h : Network.decode bytes = .ok network)
    (hv : v ∈ network.variableTable) : v.elementCount < 0x100000000 := by
  cases hstorage : v.storage with
  | buffer index =>
    obtain ⟨capacity, hbuffer, hle⟩ := exists_capacity h hv hstorage
    obtain ⟨-, rfl⟩ := Network.decode_eq_ok_iff.mp h
    have hcapacity := lt_of_mem_indices (List.mem_of_getElem? hbuffer)
    omega
  | parameter block =>
    obtain ⟨data, hdata, hle⟩ := exists_parameterData h hv hstorage
    obtain ⟨hformed, rfl⟩ := Network.decode_eq_ok_iff.mp h
    rw [network_blocks, block?_table hformed.offsets_within] at hdata
    have hlength := length_block_lt hdata
    have hsize : v.elementCount ≤ v.byteSize := by
      have htype : 1 ≤ v.elementType.byteSize := by cases v.elementType <;> decide
      exact Nat.le_mul_of_pos_right _ htype
    omega

/-- The numbers of a network that was read are in range. -/
theorem inRange_of_decode (h : Network.decode bytes = .ok network) : network.InRange := by
  have hrequired : Session.required network ≤ Arena.allocationLimit := paddedTotal_le h
  have htotal : network.variableBytes ≤ Arena.allocationLimit :=
    Nat.le_trans (Arena.total_le_paddedTotal _) hrequired
  refine
    { countable := fun v hv => ?_
      elementCount_le := fun v hv => ?_
      byteSize_le := fun v hv => ?_
      parameterBytes_le := Nat.le_trans (total_filter_le _ _ _) htotal
      variableBytes_le := htotal
      layout := ?_
      required_le := hrequired
      nodes := fun node hnode hzero => ?_ }
  · obtain ⟨entry, hfits, index, rfl⟩ := exists_entry h hv
    exact Variable.countable_variableAt hfits _ _ _
  · have hlt := elementCount_lt h hv
    rw [Arena.allocationLimit]
    omega
  · have hlt := byteSize_lt h hv
    rw [Arena.allocationLimit]
    omega
  · have hword : 0 + Session.required network < wordLimit := by
      rw [Arena.allocationLimit] at hrequired
      rw [wordLimit]
      omega
    obtain ⟨spans, hspans⟩ := Arena.layout_eq_ok 0 (Nat.dvd_zero _) hword
    exact ⟨spans, by rw [hspans, Nat.zero_add]⟩
  · exact Node.inRange_of_lt hzero fun v hv =>
      elementCount_lt h (mem_variableTable_of_mem_nodes hnode hv)

end Network

/-! ## Loading -/

namespace Session

variable {σ : Type}

/-- **Range**: no number that is computed without a check from a network that was read leaves the
range of a machine word, and loading it neither finds a layout that does nor asks for a store that
a machine cannot allocate: if the store cannot be laid out, then because it exceeds the budget.

**Proof sketch.** A variable has fewer elements than its buffer or its block can have, so fewer
than 2 to the 32 (`Network.elementCount_lt`), and there are fewer than 2 to the 30 variables
(`Network.paddedTotal_le`). A product of some dimensions is at most the element count when no
dimension is zero (`Shape.product_infix_le`), and two such products make up a word
(`Node.inRange_of_lt`). How loading ends is `loads_load`. -/
theorem load_in_range {bytes : Bytes} {network : Network}
    (h : Network.decode bytes = .ok network) :
    network.InRange ∧ ∀ (session : Session σ) (loading : Nat) (fault : ArenaFault),
      (session.load loading bytes).result = .error (.memory fault) →
        ∃ budget, session.settings.budget = .ok budget ∧
          fault = .outOfMemory (required network) budget.bytes ∧
          budget.bytes < required network := by
  refine ⟨Network.inRange_of_decode h, fun session loading fault hresult => ?_⟩
  have hloads := session.loads_load loading bytes
  generalize session.load loading bytes = reply at hloads hresult
  cases hloads with
  | @oversized budget read functions hheld hbudget hdecode hfunctions hexceeds =>
    obtain rfl := Except.ok.inj (h.symm.trans hdecode)
    obtain rfl : ArenaFault.outOfMemory (required network) budget.bytes = fault := by
      simpa using hresult
    exact ⟨budget, hbudget, rfl, hexceeds⟩
  | @unbound budget read front back entry functions node cause =>
    cases cause <;> cases hresult
  | _ => cases hresult

/-- The numbers of two layers are in range, with those of both nodes; a budget of one byte is
exceeded by what they require. -/
theorem load_in_range_layers :
    ∃ network budget, Network.decode layers.encode = .ok network ∧ network.InRange ∧
      network.nodes.map Node.op = [.affine, .softmax] ∧ (∀ node ∈ network.nodes, node.InRange) ∧
      ((Session.new { memoryBudget := "1" } .defaults : Session Nat).load 0 layers.encode).result =
        .error (.memory (.outOfMemory (required network) (Budget.bytes budget))) ∧
      budget.bytes < required network := by
  have hdecode : Network.decode layers.encode = .ok (Format.network layers.encode) := by
    decide +kernel
  have hzero : ∀ node ∈ (Format.network layers.encode).nodes,
      ∀ v ∈ node.inputs ++ node.outputs, 0 ∉ v.shape.dims := by
    decide +kernel
  have hrefused : ((Session.new { memoryBudget := "1" } .defaults : Session Nat).load 0
      layers.encode).result = .error (.memory (.outOfMemory 64 1)) := by
    decide +kernel
  obtain ⟨hrange, hfault⟩ := load_in_range (σ := Nat) hdecode
  obtain ⟨budget, -, hmemory, hexceeds⟩ := hfault _ 0 _ hrefused
  exact ⟨_, budget, hdecode, hrange, by decide +kernel,
    fun node hnode => hrange.nodes node hnode (hzero node hnode), hmemory ▸ hrefused, hexceeds⟩

end Session

end Inference
