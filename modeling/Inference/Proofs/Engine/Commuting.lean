import Inference.Proofs.Engine.Refinement
import Inference.Proofs.Session.Releasing
import Mathlib.Data.List.Infix

set_option autoImplicit false
set_option relaxedAutoImplicit false

/-!
# Functions that commute

A turn of a function reads its inputs and its outputs, and changes its outputs and its private
state. So two functions can change places if neither writes what the other reads or writes: their
routines see the same arguments in either order, and what they give back is stored in different
variables. The inputs of the two may overlap as they like.

## Main definitions

* `Node.Independent` — nodes neither of which writes what the other reads or writes.
* `BoundNode.Commute` — two bound nodes that give the same in either order.

## Main results

* `Reference.store_comm` — storing to different variables can be done in either order.
* `BoundNode.commute_of_independent` — the turns of independent nodes commute.
* `Session.neighbours_commute` — so do those of independent neighbours in a bound network.
-/

namespace Inference

/-- Neither of two nodes writes a variable that the other one reads or writes. -/
structure Node.Independent (first second : Node) : Prop where
  outputs_inputs : List.Disjoint (first.outputs.map Variable.index)
    (second.inputs.map Variable.index)
  outputs_outputs : List.Disjoint (first.outputs.map Variable.index)
    (second.outputs.map Variable.index)
  inputs_outputs : List.Disjoint (second.outputs.map Variable.index)
    (first.inputs.map Variable.index)

/-- Independence does not depend on the order of the nodes. -/
lemma Node.Independent.symm {first second : Node} (h : first.Independent second) :
    second.Independent first where
  outputs_inputs := h.inputs_outputs
  outputs_outputs _ hi hj := h.outputs_outputs hj hi
  inputs_outputs := h.outputs_inputs

namespace Reference

variable {σ : Type}

/-- Storing to two lists of different variables can be done in either order. -/
theorem store_comm {left right : List Nat} (h : List.Disjoint left right) (arrays : Arrays)
    (news news' : List Bytes) :
    store (store arrays left news) right news' = store (store arrays right news') left news := by
  induction left generalizing arrays news with
  | nil => rfl
  | cons i left ih =>
    cases news with
    | nil => rfl
    | cons new news =>
      rw [List.disjoint_cons_left] at h
      rw [store, store, ih h.2, store_update h.1, store_of_not_mem h.1]

/-- A function does not notice what is stored in variables that it neither reads nor writes. -/
lemma Task.call_store {task : Task σ} {indices : List Nat}
    (hinputs : List.Disjoint indices task.entry.inputs)
    (houtputs : List.Disjoint indices task.entry.outputs) (arrays : Arrays)
    (news : List Bytes) : task.call (store arrays indices news) = task.call arrays := by
  have hkept {arguments : List Nat} (hdisjoint : List.Disjoint indices arguments) :
      arguments.map (store arrays indices news) = arguments.map arrays :=
    List.map_congr_left fun _ hi => store_of_not_mem (fun hmem => hdisjoint hmem hi) news
  rw [call, call, hkept hinputs, hkept houtputs]

end Reference

variable {σ : Type} {contents : Contents} {count : Nat} {entry entry' : FunctionEntry}
  {first second : BoundNode σ}

/-- Tables of one length are equal if every variable has the same contents in both. -/
lemma eq_of_arrays_eq {other : Contents} (hlength : contents.length = other.length)
    (harrays : contents.arrays = Contents.arrays other) : contents = other := by
  apply List.ext_getElem hlength
  intro i hi hi'
  have hsame := congrFun harrays i
  rwa [Contents.arrays, Contents.arrays, List.getElem?_eq_getElem hi, List.getElem?_eq_getElem hi',
    Option.getD_some, Option.getD_some] at hsame

/-- A bound node conforms to its entry whatever its private state is. -/
lemma Conforms.withState (h : Conforms count entry first) (state : Option σ) :
    Conforms count entry (first.withState state) :=
  ⟨h.consistent, h.index_eq, h.op_eq, h.inputs_eq, h.outputs_eq⟩

/-- The outcome of a node after the turn of an independent one is its outcome before it. -/
lemma outcome_store (hfirst : Conforms count entry first) (hsecond : Conforms count entry' second)
    (h : first.node.Independent second.node) (arrays : Arrays) (news : List Bytes) :
    second.outcome entry' (Reference.store arrays entry.outputs news) =
      second.outcome entry' arrays := by
  have hinputs := h.outputs_inputs
  have houtputs := h.outputs_outputs
  rw [hfirst.outputs_eq, hsecond.inputs_eq] at hinputs
  rw [hfirst.outputs_eq, hsecond.outputs_eq] at houtputs
  rw [BoundNode.outcome, Reference.Task.call_store hinputs houtputs, BoundNode.outcome]

/-- Two bound nodes that give the same over some contents in either order: the same private states,
the same results and the same contents. -/
structure BoundNode.Commute (first second : BoundNode σ) (contents : Contents) : Prop where
  first_function : (first.execute (second.execute contents).contents).function =
    (first.execute contents).function
  first_result : (first.execute (second.execute contents).contents).result =
    (first.execute contents).result
  second_function : (second.execute (first.execute contents).contents).function =
    (second.execute contents).function
  second_result : (second.execute (first.execute contents).contents).result =
    (second.execute contents).result
  contents_eq : (first.execute (second.execute contents).contents).contents =
    (second.execute (first.execute contents).contents).contents

/-- **Commuting turns**: the turns of independent nodes can be taken in either order.

**Proof sketch.** A turn stores the outcome of its routine in the outputs (`execute_refines`). The
other routine sees none of these (`outcome_store`), so both outcomes are the same in either order,
and they are stored in different variables (`Reference.store_comm`). -/
theorem BoundNode.commute_of_independent (hfirst : Conforms contents.length entry first)
    (hsecond : Conforms contents.length entry' second)
    (h : first.node.Independent second.node) : first.Commute second contents := by
  obtain ⟨hfunction, hlength, harrays, hresult, -⟩ := execute_refines hfirst
  obtain ⟨hfunction', hlength', harrays', hresult', -⟩ := execute_refines hsecond
  -- each of the turns after the other one
  have hlater : Conforms (second.execute contents).contents.length entry first := by
    rwa [hlength']
  have hlater' : Conforms (first.execute contents).contents.length entry' second := by
    rwa [hlength]
  obtain ⟨hfirstFunction, hfirstLength, hfirstArrays, hfirstResult, -⟩ := execute_refines hlater
  obtain ⟨hsecondFunction, hsecondLength, hsecondArrays, hsecondResult, -⟩ :=
    execute_refines hlater'
  rw [harrays', outcome_store hsecond hfirst h.symm] at hfirstFunction hfirstArrays hfirstResult
  rw [harrays, outcome_store hfirst hsecond h] at hsecondFunction hsecondArrays hsecondResult
  have hdisjoint := h.outputs_outputs
  rw [hfirst.outputs_eq, hsecond.outputs_eq] at hdisjoint
  refine ⟨hfirstFunction.trans hfunction.symm, hfirstResult.trans hresult.symm,
    hsecondFunction.trans hfunction'.symm, hsecondResult.trans hresult'.symm, eq_of_arrays_eq ?_ ?_⟩
  · rw [hfirstLength, hlength', hsecondLength, hlength]
  · rw [hfirstArrays, hsecondArrays, Reference.store_comm hdisjoint]

/-! ## Sessions -/

/-- Every bound node conforms to an entry of the network that it serves. -/
lemma Bound.Serves.exists_conforms {bound : Bound σ} {network : Network}
    (h : bound.Serves network) (hconsistent : network.Consistent)
    (hmem : first ∈ bound.functions) :
    ∃ entry, Conforms bound.arena.regions.length entry first := by
  have hall := h.conforms hconsistent
  rw [Arena.split_eq_map h.tiled, List.length_map] at hall
  obtain ⟨i, hi, rfl⟩ := List.mem_iff_getElem.mp hmem
  have hi' : i < network.functions.length := by rwa [hall.length_eq]
  exact ⟨_, hall.get hi' hi⟩

namespace Session

variable {session : Session σ}

/-- **Neighbours**: if neither of two functions in a row writes what the other reads or writes, then
they can change places. Over any contents of the regions and any private states with which both
succeed, they succeed in the other order as well, and leave the same contents and the same private
states.

**Proof sketch.** The session serves the network that the descriptor was read as (`serves_after`),
so both conform to functions of it, and their turns commute (`BoundNode.commute_of_independent`). -/
theorem neighbours_commute {loading : Nat} {descriptor : Bytes}
    (hload : (session.load loading descriptor).result = .ok ()) (actions : List (Action σ))
    {bound : Bound σ}
    (hready : ((session.load loading descriptor).session.after actions).ready? = some bound)
    {first second : BoundNode σ} (hneighbours : [first, second] <:+: bound.functions)
    (hindependent : first.node.Independent second.node) {contents : Contents}
    (hregions : contents.length = bound.arena.regions.length) (state state' : Option σ) :
    let f := first.withState state
    let g := second.withState state'
    (f.execute contents).result = .ok () →
      (g.execute (f.execute contents).contents).result = .ok () →
        (g.execute contents).result = .ok () ∧
        (f.execute (g.execute contents).contents).result = .ok () ∧
        (f.execute (g.execute contents).contents).contents =
          (g.execute (f.execute contents).contents).contents ∧
        (f.execute (g.execute contents).contents).function = (f.execute contents).function ∧
        (g.execute contents).function = (g.execute (f.execute contents).contents).function := by
  intro f g hf hg
  obtain ⟨network, bound', hdecode, hbound', hserves⟩ := ready_of_load hload
  have hconsistent := Network.consistent_of_decode hdecode
  have hserved := (serves_after (serves_of_ready hbound' hserves) hconsistent actions).ready bound
    hready
  have hmem := hneighbours.subset
  obtain ⟨entry, hfirst⟩ := hserved.exists_conforms hconsistent
    (hmem (List.mem_cons_self : first ∈ [first, second]))
  obtain ⟨entry', hsecond⟩ := hserved.exists_conforms hconsistent
    (hmem (List.mem_cons_of_mem _ List.mem_cons_self : second ∈ [first, second]))
  rw [← hregions] at hfirst hsecond
  have hcommute : f.Commute g contents := BoundNode.commute_of_independent
    (hfirst.withState state) (hsecond.withState state') hindependent
  exact ⟨hcommute.second_result.symm.trans hg, hcommute.first_result.trans hf,
    hcommute.contents_eq, hcommute.first_function, hcommute.second_function.symm⟩

/-- Two functions of one input, with outputs that share a buffer. -/
def forking : Draft where
  buffers := [1, 2]
  variableTable :=
    [{ id := 0, dims := [1], elementType := .sign, backing := .buffer 0 },
     { id := 1, dims := [1], elementType := .sign, backing := .buffer 1 },
     { id := 2, dims := [2], elementType := .sign, backing := .buffer 1 }]
  functions :=
    [{ op := .relu, inputs := [0], outputs := [1] },
     { op := .tanh, inputs := [0, 0], outputs := [2] }]
  inputs := [0]
  outputs := [1, 2]

/-- Fills its output with its inputs, and counts its calls. -/
def tallying : Resolver Nat := fun _ _ _ =>
  { resolution := .matched
    slot :=
      { execute := some fun call calls =>
          { outputs := [call.inputs.flatten]
            state := some (calls.getD 0 + 1)
            result := .ok ()
            notes := [] } }
    notes := [] }

/-- The results of the turns of two nodes, one after the other, and the contents that they leave. -/
def turns (contents : Contents) : List (BoundNode σ) →
    Option (Except RoutineFault Unit × Except RoutineFault Unit × Contents)
  | [first, second] =>
    let turn := first.execute contents
    let later := second.execute turn.contents
    some (turn.result, later.result, later.contents)
  | _ => none

/-- The two functions of the fork can change places, after three calls of the one and five of the
other. -/
theorem neighbours_commute_forking :
    let session : Session Nat := (Session.new {} .empty).after
      [.register .relu tallying, .register .tanh tallying]
    let contents : Contents := [[7], [0], [0, 0]]
    (session.load 0 forking.encode).result = .ok () ∧
      ∃ bound first second, (session.load 0 forking.encode).session.ready? = some bound ∧
        [first, second] <:+: bound.functions ∧ first.node.Independent second.node ∧
        contents.length = bound.arena.regions.length ∧
        let f := first.withState (some 3)
        let g := second.withState (some 5)
        (f.execute contents).result = .ok () ∧
        (g.execute (f.execute contents).contents).result = .ok () ∧
        (g.execute contents).result = .ok () ∧
        (f.execute (g.execute contents).contents).result = .ok () ∧
        (f.execute (g.execute contents).contents).contents = [[7], [7], [7, 7]] := by
  intro session contents
  let loaded := (session.load 0 forking.encode).session
  have hload : (session.load 0 forking.encode).result = .ok () := by decide +kernel
  have harguments : loaded.functions.map (fun function =>
      (function.node.inputs.map Variable.index, function.node.outputs.map Variable.index)) =
        [([0], [1]), ([0, 0], [2])] := by decide +kernel
  have hturns : turns contents (loaded.functions.mapIdx fun i function =>
      function.withState (some (2 * i + 3))) = some (.ok (), .ok (), [[7], [7], [7, 7]]) := by
    decide +kernel
  have hcount : (loaded.bound .forward).map (fun bound => bound.arena.regions.length) = .ok 3 := by
    decide +kernel
  obtain ⟨bound, hbound, hregions⟩ := map_eq_ok_iff.mp hcount
  have hready : loaded.ready? = some bound := bound_eq_ok_iff.mp hbound
  have hlength : contents.length = bound.arena.regions.length := hregions.symm
  rw [functions_of_ready hready] at harguments hturns
  obtain ⟨first, rest, hfunctions, hfirst, hrest⟩ := List.map_eq_cons_iff.mp harguments
  obtain ⟨second, rest', rfl, hsecond, hnil⟩ := List.map_eq_cons_iff.mp hrest
  obtain rfl := List.map_eq_nil_iff.mp hnil
  rw [Prod.mk.injEq] at hfirst hsecond
  have hindependent : first.node.Independent second.node := by
    constructor <;> simp [hfirst, hsecond]
  rw [hfunctions] at hturns
  simp only [List.mapIdx_cons, List.mapIdx_nil, turns, Option.some.injEq, Prod.mk.injEq] at hturns
  obtain ⟨hf, hg, hcontents⟩ := hturns
  obtain ⟨hg', hf', hsame, -, -⟩ := neighbours_commute hload [] hready
    (hfunctions ▸ List.infix_refl _) hindependent hlength (some 3) (some 5) hf hg
  exact ⟨hload, bound, first, second, hready, hfunctions ▸ List.infix_refl _, hindependent,
    hlength, hf, hg, hg', hf', hsame.trans hcontents⟩

end Session

end Inference
