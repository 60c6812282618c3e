import Inference.Proofs.Builtin.Installing
import Inference.Proofs.Dispatch.Resolution
import Inference.Proofs.Session.Loading

set_option autoImplicit false
set_option relaxedAutoImplicit false

/-!
# Built-in implementations never fail

What an installer of a built-in implementation checked at loading time stays true: the node of a
bound function never changes, and the contents of a variable always have its size. So the kernels
never refuse their operands, and a pass over functions that are all bound to built-in
implementations succeeds, whatever the regions hold. The one thing that can go wrong is that a
kernel breaks off, and it can only do so on a node whose products of dimensions leave the range of a
machine word.

## Main definitions

* `Invocation.Fits` — a call whose arguments have the sizes of the variables.
* `BoundNode.Reliable` — a bound node whose routine never fails on such calls.
* `BoundNode.Installed` — a bound node with the routine of a default installer.
* `Registry.Standard` — a registry of default installers, under whatever keys.

## Main results

* `Registry.Standard.installed` — what such a registry binds, a default installer installed.
* `Reference.exists_of_failure_run` — a run stops at a function whose routine fails.
* `Session.builtins_never_fail` — after loading, passes succeed.
-/

namespace Inference

variable {σ : Type}

/-! ## Views -/

/-- Four bytes for each value are read as that many values. -/
lemma Single.exists_ofBytes? {bytes : Bytes} {count : Nat} (h : bytes.length = count * 4) :
    ∃ values, Single.ofBytes? bytes = some values ∧ values.length = count := by
  induction count generalizing bytes with
  | zero =>
    obtain rfl := List.length_eq_zero_iff.mp (h.trans (Nat.zero_mul 4))
    exact ⟨[], rfl, rfl⟩
  | succ count ih =>
    match bytes, h with
    | b₀ :: b₁ :: b₂ :: b₃ :: rest, h =>
      have hrest : rest.length = count * 4 := by
        simp only [List.length_cons] at h
        omega
      obtain ⟨values, hvalues, hlength⟩ := ih hrest
      refine ⟨⟨UInt32.ofNat (Bytes.toNatLE [b₀, b₁, b₂, b₃])⟩ :: values, ?_, ?_⟩
      · rw [Single.ofBytes?, hvalues, Option.map_some]
      · rw [List.length_cons, hlength]
    | [], h | [_], h | [_, _], h | [_, _, _], h =>
      simp only [List.length_cons, List.length_nil] at h
      omega

/-- A call of a node in which every argument has as many bytes as its variable takes. -/
structure Invocation.Fits (call : Invocation) (node : Node) : Prop where
  node_eq : call.node = node
  inputs_eq : call.inputs.map List.length = node.inputs.map Variable.byteSize
  outputs_eq : call.outputs.map List.length = node.outputs.map Variable.byteSize

namespace Invocation

variable {call : Invocation} {node : Node}

/-- The bytes of a float variable can be viewed as as many values as it has elements. -/
lemma exists_view {v : Variable} {bytes : Bytes} (hfloat : v.elementType = .float)
    (hlength : bytes.length = v.byteSize) (operation : String) (side : Side) (index : Nat) :
    ∃ values, view operation side index v.elementType bytes = .ok values ∧
      values.length = v.elementCount := by
  rw [Variable.byteSize, Shape.byteSize, hfloat] at hlength
  obtain ⟨values, hvalues, hcount⟩ := Single.exists_ofBytes? hlength
  refine ⟨values, ?_, hcount⟩
  rw [view, if_neg (not_not.mpr hfloat), hvalues]

/-- The inputs of a call that fits can be viewed as values of the declared sizes. -/
lemma exists_inputSingles (h : call.Fits node)
    (hfloat : ∀ v ∈ node.inputs, v.elementType = .float) {i : Nat} {v : Variable}
    (hv : node.inputs[i]? = some v) :
    ∃ values, call.inputSingles i = .ok values ∧ values.length = v.elementCount := by
  have hlength := congrArg (fun lengths : List Nat => lengths[i]?) h.inputs_eq
  simp only [List.getElem?_map, hv, Option.map_some, Option.map_eq_some_iff] at hlength
  obtain ⟨bytes, hbytes, hlength⟩ := hlength
  obtain ⟨values, hvalues, hcount⟩ :=
    exists_view (hfloat v (List.mem_of_getElem? hv)) hlength "input_f32" .input i
  refine ⟨values, ?_, hcount⟩
  simp only [inputSingles, inputVariable, input, h.node_eq, hv, hbytes]
  exact hvalues

/-- The output of a call that fits can be viewed as values of the declared size. -/
lemma exists_outputSingles (h : call.Fits node) {v : Variable} (hfloat : v.elementType = .float)
    (hv : node.outputs = [v]) :
    ∃ values, call.outputSingles 0 = .ok values ∧ values.length = v.elementCount := by
  have hlength := h.outputs_eq
  rw [hv, List.map_cons, List.map_nil] at hlength
  obtain ⟨bytes, hbytes⟩ := List.length_eq_one_iff.mp
    (by simpa using congrArg List.length hlength : call.outputs.length = 1)
  rw [hbytes, List.map_cons, List.cons.injEq] at hlength
  obtain ⟨values, hvalues, hcount⟩ := exists_view hfloat hlength.1 "output_f32_mut" .output 0
  refine ⟨values, ?_, hcount⟩
  simp only [outputSingles, outputVariable, output, h.node_eq, hv, hbytes]
  exact hvalues

/-- A call that fits a node with one output has views of the declared sizes. -/
theorem exists_views (h : call.Fits node)
    (hfloat : ∀ v ∈ node.inputs ++ node.outputs, v.elementType = .float)
    (hone : node.outputs.length = 1) :
    ∃ inputs output, call.Views inputs output ∧ node.Declares inputs output := by
  have hinputs : ∀ v ∈ node.inputs, v.elementType = .float := fun v hv =>
    hfloat v (List.mem_append_left _ hv)
  obtain ⟨result, hresult⟩ := List.length_eq_one_iff.mp hone
  have hfloatResult : result.elementType = .float := by
    apply hfloat
    simp [hresult]
  obtain ⟨output, houtput, hsize⟩ := exists_outputSingles h hfloatResult hresult
  -- the views of the inputs, one for each position
  have hviews : ∀ i < node.inputs.length, ∃ values, call.inputSingles i = .ok values ∧
      (node.inputs[i]?.map Variable.elementCount) = some values.length := by
    intro i hi
    obtain ⟨values, hvalues, hcount⟩ :=
      exists_inputSingles h hinputs (List.getElem?_eq_getElem hi)
    exact ⟨values, hvalues, by rw [List.getElem?_eq_getElem hi, Option.map_some, hcount]⟩
  choose views hviews hcounts using hviews
  refine ⟨List.ofFn fun i : Fin node.inputs.length => views i i.isLt, output, ⟨?_, houtput⟩, ?_, ?_⟩
  · intro i values hi
    rw [List.getElem?_ofFn] at hi
    split at hi
    · next hlt =>
      obtain rfl := Option.some.inj hi
      exact hviews i hlt
    · cases hi
  · apply List.ext_getElem?
    intro i
    rw [List.getElem?_map, List.getElem?_map, List.getElem?_ofFn]
    split
    · next hlt => rw [hcounts i hlt, Option.map_some]
    · next hge => rw [List.getElem?_eq_none (Nat.not_lt.mp hge), Option.map_none, Option.map_none]
  · rw [hresult, hsize, List.map_cons, List.map_nil]

end Invocation

/-! ## Reliable functions -/

/-- The routine of a bound node never fails on calls whose arguments have the right sizes. It may
break off, but only on a node that is not in range. -/
def BoundNode.Reliable (function : BoundNode σ) : Prop :=
  ∀ (call : Invocation) (state : Option σ), call.Fits function.node →
    (function.binding.execute call state).result = .ok () ∨
      (function.binding.execute call state).result = .error .overrun ∧ ¬function.node.InRange

/-- A call of a node that a default installer took: the kernel takes the views of the arguments, and
the routine lays what the kernel leaves over the output. -/
theorem Builtin.Kind.exists_execution {kind : Kind} {node : Node} {slot : Slot σ}
    (hcounted : node.Counted) (haccepted : (kind.installer node slot).result = .ok ())
    (hfloat : ∀ v ∈ node.inputs ++ node.outputs, v.elementType = .float) {routine : Execute σ}
    (hroutine : (kind.installer node slot).slot.execute = some routine) {call : Invocation}
    (hfits : call.Fits node) :
    ∃ operation inputs output written, kind.operation node = .ok operation ∧
      call.Views inputs output ∧ node.Declares inputs output ∧
      operation inputs output = .ok written ∧
      ∀ state, (routine call state).result =
          (if written.complete then .ok () else .error .overrun) ∧
        (routine call state).outputs = (call.writeSingles 0 written.values).outputs := by
  have hrealizes := kind.realizes (σ := σ) node
  obtain ⟨⟨-, hone⟩, operation, hoperation, hadmits⟩ :=
    (hrealizes.accepts hcounted slot).mp haccepted
  obtain ⟨other, compute, hother, hcomputes, hslot⟩ := hrealizes.installs slot haccepted
  obtain rfl := Except.ok.inj (hother.symm.trans hoperation)
  rw [hslot] at hroutine
  obtain rfl : execute compute = routine := Option.some.inj hroutine
  obtain ⟨inputs, output, hviews, hdeclares⟩ := Invocation.exists_views hfits hfloat hone
  obtain ⟨written, hwritten⟩ := hadmits inputs output hdeclares
  have hcompute : compute call = .ok written := by
    rw [hcomputes call inputs output hviews hdeclares.length_eq, hwritten]
    rfl
  refine ⟨other, inputs, output, written, hother, hviews, hdeclares, hwritten, fun state => ?_⟩
  simp only [execute, hcompute, and_self]

/-- What a default installer installs never fails on a node of float variables. -/
theorem Builtin.Kind.result_execute {kind : Kind} {node : Node} {slot : Slot σ}
    (hcounted : node.Counted) (haccepted : (kind.installer node slot).result = .ok ())
    (hfloat : ∀ v ∈ node.inputs ++ node.outputs, v.elementType = .float) {routine : Execute σ}
    (hroutine : (kind.installer node slot).slot.execute = some routine) {call : Invocation}
    (hfits : call.Fits node) (state : Option σ) :
    (routine call state).result = .ok () ∨
      (routine call state).result = .error .overrun ∧ ¬node.InRange := by
  obtain ⟨operation, inputs, output, written, hoperation, -, hdeclares, hwritten, hexecutes⟩ :=
    kind.exists_execution hcounted haccepted hfloat hroutine hfits
  rw [(hexecutes state).1]
  cases hcomplete : written.complete with
  | true => exact .inl rfl
  | false =>
    refine .inr ⟨rfl, fun hrange => ?_⟩
    obtain ⟨harity, other, hother, hadmits⟩ :=
      ((kind.realizes node).accepts hcounted slot).mp haccepted
    obtain rfl := Except.ok.inj (hother.symm.trans hoperation)
    obtain ⟨values, hvalues⟩ :=
      (completes_iff hrange harity hother).mpr hadmits inputs output hdeclares
    obtain rfl := Except.ok.inj (hvalues.symm.trans hwritten)
    cases hcomplete

/-- A bound node that a default installer took, with the routine that it installed, on a node of
float variables whose element counts are words. -/
def BoundNode.Installed (function : BoundNode σ) : Prop :=
  ∃ (kind : Builtin.Kind) (slot : Slot σ), function.node.Counted ∧
    (kind.installer function.node slot).result = .ok () ∧
      (∀ v ∈ function.node.inputs ++ function.node.outputs, v.elementType = .float) ∧
      (kind.installer function.node slot).slot.execute = some function.binding.execute

/-- What a default installer installed is reliable. -/
lemma BoundNode.Installed.reliable {function : BoundNode σ} (h : function.Installed) :
    function.Reliable := by
  obtain ⟨kind, slot, hcounted, haccepted, hfloat, hexecute⟩ := h
  intro call state hfits
  exact kind.result_execute hcounted haccepted hfloat hexecute hfits state

/-! ## Standard registries -/

namespace Registry

/-- A registry of default installers, under whatever keys. -/
def Standard (registry : Registry σ) : Prop :=
  ∀ (op : Operator) (variant : UInt16) (installer : Installer σ),
    registry.registered? op variant = some installer →
      ∃ kind : Builtin.Kind, installer = kind.installer

/-- A registry without entries is standard. -/
lemma standard_empty : Standard (empty : Registry σ) := by
  intro op variant installer hentry
  cases hentry

/-- A standard registry stays so when a default installer is registered, under whatever key. -/
theorem Standard.register {registry : Registry σ} (h : registry.Standard) (op : Operator)
    (variant : UInt16) (kind : Builtin.Kind) :
    (registry.register op variant kind.installer).Standard := by
  intro other variant' installer hentry
  rw [registered?_register] at hentry
  split at hentry
  · exact ⟨kind, (Option.some.inj hentry).symm⟩
  · exact h other variant' installer hentry

/-- The registry of the built-in implementations is standard. -/
theorem standard_defaults : Standard (defaults : Registry σ) :=
  ((((((((((standard_empty.register .affine 0 .affine).register .relu 0 .relu).register
    .leakyRelu 0 .leakyRelu).register .sigmoid 0 .sigmoid).register .tanh 0 .tanh).register
    .softmax 0 .softmax).register .add2 0 .add2).register .sub2 0 .sub2).register
    .mul2 0 .mul2).register .addScalar 0 .addScalar).register .mulScalar 0 .mulScalar

/-- What a standard registry binds, a default installer installed. -/
theorem Standard.installed {dispatch : Dispatch σ} (h : dispatch.registry.Standard)
    {loading : Nat} {node : Node} (hcounted : node.Counted) {binding : Binding σ}
    (hresult : (dispatch.resolve loading node).result = .ok (.builtin, binding)) :
    BoundNode.Installed ⟨node, .builtin, binding⟩ := by
  have hbuiltin : dispatch.registry.Decides node (.ok (.builtin, binding)) := by
    have hdecides := Dispatch.decides_resolve dispatch loading node
    rw [hresult] at hdecides
    generalize (dispatch.resolve loading node).journal = journal at hdecides
    cases hdecides with
    | sentinel _ hbuiltin => exact hbuiltin
    | declined _ _ hbuiltin => exact hbuiltin
  cases hbuiltin with
  | @installed installer filled _ hentry hfloat hinstalled hslot hexecute =>
    subst hslot
    have hstandard : ∃ kind : Builtin.Kind, installer = kind.installer := by
      obtain hown | ⟨-, hzero⟩ := hentry
      · exact h _ _ _ hown
      · exact h _ _ _ hzero
    obtain ⟨kind, rfl⟩ := hstandard
    exact ⟨kind, .empty, hcounted, hinstalled, hfloat, hexecute⟩

end Registry

/-! ## Runs -/

namespace Reference

/-- A run stops at a function whose routine fails, on contents of the lengths that the run started
with.

**Proof sketch.** Induction on the functions: a function that succeeds stores what leaves the
lengths as they are. -/
theorem exists_of_failure_run {todo : List (Task σ)} {arrays : Arrays}
    {states : Nat → Option σ} {failure : Failure}
    (h : (run todo arrays states).failure = some failure) :
    ∃ task ∈ todo, ∃ (others : Arrays) (state : Option σ),
      (∀ i, (others i).length = (arrays i).length) ∧
        (task.execute (task.call others) state).result = .error failure.fault ∧
        failure.function = task.entry.index ∧ failure.op = task.entry.op := by
  induction todo generalizing arrays states with
  | nil => cases h
  | cons task todo ih =>
    cases hresult : (task.execute (task.call arrays) (states task.entry.index)).result with
    | error fault =>
      rw [run_cons_error rfl hresult] at h
      obtain rfl := Option.some.inj h
      exact ⟨task, List.mem_cons_self, arrays, _, fun _ => rfl, hresult, rfl, rfl⟩
    | ok _ =>
      obtain ⟨later, hlater, hrun⟩ := run_cons_ok rfl hresult todo
      rw [hrun, hlater] at h
      obtain ⟨found, hfound, others, state, hlengths, hfailed⟩ := ih h
      refine ⟨found, List.mem_cons_of_mem _ hfound, others, state, fun i => ?_, hfailed⟩
      rw [hlengths i, length_store]

end Reference

/-! ## Bound networks -/

/-- A variable that is selected is one of the table. -/
lemma Network.mem_of_mem_select {network : Network} {indices : List Nat} {v : Variable}
    (h : v ∈ network.select indices) : v ∈ network.variableTable := by
  obtain ⟨i, -, hi⟩ := List.mem_filterMap.mp h
  exact List.mem_of_getElem? hi

/-- The arguments of a node are variables of the network. -/
lemma Network.mem_variableTable_of_mem_nodes {network : Network} {node : Node}
    (hnode : node ∈ network.nodes) {v : Variable} (hv : v ∈ node.inputs ++ node.outputs) :
    v ∈ network.variableTable := by
  obtain ⟨entry, -, rfl⟩ := List.mem_map.mp hnode
  obtain hinput | houtput := List.mem_append.mp hv
  · exact mem_of_mem_select hinput
  · exact mem_of_mem_select houtput

/-- The element counts of the arguments of a node are words if the network was read. -/
lemma Network.counted_of_decode {bytes : Bytes} {network : Network}
    (h : Network.decode bytes = .ok network) {node : Node} (hnode : node ∈ network.nodes) :
    node.Counted := by
  intro v hv
  have hsize := byteSize_lt h (mem_variableTable_of_mem_nodes hnode hv)
  have hcount : v.elementCount ≤ v.byteSize := by
    have htype : 1 ≤ v.elementType.byteSize := by cases v.elementType <;> decide
    exact Nat.le_mul_of_pos_right _ htype
  rw [wordLimit]
  omega

namespace Bound

variable {bound : Bound σ} {network : Network}

/-- A bound network whose functions are reliable. -/
def Reliable (bound : Bound σ) : Prop :=
  ∀ function ∈ bound.functions, function.Reliable

/-- The region of a variable has its size. -/
lemma Serves.length_arrays (h : bound.Serves network) (hconsistent : network.Consistent)
    {v : Variable} (hv : v ∈ network.variableTable) :
    (bound.arrays v.index).length = v.byteSize := by
  obtain ⟨i, hi⟩ := List.getElem?_of_mem hv
  obtain rfl := hconsistent.variable_index i v hi
  have hspan := congrArg (fun sizes : List Nat => sizes[v.index]?) h.sizes_eq
  simp only [List.getElem?_map, hi, Option.map_some, Option.map_eq_some_iff] at hspan
  obtain ⟨span, hspan, hlength⟩ := hspan
  rw [arrays, Arena.region?, hspan, Option.map_some, Option.getD_some,
    Bytes.length_slice (h.tiled.getElem?_le hspan).2.2, hlength]

/-- A bound network with other contents of its store. -/
def withStore (bound : Bound σ) (store : Bytes) : Bound σ :=
  { bound with arena := { bound.arena with store := store } }

/-- A bound network serves its network with any other contents of the store. -/
lemma Serves.withStore (h : bound.Serves network) {store : Bytes}
    (hlength : store.length = bound.arena.store.length) :
    (bound.withStore store).Serves network where
  inputs_eq := h.inputs_eq
  outputs_eq := h.outputs_eq
  nodes_eq := h.nodes_eq
  tiled := by
    rw [Bound.withStore, Arena.Tiled, hlength]
    exact h.tiled
  sizes_eq := h.sizes_eq

/-- The arguments of the calls of a function have the sizes of its variables, whatever the regions
hold. -/
lemma Serves.fits_call (h : bound.Serves network) (hconsistent : network.Consistent)
    {entry : FunctionEntry} {function : BoundNode σ}
    (hconforms : Conforms bound.arena.split.length entry function)
    (hfunction : function ∈ bound.functions) {arrays : Arrays}
    (hlengths : ∀ i, (arrays i).length = (bound.arrays i).length) :
    (Reference.Task.call ⟨entry, function.node, function.binding.execute⟩ arrays).Fits
      function.node := by
  have hnode : function.node ∈ network.nodes := h.nodes_eq ▸ List.mem_map_of_mem hfunction
  obtain ⟨other, -, hother⟩ := List.mem_map.mp hnode
  have hsizes {vs : List Variable} (hvs : ∀ v ∈ vs, v ∈ network.variableTable) :
      ((vs.map Variable.index).map arrays).map List.length = vs.map Variable.byteSize := by
    rw [List.map_map, List.map_map]
    apply List.map_congr_left
    intro v hv
    exact (hlengths v.index).trans (h.length_arrays hconsistent (hvs v hv))
  refine ⟨rfl, ?_, ?_⟩
  · rw [Reference.Task.call, ← hconforms.inputs_eq]
    apply hsizes
    intro v hv
    rw [← hother] at hv
    exact Network.mem_of_mem_select hv
  · rw [Reference.Task.call, ← hconforms.outputs_eq]
    apply hsizes
    intro v hv
    rw [← hother] at hv
    exact Network.mem_of_mem_select hv

/-- A pass over reliable functions does not fail, but may stop where a kernel breaks off on a node
that is not in range. -/
theorem Serves.failure_walk (h : bound.Serves network) (hconsistent : network.Consistent)
    (hreliable : bound.Reliable) {failure : Failure}
    (hfailure : bound.walk.failure = some failure) :
    ∃ function ∈ bound.functions, ¬function.node.InRange ∧
      failure = ⟨function.node.index, function.node.op, .overrun⟩ := by
  rw [(h.walk_refines hconsistent).failure_eq] at hfailure
  obtain ⟨task, htask, others, state, hlengths, hresult, hindex, hop⟩ :=
    Reference.exists_of_failure_run hfailure
  obtain ⟨⟨entry, function⟩, hmem, rfl⟩ := List.mem_map.mp htask
  have hconforms := List.forall₂_zip (h.conforms hconsistent) hmem
  have hfunction := (List.of_mem_zip hmem).2
  have hfits := h.fits_call hconsistent hconforms hfunction hlengths
  have hreliable := hreliable function hfunction _ state hfits
  dsimp only at hresult
  rw [hresult] at hreliable
  obtain hok | ⟨hoverrun, hrange⟩ := hreliable
  · cases hok
  · refine ⟨function, hfunction, hrange, ?_⟩
    obtain ⟨number, op, fault⟩ := failure
    simp only at hindex hop hoverrun
    rw [hindex, hop, Except.error.inj hoverrun, hconforms.index_eq, hconforms.op_eq]

/-- What holds of the functions of a bound network whatever their private states are, holds of them
after a pass. -/
lemma Serves.forall_functions_walk (h : bound.Serves network) (hconsistent : network.Consistent)
    {P : BoundNode σ → Prop} (hstates : ∀ function state, P function → P (function.withState state))
    (hfunctions : ∀ function ∈ bound.functions, P function) :
    ∀ function ∈ (bound.after bound.walk).functions, P function := by
  intro function hfunction
  rw [Bound.after, (h.walk_refines hconsistent).functions_eq] at hfunction
  obtain ⟨before, hbefore, rfl⟩ := List.mem_map.mp hfunction
  exact hstates before _ (hfunctions before hbefore)

end Bound

/-! ## Sessions -/

namespace Session

variable {session : Session σ} {network : Network}

/-- A session with another network in place of the one that it holds. -/
def holding (session : Session σ) (bound : Bound σ) : Session σ :=
  { session with held := some bound }

/-- What holds of the functions of a session whatever their private states are, is kept by every
effect. -/
lemma forall_functions_effect {P : BoundNode σ → Prop}
    (hstates : ∀ function state, P function → P (function.withState state))
    (h : session.Serves network) (hconsistent : network.Consistent)
    (hfunctions : ∀ bound, session.ready? = some bound → ∀ function ∈ bound.functions, P function)
    {next : Session σ} {journal : List (Event σ)} (heffect : Effect session next journal) :
    ∀ bound, next.ready? = some bound → ∀ function ∈ bound.functions, P function := by
  cases heffect with
  | unchanged => exact hfunctions
  | registered op resolver hstage => exact absurd hstage h.not_configuring
  | undone => exact hfunctions
  | loaded loading descriptor network budget arena hstage =>
    exact absurd hstage h.not_configuring
  | passed bound readings hheld =>
    intro after hafter
    obtain rfl := Option.some.inj ((ready?_holding hheld _ _).symm.trans hafter)
    exact (h.ready bound hheld).forall_functions_walk hconsistent hstates (hfunctions bound hheld)
  | written bound v offset bytes hheld =>
    intro after hafter
    obtain rfl := Option.some.inj ((ready?_holding hheld _ _).symm.trans hafter)
    exact hfunctions bound hheld
  | freed => simp [ready?]

/-- What holds of the functions of a session whatever their private states are, holds of them
whatever the host does. -/
theorem forall_functions_after {P : BoundNode σ → Prop}
    (hstates : ∀ function state, P function → P (function.withState state))
    (h : session.Serves network) (hconsistent : network.Consistent)
    (hfunctions : ∀ bound, session.ready? = some bound → ∀ function ∈ bound.functions, P function)
    (actions : List (Action σ)) :
    ∀ bound, (session.after actions).ready? = some bound →
      ∀ function ∈ bound.functions, P function := by
  induction actions generalizing session with
  | nil => exact hfunctions
  | cons action actions ih =>
    have heffect := session.effect_perform action
    exact ih (h.effect hconsistent heffect)
      (forall_functions_effect hstates h hconsistent hfunctions heffect)

/-- If a standard registry bound all functions of a network, default installers installed them, and
the functions stay such, whatever the host does. -/
theorem installed_after {loading : Nat} {descriptor : Bytes} {first : Bound σ}
    (hstandard : session.dispatch.registry.Standard)
    (hload : (session.load loading descriptor).result = .ok ())
    (hfirst : (session.load loading descriptor).session.ready? = some first)
    (hbuiltin : ∀ function ∈ first.functions, function.source = .builtin)
    (actions : List (Action σ)) {bound : Bound σ}
    (hready : ((session.load loading descriptor).session.after actions).ready? = some bound) :
    ∀ function ∈ bound.functions, function.Installed := by
  obtain ⟨network, served, hdecode, hserved, hserves⟩ := ready_of_load hload
  obtain rfl := Option.some.inj (hserved.symm.trans hfirst)
  have hstates (function : BoundNode σ) (state : Option σ) (h : function.Installed) :
      (function.withState state).Installed := h
  apply forall_functions_after hstates (serves_of_ready hserved hserves)
    (Network.consistent_of_decode hdecode) _ actions bound hready
  intro other hother function hfunction
  obtain rfl := Option.some.inj (hother.symm.trans hfirst)
  obtain ⟨_, fresh, -, hfresh, hbound⟩ := fresh_of_load hload
  obtain rfl := Option.some.inj (hfresh.symm.trans hfirst)
  have hnode : function.node ∈ network.nodes := hserves.nodes_eq ▸ List.mem_map_of_mem hfunction
  have hresult := Dispatch.resolve_of_binds hbound.functions function hfunction
  rw [hbuiltin function hfunction] at hresult
  exact Registry.Standard.installed hstandard (Network.counted_of_decode hdecode hnode) hresult

/-- **Built-in implementations**: a default installer takes a node whose products of dimensions are
exact in machine words exactly when the node has the right number of arguments, its parameters can
be decoded, and the kernel takes all values of the declared sizes and runs to its end on them. So,
whatever descriptor is loaded, if a registry of default installers bound all its functions, no pass
fails, whatever the host does and whatever the regions hold. If some products of dimensions wrap, a
kernel may break off, at a node of which this is true; nothing else can go wrong.

**Proof sketch.** The first part is `Builtin.Kind.realizes` with `Builtin.Kind.completes_iff`. The
arguments of a call always have the sizes of the variables (`Bound.Serves.fits_call`), so they can
be viewed as values of the declared sizes, which the kernel takes; and a pass only changes the
private states of functions (`installed_after`). -/
theorem builtins_never_fail :
    (∀ (kind : Builtin.Kind) (node : Node) (slot : Slot σ), node.InRange →
      ((kind.installer node slot).result = .ok () ↔
        kind.Arity node ∧
          ∃ operation, kind.operation node = .ok operation ∧ node.Completes operation)) ∧
    ∀ (session : Session σ) (loading : Nat) (descriptor : Bytes) (first : Bound σ),
      session.dispatch.registry.Standard →
      (session.load loading descriptor).result = .ok () →
      (session.load loading descriptor).session.ready? = some first →
      (∀ function ∈ first.functions, function.source = .builtin) →
      ∀ (actions : List (Action σ)) (bound : Bound σ),
        ((session.load loading descriptor).session.after actions).ready? = some bound →
        ∀ (store : Bytes) (readings : Nat → Nat), store.length = bound.arena.store.length →
          let current := ((session.load loading descriptor).session.after actions).holding
            (bound.withStore store)
          ((∀ function ∈ bound.functions, function.node.InRange) →
            (current.forward tick readings).1.result = .ok ()) ∧
          ∀ fault, (current.forward tick readings).1.result = .error fault →
            ∃ function ∈ bound.functions, ¬function.node.InRange ∧
              fault = .failed ⟨function.node.index, function.node.op, .overrun⟩ := by
  constructor
  · intro kind node slot hrange
    rw [(kind.realizes node).accepts hrange.counted slot]
    constructor
    · rintro ⟨harity, operation, hoperation, hadmits⟩
      exact ⟨harity, operation, hoperation,
        (Builtin.Kind.completes_iff hrange harity hoperation).mpr hadmits⟩
    · rintro ⟨harity, operation, hoperation, hcompletes⟩
      exact ⟨harity, operation, hoperation,
        (Builtin.Kind.completes_iff hrange harity hoperation).mp hcompletes⟩
  intro session loading descriptor first hstandard hload hfirst hbuiltin actions bound hready store
    readings hlength current
  obtain ⟨network, other, hdecode, hother, hserves⟩ := ready_of_load hload
  obtain rfl := Option.some.inj (hother.symm.trans hfirst)
  have hconsistent := Network.consistent_of_decode hdecode
  have hreliable : bound.Reliable := fun function hfunction =>
    (installed_after hstandard hload hfirst hbuiltin actions hready function hfunction).reliable
  have hbound := (serves_after (serves_of_ready hfirst hserves) hconsistent actions).ready bound
    hready
  have hserved : (bound.withStore store).Serves network := hbound.withStore hlength
  have hcurrent : current.ready? = some (bound.withStore store) := ready?_holding hready _ _
  have hresult : (current.forward tick readings).1.result =
      passResult (bound.withStore store).walk.failure := by
    rw [forward_of_ready hcurrent]
  have hfault : ∀ fault, (current.forward tick readings).1.result = .error fault →
      ∃ function ∈ bound.functions, ¬function.node.InRange ∧
        fault = .failed ⟨function.node.index, function.node.op, .overrun⟩ := by
    intro fault hfault
    rw [hresult] at hfault
    cases hfailure : (bound.withStore store).walk.failure with
    | none =>
      rw [hfailure] at hfault
      cases hfault
    | some failure =>
      rw [hfailure, passResult, Except.error.injEq] at hfault
      obtain ⟨function, hfunction, hrange, rfl⟩ :=
        hserved.failure_walk hconsistent hreliable hfailure
      exact ⟨function, hfunction, hrange, hfault.symm⟩
  refine ⟨fun hrange => ?_, hfault⟩
  cases hpass : (current.forward tick readings).1.result with
  | ok _ => rfl
  | error fault =>
    obtain ⟨function, hfunction, hout, -⟩ := hfault fault hpass
    exact absurd (hrange function hfunction) hout

/-- A session that is ready is ready after a pass. -/
lemma ready_after_forward {bound : Bound σ} (h : session.ready? = some bound)
    (readings : Nat → Nat) :
    (session.after [.forward readings]).ready? = some (bound.after bound.walk) := by
  simp only [after, perform, forward_of_ready h, replied]
  exact ready?_holding h _ _

/-- Two activations in a row, over variables of four values. -/
def activations : Draft where
  buffers := [4, 4, 4]
  variableTable :=
    [{ id := 0, dims := [2, 2], elementType := .float, backing := .buffer 0 },
     { id := 1, dims := [4], elementType := .float, backing := .buffer 1 },
     { id := 2, dims := [4], elementType := .float, backing := .buffer 2 }]
  functions :=
    [{ op := .leakyRelu, inputs := [0], outputs := [1] },
     { op := .softmax, inputs := [1], outputs := [2] }]
  inputs := [0]
  outputs := [2]

/-- The implementations that the functions of a session are bound to. -/
def sources (session : Session σ) : List Source :=
  match session.ready? with
  | some bound => bound.functions.map BoundNode.source
  | none => []

/-- The implementation of a function of a session that is ready is one of them. -/
lemma source_mem_sources {bound : Bound σ} (h : session.ready? = some bound)
    {function : BoundNode σ} (hfunction : function ∈ bound.functions) :
    function.source ∈ session.sources := by
  rw [sources, h]
  exact List.mem_map_of_mem hfunction

/-- The nodes of the activations are in range, so a default installer that takes them installs a
kernel that runs to its end. They are bound to built-in implementations, and a second pass over any
contents succeeds. -/
theorem forward_activations :
    (∀ node ∈ (Format.network activations.encode).nodes, node.InRange ∧
      ∃ operation, Builtin.Kind.softmax.operation node = .ok operation ∧
        node.Completes operation) ∧
    let start : Session Nat := ((Session.new {} .defaults).load 0 activations.encode).session
    ∃ bound, (start.after [.forward id]).ready? = some bound ∧
      ∀ (store : Bytes) (readings : Nat → Nat), store.length = bound.arena.store.length →
        (((start.after [.forward id]).holding (bound.withStore store)).forward tick
          readings).1.result = .ok () := by
  have hsizes : ∀ node ∈ (Format.network activations.encode).nodes,
      ∀ v ∈ node.inputs ++ node.outputs, 0 ∉ v.shape.dims ∧ v.elementCount < 0x100000000 := by
    decide +kernel
  have hrange : ∀ node ∈ (Format.network activations.encode).nodes, node.InRange :=
    fun node hnode => Node.inRange_of_lt (fun v hv => (hsizes node hnode v hv).1)
      fun v hv => (hsizes node hnode v hv).2
  have haccepted : ∀ node ∈ (Format.network activations.encode).nodes,
      (Builtin.Kind.softmax.installer (σ := Nat) node .empty).result = .ok () := by
    decide +kernel
  refine ⟨fun node hnode => ⟨hrange node hnode, ?_⟩, ?_⟩
  · exact ((builtins_never_fail.1 _ node .empty (hrange node hnode)).mp
      (haccepted node hnode)).2
  have hload : ((Session.new {} .defaults : Session Nat).load 0 activations.encode).result =
      .ok () := by decide +kernel
  have hsources : ((Session.new {} .defaults : Session Nat).load 0
      activations.encode).session.sources = [.builtin, .builtin] := by decide +kernel
  obtain ⟨network, first, hdecode, hfirst, hserves⟩ := ready_of_load hload
  have hbuiltin : ∀ function ∈ first.functions, function.source = .builtin := by
    intro function hfunction
    have hmem := source_mem_sources hfirst hfunction
    rw [hsources] at hmem
    simpa using hmem
  have hready := ready_after_forward hfirst id
  have hafter := hserves.after_walk (Network.consistent_of_decode hdecode)
  have hfunctions : ∀ function ∈ (first.after first.walk).functions, function.node.InRange := by
    intro function hfunction
    have hnode : function.node ∈ network.nodes := hafter.nodes_eq ▸ List.mem_map_of_mem hfunction
    rw [(Network.decode_eq_ok_iff.mp hdecode).2] at hnode
    exact hrange function.node hnode
  have hstandard : (Session.new {} .defaults : Session Nat).dispatch.registry.Standard :=
    Registry.standard_defaults
  refine ⟨first.after first.walk, hready, fun store readings hlength => ?_⟩
  have hpasses := builtins_never_fail.2 _ 0 activations.encode first hstandard hload hfirst
    hbuiltin [.forward id] (first.after first.walk) hready store readings hlength
  exact hpasses.1 hfunctions

end Session

end Inference
