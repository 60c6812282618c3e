import Inference.Proofs.Builtin.Soundness
import Inference.Proofs.Engine.FeedForward
import Inference.Proofs.Kernel.Overwriting

set_option autoImplicit false
set_option relaxedAutoImplicit false

/-!
# Built-in implementations forget old outputs

The routine of a built-in implementation lays the values of its kernel over the whole of its output,
and these values are determined by its inputs. So in a feed-forward network whose functions are all
bound to built-in implementations, a pass forgets what stood in the outputs before: whatever an
earlier pass, or the host, left there cannot influence any result. If a kernel breaks off, it does
so whatever stood there.

## Main definitions

* `BoundNode.Overwrites` — a bound node whose routine replaces its outputs.
* `Network.lengths` — the length of the contents of each variable.
* `Bound.routines` — the functions of a bound network, private states apart.
* `Session.PassesTo` — a pass, its result and the bound network that it leaves.

## Main results

* `Builtin.Kind.overwrites` — the kernel of every kind replaces its output.
* `BoundNode.Installed.overwrites` — what a default installer installed replaces its outputs.
* `Bound.Serves.walk_forgets` — two passes over contents that agree off the outputs end alike.
* `Session.forward_forgets` — the same for sessions, and a second pass changes nothing.
-/

namespace Inference

variable {σ : Type}

/-! ## Routines -/

/-- The kernel of a kind replaces its output, whatever the inputs are. -/
theorem Builtin.Kind.overwrites {kind : Kind} {node : Node} {operation : ArgumentKernel}
    (h : kind.operation node = .ok operation) (inputs : List (List Single)) :
    Kernel.Overwrites (operation inputs) := by
  cases kind with
  | affine =>
    obtain ⟨axis, -, rfl⟩ := map_eq_ok_iff.mp h
    exact Kernel.overwrites_affine _ _ _ _ _ _
  | softmax =>
    obtain ⟨axis, -, rfl⟩ := map_eq_ok_iff.mp h
    exact Kernel.overwrites_softmax _ _ _
  | relu | sigmoid | tanh =>
    cases h
    exact Kernel.overwrites_unary _ _ _
  | leakyRelu | addScalar | mulScalar =>
    obtain ⟨setting, -, rfl⟩ := map_eq_ok_iff.mp h
    exact Kernel.overwrites_unary _ _ _
  | add2 | sub2 | mul2 =>
    cases h
    exact Kernel.overwrites_binary _ _ _ _

/-- Values take four bytes each. -/
lemma Single.length_bytesOf (values : List Single) :
    (Single.bytesOf values).length = values.length * 4 := by
  induction values with
  | nil => rfl
  | cons value values ih =>
    rw [Single.bytesOf, List.flatMap_cons, List.length_append, ← Single.bytesOf, ih, Single.bytes,
      Bytes.length_ofNatLE, List.length_cons]
    omega

/-- Two calls of one node with the same inputs have the same views of the inputs. -/
lemma Invocation.Views.inputs_eq {call other : Invocation} {inputs inputs' : List (List Single)}
    {output output' : List Single} (h : call.Views inputs output)
    (hother : other.Views inputs' output') (hnode : call.node = other.node)
    (hinputs : call.inputs = other.inputs) (hlength : inputs.length = inputs'.length) :
    inputs = inputs' := by
  apply List.ext_getElem hlength
  intro i hi hi'
  have hview := h.input i _ (List.getElem?_eq_getElem hi)
  have hview' := hother.input i _ (List.getElem?_eq_getElem hi')
  have hsame : call.inputSingles i = other.inputSingles i := by
    simp only [Invocation.inputSingles, Invocation.inputVariable, Invocation.input, hnode, hinputs]
  rw [hsame, hview'] at hview
  exact (Except.ok.inj hview).symm

/-- Values that take as many bytes as the only output replace it. -/
lemma Invocation.outputs_writeSingles {call : Invocation} {values : List Single}
    (hlength : call.outputs.map List.length = [(Single.bytesOf values).length]) :
    (call.writeSingles 0 values).outputs = [Single.bytesOf values] := by
  obtain ⟨old, hold⟩ := List.length_eq_one_iff.mp
    (by simpa using congrArg List.length hlength : call.outputs.length = 1)
  rw [hold, List.map_cons, List.map_nil, List.cons.injEq] at hlength
  have hreplaced : Bytes.overwrite old (Single.bytesOf values) = Single.bytesOf values :=
    Bytes.overwrite_of_length_eq hlength.1.symm
  simp only [writeSingles, writeOutput, hold]
  exact congrArg (fun bytes => [bytes]) hreplaced

/-- On calls whose arguments have the right sizes, whether the routine of a bound node succeeds is
determined by its inputs alone, and if it does, it replaces the whole of its outputs by what its
inputs determine. -/
structure BoundNode.Overwrites (function : BoundNode σ) : Prop where
  fills : ∀ (call : Invocation) (state : Option σ), call.Fits function.node →
    (function.binding.execute call state).outputs.map List.length =
      function.node.outputs.map Variable.byteSize
  result_eq : ∀ (call other : Invocation) (state state' : Option σ), call.Fits function.node →
    other.Fits function.node → call.inputs = other.inputs →
      (function.binding.execute call state).result =
        (function.binding.execute other state').result
  ignores : ∀ (call other : Invocation) (state state' : Option σ), call.Fits function.node →
    other.Fits function.node → call.inputs = other.inputs →
      (function.binding.execute call state).result = .ok () →
        (function.binding.execute call state).outputs =
          (function.binding.execute other state').outputs

/-- What a kernel leaves takes as many bytes as the only output. -/
lemma Builtin.Kind.length_written {kind : Kind} {node : Node} {operation : ArgumentKernel}
    (hoperation : kind.operation node = .ok operation) (hone : node.outputs.length = 1)
    (hfloat : ∀ v ∈ node.inputs ++ node.outputs, v.elementType = .float)
    {inputs : List (List Single)} {output : List Single} (hdeclares : node.Declares inputs output)
    {written : Kernel.Written Single} (hwritten : operation inputs output = .ok written) :
    [(Single.bytesOf written.values).length] = node.outputs.map Variable.byteSize := by
  obtain ⟨result, hresult⟩ := List.length_eq_one_iff.mp hone
  have htype : result.elementType = .float := by
    apply hfloat
    simp [hresult]
  have hcount := ((kind.overwrites hoperation inputs).fills _ _ hwritten).trans
    (hdeclares.length_output hresult)
  rw [Single.length_bytesOf, hcount, hresult, List.map_cons, List.map_nil, Variable.byteSize,
    Shape.byteSize, htype]
  rfl

/-- What a default installer installed replaces its outputs.

**Proof sketch.** A call is one of the kernel on the views of its arguments. Two calls with the same
inputs have the same views of them, and both old outputs have the declared size, so the kernel does
not tell them apart, unless it breaks off on both. -/
theorem BoundNode.Installed.overwrites {function : BoundNode σ} (h : function.Installed) :
    function.Overwrites := by
  obtain ⟨kind, slot, hcounted, haccepted, hfloat, hexecute⟩ := h
  have hone : function.node.outputs.length = 1 :=
    (((kind.realizes function.node).accepts hcounted slot).mp haccepted).1.2
  obtain ⟨result, hresult⟩ := List.length_eq_one_iff.mp hone
  -- what the routine does on two calls with the same inputs
  have hboth (call other : Invocation) (state state' : Option σ) (hcall : call.Fits function.node)
      (hother : other.Fits function.node) (hinputs : call.inputs = other.inputs) :
      (function.binding.execute call state).result =
          (function.binding.execute other state').result ∧
        ((function.binding.execute call state).result = .ok () →
          (function.binding.execute call state).outputs =
            (function.binding.execute other state').outputs) ∧
        (function.binding.execute call state).outputs.map List.length =
          function.node.outputs.map Variable.byteSize := by
    obtain ⟨operation, inputs, output, written, hoperation, hviews, hdeclares, hwritten,
      hexecutes⟩ := kind.exists_execution hcounted haccepted hfloat hexecute hcall
    obtain ⟨again, inputs', output', changed, hagain, hviews', hdeclares', hchanged, hexecutes'⟩ :=
      kind.exists_execution hcounted haccepted hfloat hexecute hother
    obtain rfl : operation = again := Except.ok.inj (hoperation.symm.trans hagain)
    obtain rfl : inputs = inputs' :=
      hviews.inputs_eq hviews' (hcall.node_eq.trans hother.node_eq.symm) hinputs
        (hdeclares.length_eq.trans hdeclares'.length_eq.symm)
    have hsize := kind.length_written hoperation hone hfloat hdeclares hwritten
    have hsize' := kind.length_written hoperation hone hfloat hdeclares' hchanged
    have houtputs := Invocation.outputs_writeSingles (hcall.outputs_eq.trans hsize.symm)
    have houtputs' := Invocation.outputs_writeSingles (hother.outputs_eq.trans hsize'.symm)
    rw [(hexecutes state).1, (hexecutes state).2, (hexecutes' state').1, (hexecutes' state').2,
      houtputs, houtputs']
    have hlengths : output.length = output'.length :=
      (hdeclares.length_output hresult).trans (hdeclares'.length_output hresult).symm
    obtain hsame | ⟨part, part', hpart, hpart', hbroken, hbroken'⟩ :=
      (kind.overwrites hoperation inputs).ignores _ _ hlengths
    · obtain rfl : written = changed :=
        Except.ok.inj (hwritten.symm.trans (hsame.trans hchanged))
      exact ⟨rfl, fun _ => rfl, hsize⟩
    · obtain rfl := Except.ok.inj (hpart.symm.trans hwritten)
      obtain rfl := Except.ok.inj (hpart'.symm.trans hchanged)
      rw [hbroken, hbroken']
      exact ⟨rfl, by simp, hsize⟩
  exact
    { fills := fun call state hcall => (hboth call call state state hcall hcall rfl).2.2
      result_eq := fun call other state state' hcall hother hinputs =>
        (hboth call other state state' hcall hother hinputs).1
      ignores := fun call other state state' hcall hother hinputs =>
        (hboth call other state state' hcall hother hinputs).2.1 }

/-! ## Bound networks -/

/-- The length of the contents of each variable. -/
def Network.lengths (network : Network) : Nat → Nat := fun i =>
  (network.variableTable[i]?.map Variable.byteSize).getD 0

namespace Bound

/-- The functions of a bound network, private states apart. -/
def routines (bound : Bound σ) : List (Node × Execute σ) :=
  bound.functions.map fun function => (function.node, function.binding.execute)

namespace Serves

variable {bound left right : Bound σ} {network : Network}

/-- The regions have the lengths of the variables. -/
lemma sized (h : bound.Serves network) (hconsistent : network.Consistent) :
    Reference.Sized network.lengths bound.arrays := by
  intro i
  rcases Nat.lt_or_ge i network.variableTable.length with hi | hi
  · have hv := List.getElem?_eq_getElem hi
    have hlength := h.length_arrays hconsistent (List.getElem_mem hi)
    rw [hconsistent.variable_index i _ hv] at hlength
    rw [hlength, Network.lengths, hv, Option.map_some, Option.getD_some]
  · have hnone : bound.arena.split[i]? = none :=
      List.getElem?_eq_none (by rwa [h.length_split])
    rw [← h.arrays_split, Contents.arrays, hnone, Network.lengths, List.getElem?_eq_none hi]
    rfl

/-- There is a region for each variable, and it holds the contents of the variable. -/
lemma region?_eq (h : bound.Serves network) (i : Nat) :
    bound.arena.region? i =
      if i < network.variableTable.length then some (bound.arrays i) else none := by
  rw [← Arena.getElem?_split h.tiled, ← h.arrays_split, Contents.arrays, ← h.length_split]
  split
  · next hi => rw [List.getElem?_eq_getElem hi, Option.getD_some]
  · next hi => exact List.getElem?_eq_none (Nat.not_lt.mp hi)

/-- The tasks of a network only depend on its routines. -/
lemma tasks_eq (entries : List FunctionEntry) (hroutines : left.routines = right.routines) :
    Reference.tasks entries left.functions = Reference.tasks entries right.functions := by
  have htasks (functions : List (BoundNode σ)) : Reference.tasks entries functions =
      (entries.zip (functions.map fun function => (function.node, function.binding.execute))).map
        fun task => ⟨task.1, task.2.1, task.2.2⟩ := by
    rw [List.zip_map_right, List.map_map]
    rfl
  rw [htasks, htasks, ← routines, ← routines, hroutines]

/-- Functions that default installers installed replace their outputs, in every run over contents of
the right lengths. -/
theorem overwrites_tasks (h : bound.Serves network) (hconsistent : network.Consistent)
    (hinstalled : ∀ function ∈ bound.functions, function.Installed) :
    ∀ task ∈ Reference.tasks network.functions bound.functions,
      task.Overwrites network.lengths := by
  intro task htask
  obtain ⟨⟨entry, function⟩, hmem, rfl⟩ := List.mem_map.mp htask
  have hconforms := List.forall₂_zip (h.conforms hconsistent) hmem
  have hfunction := (List.of_mem_zip hmem).2
  have hfits (arrays : Arrays) (harrays : Reference.Sized network.lengths arrays) :=
    h.fits_call hconsistent hconforms hfunction fun i =>
      (harrays i).trans (h.sized hconsistent i).symm
  have hoverwrites := (hinstalled function hfunction).overwrites
  refine ⟨?_, ?_, ?_⟩
  · intro arrays state harrays
    refine (hoverwrites.fills _ state (hfits arrays harrays)).trans ?_
    rw [← (hfits arrays harrays).outputs_eq, Reference.Task.call, List.map_map]
    exact List.map_congr_left fun i _ => harrays i
  · intro left right state state' hleft hright hagree
    exact hoverwrites.result_eq _ _ state state' (hfits left hleft) (hfits right hright)
      (List.map_congr_left hagree)
  · intro left right state state' hleft hright hagree
    exact hoverwrites.ignores _ _ state state' (hfits left hleft) (hfits right hright)
      (List.map_congr_left hagree)

/-- The regions after a pass hold what the reference interpreter leaves. -/
lemma arrays_after (h : bound.Serves network) (hconsistent : network.Consistent) :
    (bound.after bound.walk).arrays =
      (Reference.run (Reference.tasks network.functions bound.functions) bound.arrays
        bound.states).arrays := by
  rw [← (h.after_walk hconsistent).arrays_split, h.split_after hconsistent,
    (h.walk_refines hconsistent).arrays_eq]

/-- A pass does not change the region of a variable that no function writes. -/
lemma region?_after_of_not_mem (h : bound.Serves network) (hconsistent : network.Consistent)
    {i : Nat} (hi : ∀ entry ∈ network.functions, i ∉ entry.outputs) :
    (bound.after bound.walk).arena.region? i = bound.arena.region? i := by
  rw [(h.after_walk hconsistent).region?_eq, h.region?_eq, h.arrays_after hconsistent]
  have hkept : (Reference.run (Reference.tasks network.functions bound.functions) bound.arrays
      bound.states).arrays i = bound.arrays i := by
    apply Reference.arrays_of_not_mem_outputs
    intro task htask _
    obtain ⟨⟨entry, function⟩, hmem, rfl⟩ := List.mem_map.mp htask
    exact hi entry (List.of_mem_zip hmem).1
  rw [hkept]

/-- A pass keeps the routines. -/
lemma routines_after (h : bound.Serves network) (hconsistent : network.Consistent) :
    (bound.after bound.walk).routines = bound.routines := by
  rw [routines, Bound.after, (h.walk_refines hconsistent).functions_eq, List.map_map]
  rfl

/-- The tasks are those of the functions of the network. -/
lemma map_entry_tasks (h : bound.Serves network) (hconsistent : network.Consistent) :
    (Reference.tasks network.functions bound.functions).map Reference.Task.entry =
      network.functions := by
  rw [Reference.tasks, List.map_map]
  exact List.map_fst_zip (Nat.le_of_eq (h.conforms hconsistent).length_eq)

/-- Two passes over a feed-forward network fail alike if all functions are installed by default
installers and the regions agreed on every variable that no function writes. They leave the same
regions, up to the outputs of the functions from the failing one on. -/
theorem walk_forgets (hleft : left.Serves network) (hright : right.Serves network)
    (hconsistent : network.Consistent) (hfeeds : network.FeedForward)
    (hinstalled : ∀ function ∈ left.functions, function.Installed)
    (hroutines : left.routines = right.routines)
    (hagree : ∀ i, (∀ entry ∈ network.functions, i ∉ entry.outputs) →
      left.arena.region? i = right.arena.region? i) :
    left.walk.failure = right.walk.failure ∧
      ∀ i, (∀ failure ∈ left.walk.failure, ∀ entry ∈ network.functions,
          failure.function ≤ entry.index → i ∉ entry.outputs) →
        (left.after left.walk).arena.region? i = (right.after right.walk).arena.region? i := by
  have hentries := hleft.map_entry_tasks hconsistent
  obtain ⟨hself, hlater⟩ := Network.feedForward_iff.mp hfeeds
  have horder : network.functions.Pairwise fun first later => first.index < later.index := by
    rw [← List.pairwise_map, Network.map_index_functions hconsistent]
    exact List.pairwise_lt_range
  have hcontents : ∀ i, (∀ entry ∈ network.functions, i ∉ entry.outputs) →
      left.arrays i = right.arrays i := fun i hi => by rw [arrays, arrays, hagree i hi]
  rw [(hleft.walk_refines hconsistent).failure_eq, (hright.walk_refines hconsistent).failure_eq,
    ← tasks_eq _ hroutines]
  obtain ⟨hfailure, harrays⟩ := Reference.run_forgets hentries
    (hleft.overwrites_tasks hconsistent hinstalled) horder hself hlater (hleft.sized hconsistent)
    (hright.sized hconsistent) hcontents
  refine ⟨hfailure, fun i hi => ?_⟩
  rw [(hleft.after_walk hconsistent).region?_eq, (hright.after_walk hconsistent).region?_eq,
    hleft.arrays_after hconsistent, hright.arrays_after hconsistent, ← tasks_eq _ hroutines,
    harrays i hi]

end Serves

end Bound

/-! ## Sessions -/

namespace Session

/-- A pass of a session, with its result and the bound network that it leaves. -/
def PassesTo (session : Session σ) (readings : Nat → Nat) (result : Except SessionFault Unit)
    (next : Bound σ) : Prop :=
  (session.forward tick readings).1.result = result ∧
    (session.forward tick readings).1.session.ready? = some next

/-- A pass of a session that is ready leaves the bound network after it. -/
lemma passesTo_walk {session : Session σ} {bound : Bound σ} (h : session.ready? = some bound)
    (readings : Nat → Nat) :
    session.PassesTo readings (passResult bound.walk.failure) (bound.after bound.walk) := by
  rw [PassesTo, forward_of_ready h]
  exact ⟨rfl, ready?_holding h _ _⟩

/-- **Forgetting**: if a descriptor of a feed-forward network was loaded, and a registry of default
installers bound all its functions, then, whatever the host does, passes over any two contents of
the store that agree on every variable that no function writes have the same result. If they
succeed, they leave the same regions, and a second pass leaves the regions as the first one left
them. They fail only where a kernel breaks off, at a node whose products of dimensions leave the
range of a machine word; even then they leave the same regions, up to the outputs of the functions
from that one on.

**Proof sketch.** The functions are those that the default installers installed (`installed_after`),
so each of them replaces its outputs by what its inputs determine
(`BoundNode.Installed.overwrites`), and two runs over contents that agree off the outputs end alike
(`Reference.run_forgets`). A pass only changes outputs, so the contents before and after it are two
such contents. -/
theorem forward_forgets {session : Session σ} {loading : Nat} {descriptor : Bytes}
    {network : Network} {first : Bound σ} (hstandard : session.dispatch.registry.Standard)
    (hdecode : Network.decode descriptor = .ok network) (hfeeds : network.FeedForward)
    (hload : (session.load loading descriptor).result = .ok ())
    (hfirst : (session.load loading descriptor).session.ready? = some first)
    (hbuiltin : ∀ function ∈ first.functions, function.source = .builtin)
    (actions : List (Action σ)) {bound : Bound σ}
    (hready : ((session.load loading descriptor).session.after actions).ready? = some bound) :
    let current := (session.load loading descriptor).session.after actions
    (∀ left right : Bytes, left.length = bound.arena.store.length →
      right.length = bound.arena.store.length →
      (∀ i, (∀ entry ∈ network.functions, i ∉ entry.outputs) →
        (bound.withStore left).arena.region? i = (bound.withStore right).arena.region? i) →
      ∀ readings readings' : Nat → Nat, ∃ result leftNext rightNext,
        (current.holding (bound.withStore left)).PassesTo readings result leftNext ∧
        (current.holding (bound.withStore right)).PassesTo readings' result rightNext ∧
        (result = .ok () → ∀ i, leftNext.arena.region? i = rightNext.arena.region? i) ∧
        ∀ fault, result = .error fault → ∃ function ∈ bound.functions, ¬function.node.InRange ∧
          fault = .failed ⟨function.node.index, function.node.op, .overrun⟩ ∧
          ∀ i, (∀ entry ∈ network.functions, function.node.index ≤ entry.index →
            i ∉ entry.outputs) → leftNext.arena.region? i = rightNext.arena.region? i) ∧
    ∀ store : Bytes, store.length = bound.arena.store.length →
      ∀ (readings readings' : Nat → Nat) (once : Bound σ),
        (current.holding (bound.withStore store)).PassesTo readings (.ok ()) once →
        ∃ twice, (current.holding once).PassesTo readings' (.ok ()) twice ∧
          ∀ i, twice.arena.region? i = once.arena.region? i := by
  intro current
  obtain ⟨decoded, other, hdecoded, hother, hserves⟩ := ready_of_load hload
  obtain rfl : decoded = network := Except.ok.inj (hdecoded.symm.trans hdecode)
  have hconsistent := Network.consistent_of_decode hdecode
  have hbound := (serves_after (serves_of_ready hother hserves) hconsistent actions).ready bound
    hready
  have hinstalled := installed_after hstandard hload hfirst hbuiltin actions hready
  have hholds (store : Bytes) (hlength : store.length = bound.arena.store.length) :
      (bound.withStore store).Serves decoded := hbound.withStore hlength
  have hcurrent (next : Bound σ) : (current.holding next).ready? = some next :=
    ready?_holding hready next _
  constructor
  · intro left right hleft hright hagree readings readings'
    obtain ⟨hfailure, hregions⟩ := (hholds left hleft).walk_forgets (hholds right hright)
      hconsistent hfeeds hinstalled rfl hagree
    have hpasses' := passesTo_walk (hcurrent (bound.withStore right)) readings'
    rw [← hfailure] at hpasses'
    refine ⟨_, _, _, passesTo_walk (hcurrent (bound.withStore left)) readings, hpasses',
      fun hok i => hregions i ?_, fun fault hfault => ?_⟩
    · intro failure hstop
      rw [hstop] at hok
      cases hok
    · cases hstop : (bound.withStore left).walk.failure with
      | none =>
        rw [hstop] at hfault
        cases hfault
      | some failure =>
        rw [hstop, passResult, Except.error.injEq] at hfault
        obtain ⟨function, hfunction, hrange, rfl⟩ := (hholds left hleft).failure_walk hconsistent
          (fun function hfunction => (hinstalled function hfunction).reliable) hstop
        refine ⟨function, hfunction, hrange, hfault.symm, fun i hi => hregions i ?_⟩
        rintro failure hfound
        obtain rfl := Option.some.inj (hstop.symm.trans hfound)
        exact hi
  · intro store hstore readings readings' once hpasses
    have hbefore := hholds store hstore
    obtain ⟨hresult, honce⟩ := passesTo_walk (hcurrent (bound.withStore store)) readings
    obtain rfl := Option.some.inj (honce.symm.trans hpasses.2)
    have hcomplete : (bound.withStore store).walk.failure = none := by
      have hok := hresult.symm.trans hpasses.1
      cases hstop : (bound.withStore store).walk.failure with
      | none => rfl
      | some failure =>
        rw [hstop] at hok
        cases hok
    have hafter := hbefore.after_walk hconsistent
    have hkept := hbefore.forall_functions_walk hconsistent (fun _ _ h => h) hinstalled
    obtain ⟨hfailure, hregions⟩ := hafter.walk_forgets hbefore hconsistent hfeeds hkept
      (hbefore.routines_after hconsistent) fun i hi =>
        hbefore.region?_after_of_not_mem hconsistent hi
    have hpasses' := passesTo_walk (hcurrent ((bound.withStore store).after
      (bound.withStore store).walk)) readings'
    rw [hfailure, hcomplete] at hpasses'
    refine ⟨_, hpasses', fun i => hregions i ?_⟩
    intro failure hstop
    rw [hfailure, hcomplete] at hstop
    cases hstop

/-- An affine transform and a softmax over its result. -/
def layers : Draft where
  buffers := [2, 2, 2]
  variableTable :=
    [{ id := 0, dims := [1, 2], elementType := .float, backing := .buffer 0 },
     { id := 1, dims := [2, 2], elementType := .float, backing := .data (Bytes.zeros 16) },
     { id := 2, dims := [1, 2], elementType := .float, backing := .buffer 1 },
     { id := 3, dims := [2], elementType := .float, backing := .buffer 2 }]
  functions :=
    [{ op := .affine, inputs := [0, 1], outputs := [2], parameters := [1, 0, 0, 0] },
     { op := .softmax, inputs := [2], outputs := [3] }]
  inputs := [0]
  outputs := [3]

/-- The nodes of the layers are in range, so two passes over them succeed. They leave the same
regions, whether the results and the padding held zeros or ones before, and so does a third pass
after one of them. -/
theorem forward_forgets_layers :
    let start : Session Nat := ((Session.new {} .defaults).load 0 layers.encode).session
    ∃ bound left right again, start.ready? = some bound ∧
      (start.holding (bound.withStore (Bytes.zeros 64))).PassesTo id (.ok ()) left ∧
      (start.holding (bound.withStore (Bytes.zeros 32 ++ List.replicate 32 1))).PassesTo id (.ok ())
        right ∧
      (start.holding left).PassesTo id (.ok ()) again ∧
      (∀ i, left.arena.region? i = right.arena.region? i) ∧
      ∀ i, again.arena.region? i = left.arena.region? i := by
  have hload : ((Session.new {} .defaults : Session Nat).load 0 layers.encode).result = .ok () := by
    decide +kernel
  have hsources : ((Session.new {} .defaults : Session Nat).load 0 layers.encode).session.sources =
      [.builtin, .builtin] := by decide +kernel
  have hlayout : (((Session.new {} .defaults : Session Nat).load 0 layers.encode).session.bound
      .forward).map (fun bound => (bound.arena.regions, bound.arena.store.length)) =
        .ok ([⟨0, 8⟩, ⟨16, 32⟩, ⟨32, 40⟩, ⟨48, 56⟩], 64) := by decide +kernel
  have hsizes : ∀ node ∈ (Format.network layers.encode).nodes,
      ∀ v ∈ node.inputs ++ node.outputs, 0 ∉ v.shape.dims ∧ v.elementCount < 0x100000000 := by
    decide +kernel
  obtain ⟨network, first, hdecode, hfirst, hserves⟩ := ready_of_load hload
  have hnetwork := (Network.decode_eq_ok_iff.mp hdecode).2
  have hfeeds : network.FeedForward := by
    rw [hnetwork]
    decide +kernel
  have houtputs : network.functions.map FunctionEntry.outputs = [[2], [3]] := by
    rw [hnetwork]
    decide +kernel
  have hbuiltin : ∀ function ∈ first.functions, function.source = .builtin := by
    intro function hfunction
    have hmem := source_mem_sources hfirst hfunction
    rw [hsources] at hmem
    simpa using hmem
  have hrange : ∀ function ∈ first.functions, function.node.InRange := by
    intro function hfunction
    have hnode : function.node ∈ network.nodes := hserves.nodes_eq ▸ List.mem_map_of_mem hfunction
    rw [hnetwork] at hnode
    exact Node.inRange_of_lt (fun v hv => (hsizes _ hnode v hv).1) fun v hv =>
      (hsizes _ hnode v hv).2
  rw [bound_eq_ok_iff.mpr hfirst, Except.map, Except.ok.injEq, Prod.mk.injEq] at hlayout
  obtain ⟨hregions, hstore⟩ := hlayout
  -- the two contents only differ in the results and in the padding
  have hagree : ∀ i, (∀ entry ∈ network.functions, i ∉ entry.outputs) →
      (first.withStore (Bytes.zeros 64)).arena.region? i =
        (first.withStore (Bytes.zeros 32 ++ List.replicate 32 1)).arena.region? i := by
    intro i hi
    rw [← List.forall_mem_map (f := FunctionEntry.outputs) (P := fun outputs => i ∉ outputs),
      houtputs] at hi
    simp only [Bound.withStore, Arena.region?, hregions]
    rcases i with _ | _ | _ | _ | i
    · decide
    · decide
    · simp at hi
    · simp at hi
    · rfl
  have hzeros : (Bytes.zeros 64).length = first.arena.store.length := by
    rw [hstore, Bytes.zeros, List.length_replicate]
  have hones : (Bytes.zeros 32 ++ List.replicate 32 1).length = first.arena.store.length := by
    rw [hstore, Bytes.zeros, List.length_append, List.length_replicate, List.length_replicate]
  have hstandard : (Session.new {} .defaults : Session Nat).dispatch.registry.Standard :=
    Registry.standard_defaults
  have hforgets := forward_forgets hstandard hdecode hfeeds hload hfirst hbuiltin [] hfirst
  obtain ⟨result, left, right, hleft, hright, hregion, hfailed⟩ :=
    hforgets.1 _ _ hzeros hones hagree id id
  have hok : result = .ok () := by
    cases result with
    | ok _ => rfl
    | error fault =>
      obtain ⟨function, hfunction, hout, -⟩ := hfailed fault rfl
      exact absurd (hrange function hfunction) hout
  subst hok
  obtain ⟨again, hagain, hsame⟩ := hforgets.2 _ hzeros id id left hleft
  exact ⟨first, left, right, again, hfirst, hleft, hright, hagain, hregion rfl, hsame⟩

/-- An affine transform of two rows without elements. Five dimensions of its weight have the product
3 in machine words, and this is the width of the output. -/
def wrapped : Draft where
  buffers := [0, 6]
  variableTable :=
    [{ id := 0, dims := [2, 0], elementType := .float, backing := .buffer 0 },
     { id := 1, dims := [0, 5, 7, 11239, 88801, 1056175639], elementType := .float,
       backing := .data [] },
     { id := 2, dims := [2, 3], elementType := .float, backing := .buffer 1 }]
  functions := [{ op := .affine, inputs := [0, 1], outputs := [2], parameters := [1, 0, 0, 0] }]
  inputs := [0]
  outputs := [2]

example : let start : Session Nat := ((Session.new {} .defaults).load 0 wrapped.encode).session
    (start.forward tick id).1.result = .ok () := by decide +kernel

end Session

end Inference
