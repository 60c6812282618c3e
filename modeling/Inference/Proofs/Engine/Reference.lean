import Inference.Proofs.Descriptor.Consistency
import Inference.Proofs.Memory.Regions
import Inference.Proofs.Session.History
import Mathlib.Logic.Function.Basic

set_option autoImplicit false
set_option relaxedAutoImplicit false

/-!
# The reference interpreter

What a pass means: every variable has a byte string of its own, and the functions run one after
another over these, each with a private state of its own. Nothing is shared and nothing is moved.
The engine works on one table, from which it moves the outputs of a function while it runs; this
file shows that it does the same.

## Main definitions

* `Arrays` — the contents of every variable, each on its own.
* `Reference.run` — the functions of a table over such contents.
* `Conforms` — a bound node that has the variables of a function entry.

## Main results

* `execute_refines` — the turn of one node is a step of the reference interpreter.
* `Engine.walk_refines` — a pass is a run of the reference interpreter.
* `Reference.executed_prefix`, `Reference.arrays_of_not_mem_outputs` — functions run in table order,
  and only change their outputs.
-/

namespace Inference

/-- The contents of every variable, each on its own. -/
abbrev Arrays := Nat → Bytes

/-- The contents of a table by index; empty past its end. -/
def Contents.arrays (contents : Contents) : Arrays :=
  fun i => contents[i]?.getD []

/-! ## The interpreter -/

namespace Reference

variable {σ : Type}

/-- A function of the table with what implements it: the routine, and the node it is told about. -/
structure Task (σ : Type) where
  entry : FunctionEntry
  node : Node
  execute : Execute σ

/-- What the routine of a function sees: the whole contents of the variables that the function
lists. -/
def Task.call (task : Task σ) (arrays : Arrays) : Invocation :=
  ⟨task.node, task.entry.inputs.map arrays, task.entry.outputs.map arrays⟩

/-- The contents after new bytes were laid over those of the listed variables, in order. -/
def store (arrays : Arrays) : List Nat → List Bytes → Arrays
  | i :: rest, new :: news =>
    store (Function.update arrays i (Bytes.overwrite (arrays i) new)) rest news
  | _, _ => arrays

/-- What the interpreter leaves. -/
structure Result (σ : Type) where
  arrays : Arrays
  /-- The private state of every function, by its index. -/
  states : Nat → Option σ
  /-- The function that failed, if one did. -/
  failure : Option Failure
  /-- The functions that were executed, in order. -/
  executed : List Nat

/-- Runs functions in order, up to the first that fails. What that one wrote stays. -/
def run : List (Task σ) → Arrays → (Nat → Option σ) → Result σ
  | [], arrays, states => ⟨arrays, states, none, []⟩
  | task :: rest, arrays, states =>
    let entry := task.entry
    let outcome := task.execute (task.call arrays) (states entry.index)
    let arrays := store arrays entry.outputs outcome.outputs
    let states := Function.update states entry.index outcome.state
    match outcome.result with
    | .error fault => ⟨arrays, states, some ⟨entry.index, entry.op, fault⟩, [entry.index]⟩
    | .ok () =>
      let later := run rest arrays states
      { later with executed := entry.index :: later.executed }

/-- The functions of a table with what they are bound to. -/
def tasks (entries : List FunctionEntry) (functions : List (BoundNode σ)) : List (Task σ) :=
  (entries.zip functions).map fun (entry, function) =>
    ⟨entry, function.node, function.binding.execute⟩

/-- The first function of a table and what it is bound to. -/
lemma tasks_cons (entry : FunctionEntry) (entries : List FunctionEntry) (function : BoundNode σ)
    (functions : List (BoundNode σ)) :
    tasks (entry :: entries) (function :: functions) =
      ⟨entry, function.node, function.binding.execute⟩ :: tasks entries functions := rfl

/-- A run stops at a function that fails. -/
lemma run_cons_error {task : Task σ} {arrays : Arrays} {states : Nat → Option σ}
    {outcome : Outcome σ} {fault : RoutineFault}
    (houtcome : task.execute (task.call arrays) (states task.entry.index) = outcome)
    (hresult : outcome.result = .error fault) (rest : List (Task σ)) :
    run (task :: rest) arrays states =
      ⟨store arrays task.entry.outputs outcome.outputs,
        Function.update states task.entry.index outcome.state,
        some ⟨task.entry.index, task.entry.op, fault⟩, [task.entry.index]⟩ := by
  simp only [run, houtcome, hresult]

/-- A run goes on behind a function that succeeds. -/
lemma run_cons_ok {task : Task σ} {arrays : Arrays} {states : Nat → Option σ}
    {outcome : Outcome σ}
    (houtcome : task.execute (task.call arrays) (states task.entry.index) = outcome)
    (hresult : outcome.result = .ok ()) (rest : List (Task σ)) :
    ∃ later, later = run rest (store arrays task.entry.outputs outcome.outputs)
        (Function.update states task.entry.index outcome.state) ∧
      run (task :: rest) arrays states =
        { later with executed := task.entry.index :: later.executed } := by
  simp only [run, houtcome, hresult]
  exact ⟨_, rfl, rfl⟩

/-- Nothing is stored without new bytes. -/
@[simp]
lemma store_nil (arrays : Arrays) (indices : List Nat) : store arrays indices [] = arrays := by
  cases indices <;> rfl

/-- Storing does not touch a variable that is not listed. -/
lemma store_of_not_mem {arrays : Arrays} {indices : List Nat} {i : Nat} (hi : i ∉ indices)
    (news : List Bytes) : store arrays indices news i = arrays i := by
  induction indices generalizing arrays news with
  | nil => rfl
  | cons index indices ih =>
    cases news with
    | nil => rfl
    | cons new news =>
      rw [List.mem_cons, not_or] at hi
      rw [store, ih hi.2, Function.update_of_ne hi.1]

/-- Storing does not change a length. -/
lemma length_store (arrays : Arrays) (indices : List Nat) (news : List Bytes) (i : Nat) :
    (store arrays indices news i).length = (arrays i).length := by
  induction indices generalizing arrays news with
  | nil => rfl
  | cons index indices ih =>
    cases news with
    | nil => rfl
    | cons new news =>
      rw [store, ih]
      by_cases hi : i = index
      · subst hi
        rw [Function.update_self, Bytes.length_overwrite]
      · rw [Function.update_of_ne hi]

/-- A variable that is not listed can be changed before or after storing. -/
lemma store_update {arrays : Arrays} {indices : List Nat} {i : Nat} (hi : i ∉ indices)
    (bytes : Bytes) (news : List Bytes) :
    store (Function.update arrays i bytes) indices news =
      Function.update (store arrays indices news) i bytes := by
  induction indices generalizing arrays news with
  | nil => rfl
  | cons index indices ih =>
    cases news with
    | nil => rfl
    | cons new news =>
      rw [List.mem_cons, not_or] at hi
      have hne : index ≠ i := Ne.symm hi.1
      rw [store, store, Function.update_of_ne hne, Function.update_comm hne.symm, ih hi.2]

/-! ## What a run can change -/

/-- The functions that were executed are the first ones of the table. -/
theorem executed_prefix (todo : List (Task σ)) (arrays : Arrays) (states : Nat → Option σ) :
    (run todo arrays states).executed <+: todo.map fun task => task.entry.index := by
  induction todo generalizing arrays states with
  | nil => exact List.prefix_refl _
  | cons task rest ih =>
    rw [run, List.map_cons]
    dsimp only
    split
    · exact List.prefix_cons_inj task.entry.index |>.mpr (List.nil_prefix)
    · exact List.prefix_cons_inj task.entry.index |>.mpr (ih _ _)

/-- The private state of a function that is not in the table stays. -/
lemma states_of_not_mem {todo : List (Task σ)} {i : Nat}
    (hi : ∀ task ∈ todo, task.entry.index ≠ i) (arrays : Arrays) (states : Nat → Option σ) :
    (run todo arrays states).states i = states i := by
  induction todo generalizing arrays states with
  | nil => rfl
  | cons task rest ih =>
    have hne : i ≠ task.entry.index := (hi task List.mem_cons_self).symm
    have hrest := fun other hother => hi other (List.mem_cons_of_mem _ hother)
    rw [run]
    dsimp only
    split
    · exact Function.update_of_ne hne _ _
    · exact (ih hrest _ _).trans (Function.update_of_ne hne _ _)

/-- The contents of a variable that no executed function lists as an output stay. -/
theorem arrays_of_not_mem_outputs {todo : List (Task σ)} {arrays : Arrays}
    {states : Nat → Option σ} {i : Nat}
    (hi : ∀ task ∈ todo, task.entry.index ∈ (run todo arrays states).executed →
      i ∉ task.entry.outputs) :
    (run todo arrays states).arrays i = arrays i := by
  induction todo generalizing arrays states with
  | nil => rfl
  | cons task rest ih =>
    rw [run] at hi ⊢
    dsimp only at hi ⊢
    split at hi
    · have hhead := hi task List.mem_cons_self List.mem_cons_self
      exact store_of_not_mem hhead _
    · have hhead := hi task List.mem_cons_self List.mem_cons_self
      have hrest := ih fun other hother hexecuted =>
        hi other (List.mem_cons_of_mem _ hother) (List.mem_cons_of_mem _ hexecuted)
      exact hrest.trans (store_of_not_mem hhead _)

/-- A run does not change the length of any variable. -/
theorem length_arrays (todo : List (Task σ)) (arrays : Arrays) (states : Nat → Option σ)
    (i : Nat) : ((run todo arrays states).arrays i).length = (arrays i).length := by
  induction todo generalizing arrays states with
  | nil => rfl
  | cons task rest ih =>
    rw [run]
    dsimp only
    split
    · exact length_store _ _ _ _
    · exact (ih _ _).trans (length_store _ _ _ _)

end Reference

/-! ## Moving outputs -/

section

variable {contents : Contents} {vs : List Variable}

/-- Replacing an entry of a table changes the contents of one variable. -/
lemma arrays_set {i : Nat} (hi : i < contents.length) (bytes : Bytes) :
    Contents.arrays (contents.set i bytes) = Function.update contents.arrays i bytes := by
  funext j
  rw [Contents.arrays, List.getElem?_set]
  by_cases hij : i = j
  · subst hij
    rw [if_pos rfl, if_pos hi, Function.update_self]
    rfl
  · rw [if_neg hij, Function.update_of_ne (Ne.symm hij)]
    rfl

/-- The first entry is moved out before the others. -/
lemma moveOut_cons (contents : Contents) (v : Variable) (vs : List Variable) :
    moveOut contents (v :: vs) =
      (contents.arrays v.index :: (moveOut (contents.set v.index []) vs).1,
        (moveOut (contents.set v.index []) vs).2) := rfl

/-- Nothing is put back for no variables. -/
@[simp]
lemma putBack_nil (contents : Contents) (regions : List Bytes) :
    putBack contents [] regions = contents := by
  cases regions <;> rfl

/-- Moving entries out keeps the length of the table. -/
@[simp]
lemma length_moveOut (contents : Contents) (vs : List Variable) :
    (moveOut contents vs).2.length = contents.length := by
  induction vs generalizing contents with
  | nil => rfl
  | cons v vs ih => rw [moveOut_cons, ih, List.length_set]

/-- Putting entries back keeps the length of the table. -/
@[simp]
lemma length_putBack (contents : Contents) (vs : List Variable) (regions : List Bytes) :
    (putBack contents vs regions).length = contents.length := by
  induction vs generalizing contents regions with
  | nil => rw [putBack_nil]
  | cons v vs ih =>
    cases regions with
    | nil => rfl
    | cons region regions => rw [putBack, ih, List.length_set]

/-- What is moved out is the contents of the variables. -/
lemma moveOut_fst (hnodup : (vs.map Variable.index).Nodup)
    (hlt : ∀ i ∈ vs.map Variable.index, i < contents.length) :
    (moveOut contents vs).1 = (vs.map Variable.index).map contents.arrays := by
  induction vs generalizing contents with
  | nil => rfl
  | cons v vs ih =>
    rw [List.map_cons, List.nodup_cons] at hnodup
    rw [List.map_cons, List.forall_mem_cons] at hlt
    rw [moveOut_cons, ih hnodup.2 (by simpa using hlt.2), arrays_set hlt.1, List.map_cons,
      List.map_cons, List.cons.injEq]
    refine ⟨rfl, List.map_congr_left ?_⟩
    intro i hi
    have hne : i ≠ v.index := by
      rintro rfl
      exact hnodup.1 hi
    exact Function.update_of_ne hne _ _

/-- Variables that are not moved out stay. -/
lemma arrays_moveOut_of_not_mem {i : Nat} (hi : i ∉ vs.map Variable.index) :
    Contents.arrays (moveOut contents vs).2 i = contents.arrays i := by
  induction vs generalizing contents with
  | nil => rfl
  | cons v vs ih =>
    rw [List.map_cons, List.mem_cons, not_or] at hi
    rw [moveOut_cons, ih hi.2, Contents.arrays, Contents.arrays,
      List.getElem?_set_ne (Ne.symm hi.1)]

/-- An entry that is not put back can be replaced before or after. -/
lemma putBack_set {i : Nat} (hi : i ∉ vs.map Variable.index) (bytes : Bytes)
    (regions : List Bytes) :
    putBack (contents.set i bytes) vs regions = (putBack contents vs regions).set i bytes := by
  induction vs generalizing contents regions with
  | nil => rw [putBack_nil, putBack_nil]
  | cons v vs ih =>
    cases regions with
    | nil => rfl
    | cons region regions =>
      rw [List.map_cons, List.mem_cons, not_or] at hi
      rw [putBack, putBack, List.set_comm _ _ hi.1, ih hi.2]

/-- **Moving outputs**: moving entries out, laying new bytes over them and putting them back is
storing the new bytes.

**Proof sketch.** Induction on the variables. The first one is replaced by an empty entry, left
alone while the others are treated, and then set to its old contents with the new bytes laid over
them; since it is not among the others, this can be done first. -/
theorem arrays_putBack_moveOut (hnodup : (vs.map Variable.index).Nodup)
    (hlt : ∀ i ∈ vs.map Variable.index, i < contents.length) (news : List Bytes) :
    Contents.arrays (putBack (moveOut contents vs).2 vs
        (Bytes.overwriteAll (moveOut contents vs).1 news)) =
      Reference.store contents.arrays (vs.map Variable.index) news := by
  induction vs generalizing contents news with
  | nil =>
    rw [putBack_nil]
    rfl
  | cons v vs ih =>
    rw [List.map_cons, List.nodup_cons] at hnodup
    rw [List.map_cons, List.forall_mem_cons] at hlt
    obtain ⟨hnotMem, hnodup⟩ := hnodup
    obtain ⟨hv, hlt⟩ := hlt
    have hlater (news : List Bytes) :
        Contents.arrays (putBack (moveOut (contents.set v.index []) vs).2 vs
          (Bytes.overwriteAll (moveOut (contents.set v.index []) vs).1 news)) =
        Reference.store (Contents.arrays (contents.set v.index [])) (vs.map Variable.index) news :=
      ih hnodup (by simpa using hlt) news
    -- what the first entry is set to at the end
    have hfirst (bytes : Bytes) (news : List Bytes) :
        Contents.arrays (putBack ((moveOut (contents.set v.index []) vs).2.set v.index bytes) vs
          (Bytes.overwriteAll (moveOut (contents.set v.index []) vs).1 news)) =
        Function.update (Reference.store contents.arrays (vs.map Variable.index) news) v.index
          bytes := by
      rw [putBack_set hnotMem, arrays_set (by simpa using hv), hlater, arrays_set hv,
        Reference.store_update hnotMem, Function.update_idem]
    rw [moveOut_cons, List.map_cons]
    cases news with
    | nil =>
      have hnothing := hfirst (contents.arrays v.index) []
      rw [Reference.store_nil, Function.update_eq_self, Bytes.overwriteAll_nil] at hnothing
      rw [Reference.store_nil, Bytes.overwriteAll_nil]
      exact hnothing
    | cons new news =>
      rw [Bytes.overwriteAll, putBack, Reference.store, Reference.store_update hnotMem]
      exact hfirst _ news

end

/-! ## Turns and passes -/

section

variable {σ : Type}

/-- A bound node that has the variables of a function entry. -/
structure Conforms (variableCount : Nat) (entry : FunctionEntry) (function : BoundNode σ) :
    Prop where
  consistent : entry.Consistent variableCount
  index_eq : function.node.index = entry.index
  op_eq : function.node.op = entry.op
  inputs_eq : function.node.inputs.map Variable.index = entry.inputs
  outputs_eq : function.node.outputs.map Variable.index = entry.outputs

/-- A bound node with another private state. -/
def BoundNode.withState (function : BoundNode σ) (state : Option σ) : BoundNode σ :=
  { function with binding := { function.binding with state := state } }

/-- The functions that were executed, in order. -/
def Event.executions (journal : List (Event σ)) : List Nat :=
  journal.filterMap fun event =>
    match event with
    | .executed function _ => some function
    | _ => none

/-- Notes are no executions. -/
@[simp]
lemma executions_notes (notes : List String) :
    Event.executions (notes.map (Event.note (σ := σ))) = [] := by
  induction notes with
  | nil => rfl
  | cons note notes ih => exact ih

/-- What happens one after another is executed one after another. -/
@[simp]
lemma executions_append (front back : List (Event σ)) :
    Event.executions (front ++ back) = Event.executions front ++ Event.executions back :=
  List.filterMap_append

/-- What a routine is shown while the outputs are moved out is what the reference interpreter shows
it. -/
lemma call_moveOut {contents : Contents} {entry : FunctionEntry} {function : BoundNode σ}
    (h : Conforms contents.length entry function) :
    (⟨function.node, gather (moveOut contents function.node.outputs).2 function.node.inputs,
        (moveOut contents function.node.outputs).1⟩ : Invocation) =
      Reference.Task.call ⟨entry, function.node, function.binding.execute⟩ contents.arrays := by
  have hinputs : gather (moveOut contents function.node.outputs).2 function.node.inputs =
      entry.inputs.map contents.arrays := by
    rw [← h.inputs_eq, List.map_map]
    apply List.map_congr_left
    intro v hv
    apply arrays_moveOut_of_not_mem
    rw [h.outputs_eq]
    exact h.consistent.disjoint (h.inputs_eq ▸ List.mem_map_of_mem hv)
  have houtputs : (moveOut contents function.node.outputs).1 =
      entry.outputs.map contents.arrays := by
    rw [moveOut_fst (by rw [h.outputs_eq]; exact h.consistent.outputs_nodup)
      (by rw [h.outputs_eq]; exact h.consistent.outputs_lt), h.outputs_eq]
  rw [hinputs, houtputs]
  rfl

/-- What the routine of a bound node gives back in a turn. -/
def BoundNode.outcome (function : BoundNode σ) (entry : FunctionEntry) (arrays : Arrays) :
    Outcome σ :=
  function.binding.execute
    (Reference.Task.call ⟨entry, function.node, function.binding.execute⟩ arrays)
    function.binding.state

/-- The turn of a node stores what its routine gives back, and keeps the private state that the
routine left. -/
theorem execute_refines {contents : Contents} {entry : FunctionEntry} {function : BoundNode σ}
    (h : Conforms contents.length entry function) :
    (function.execute contents).function =
        function.withState (function.outcome entry contents.arrays).state ∧
      (function.execute contents).contents.length = contents.length ∧
      Contents.arrays (function.execute contents).contents =
        Reference.store contents.arrays entry.outputs
          (function.outcome entry contents.arrays).outputs ∧
      (function.execute contents).result = (function.outcome entry contents.arrays).result ∧
      Event.executions (function.execute contents).journal = [entry.index] := by
  have houtcome : function.binding.execute ⟨function.node,
      gather (moveOut contents function.node.outputs).2 function.node.inputs,
      (moveOut contents function.node.outputs).1⟩ function.binding.state =
        function.outcome entry contents.arrays := by
    rw [call_moveOut h]
    rfl
  simp only [BoundNode.execute, houtcome]
  refine ⟨rfl, ?_, ?_, trivial, ?_⟩
  · rw [length_putBack, length_moveOut]
  · rw [arrays_putBack_moveOut (by rw [h.outputs_eq]; exact h.consistent.outputs_nodup)
      (by rw [h.outputs_eq]; exact h.consistent.outputs_lt), h.outputs_eq]
  · rw [← h.index_eq]
    exact congrArg (function.node.index :: ·) (executions_notes _)

/-- A pass left what a run of the reference interpreter left. -/
structure Pass.Refines (pass : Pass σ) (functions : List (BoundNode σ)) (contents : Contents)
    (result : Reference.Result σ) : Prop where
  functions_eq : pass.functions =
    functions.map fun function => function.withState (result.states function.node.index)
  length_eq : pass.contents.length = contents.length
  arrays_eq : Contents.arrays pass.contents = result.arrays
  failure_eq : pass.failure = result.failure
  executions_eq : Event.executions pass.journal = result.executed

/-- Nodes that keep their private states are the nodes. -/
lemma map_withState_of_eq {functions : List (BoundNode σ)} {states : Nat → Option σ}
    (h : ∀ function ∈ functions, states function.node.index = function.binding.state) :
    (functions.map fun function => function.withState (states function.node.index)) =
      functions := by
  conv_rhs => rw [← List.map_id functions]
  apply List.map_congr_left
  intro function hfunction
  rw [h function hfunction]
  rfl

/-- The functions of the tasks are those of the entries. -/
lemma index_ne_of_mem_tasks {entries : List FunctionEntry} {functions : List (BoundNode σ)}
    {i : Nat} (hi : i ∉ entries.map FunctionEntry.index) :
    ∀ task ∈ Reference.tasks entries functions, task.entry.index ≠ i := by
  intro task htask
  obtain ⟨⟨entry, function⟩, hmem, rfl⟩ := List.mem_map.mp htask
  rintro rfl
  exact hi (List.mem_map_of_mem (List.of_mem_zip hmem).1)

/-- Nodes that conform to entries have their indices. -/
lemma map_index_of_conforms {count : Nat} {entries : List FunctionEntry}
    {functions : List (BoundNode σ)} (h : List.Forall₂ (Conforms count) entries functions) :
    (functions.map fun function => function.node.index) = entries.map FunctionEntry.index := by
  induction h with
  | nil => rfl
  | cons hhead htail ih => rw [List.map_cons, List.map_cons, ih, hhead.index_eq]

/-- The tasks of nodes that conform to entries have the indices of the entries. -/
lemma map_index_tasks {count : Nat} {entries : List FunctionEntry}
    {functions : List (BoundNode σ)} (h : List.Forall₂ (Conforms count) entries functions) :
    ((Reference.tasks entries functions).map fun task => task.entry.index) =
      entries.map FunctionEntry.index := by
  induction h with
  | nil => rfl
  | cons hhead htail ih => rw [Reference.tasks_cons, List.map_cons, List.map_cons, ih]

/-- **Passes**: a pass leaves what a run of the reference interpreter leaves.

**Proof sketch.** Induction on the functions. The turn of the first one is a step of the
interpreter (`execute_refines`), and the table keeps its length, so the others still conform. The
first function's private state is not touched again, since no other one has its index. -/
theorem Engine.walk_refines {entries : List FunctionEntry} {functions : List (BoundNode σ)}
    {contents : Contents} {states : Nat → Option σ}
    (h : List.Forall₂ (Conforms contents.length) entries functions)
    (hnodup : (entries.map FunctionEntry.index).Nodup)
    (hstates : ∀ function ∈ functions, states function.node.index = function.binding.state) :
    (Engine.walk functions contents).Refines functions contents
      (Reference.run (Reference.tasks entries functions) contents.arrays states) := by
  induction entries generalizing functions contents states with
  | nil =>
    cases h
    exact ⟨rfl, rfl, rfl, rfl, rfl⟩
  | cons entry entries ih =>
    obtain ⟨function, functions, hhead, htail, rfl⟩ := List.forall₂_cons_left_iff.mp h
    rw [List.map_cons, List.nodup_cons] at hnodup
    rw [List.forall_mem_cons] at hstates
    obtain ⟨hfunction, hlength, harrays, hresult, hexecuted⟩ := execute_refines hhead
    have hothers : ∀ other ∈ functions, other.node.index ≠ entry.index := by
      intro other hother hsame
      apply hnodup.1
      rw [← map_index_of_conforms htail, ← hsame]
      exact List.mem_map_of_mem (f := fun function => function.node.index) hother
    have hstate : Reference.Task.execute ⟨entry, function.node, function.binding.execute⟩
        (Reference.Task.call ⟨entry, function.node, function.binding.execute⟩ contents.arrays)
        (states entry.index) = function.outcome entry contents.arrays := by
      rw [← hhead.index_eq, hstates.1]
      rfl
    -- the private states of the other functions after the first one's turn
    have hlater : ∀ other ∈ functions, Function.update states entry.index
        (function.outcome entry contents.arrays).state other.node.index = other.binding.state := by
      intro other hother
      rw [Function.update_of_ne (hothers other hother), hstates.2 other hother]
    cases hcase : (function.outcome entry contents.arrays).result with
    | error fault =>
      rw [walk_cons_error (hresult.trans hcase), Reference.tasks_cons,
        Reference.run_cons_error hstate hcase]
      refine ⟨?_, hlength, harrays, ?_, hexecuted⟩
      · dsimp only
        rw [List.map_cons, map_withState_of_eq hlater, hfunction, hhead.index_eq,
          Function.update_self]
      · rw [hhead.index_eq, hhead.op_eq]
    | ok _ =>
      obtain ⟨result, hreference, hreferenceRun⟩ := Reference.run_cons_ok hstate hcase
        (Reference.tasks entries functions)
      have hconforms : List.Forall₂ (Conforms (function.execute contents).contents.length) entries
          functions := by rwa [hlength]
      have hrefines := ih hconforms hnodup.2 hlater
      rw [harrays, ← hreference] at hrefines
      rw [walk_cons_ok (hresult.trans hcase), Reference.tasks_cons, hreferenceRun]
      have hkept : result.states entry.index = (function.outcome entry contents.arrays).state := by
        rw [hreference, Reference.states_of_not_mem (index_ne_of_mem_tasks hnodup.1),
          Function.update_self]
      refine ⟨?_, hrefines.length_eq.trans hlength, hrefines.arrays_eq, hrefines.failure_eq, ?_⟩
      · dsimp only
        rw [List.map_cons, hrefines.functions_eq, hfunction, hhead.index_eq, hkept]
      · rw [executions_append, hexecuted, hrefines.executions_eq]
        rfl

end

end Inference
