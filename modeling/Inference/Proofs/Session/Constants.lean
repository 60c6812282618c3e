import Inference.Proofs.Session.Sharing

set_option autoImplicit false
set_option relaxedAutoImplicit false

/-!
# Constants

A variable with initial data that is neither an input nor an output is there for constants, such as
weights. A host cannot write to it, so what becomes of it is up to the functions of the network. Its
initial data stays if no function lists it as an output. Reading a descriptor does not ask for this:
a function may list a constant as an output, and then there are implementations of the functions
with which a single pass replaces it.

## Main definitions

* `Action.SparesOutputs` — an action that does not write to outputs.
* `Network.KeepsData` — a variable that keeps its initial data whatever functions are bound and
  whatever the host does, as long as it writes to inputs only.
* `filling` — an override that fills all outputs with one byte.

## Main results

* `Session.region?_after_eq` — what neither the host nor a function can write to stays.
* `Reference.arrays_run_filling` — a run over filling functions fills what any of them lists.
* `Network.keepsData_iff` — a constant keeps its data exactly if no function lists it, or if it has
  no bytes.
-/

namespace Inference

variable {σ : Type}

/-! ## What nobody writes to -/

namespace Session

variable {session : Session σ} {bound : Bound σ} {network : Network} {i : Nat}

/-- Loading a descriptor binds the network that it is read as. -/
lemma exists_bound_of_load {loading : Nat} {descriptor : Bytes}
    (hdecode : Network.decode descriptor = .ok network)
    (hload : (session.load loading descriptor).result = .ok ()) :
    ∃ bound, (session.load loading descriptor).session.ready? = some bound ∧
      bound.Serves network ∧ bound.Fresh session.dispatch loading network := by
  obtain ⟨read, bound, hread, hheld, hserves⟩ := ready_of_load hload
  obtain rfl := Except.ok.inj (hread.symm.trans hdecode)
  obtain ⟨again, fresh, hagain, hfresh, hbinds⟩ := fresh_of_load hload
  obtain rfl := Except.ok.inj (hagain.symm.trans hdecode)
  obtain rfl := Option.some.inj (hfresh.symm.trans hheld)
  exact ⟨fresh, hheld, hserves, hbinds⟩

/-- Writing through an input or output leaves the region of a variable that is neither. -/
lemma region?_updated_write (hheld : session.ready? = some bound) (h : bound.Serves network)
    (hconsistent : network.Consistent) (hi : ∀ side, i ∉ network.listed side) (side : Side)
    (index offset : Nat) (bytes : Bytes) :
    ∃ next, (session.updated (session.write side index offset bytes)).session.ready? =
      some next ∧ next.arena.region? i = bound.arena.region? i := by
  cases hlisted : (network.listed side)[index]? with
  | none =>
    have hlacks := lacks_of_ready hheld h hconsistent (List.getElem?_eq_none_iff.mp hlisted)
    rw [hlacks.write_eq]
    exact ⟨bound, hheld, rfl⟩
  | some written =>
    rw [write_eq_ok hheld h hconsistent hlisted]
    refine ⟨_, ready?_holding hheld _ _, ?_⟩
    have hne : i ≠ written := by
      rintro rfl
      exact hi side (List.mem_of_getElem? hlisted)
    rw [(h.after_write written offset bytes).region?_eq, h.region?_eq, h.arrays_write, Patch.onto,
      Function.update_of_ne hne]

/-- An action after which a session is still ready leaves the region of a variable that is neither
an input nor an output nor written by a function. -/
lemma region?_perform_eq (hheld : session.ready? = some bound) (h : bound.Serves network)
    (hconsistent : network.Consistent) (hi : ∀ side, i ∉ network.listed side)
    (hfunctions : ∀ entry ∈ network.functions, i ∉ entry.outputs) (action : Action σ)
    {next : Bound σ} (hnext : (session.perform action).session.ready? = some next) :
    next.arena.region? i = bound.arena.region? i := by
  have hsame {other : Session σ} (hother : other.ready? = some bound)
      (hnext : other.ready? = some next) : next.arena.region? i = bound.arena.region? i := by
    rw [Option.some.inj (hnext.symm.trans hother)]
  cases action with
  | register op resolver =>
    refine hsame ?_ hnext
    rw [perform, Session.register, stage_of_ready hheld]
    exact hheld
  | load loading descriptor =>
    refine hsame ?_ hnext
    rw [perform, replied, load, stage_of_ready hheld]
    exact hheld
  | forward readings =>
    rw [perform, replied, forward_of_ready hheld, ready?_holding hheld] at hnext
    rw [← Option.some.inj hnext]
    exact h.region?_after_of_not_mem hconsistent hfunctions
  | write side index offset bytes =>
    obtain ⟨other, hother, hregion⟩ :=
      region?_updated_write hheld h hconsistent hi side index offset bytes
    rw [← Option.some.inj (hother.symm.trans hnext), hregion]
  | writeSingles index values =>
    cases hread : session.readSingles .input index with
    | error fault =>
      refine hsame ?_ hnext
      rw [perform, writeInputSingles, hread]
      exact hheld
    | ok held =>
      obtain ⟨other, hother, hregion⟩ :=
        region?_updated_write hheld h hconsistent hi .input index 0 (Single.bytesOf values)
      rw [perform, writeInputSingles, hread] at hnext
      rw [← Option.some.inj (hother.symm.trans hnext), hregion]
  | ask question => exact hsame hheld hnext
  | free =>
    rw [perform, replied, free, stage_of_ready hheld] at hnext
    cases hnext

/-- **What nobody writes to**: the region of a variable that is neither an input nor an output nor
written by a function stays as long as the session is ready, whatever the host does. -/
theorem region?_after_eq (hheld : session.ready? = some bound) (h : bound.Serves network)
    (hconsistent : network.Consistent) (hi : ∀ side, i ∉ network.listed side)
    (hfunctions : ∀ entry ∈ network.functions, i ∉ entry.outputs) (actions : List (Action σ))
    {last : Bound σ} (hlast : (session.after actions).ready? = some last) :
    last.arena.region? i = bound.arena.region? i := by
  induction actions generalizing session bound with
  | nil => rw [Option.some.inj (hlast.symm.trans hheld)]
  | cons action actions ih =>
    have hmoves := session.moves_perform action
    rw [stage_of_ready hheld] at hmoves
    obtain hnext | hfreed := hmoves.ready_or_freed
    · have hcoherent := (session.effect_perform action).coherent (coherent_of_ready hheld)
      obtain ⟨next, hnext⟩ := hcoherent.exists_ready hnext
      have hserves := ((serves_of_ready hheld h).effect hconsistent
        (session.effect_perform action)).ready next hnext
      rw [ih hnext hserves hlast,
        region?_perform_eq hheld h hconsistent hi hfunctions action hnext]
    · rw [after, (after_of_freed hfreed actions).1] at hlast
      rw [stage_of_ready hlast] at hfreed
      cases hfreed

end Session

/-! ## Functions that fill their outputs -/

/-- The routine that fills all outputs with one byte. -/
def fillingRoutine (byte : UInt8) : Execute σ := fun call state =>
  { outputs := call.outputs.map fun old => List.replicate old.length byte
    state := state
    result := .ok ()
    notes := [] }

/-- An override that takes every node and fills all outputs with one byte. -/
def filling (byte : UInt8) : Resolver σ := fun _ _ _ =>
  { resolution := .matched
    slot := { execute := some (fillingRoutine byte) }
    notes := [] }

namespace Reference

variable {lengths : Nat → Nat} {byte : UInt8}

/-- Storing as many copies of a byte as each listed variable has bytes fills these variables. -/
lemma store_replicate {arrays : Arrays} (h : Sized lengths arrays) (indices : List Nat) (i : Nat) :
    store arrays indices (indices.map fun j => List.replicate (lengths j) byte) i =
      if i ∈ indices then List.replicate (lengths i) byte else arrays i := by
  induction indices generalizing arrays with
  | nil => rfl
  | cons index indices ih =>
    have hfull : Bytes.overwrite (arrays index) (List.replicate (lengths index) byte) =
        List.replicate (lengths index) byte :=
      Bytes.overwrite_of_length_eq (by rw [List.length_replicate, h index])
    have hsized : Sized lengths
        (Function.update arrays index (List.replicate (lengths index) byte)) := by
      intro j
      by_cases hj : j = index
      · subst hj
        rw [Function.update_self, List.length_replicate]
      · rw [Function.update_of_ne hj, h j]
    rw [List.map_cons, store, hfull, ih hsized]
    by_cases hi : i ∈ indices
    · rw [if_pos hi, if_pos (List.mem_cons_of_mem _ hi)]
    · rw [if_neg hi]
      by_cases hindex : i = index
      · subst hindex
        rw [Function.update_self, if_pos List.mem_cons_self]
      · rw [Function.update_of_ne hindex, if_neg (by simp [hindex, hi])]

/-- A run over filling functions fills what any of them lists as an output, and nothing else. -/
theorem arrays_run_filling {todo : List (Task σ)}
    (htodo : ∀ task ∈ todo, task.execute = fillingRoutine byte) {arrays : Arrays}
    (h : Sized lengths arrays) (states : Nat → Option σ) (i : Nat) :
    (run todo arrays states).arrays i =
      if ∃ task ∈ todo, i ∈ task.entry.outputs then List.replicate (lengths i) byte
      else arrays i := by
  induction todo generalizing arrays states with
  | nil => simp [run]
  | cons task rest ih =>
    rw [List.forall_mem_cons] at htodo
    have houtputs : (task.execute (task.call arrays) (states task.entry.index)).outputs =
        task.entry.outputs.map fun j => List.replicate (lengths j) byte := by
      rw [htodo.1, fillingRoutine, Task.call, List.map_map]
      exact List.map_congr_left fun j _ => by rw [Function.comp_apply, h j]
    have hresult : (task.execute (task.call arrays) (states task.entry.index)).result = .ok () := by
      rw [htodo.1]
      rfl
    obtain ⟨later, hlater, hrun⟩ := run_cons_ok rfl hresult rest
    rw [hrun, hlater, ih htodo.2 (h.store _ _), houtputs, store_replicate h]
    simp only [List.exists_mem_cons_iff]
    by_cases hrest : ∃ other ∈ rest, i ∈ other.entry.outputs
    · rw [if_pos hrest, if_pos (.inr hrest)]
    · simp only [hrest, or_false, if_false]

end Reference

/-! ## A session in which all functions fill their outputs -/

namespace Dispatch

/-- A dispatch table with a filling override for each of some operators. -/
def fillingAll (byte : UInt8) (ops : List Operator) : Dispatch σ :=
  ops.foldl (fun dispatch op => dispatch.register op (filling byte)) (.empty .empty none)

/-- Registering overrides does not change the sentinel. -/
lemma sentinel_foldl_register (dispatch : Dispatch σ) (resolver : Resolver σ)
    (ops : List Operator) :
    (ops.foldl (fun dispatch op => dispatch.register op resolver) dispatch).sentinel =
      dispatch.sentinel := by
  induction ops generalizing dispatch with
  | nil => rfl
  | cons op ops ih => rw [List.foldl_cons, ih, register]

/-- Registering one override for several operators makes the chain of each of them longer, as often
as it stands there. -/
lemma chain_foldl_register (dispatch : Dispatch σ) (resolver : Resolver σ) (ops : List Operator)
    (op : Operator) :
    (ops.foldl (fun dispatch op => dispatch.register op resolver) dispatch).chain op =
      dispatch.chain op ++ List.replicate (ops.count op) resolver := by
  induction ops generalizing dispatch with
  | nil => simp
  | cons first ops ih =>
    rw [List.foldl_cons, ih, chain_register]
    by_cases hop : op = first
    · subst hop
      rw [Function.update_self, List.count_cons_self, List.append_assoc, List.replicate_succ]
      rfl
    · rw [Function.update_of_ne hop, List.count_cons_of_ne (Ne.symm hop)]

/-- A node whose operator is among them is bound to a filling routine. -/
lemma resolve_fillingAll (byte : UInt8) {ops : List Operator} (loading : Nat) {node : Node}
    (hop : node.op ∈ ops) :
    ((fillingAll byte ops : Dispatch σ).resolve loading node).result =
      .ok (.override 0, ⟨fillingRoutine byte, none, none⟩) := by
  have hsentinel : (fillingAll byte ops : Dispatch σ).sentinel ≠ some node.variant := by
    rw [fillingAll, sentinel_foldl_register]
    simp [empty]
  obtain ⟨count, hcount⟩ := Nat.exists_eq_succ_of_ne_zero
    (Nat.ne_of_gt (List.count_pos_iff.mpr hop))
  have hchain : (fillingAll byte ops : Dispatch σ).chain node.op =
      [] ++ filling byte :: List.replicate count (filling byte) := by
    rw [fillingAll, chain_foldl_register, hcount, List.replicate_succ]
    rfl
  rw [resolve_of_first hsentinel hchain (by simp) rfl]
  rfl

end Dispatch

/-- The largest settings that a session can have: a budget that no network exceeds, and no
sentinel. -/
def largestSettings : Settings :=
  { memoryBudget := "9223372036854775807", builtinVariant := none }

/-- The largest budget is what a machine can allocate. -/
lemma budget_largestSettings : largestSettings.budget = .ok ⟨Arena.allocationLimit⟩ := by
  decide +kernel

/-- A session that binds every function of a network to a filling routine. -/
def fillingSession (byte : UInt8) (network : Network) : Session σ :=
  { Session.new largestSettings .empty with
    dispatch := .fillingAll byte (network.functions.map FunctionEntry.op) }

namespace Session

variable {descriptor : Bytes} {network : Network} {v : Variable}

/-- Such a session loads the network. -/
lemma load_fillingSession (hdecode : Network.decode descriptor = .ok network) (byte : UInt8)
    (loading : Nat) :
    ((fillingSession byte network : Session σ).load loading descriptor).result = .ok () := by
  have hloads := (fillingSession byte network : Session σ).loads_load loading descriptor
  generalize (fillingSession byte network : Session σ).load loading descriptor = reply at hloads ⊢
  cases hloads with
  | refused hstage => exact absurd rfl hstage
  | unsettled _ hbudget =>
    rw [show (fillingSession byte network : Session σ).settings = largestSettings from rfl,
      budget_largestSettings] at hbudget
    cases hbudget
  | malformed _ _ hrefused =>
    rw [hdecode] at hrefused
    cases hrefused
  | @unbound _ read _ _ entry _ _ _ _ _ hread htable _ hnode hfault =>
    obtain rfl := Except.ok.inj (hread.symm.trans hdecode)
    have hentry : entry ∈ read.functions := htable ▸ List.mem_append_cons_self
    have hop := hnode.op_eq ▸ List.mem_map_of_mem (f := FunctionEntry.op) hentry
    have hresult := Dispatch.resolve_fillingAll (σ := σ) byte loading hop
    rw [show (fillingSession byte read : Session σ).dispatch =
      .fillingAll byte (read.functions.map FunctionEntry.op) from rfl, hresult] at hfault
    cases hfault
  | @oversized budget read _ _ hbudget hread _ hexceeds =>
    obtain rfl := Except.ok.inj (hread.symm.trans hdecode)
    obtain rfl := Except.ok.inj (hbudget.symm.trans budget_largestSettings)
    exact absurd (Network.paddedTotal_le hdecode) (Nat.not_le.mpr hexceeds)
  | loaded => rfl

/-- All its tasks have filling routines. -/
lemma execute_eq_of_mem_tasks {byte : UInt8} {loading : Nat} {bound : Bound σ}
    (hbinds : bound.Fresh (fillingSession byte network : Session σ).dispatch loading network) :
    ∀ task ∈ Reference.tasks network.functions bound.functions,
      task.execute = fillingRoutine byte := by
  intro task htask
  obtain ⟨⟨entry, function⟩, hmem, rfl⟩ := List.mem_map.mp htask
  have hfunction := List.forall₂_zip hbinds.functions hmem
  have hop : function.node.op ∈ network.functions.map FunctionEntry.op :=
    hfunction.presents.op_eq ▸ List.mem_map_of_mem (List.of_mem_zip hmem).1
  have hresult := hfunction.result_eq.symm.trans
    (Dispatch.resolve_fillingAll (σ := σ) byte loading hop)
  exact congrArg Binding.execute (Prod.mk.inj (Except.ok.inj hresult)).2

/-- A pass fills every variable that a function lists as an output. -/
lemma exists_filled (hdecode : Network.decode descriptor = .ok network)
    (hv : v ∈ network.variableTable) {entry : FunctionEntry} (hentry : entry ∈ network.functions)
    (houtput : v.index ∈ entry.outputs) (byte : UInt8) (loading : Nat) :
    ∃ bound, (((fillingSession byte network : Session σ).load loading descriptor).session.after
        [.forward id]).ready? = some bound ∧
      bound.arena.region? v.index = some (List.replicate v.byteSize byte) := by
  have hconsistent := Network.consistent_of_decode hdecode
  obtain ⟨bound, hheld, hserves, hbinds⟩ :=
    exists_bound_of_load hdecode (load_fillingSession (σ := σ) hdecode byte loading)
  have hlisted : ∃ task ∈ Reference.tasks network.functions bound.functions,
      v.index ∈ task.entry.outputs := by
    rw [← hserves.map_entry_tasks hconsistent] at hentry
    obtain ⟨task, htask, rfl⟩ := List.mem_map.mp hentry
    exact ⟨task, htask, houtput⟩
  obtain ⟨i, hi⟩ := List.getElem?_of_mem hv
  obtain rfl := hconsistent.variable_index i v hi
  refine ⟨bound.after bound.walk, ?_, ?_⟩
  · rw [after, after, perform, forward_of_ready hheld]
    exact ready?_holding hheld _ _
  rw [(hserves.after_walk hconsistent).region?_eq, hserves.arrays_after hconsistent,
    Reference.arrays_run_filling (execute_eq_of_mem_tasks hbinds) (hserves.sized hconsistent),
    if_pos hlisted, if_pos (List.getElem?_eq_some_iff.mp hi).1, Network.lengths, hi]
  rfl

end Session

/-! ## Constants -/

/-- Whether an action leaves the outputs to the network: it may write to inputs only. -/
def Action.SparesOutputs : Action σ → Prop
  | .write .output _ _ _ => False
  | _ => True

/-- A variable keeps its initial data in every session that loads the descriptor, whatever the
functions are bound to and whatever the host does, as long as it writes to inputs only. -/
def Network.KeepsData (σ : Type) (network : Network) (descriptor : Bytes) (v : Variable) : Prop :=
  ∀ (session : Session σ) (loading : Nat), (session.load loading descriptor).result = .ok () →
    ∀ actions : List (Action σ), (∀ action ∈ actions, action.SparesOutputs) →
      ∀ bound, ((session.load loading descriptor).session.after actions).ready? = some bound →
        bound.arena.region? v.index = network.parameterData? v

namespace Network

variable {descriptor : Bytes} {network : Network} {v : Variable}

/-- A constant has initial data, of its size. -/
lemma exists_parameterData_of_role (hdecode : Network.decode descriptor = .ok network)
    (hv : v ∈ network.variableTable) (hrole : v.role = .parameter) :
    ∃ data, network.parameterData? v = some data ∧ data.length = v.byteSize := by
  obtain ⟨-, -, block, hstorage⟩ := (assigns_of_decode hdecode hv).parameter.mp hrole
  obtain ⟨data, -, hle, hdata⟩ := (places_of_decode hdecode hv).parameter block hstorage
  exact ⟨_, hdata, by rw [List.length_take, Nat.min_eq_left hle]⟩

/-- A constant is neither an input nor an output. -/
lemma not_mem_listed_of_role (hdecode : Network.decode descriptor = .ok network)
    (hv : v ∈ network.variableTable) (hrole : v.role = .parameter) (side : Side) :
    v.index ∉ network.listed side := by
  obtain ⟨hinputs, houtputs, -⟩ := (assigns_of_decode hdecode hv).parameter.mp hrole
  cases side with
  | input => exact hinputs
  | output => exact houtputs

/-- The region of a constant holds its data when the network was just bound. -/
lemma region?_of_fresh (hdecode : Network.decode descriptor = .ok network)
    (hv : v ∈ network.variableTable) (hrole : v.role = .parameter) {bound : Bound σ}
    {dispatch : Dispatch σ} {loading : Nat} (hbound : bound.Fresh dispatch loading network) :
    bound.arena.region? v.index = network.parameterData? v := by
  obtain ⟨i, hi⟩ := List.getElem?_of_mem hv
  obtain rfl := (consistent_of_decode hdecode).variable_index i v hi
  obtain ⟨region, hregion, hholds⟩ := hbound.contents v.index v hi
  obtain ⟨-, -, block, hstorage⟩ := (assigns_of_decode hdecode hv).parameter.mp hrole
  obtain ⟨data, hblock, -, hdata⟩ := (places_of_decode hdecode hv).parameter block hstorage
  obtain ⟨held, hheld, hprefix⟩ := hholds.parameter block hstorage
  obtain rfl := Option.some.inj (hblock.symm.trans hheld)
  rw [hregion, hdata, ← hholds.length_eq, ← List.prefix_iff_eq_take.mp hprefix]

/-- A constant that no function lists as an output keeps its data, whatever the host does. -/
theorem region?_eq_parameterData? (hdecode : Network.decode descriptor = .ok network)
    (hv : v ∈ network.variableTable) (hrole : v.role = .parameter)
    (hfunctions : ∀ entry ∈ network.functions, v.index ∉ entry.outputs) {session : Session σ}
    {loading : Nat} (hload : (session.load loading descriptor).result = .ok ())
    (actions : List (Action σ)) {bound : Bound σ}
    (hready : ((session.load loading descriptor).session.after actions).ready? = some bound) :
    bound.arena.region? v.index = network.parameterData? v := by
  obtain ⟨first, hfirst, hserves, hbound⟩ := Session.exists_bound_of_load hdecode hload
  rw [Session.region?_after_eq hfirst hserves (consistent_of_decode hdecode)
    (not_mem_listed_of_role hdecode hv hrole) hfunctions actions hready,
    region?_of_fresh hdecode hv hrole hbound]

/-- **Constants**: a constant of a network that was read keeps its data exactly if it has no bytes
or no function lists it as an output. Otherwise there is a session in which one pass replaces the
data, without any writing of the host.

**Proof sketch.** A constant is neither an input nor an output, so only a pass can change its
region, and a pass changes what its functions list (`Session.region?_after_eq`). If a function lists
it, bind all functions to routines that fill their outputs with a byte that the data does not start
with: after one pass the region holds that byte (`Session.exists_filled`). -/
theorem keepsData_iff (hdecode : Network.decode descriptor = .ok network)
    (hv : v ∈ network.variableTable) (hrole : v.role = .parameter) :
    network.KeepsData σ descriptor v ↔
      v.byteSize = 0 ∨ ∀ entry ∈ network.functions, v.index ∉ entry.outputs := by
  obtain ⟨data, hdata, hlength⟩ := exists_parameterData_of_role hdecode hv hrole
  constructor
  · intro hkeeps
    by_contra hlisted
    simp only [not_or, not_forall, not_not] at hlisted
    obtain ⟨hsome, entry, hentry, houtput⟩ := hlisted
    obtain ⟨byte, rest, rfl⟩ : ∃ byte rest, data = byte :: rest :=
      List.exists_cons_of_length_pos (by omega)
    obtain ⟨bound, hready, hregion⟩ :=
      Session.exists_filled (σ := σ) hdecode hv hentry houtput (byte + 1) 0
    have hkept := hkeeps (fillingSession (byte + 1) network) 0
      (Session.load_fillingSession hdecode _ 0) [.forward id] (by simp [Action.SparesOutputs]) bound
      hready
    rw [hregion, hdata, ← hlength, List.length_cons, List.replicate_succ, Option.some.injEq]
      at hkept
    have hbyte : byte + 1 = byte := (List.cons.inj hkept).1
    exact absurd hbyte (by simp)
  · rintro (hempty | hfunctions) session loading hload actions - bound hready
    · obtain ⟨first, hfirst, hserves, -⟩ := Session.exists_bound_of_load hdecode hload
      have hconsistent := consistent_of_decode hdecode
      have hbound := (Session.serves_after (Session.serves_of_ready hfirst hserves) hconsistent
        actions).ready bound hready
      obtain ⟨i, hi⟩ := List.getElem?_of_mem hv
      obtain rfl := hconsistent.variable_index i v hi
      have hnone : bound.arrays v.index = [] := by
        rw [← List.length_eq_zero_iff, hbound.length_arrays hconsistent hv, hempty]
      rw [hbound.region?_eq, if_pos (List.getElem?_eq_some_iff.mp hi).1, hnone, hdata,
        List.length_eq_zero_iff.mp (hlength.trans hempty)]
    · exact region?_eq_parameterData? hdecode hv hrole hfunctions hload actions hready

/-- A constant that is copied to the output, and then replaced by the input. -/
def drifting : Draft where
  buffers := [1, 1]
  variableTable :=
    [{ id := 0, dims := [1], elementType := .float, backing := .buffer 0 },
     { id := 1, dims := [1], elementType := .float, backing := .data [0, 0, 128, 63] },
     { id := 2, dims := [1], elementType := .float, backing := .buffer 1 }]
  functions :=
    [{ op := .relu, inputs := [1], outputs := [2] },
     { op := .relu, inputs := [0], outputs := [1] }]
  inputs := [0]
  outputs := [2]

/-- The weights of two layers keep their data. A constant that a function replaces does not. -/
theorem keepsData_layers_and_drifting :
    (∃ network v, Network.decode Session.layers.encode = .ok network ∧
      network.variableTable[1]? = some v ∧ v.role = .parameter ∧ v.byteSize = 16 ∧
      network.KeepsData Nat Session.layers.encode v) ∧
    ∃ network v, Network.decode drifting.encode = .ok network ∧
      network.variableTable[1]? = some v ∧ v.role = .parameter ∧
      ¬network.KeepsData Nat drifting.encode v := by
  have hlayers : Network.decode Session.layers.encode =
      .ok (Format.network Session.layers.encode) := by decide +kernel
  have hdrifting : Network.decode drifting.encode = .ok (Format.network drifting.encode) := by
    decide +kernel
  have hweights : (Format.network Session.layers.encode).variableTable[1]?.map
      (fun v => (v.index, v.role, v.byteSize)) = some (1, .parameter, 16) := by decide +kernel
  have hconstant : (Format.network drifting.encode).variableTable[1]?.map
      (fun v => (v.index, v.role, v.byteSize)) = some (1, .parameter, 4) := by decide +kernel
  have hkept : ∀ entry ∈ (Format.network Session.layers.encode).functions, 1 ∉ entry.outputs := by
    decide +kernel
  have hreplaced : ¬∀ entry ∈ (Format.network drifting.encode).functions, 1 ∉ entry.outputs := by
    decide +kernel
  obtain ⟨v, hv, hparts⟩ := Option.map_eq_some_iff.mp hweights
  obtain ⟨w, hw, hparts'⟩ := Option.map_eq_some_iff.mp hconstant
  rw [Prod.mk.injEq, Prod.mk.injEq] at hparts hparts'
  obtain ⟨hindex, hrole, hsize⟩ := hparts
  obtain ⟨hindex', hrole', hsize'⟩ := hparts'
  refine ⟨⟨_, v, hlayers, hv, hrole, hsize, ?_⟩, _, w, hdrifting, hw, hrole', ?_⟩
  · rw [keepsData_iff hlayers (List.mem_of_getElem? hv) hrole, hindex]
    exact .inr hkept
  · rw [keepsData_iff hdrifting (List.mem_of_getElem? hw) hrole', hindex', hsize']
    exact fun h => h.elim (by decide) hreplaced

/-- An override that copies its inputs to its outputs. -/
def echoing : Resolver Nat := fun _ _ _ =>
  { resolution := .matched
    slot :=
      { execute := some fun call state =>
          { outputs := call.inputs
            state := state
            result := .ok ()
            notes := [] } }
    notes := [] }

/-- Not every constant of a network keeps its data: one pass replaces the drifting one by the
input, which is zero. -/
theorem not_forall_keepsData :
    ¬∀ (descriptor : Bytes) (network : Network) (v : Variable),
      Network.decode descriptor = .ok network → v ∈ network.variableTable → v.role = .parameter →
        network.KeepsData Nat descriptor v := by
  intro hkeeps
  let session : Session Nat := (Session.new {} .empty).after [.register .relu echoing]
  have hdecode : Network.decode drifting.encode = .ok (Format.network drifting.encode) := by
    decide +kernel
  have hload : (session.load 0 drifting.encode).result = .ok () := by decide +kernel
  have hparts : (Format.network drifting.encode).variableTable[1]?.map (fun v =>
      (v.index, v.role, (Format.network drifting.encode).parameterData? v)) =
        some (1, .parameter, some [0, 0, 128, 63]) := by decide +kernel
  have hregion : (((session.load 0 drifting.encode).session.after [.forward id]).bound
      .forward).map (fun bound => bound.arena.region? 1) = .ok (some [0, 0, 0, 0]) := by
    decide +kernel
  obtain ⟨v, hv, hparts⟩ := Option.map_eq_some_iff.mp hparts
  rw [Prod.mk.injEq, Prod.mk.injEq] at hparts
  obtain ⟨bound, hbound, hregion⟩ := map_eq_ok_iff.mp hregion
  have hkept := hkeeps _ _ v hdecode (List.mem_of_getElem? hv) hparts.2.1 session 0 hload
    [.forward id] (by simp [Action.SparesOutputs]) bound (Session.bound_eq_ok_iff.mp hbound)
  rw [hparts.1, hregion, hparts.2.2] at hkept
  exact absurd hkept (by decide)

end Network

end Inference
