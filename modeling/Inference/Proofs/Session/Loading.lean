import Inference.Proofs.Descriptor.Extent
import Inference.Proofs.Engine.Refinement

set_option autoImplicit false
set_option relaxedAutoImplicit false

/-!
# Loading

A descriptor is loaded in four steps: the budget is taken from the settings, the descriptor is
read, its functions are bound one after another, and the store is laid out. The first step that
fails decides the answer, and nothing happens after it but the release of what was bound. If all
succeed, the session has the network that the descriptor describes, with nothing left out.

## Main definitions

* `Node.Presents` — a node that shows a function entry.
* `Dispatch.Binds`, `Dispatch.story` — a function that is bound to what the dispatch table
  answers, and what happens when functions are bound.
* `Bound.Fresh` — a network as it was just bound.
* `Session.Loads` — what loading gives.

## Main results

* `Network.split_arena` — every region holds what its variable has before the first pass.
* `Session.loads_load` — loading gives what is said here.
* `Session.load_ok_iff` — when a descriptor is loaded.
-/

namespace Inference

variable {σ : Type}

/-! ## Presented functions -/

/-- A node that shows a function entry: its variables are those that the entry lists, in argument
order and with none left out, and all else is the same. -/
structure Node.Presents (node : Node) (network : Network) (entry : FunctionEntry) : Prop where
  index_eq : node.index = entry.index
  op_eq : node.op = entry.op
  variant_eq : node.variant = entry.variant
  inputs_eq : node.inputs.map some = entry.inputs.map fun i => network.variableTable[i]?
  outputs_eq : node.outputs.map some = entry.outputs.map fun i => network.variableTable[i]?
  parameters_eq : node.parameters = entry.parameters

namespace Network

variable {network : Network}

/-- Variables that exist are selected with none left out. -/
lemma map_some_select {indices : List Nat}
    (h : ∀ index ∈ indices, index < network.variableTable.length) :
    (network.select indices).map some = indices.map fun i => network.variableTable[i]? := by
  induction indices with
  | nil => rfl
  | cons index indices ih =>
    rw [List.forall_mem_cons] at h
    have hfound := List.getElem?_eq_getElem h.1
    rw [select, List.filterMap_cons, hfound, List.map_cons, List.map_cons, ← select, ih h.2, hfound]

/-- What is found under indices is what is selected. -/
lemma select_eq_of_map_some {indices : List Nat} {vs : List Variable}
    (h : vs.map some = indices.map fun i => network.variableTable[i]?) :
    network.select indices = vs := by
  have hselect : network.select indices =
      (indices.map fun i => network.variableTable[i]?).filterMap id := by
    rw [List.filterMap_map]
    rfl
  rw [hselect, ← h, List.filterMap_map]
  exact List.filterMap_some

/-- The node of a function shows it. -/
theorem presents_node (h : network.Consistent) {entry : FunctionEntry}
    (hentry : entry ∈ network.functions) : (network.node entry).Presents network entry where
  index_eq := rfl
  op_eq := rfl
  variant_eq := rfl
  inputs_eq := map_some_select (h.functions_consistent entry hentry).inputs_lt
  outputs_eq := map_some_select (h.functions_consistent entry hentry).outputs_lt
  parameters_eq := rfl

end Network

/-- Only the node of a function shows it. -/
lemma Node.Presents.eq_node {node : Node} {network : Network} {entry : FunctionEntry}
    (h : node.Presents network entry) : node = network.node entry := by
  obtain ⟨index, op, variant, inputs, outputs, parameters⟩ := node
  obtain ⟨rfl, rfl, rfl, hinputs, houtputs, rfl⟩ := h
  rw [Network.node, Network.select_eq_of_map_some hinputs, Network.select_eq_of_map_some houtputs]

/-! ## Binding in order -/

namespace Dispatch

/-- A function of a network that is bound to what the dispatch table answers for the node that
shows it. -/
structure Binds (dispatch : Dispatch σ) (loading : Nat) (network : Network) (entry : FunctionEntry)
    (function : BoundNode σ) : Prop where
  presents : function.node.Presents network entry
  result_eq : (dispatch.resolve loading function.node).result =
    .ok (function.source, function.binding)

/-- What happens when functions are bound one after another. -/
def story (dispatch : Dispatch σ) (loading : Nat) (functions : List (BoundNode σ)) :
    List (Event σ) :=
  functions.flatMap fun function => (dispatch.resolve loading function.node).journal ++
    [.bound function.node.index function.source function.binding]

variable {dispatch : Dispatch σ} {loading : Nat} {network : Network}

/-- Functions that can be bound are bound before the others. -/
lemma bindAll_append {front : List FunctionEntry} {functions : List (BoundNode σ)}
    (h : List.Forall₂ (dispatch.Binds loading network) front functions) (back : List Node) :
    dispatch.bindAll loading (front.map network.node ++ back) =
      ⟨functions ++ (dispatch.bindAll loading back).functions,
        (dispatch.bindAll loading back).failure,
        dispatch.story loading functions ++ (dispatch.bindAll loading back).journal⟩ := by
  induction h with
  | nil => rfl
  | @cons entry function front functions hhead htail ih =>
    obtain ⟨node, source, binding⟩ := function
    have hresult := hhead.result_eq
    rw [hhead.presents.eq_node] at hresult
    have hnode : node = network.node entry := hhead.presents.eq_node
    subst hnode
    simp only [List.map_cons, List.cons_append, bindAll, hresult, ih, story, List.flatMap_cons,
      List.append_assoc, List.nil_append]

/-- Every function of a list that is bound is bound to something. -/
lemma exists_found {entries : List FunctionEntry} {functions : List (BoundNode σ)}
    (h : List.Forall₂ (dispatch.Binds loading network) entries functions) :
    ∀ entry ∈ entries, ∃ node found, node.Presents network entry ∧
      (dispatch.resolve loading node).result = .ok found := by
  induction h with
  | nil => exact fun _ hentry => absurd hentry List.not_mem_nil
  | cons hhead _ ih => exact List.forall_mem_cons.mpr ⟨⟨_, _, hhead.presents, hhead.result_eq⟩, ih⟩

/-- Every bound function has what the dispatch table answers for its node. -/
lemma resolve_of_binds {entries : List FunctionEntry} {functions : List (BoundNode σ)}
    (h : List.Forall₂ (dispatch.Binds loading network) entries functions) :
    ∀ function ∈ functions,
      (dispatch.resolve loading function.node).result =
        .ok (function.source, function.binding) := by
  induction h with
  | nil => exact fun _ hfunction => absurd hfunction List.not_mem_nil
  | cons hhead _ ih => exact List.forall_mem_cons.mpr ⟨hhead.result_eq, ih⟩

/-- If all functions can be bound, they are. -/
lemma bindAll_of_forall_binds {entries : List FunctionEntry} {functions : List (BoundNode σ)}
    (h : List.Forall₂ (dispatch.Binds loading network) entries functions) :
    dispatch.bindAll loading (entries.map network.node) =
      ⟨functions, none, dispatch.story loading functions⟩ := by
  have happend := bindAll_append h []
  rwa [List.append_nil, bindAll, List.append_nil, List.append_nil] at happend

/-- Binding stops at the first function that cannot be bound. -/
lemma bindAll_of_first {front back : List FunctionEntry} {entry : FunctionEntry}
    {functions : List (BoundNode σ)} {fault : BindingFault}
    (h : List.Forall₂ (dispatch.Binds loading network) front functions)
    (hfault : (dispatch.resolve loading (network.node entry)).result = .error fault) :
    dispatch.bindAll loading ((front ++ entry :: back).map network.node) =
      ⟨functions, some (network.node entry, fault),
        dispatch.story loading functions ++
          (dispatch.resolve loading (network.node entry)).journal⟩ := by
  rw [List.map_append, bindAll_append h, List.map_cons]
  simp only [bindAll, hfault, List.append_nil]

/-- All functions can be bound, or there is a first one that cannot. -/
lemma exists_binds_or_first (dispatch : Dispatch σ) (loading : Nat) {entries : List FunctionEntry}
    (h : ∀ entry ∈ entries, (network.node entry).Presents network entry) :
    (∃ functions, List.Forall₂ (dispatch.Binds loading network) entries functions) ∨
      ∃ front entry back functions fault, entries = front ++ entry :: back ∧
        List.Forall₂ (dispatch.Binds loading network) front functions ∧
        (dispatch.resolve loading (network.node entry)).result = .error fault := by
  induction entries with
  | nil => exact .inl ⟨[], .nil⟩
  | cons entry entries ih =>
    rw [List.forall_mem_cons] at h
    cases hresult : (dispatch.resolve loading (network.node entry)).result with
    | error fault => exact .inr ⟨[], entry, entries, [], fault, rfl, .nil, hresult⟩
    | ok found =>
      obtain ⟨source, binding⟩ := found
      have hhead : dispatch.Binds loading network entry ⟨network.node entry, source, binding⟩ :=
        ⟨h.1, hresult⟩
      obtain ⟨functions, hall⟩ | ⟨front, first, back, functions, fault, rfl, hfront, hfault⟩ :=
        ih h.2
      · exact .inl ⟨_ :: functions, .cons hhead hall⟩
      · exact .inr ⟨entry :: front, first, back, _ :: functions, fault, rfl,
          .cons hhead hfront, hfault⟩

end Dispatch

/-! ## Filling the store -/

/-- Entries of a table that are changed one after another, each at its own position. -/
lemma foldl_modify (g : Variable → Bytes → Bytes) {vs : List Variable} (front : List Bytes)
    {olds : List Bytes} (hlength : olds.length = vs.length)
    (hindex : vs.map Variable.index = List.range' front.length vs.length) :
    vs.foldl (fun table v => table.modify v.index (g v)) (front ++ olds) =
      front ++ List.zipWith g vs olds := by
  induction vs generalizing front olds with
  | nil =>
    obtain rfl := List.length_eq_zero_iff.mp hlength
    rfl
  | cons v vs ih =>
    obtain ⟨old, olds, rfl⟩ := List.exists_cons_of_length_eq_add_one hlength
    rw [List.map_cons, List.length_cons, List.range'_succ, List.cons.injEq] at hindex
    have hmodify : (front ++ old :: olds).modify v.index (g v) = front ++ [g v old] ++ olds := by
      rw [hindex.1, List.modify_eq_take_cons_drop (by simp)]
      simp
    have hlater : vs.map Variable.index = List.range' (front ++ [g v old]).length vs.length := by
      simpa using hindex.2
    rw [List.foldl_cons, hmodify, ih _ (by simpa using hlength) hlater, List.append_assoc,
      List.zipWith_cons_cons, List.singleton_append]

namespace Network

variable {network : Network}

/-- The variables have their positions as indices. -/
lemma map_index_variableTable (h : network.Consistent) :
    network.variableTable.map Variable.index = List.range' 0 network.variableTable.length := by
  apply List.ext_getElem
  · simp
  · intro i hi _
    rw [List.getElem_map, List.getElem_range', Nat.zero_add, Nat.one_mul]
    exact h.variable_index i _ (List.getElem?_eq_getElem (by simpa using hi))

/-- What a region has after the initial data of its variable was laid over it. -/
def filled (network : Network) (v : Variable) (old : Bytes) : Bytes :=
  match network.parameterData? v with
  | some data => old.overwriteAt 0 data
  | none => old

/-- Filling a region changes that region. -/
lemma split_fillRegion {arena : Arena} (h : arena.Tiled) (v : Variable) :
    (network.fillRegion arena v).split = arena.split.modify v.index (network.filled v) := by
  unfold fillRegion filled
  cases network.parameterData? v with
  | some data => exact Arena.split_write h _ _ _
  | none => exact (List.modify_id _ _).symm

/-- Filling regions changes these regions. -/
lemma split_foldl_fillRegion {arena : Arena} (h : arena.Tiled) (vs : List Variable) :
    (vs.foldl network.fillRegion arena).split =
      vs.foldl (fun table v => table.modify v.index (network.filled v)) arena.split := by
  induction vs generalizing arena with
  | nil => rfl
  | cons v vs ih =>
    rw [List.foldl_cons, List.foldl_cons, ih (fillRegion_layout network h v).1, split_fillRegion h]

variable {descriptor : Bytes} {budget : Budget}

/-- A zeroed region that is filled has the initial contents of its variable. -/
lemma filled_zeros (hdecode : Network.decode descriptor = .ok network) {v : Variable}
    (hv : v ∈ network.variableTable) :
    network.filled v (Bytes.zeros v.byteSize) = network.initial v := by
  have hlength := (holds_initial hdecode hv).length_eq
  rw [initial] at hlength ⊢
  unfold filled
  cases hdata : network.parameterData? v with
  | none => rfl
  | some data =>
    rw [hdata, Option.getD_some] at hlength
    have hsame : data.length = (Bytes.zeros v.byteSize).length := by
      rw [hlength, Bytes.zeros, List.length_replicate]
    exact Bytes.overwrite_of_length_eq hsame

/-- **Initial contents**: in the store of a network that was read, every region has what its
variable has before the first pass.

**Proof sketch.** The regions start out zeroed (`Arena.split_allocate`). The variables are treated
in table order, and each has its position as index, so each region is changed once. -/
theorem split_arena (hdecode : Network.decode descriptor = .ok network) {arena : Arena}
    (harena : network.arena budget = .ok arena) :
    arena.split = network.variableTable.map network.initial := by
  rw [Network.arena, map_eq_ok_iff] at harena
  obtain ⟨zeroed, hzeroed, rfl⟩ := harena
  have hindex := map_index_variableTable (consistent_of_decode hdecode)
  have hlength : ((network.variableTable.map Variable.byteSize).map Bytes.zeros).length =
      network.variableTable.length := by simp
  have hfold := foldl_modify network.filled [] hlength hindex
  rw [List.nil_append, List.nil_append] at hfold
  rw [split_foldl_fillRegion (Arena.tiled_of_allocate hzeroed).1, Arena.split_allocate hzeroed,
    hfold, List.map_map, List.zipWith_map_right, List.zipWith_self]
  apply List.map_congr_left
  intro v hv
  exact filled_zeros hdecode hv

/-- The store of a network that was read is laid out if it fits the budget. -/
lemma exists_arena (hdecode : Network.decode descriptor = .ok network)
    (hfits : Arena.paddedTotal (network.variableTable.map Variable.byteSize) ≤ budget.bytes) :
    ∃ arena, network.arena budget = .ok arena := by
  obtain ⟨zeroed, hzeroed⟩ := Arena.allocate_eq_ok (paddedTotal_le hdecode) hfits
  exact ⟨_, by rw [Network.arena, hzeroed, Except.map]⟩

/-- It is refused if it exceeds the budget. -/
lemma arena_eq_error (hdecode : Network.decode descriptor = .ok network)
    (hexceeds : budget.bytes < Arena.paddedTotal (network.variableTable.map Variable.byteSize)) :
    network.arena budget = .error (.outOfMemory
      (Arena.paddedTotal (network.variableTable.map Variable.byteSize)) budget.bytes) := by
  rw [Network.arena, Arena.allocate_eq_error (paddedTotal_le hdecode) hexceeds, Except.map]

end Network

/-! ## Loading -/

/-- A network as it was just bound: all its inputs, outputs and functions are there, and every
variable has a region of its size, with its initial contents. -/
structure Bound.Fresh (bound : Bound σ) (dispatch : Dispatch σ) (loading : Nat)
    (network : Network) : Prop where
  inputs_eq : bound.inputs.map some = network.inputs.map fun i => network.variableTable[i]?
  outputs_eq : bound.outputs.map some = network.outputs.map fun i => network.variableTable[i]?
  functions : List.Forall₂ (dispatch.Binds loading network) network.functions bound.functions
  count_eq : bound.arena.count = network.variableTable.length
  contents : ∀ (i : Nat) (v : Variable), network.variableTable[i]? = some v →
    ∃ region, bound.arena.region? i = some region ∧ network.Holds v region

namespace Session

/-- Bytes that the regions of a network take in a store. -/
abbrev required (network : Network) : Nat :=
  Arena.paddedTotal (network.variableTable.map Variable.byteSize)

/-- What loading a descriptor gives: the answer, the session after it, and what happens on the
way. -/
inductive Loads (session : Session σ) (loading : Nat) (descriptor : Bytes) :
    Reply σ Unit → Prop where
  /-- The session is not configuring. -/
  | refused (hstage : session.stage ≠ .configuring) :
      Loads session loading descriptor ⟨.error (.invalidState .load session.stage), session, []⟩
  /-- The settings name no budget. -/
  | unsettled {fault : SettingsFault} (hstage : session.stage = .configuring)
      (hbudget : session.settings.budget = .error fault) :
      Loads session loading descriptor ⟨.error (.settings fault), session, []⟩
  /-- The descriptor is refused. -/
  | malformed {budget : Budget} {fault : DescriptorFault} (hstage : session.stage = .configuring)
      (hbudget : session.settings.budget = .ok budget)
      (hdecode : Network.decode descriptor = .error fault) :
      Loads session loading descriptor ⟨.error (.malformed fault), session, []⟩
  /-- A function cannot be bound. Those before it were, and are released. -/
  | unbound {budget : Budget} {network : Network} {front back : List FunctionEntry}
      {entry : FunctionEntry} {functions : List (BoundNode σ)} {node : Node} {fault : BindingFault}
      (hstage : session.stage = .configuring) (hbudget : session.settings.budget = .ok budget)
      (hdecode : Network.decode descriptor = .ok network)
      (htable : network.functions = front ++ entry :: back)
      (hfront : List.Forall₂ (session.dispatch.Binds loading network) front functions)
      (hnode : node.Presents network entry)
      (hfault : (session.dispatch.resolve loading node).result = .error fault) :
      Loads session loading descriptor
        ⟨.error (.ofBinding node fault), session,
          session.dispatch.story loading functions ++
            (session.dispatch.resolve loading node).journal ++ BoundNode.releaseAll functions⟩
  /-- The store exceeds the budget. All functions were bound, and are released. -/
  | oversized {budget : Budget} {network : Network} {functions : List (BoundNode σ)}
      (hstage : session.stage = .configuring) (hbudget : session.settings.budget = .ok budget)
      (hdecode : Network.decode descriptor = .ok network)
      (hfunctions : List.Forall₂ (session.dispatch.Binds loading network) network.functions
        functions)
      (hexceeds : budget.bytes < required network) :
      Loads session loading descriptor
        ⟨.error (.memory (.outOfMemory (required network) budget.bytes)), session,
          session.dispatch.story loading functions ++ BoundNode.releaseAll functions⟩
  /-- The network is bound. A network that was held before would be given up. -/
  | loaded {budget : Budget} {network : Network} {bound : Bound σ}
      (hstage : session.stage = .configuring) (hbudget : session.settings.budget = .ok budget)
      (hdecode : Network.decode descriptor = .ok network)
      (hbound : bound.Fresh session.dispatch loading network)
      (hfits : required network ≤ budget.bytes) :
      Loads session loading descriptor
        ⟨.ok (), { session with held := some bound, stage := .ready },
          session.dispatch.story loading bound.functions ++ session.close⟩

/-- A network that was read is bound fresh. -/
lemma fresh_of_arena {descriptor : Bytes} {network : Network} {budget : Budget} {arena : Arena}
    {dispatch : Dispatch σ} {loading : Nat} {functions : List (BoundNode σ)}
    (hdecode : Network.decode descriptor = .ok network)
    (hfunctions : List.Forall₂ (dispatch.Binds loading network) network.functions functions)
    (harena : network.arena budget = .ok arena) :
    Bound.Fresh ⟨network.select network.inputs, network.select network.outputs, functions, arena⟩
      dispatch loading network where
  inputs_eq := Network.map_some_select (Network.consistent_of_decode hdecode).inputs_lt
  outputs_eq := Network.map_some_select (Network.consistent_of_decode hdecode).outputs_lt
  functions := hfunctions
  count_eq := by
    have hsizes := congrArg List.length (Network.arena_layout harena).2
    rwa [List.length_map, List.length_map] at hsizes
  contents := by
    intro i v hv
    refine ⟨network.initial v, ?_, Network.holds_initial hdecode (List.mem_of_getElem? hv)⟩
    rw [← Arena.getElem?_split (Network.arena_layout harena).1, Network.split_arena hdecode harena,
      List.getElem?_map, hv, Option.map_some]

/-- Loading gives what it is said to give.

**Proof sketch.** The steps are taken in order. The functions of a network that was read can all be
shown to the dispatch table (`Network.presents_node`), so either all are bound or there is a first
one that is not (`Dispatch.exists_binds_or_first`); then the store fits the budget or does not. -/
theorem loads_load (session : Session σ) (loading : Nat) (descriptor : Bytes) :
    session.Loads loading descriptor (session.load loading descriptor) := by
  by_cases hstage : session.stage = .configuring
  case neg =>
    have hrefused : session.load loading descriptor =
        ⟨.error (.invalidState .load session.stage), session, []⟩ := by
      unfold load
      split
      · contradiction
      · rfl
    rw [hrefused]
    exact .refused hstage
  cases hbudget : session.settings.budget with
  | error fault =>
    simp only [load, hstage, hbudget]
    exact .unsettled hstage hbudget
  | ok budget =>
    cases hdecode : Network.decode descriptor with
    | error fault =>
      simp only [load, hstage, hbudget, hdecode]
      exact .malformed hstage hbudget hdecode
    | ok network =>
      simp only [load, hstage, hbudget, hdecode, bind, Network.nodes]
      have hpresents : ∀ entry ∈ network.functions, (network.node entry).Presents network entry :=
        fun _ => Network.presents_node (Network.consistent_of_decode hdecode)
      obtain ⟨functions, hall⟩ | ⟨front, entry, back, functions, fault, htable, hfront, hfault⟩ :=
        session.dispatch.exists_binds_or_first loading hpresents
      · rw [Dispatch.bindAll_of_forall_binds hall]
        rcases Nat.lt_or_ge budget.bytes (required network) with hexceeds | hfits
        · simp only [Network.arena_eq_error hdecode hexceeds]
          exact .oversized hstage hbudget hdecode hall hexceeds
        · obtain ⟨arena, harena⟩ := Network.exists_arena hdecode hfits
          simp only [harena]
          exact .loaded hstage hbudget hdecode (fresh_of_arena hdecode hall harena) hfits
      · have hnode := hpresents entry (htable ▸ List.mem_append_cons_self)
        rw [htable, Dispatch.bindAll_of_first hfront hfault]
        exact .unbound hstage hbudget hdecode htable hfront hnode hfault

/-- A descriptor that is loaded leaves a session that is ready, with a network that was just
bound. -/
lemma fresh_of_load {session : Session σ} {loading : Nat} {descriptor : Bytes}
    (h : (session.load loading descriptor).result = .ok ()) :
    ∃ network bound, Network.decode descriptor = .ok network ∧
      (session.load loading descriptor).session.ready? = some bound ∧
      bound.Fresh session.dispatch loading network := by
  have hloads := session.loads_load loading descriptor
  generalize session.load loading descriptor = reply at h hloads ⊢
  cases hloads with
  | @loaded _ network bound _ _ hdecode hbound => exact ⟨network, bound, hdecode, rfl, hbound⟩
  | _ => cases h

/-- **Loading**: loading a descriptor gives what it is said to give. It succeeds exactly when the
session is configuring, the settings name a budget, the descriptor is read, every function can be
bound, and the regions of all variables, each rounded up to the alignment, fit the budget.

**Proof sketch.** What loading gives is `loads_load`; it has a result of each kind only if the
steps went that way, and a function is shown to the dispatch table by one node only. -/
theorem load_ok_iff (session : Session σ) (loading : Nat) (descriptor : Bytes) :
    session.Loads loading descriptor (session.load loading descriptor) ∧
      ((session.load loading descriptor).result = .ok () ↔
        session.stage = .configuring ∧ ∃ budget network,
          session.settings.budget = .ok budget ∧ Network.decode descriptor = .ok network ∧
          (∀ entry ∈ network.functions, ∃ node found, node.Presents network entry ∧
            (session.dispatch.resolve loading node).result = .ok found) ∧
          required network ≤ budget.bytes) := by
  have hloads := session.loads_load loading descriptor
  refine ⟨hloads, ?_⟩
  constructor
  · intro hok
    generalize session.load loading descriptor = reply at hloads hok
    cases hloads with
    | @loaded budget network bound hstage hbudget hdecode hbound hfits =>
      exact ⟨hstage, budget, network, hbudget, hdecode, Dispatch.exists_found hbound.functions,
        hfits⟩
    | _ => cases hok
  · rintro ⟨hconfiguring, given, described, hgiven, hdescribed, hbindable, hroom⟩
    generalize session.load loading descriptor = reply at hloads
    cases hloads with
    | refused hstage => exact absurd hconfiguring hstage
    | unsettled hstage hbudget =>
      rw [hgiven] at hbudget
      cases hbudget
    | malformed hstage hbudget hdecode =>
      rw [hdescribed] at hdecode
      cases hdecode
    | unbound hstage hbudget hdecode htable hfront hnode hfault =>
      obtain rfl := Except.ok.inj (hdescribed.symm.trans hdecode)
      obtain ⟨node, found, hpresents, hfound⟩ :=
        hbindable _ (htable ▸ List.mem_append_cons_self)
      rw [hpresents.eq_node, ← hnode.eq_node, hfault] at hfound
      cases hfound
    | oversized hstage hbudget hdecode hfunctions hexceeds =>
      obtain rfl := Except.ok.inj (hdescribed.symm.trans hdecode)
      obtain rfl := Except.ok.inj (hgiven.symm.trans hbudget)
      exact absurd hroom (Nat.not_le.mpr hexceeds)
    | loaded => rfl

end Session

end Inference
