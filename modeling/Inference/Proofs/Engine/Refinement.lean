import Inference.Descriptor.Draft
import Inference.Proofs.Engine.Reference

set_option autoImplicit false
set_option relaxedAutoImplicit false

/-!
# Passes of a session

A session that has loaded a network keeps serving it: whatever the host does, the bound nodes stay
those of the network, and the store keeps one region for each variable. So every pass of the
session is a run of the reference interpreter over the contents of these regions.

## Main definitions

* `Bound.Serves` — a bound network whose nodes and regions are those of a network.
* `Bound.arrays`, `Bound.states` — the contents of its regions, and its private states.

## Main results

* `Session.serves_after` — a session that has loaded a network serves it as long as it is ready.
* `Session.forward_eq_reference` — passes are runs of the reference interpreter.
-/

namespace Inference

variable {σ : Type}

/-- A bound network whose nodes and regions are those of a network. -/
structure Bound.Serves (bound : Bound σ) (network : Network) : Prop where
  inputs_eq : bound.inputs = network.select network.inputs
  outputs_eq : bound.outputs = network.select network.outputs
  nodes_eq : (bound.functions.map fun function => function.node) = network.nodes
  tiled : bound.arena.Tiled
  sizes_eq : bound.arena.regions.map Span.length = network.variableTable.map Variable.byteSize

/-- The contents of the regions, by variable. -/
def Bound.arrays (bound : Bound σ) : Arrays :=
  fun i => (bound.arena.region? i).getD []

/-- The private states, by function. -/
def Bound.states (bound : Bound σ) : Nat → Option σ :=
  fun i => bound.functions[i]?.bind fun function => function.binding.state

/-! ## Binding -/

/-- If every node of a list is bound, the bound nodes are these. -/
lemma nodes_bindAll {dispatch : Dispatch σ} {loading : Nat} {nodes : List Node}
    (h : (dispatch.bindAll loading nodes).failure = none) :
    ((dispatch.bindAll loading nodes).functions.map fun function => function.node) = nodes := by
  induction nodes with
  | nil => rfl
  | cons node nodes ih =>
    cases hresult : (dispatch.resolve loading node).result with
    | error fault => simp [Dispatch.bindAll, hresult] at h
    | ok found =>
      simp only [Dispatch.bindAll, hresult] at h ⊢
      rw [List.map_cons, ih h]

/-- Filling a region with initial data keeps the layout. -/
lemma fillRegion_layout (network : Network) {arena : Arena} (h : arena.Tiled) (v : Variable) :
    (network.fillRegion arena v).Tiled ∧
      (network.fillRegion arena v).regions = arena.regions := by
  unfold Network.fillRegion
  split
  · exact ⟨Arena.tiled_write h _ _ _, Arena.regions_write _ _ _ _⟩
  · exact ⟨h, rfl⟩

/-- Filling regions with initial data keeps the layout. -/
lemma foldl_fillRegion_layout (network : Network) {arena : Arena} (h : arena.Tiled)
    (vs : List Variable) :
    (vs.foldl network.fillRegion arena).Tiled ∧
      (vs.foldl network.fillRegion arena).regions = arena.regions := by
  induction vs generalizing arena with
  | nil => exact ⟨h, rfl⟩
  | cons v vs ih =>
    obtain ⟨htiled, hregions⟩ := fillRegion_layout network h v
    obtain ⟨htiled', hregions'⟩ := ih htiled
    exact ⟨htiled', hregions'.trans hregions⟩

/-- The arena of a network has a region for each variable. -/
theorem Network.arena_layout {network : Network} {budget : Budget} {arena : Arena}
    (h : network.arena budget = .ok arena) :
    arena.Tiled ∧
      arena.regions.map Span.length = network.variableTable.map Variable.byteSize := by
  rw [Network.arena, map_eq_ok_iff] at h
  obtain ⟨zeroed, hzeroed, rfl⟩ := h
  obtain ⟨htiled, hsizes⟩ := Arena.tiled_of_allocate hzeroed
  obtain ⟨htiled', hregions⟩ := foldl_fillRegion_layout network htiled
    network.variableTable
  exact ⟨htiled', hregions ▸ hsizes⟩

/-! ## Bound networks -/

namespace Bound.Serves

variable {bound : Bound σ} {network : Network}

/-- There is one region for each variable. -/
lemma length_split (h : bound.Serves network) :
    bound.arena.split.length = network.variableTable.length := by
  have hsizes := congrArg List.length h.sizes_eq
  rw [List.length_map, List.length_map] at hsizes
  rw [Arena.split_eq_map h.tiled, List.length_map, hsizes]

/-- The contents of the regions are the entries of the table of all regions. -/
lemma arrays_split (h : bound.Serves network) :
    Contents.arrays bound.arena.split = bound.arrays := by
  funext i
  rw [Contents.arrays, Bound.arrays, Arena.getElem?_split h.tiled]

/-- The bound nodes conform to the functions of the network. -/
theorem conforms (h : bound.Serves network) (hconsistent : network.Consistent) :
    List.Forall₂ (Conforms bound.arena.split.length) network.functions bound.functions := by
  rw [h.length_split]
  have hnodes : List.Forall₂ (fun entry (function : BoundNode σ) =>
      function.node = network.node entry) network.functions bound.functions := by
    have heq := h.nodes_eq
    rw [Network.nodes, ← List.forall₂_eq_eq_eq, List.forall₂_map_left_iff,
      List.forall₂_map_right_iff] at heq
    exact heq.flip
  rw [List.forall₂_iff_zip] at hnodes ⊢
  refine ⟨hnodes.1, ?_⟩
  intro entry function hmem
  have hnode := hnodes.2 hmem
  have hentry := hconsistent.functions_consistent entry (List.of_mem_zip hmem).1
  refine ⟨hentry, ?_, ?_, ?_, ?_⟩
  · rw [hnode, Network.node]
  · rw [hnode, Network.node]
  · rw [hnode]
    exact Network.map_index_select hconsistent hentry.inputs_lt
  · rw [hnode]
    exact Network.map_index_select hconsistent hentry.outputs_lt

/-- The private state of a function is found under its index. -/
lemma states_index (h : bound.Serves network) (hconsistent : network.Consistent) :
    ∀ function ∈ bound.functions, bound.states function.node.index = function.binding.state := by
  intro function hmem
  obtain ⟨i, hi⟩ := List.getElem?_of_mem hmem
  have hindices := map_index_of_conforms (h.conforms hconsistent)
  rw [Network.map_index_functions hconsistent] at hindices
  have hindex : function.node.index = i := by
    have hfound := congrArg (fun indices : List Nat => indices[i]?) hindices
    simp only [List.getElem?_map, hi, Option.map_some] at hfound
    obtain ⟨hlt, hindex⟩ := List.getElem?_eq_some_iff.mp hfound.symm
    rw [← hindex, List.getElem_range]
  rw [Bound.states, hindex, hi]
  rfl

/-- A pass over a bound network is a run of the reference interpreter. -/
theorem walk_refines (h : bound.Serves network) (hconsistent : network.Consistent) :
    bound.walk.Refines bound.functions bound.arena.split
      (Reference.run (Reference.tasks network.functions bound.functions) bound.arrays
        bound.states) := by
  rw [← h.arrays_split]
  apply Engine.walk_refines (h.conforms hconsistent)
  · rw [Network.map_index_functions hconsistent]
    exact List.nodup_range
  · exact h.states_index hconsistent

/-- A pass does not change the size of any region. -/
lemma map_length_walk (h : bound.Serves network) (hconsistent : network.Consistent) :
    bound.walk.contents.map List.length = bound.arena.split.map List.length := by
  have hrefines := h.walk_refines hconsistent
  apply List.ext_getElem?
  intro i
  rw [List.getElem?_map, List.getElem?_map]
  rcases Nat.lt_or_ge i bound.arena.split.length with hi | hi
  · have hi' : i < bound.walk.contents.length := by rwa [hrefines.length_eq]
    have hafter := congrFun hrefines.arrays_eq i
    have hbefore := congrFun h.arrays_split i
    rw [Contents.arrays, List.getElem?_eq_getElem hi', Option.getD_some] at hafter
    rw [Contents.arrays, List.getElem?_eq_getElem hi, Option.getD_some] at hbefore
    rw [List.getElem?_eq_getElem hi', List.getElem?_eq_getElem hi, hafter, hbefore,
      Option.map_some, Option.map_some, Reference.length_arrays]
  · rw [List.getElem?_eq_none hi, List.getElem?_eq_none (by rwa [hrefines.length_eq])]

/-- The table of all regions after a pass is the one that the pass left. -/
lemma split_after (h : bound.Serves network) (hconsistent : network.Consistent) :
    (bound.after bound.walk).arena.split = bound.walk.contents := by
  rw [Bound.after, Arena.split_join h.tiled]
  exact Bytes.overwriteAll_of_map_length_eq (h.map_length_walk hconsistent)

/-- A bound network serves its network after a pass. -/
theorem after_walk (h : bound.Serves network) (hconsistent : network.Consistent) :
    (bound.after bound.walk).Serves network where
  inputs_eq := h.inputs_eq
  outputs_eq := h.outputs_eq
  nodes_eq := by
    rw [Bound.after, (h.walk_refines hconsistent).functions_eq, List.map_map]
    exact h.nodes_eq
  tiled := Arena.tiled_join h.tiled _
  sizes_eq := h.sizes_eq

/-- A bound network serves its network after its contents were written to. -/
theorem after_write (h : bound.Serves network) (index offset : Nat) (bytes : Bytes) :
    Bound.Serves { bound with arena := bound.arena.write index offset bytes } network where
  inputs_eq := h.inputs_eq
  outputs_eq := h.outputs_eq
  nodes_eq := h.nodes_eq
  tiled := Arena.tiled_write h.tiled index offset bytes
  sizes_eq := by
    rw [Arena.regions_write]
    exact h.sizes_eq

end Bound.Serves

/-! ## Sessions -/

namespace Session

/-- A session that has loaded a network, and serves it as long as it is ready. -/
structure Serves (session : Session σ) (network : Network) : Prop where
  not_configuring : session.stage ≠ .configuring
  ready : ∀ bound, session.ready? = some bound → bound.Serves network

variable {session : Session σ} {network : Network}

/-- A session that is ready serves the network that its bound network serves. -/
lemma serves_of_ready {bound : Bound σ} (hheld : session.ready? = some bound)
    (h : bound.Serves network) : session.Serves network := by
  refine ⟨by simp [stage_of_ready hheld], ?_⟩
  intro other hother
  obtain rfl : bound = other := by simpa [hheld] using hother
  exact h

/-- Every effect keeps a session serving its network. -/
lemma Serves.effect (h : session.Serves network) (hconsistent : network.Consistent)
    {next : Session σ} {journal : List (Event σ)} (heffect : Effect session next journal) :
    next.Serves network := by
  cases heffect with
  | unchanged => exact h
  | registered op resolver hstage => exact absurd hstage h.not_configuring
  | undone => exact h
  | loaded loading descriptor network budget arena hstage =>
    exact absurd hstage h.not_configuring
  | passed bound readings hheld =>
    exact serves_of_ready (ready?_holding hheld _ _)
      ((h.ready bound hheld).after_walk hconsistent)
  | written bound v offset bytes hheld =>
    exact serves_of_ready (ready?_holding hheld _ _) ((h.ready bound hheld).after_write _ _ _)
  | freed => exact ⟨by simp, by simp [ready?]⟩

/-- A session that has loaded a network serves it as long as it is ready, whatever the host does. -/
theorem serves_after (h : session.Serves network) (hconsistent : network.Consistent)
    (actions : List (Action σ)) : (session.after actions).Serves network := by
  induction actions generalizing session with
  | nil => exact h
  | cons action actions ih => exact ih (h.effect hconsistent (session.effect_perform action))

/-- A descriptor that is loaded is read as a network, which is then bound. -/
theorem ready_of_load {loading : Nat} {descriptor : Bytes}
    (h : (session.load loading descriptor).result = .ok ()) :
    ∃ network bound, Network.decode descriptor = .ok network ∧
      (session.load loading descriptor).session.ready? = some bound ∧ bound.Serves network := by
  unfold Session.load at h ⊢
  split at h
  case h_2 => cases h
  case h_1 hstage =>
    split at h
    case h_1 => cases h
    case h_2 budget hbudget =>
      split at h
      case h_1 => cases h
      case h_2 network hdecode =>
        refine ⟨network, ?_⟩
        simp only [Session.bind] at h ⊢
        split at h
        case h_1 => cases h
        case h_2 hbound =>
          split at h
          case h_1 => cases h
          case h_2 arena harena =>
            obtain ⟨htiled, hsizes⟩ := Network.arena_layout harena
            exact ⟨_, hdecode, rfl, rfl, rfl, nodes_bindAll hbound, htiled, hsizes⟩

/-- **Refinement**: after a descriptor was loaded, whatever the host does, a pass of a session that
is ready is a run of the reference interpreter over the contents of the regions and the private
states of the functions. It leaves what the interpreter leaves in the regions and in the private
states, and gives the interpreter's result; nothing else about the bound network changes. The
functions that are executed are the first ones of the table, in order, and a variable that none of
them lists as an output keeps its contents.

**Proof sketch.** The session serves the network that the descriptor was read as
(`serves_after`), so the pass is a run of the interpreter over the table of all regions
(`Bound.Serves.walk_refines`). Joining that table into the store gives the regions its entries,
because no length has changed. -/
theorem forward_eq_reference {loading : Nat} {descriptor : Bytes}
    (hload : (session.load loading descriptor).result = .ok ()) (actions : List (Action σ))
    {bound : Bound σ}
    (hready : ((session.load loading descriptor).session.after actions).ready? = some bound)
    (readings : Nat → Nat) :
    ∃ network next,
      let current := (session.load loading descriptor).session.after actions
      let reply := (current.forward tick readings).1
      let reference := Reference.run (Reference.tasks network.functions bound.functions)
        bound.arrays bound.states
      Network.decode descriptor = .ok network ∧
      (bound.functions.map fun function => function.node) = network.nodes ∧
      reply.session =
        { current with held := some next, latest := reply.session.latest } ∧
      next.arrays = reference.arrays ∧
      next.functions = bound.functions.map (fun function =>
        function.withState (reference.states function.node.index)) ∧
      next.inputs = bound.inputs ∧ next.outputs = bound.outputs ∧
      reply.result = passResult reference.failure ∧
      Event.executions reply.journal = reference.executed ∧
      reference.executed <+: List.range network.functions.length ∧
      ∀ i, (∀ entry ∈ network.functions, entry.index ∈ reference.executed → i ∉ entry.outputs) →
        next.arrays i = bound.arrays i := by
  obtain ⟨network, first, hdecode, hfirst, hserves⟩ := ready_of_load hload
  have hconsistent := Network.consistent_of_decode hdecode
  have hbound := (serves_after (serves_of_ready hfirst hserves) hconsistent actions).ready bound
    hready
  have hforward := forward_of_ready hready readings
  have hrefines := hbound.walk_refines hconsistent
  set current := (session.load loading descriptor).session.after actions
  have hnext : (bound.after bound.walk).arrays =
      (Reference.run (Reference.tasks network.functions bound.functions) bound.arrays
        bound.states).arrays := by
    rw [← (hbound.after_walk hconsistent).arrays_split, hbound.split_after hconsistent,
      hrefines.arrays_eq]
  refine ⟨network, bound.after bound.walk, hdecode, hbound.nodes_eq, ?_, hnext,
    hrefines.functions_eq, rfl, rfl, ?_, ?_, ?_, ?_⟩
  · rw [hforward]
  · rw [hforward, ← hrefines.failure_eq]
  · rw [hforward, ← hrefines.executions_eq]
  · have hprefix := Reference.executed_prefix
      (Reference.tasks network.functions bound.functions) bound.arrays bound.states
    rwa [map_index_tasks (hbound.conforms hconsistent),
      Network.map_index_functions hconsistent] at hprefix
  · intro i hi
    rw [hnext]
    apply Reference.arrays_of_not_mem_outputs
    intro task htask hexecuted
    obtain ⟨⟨entry, function⟩, hmem, rfl⟩ := List.mem_map.mp htask
    exact hi entry (List.of_mem_zip hmem).1 hexecuted

/-- Two functions in a row, over variables of one byte. -/
def relay : Draft where
  buffers := [1, 1, 1]
  variableTable :=
    [{ id := 0, dims := [1], elementType := .sign, backing := .buffer 0 },
     { id := 1, dims := [1], elementType := .sign, backing := .buffer 1 },
     { id := 2, dims := [1], elementType := .sign, backing := .buffer 2 }]
  functions :=
    [{ op := .relu, inputs := [0], outputs := [1] },
     { op := .tanh, inputs := [1], outputs := [2] }]
  inputs := [0]
  outputs := [2]

/-- Copies the input to the output, counts its calls, and fails for every function but the
first. -/
def copying : Resolver Nat := fun _ node _ =>
  { resolution := .matched
    slot :=
      { execute := some fun call calls =>
          { outputs := call.inputs
            state := some (calls.getD 0 + 1)
            result := if node.index = 0 then .ok () else .error (.failed "refused")
            notes := [] } }
    notes := [] }

/-- A new session with overrides for the operators of the relay. -/
def relaySession : Session Nat :=
  (Session.new {} .empty).after [.register .relu copying, .register .tanh copying]

/-- The second pass over the relay is a run of the reference interpreter. -/
theorem forward_relay :
    (relaySession.load 0 relay.encode).result = .ok () ∧
      ∃ bound, ((relaySession.load 0 relay.encode).session.after [.forward id]).ready? =
          some bound ∧
        ∃ network next, Network.decode relay.encode = .ok network ∧
          (((relaySession.load 0 relay.encode).session.after [.forward id]).forward tick
            id).1.session.ready? = some next ∧
          next.arrays = (Reference.run (Reference.tasks network.functions bound.functions)
            bound.arrays bound.states).arrays := by
  have hload : (relaySession.load 0 relay.encode).result = .ok () := by decide +kernel
  obtain ⟨_, first, -, hfirst, -⟩ := ready_of_load hload
  have hready : ((relaySession.load 0 relay.encode).session.after [.forward id]).ready? =
      some (first.after first.walk) := by
    rw [after, after, perform, forward_of_ready hfirst id]
    exact ready?_holding hfirst _ _
  obtain ⟨network, next, hdecode, -, hsession, harrays, -⟩ :=
    forward_eq_reference hload [.forward id] hready id
  refine ⟨hload, _, hready, network, next, hdecode, ?_, harrays⟩
  rw [hsession]
  exact ready?_holding hready _ _

end Session

end Inference
