import Inference.Proofs.Engine.Reference

set_option autoImplicit false
set_option relaxedAutoImplicit false

/-!
# The lives of bindings

A binding lives from the moment its node is bound until it is given up. In between its execute
routine may run any number of times, and at the end its release routine runs, if it has one. This
file describes a life by its events, and shows that binding nodes, executing them and releasing
them begin, continue and end lives.

## Main definitions

* `Event.ofFunction` — the events of one function.
* `Life` — a life of a binding, and its events.
* `Event.bindings`, `Event.releases` — the release routines that were bound, and those that ran.
* `Alive` — what happened, if some functions are bound now.

## Main results

* `Alive.bindAll`, `Alive.walk`, `Alive.releaseAll` — lives begin, continue and end.
-/

namespace Inference

variable {σ : Type}

/-! ## Events -/

/-- Whether a function was bound, executed or released. -/
def Event.concerns (function : Nat) : Event σ → Bool
  | .bound other _ _ => other = function
  | .executed other _ => other = function
  | .released other _ _ => other = function
  | _ => false

/-- How a function was bound, executed and released. -/
def Event.ofFunction (function : Nat) (journal : List (Event σ)) : List (Event σ) :=
  journal.filter (Event.concerns function)

/-- The functions that were bound with a release routine, and the routine. -/
def Event.bindings (journal : List (Event σ)) : List (Nat × Release σ) :=
  journal.filterMap fun event =>
    match event with
    | .bound function _ binding => binding.release.map (function, ·)
    | _ => none

/-- The functions that were released, and the release routine that ran. -/
def Event.releases (journal : List (Event σ)) : List (Nat × Release σ) :=
  journal.filterMap fun event =>
    match event with
    | .released function release _ => some (function, release)
    | _ => none

/-- A journal in which no function is bound, executed or released. -/
def Event.Quiet (journal : List (Event σ)) : Prop :=
  ∀ event ∈ journal, (∃ function position, event = .tried function position) ∨
    ∃ text, event = .note text

section

variable {journal : List (Event σ)}

@[simp]
lemma ofFunction_append (function : Nat) (front back : List (Event σ)) :
    Event.ofFunction function (front ++ back) =
      Event.ofFunction function front ++ Event.ofFunction function back :=
  List.filter_append _ _

@[simp]
lemma bindings_append (front back : List (Event σ)) :
    Event.bindings (front ++ back) = Event.bindings front ++ Event.bindings back :=
  List.filterMap_append

@[simp]
lemma releases_append (front back : List (Event σ)) :
    Event.releases (front ++ back) = Event.releases front ++ Event.releases back :=
  List.filterMap_append

/-- Notes bind, execute and release nothing. -/
lemma quiet_notes (notes : List String) : Event.Quiet (notes.map (Event.note (σ := σ))) := by
  intro event hevent
  obtain ⟨text, -, rfl⟩ := List.mem_map.mp hevent
  exact .inr ⟨text, rfl⟩

/-- Asking overrides binds, executes and releases nothing. -/
lemma quiet_askFrom (loading : Nat) (node : Node) (position : Nat) (chain : List (Resolver σ)) :
    Event.Quiet (Dispatch.askFrom loading node position chain).2 := by
  induction chain generalizing position with
  | nil => simp [Dispatch.askFrom, Event.Quiet]
  | cons resolver chain ih =>
    have hhead : Event.Quiet (Event.tried (σ := σ) node.index position ::
        (resolver loading node .empty).notes.map .note) := by
      rintro event (_ | ⟨_, hevent⟩)
      · exact .inl ⟨_, _, rfl⟩
      · exact quiet_notes _ event hevent
    rw [Dispatch.askFrom]
    dsimp only
    split
    · exact hhead
    · intro event hevent
      rcases List.mem_append.mp hevent with hevent | hevent
      · exact hhead event hevent
      · exact ih _ event hevent

/-- Resolving a node binds, executes and releases nothing by itself. -/
lemma quiet_resolve (dispatch : Dispatch σ) (loading : Nat) (node : Node) :
    Event.Quiet (dispatch.resolve loading node).journal := by
  have hquiet := quiet_askFrom loading node 0 (dispatch.candidates node)
  unfold Dispatch.resolve
  split
  all_goals
    next heq =>
      rw [heq] at hquiet
      exact hquiet

/-- A quiet journal has no events of a function. -/
lemma Event.Quiet.ofFunction_eq (h : Event.Quiet journal) (function : Nat) :
    Event.ofFunction function journal = [] := by
  rw [Event.ofFunction, List.filter_eq_nil_iff]
  intro event hevent
  obtain ⟨_, _, rfl⟩ | ⟨_, rfl⟩ := h event hevent <;> simp [Event.concerns]

/-- Nothing is bound in a quiet journal. -/
lemma Event.Quiet.bindings_eq (h : Event.Quiet journal) : Event.bindings journal = [] := by
  rw [Event.bindings, List.filterMap_eq_nil_iff]
  intro event hevent
  obtain ⟨_, _, rfl⟩ | ⟨_, rfl⟩ := h event hevent <;> rfl

/-- Nothing is released in a quiet journal. -/
lemma Event.Quiet.releases_eq (h : Event.Quiet journal) : Event.releases journal = [] := by
  rw [Event.releases, List.filterMap_eq_nil_iff]
  intro event hevent
  obtain ⟨_, _, rfl⟩ | ⟨_, rfl⟩ := h event hevent <;> rfl

end

/-! ## Lives -/

/-- A life of a binding: the implementation, the binding as it was installed, and the private
states that the calls of its execute routine left, in order. -/
structure Life (σ : Type) where
  source : Source
  binding : Binding σ
  left : List (Option σ)

namespace Life

/-- The private state that the last call left, or the installed one if there was no call. -/
def state (life : Life σ) : Option σ :=
  life.left.getLast?.getD life.binding.state

/-- The events of a life that has not ended: the function is bound and executed. -/
def running (function : Nat) (life : Life σ) : List (Event σ) :=
  .bound function life.source life.binding :: life.left.map (.executed function)

/-- The events of a life that has ended: the release routine runs once, if there is one, on the
state that the last call left. -/
def ended (function : Nat) (life : Life σ) : List (Event σ) :=
  life.running function ++
    life.binding.release.toList.map fun release => .released function release life.state

/-- A life with further calls. -/
def extend (life : Life σ) (left : List (Option σ)) : Life σ :=
  { life with left := life.left ++ left }

/-- The state after further calls is the one that the last of them left. -/
lemma state_extend (life : Life σ) (left : List (Option σ)) :
    (life.extend left).state = left.getLast?.getD life.state := by
  rw [state, extend, List.getLast?_append, state]
  cases left.getLast? <;> rfl

/-- The events of further calls come last. -/
lemma running_extend (function : Nat) (life : Life σ) (left : List (Option σ)) :
    (life.extend left).running function =
      life.running function ++ left.map (.executed function) := by
  rw [running, extend, List.map_append, running, List.cons_append]

end Life

/-- All lives of the bindings of a function have ended. -/
def Settled (function : Nat) (journal : List (Event σ)) : Prop :=
  ∃ lives : List (Life σ), Event.ofFunction function journal = lives.flatMap (Life.ended function)

/-- The last life of the bindings of a bound node goes on: it has the node's implementation, and
the node has the private state that its last call left. -/
def Running (function : BoundNode σ) (journal : List (Event σ)) : Prop :=
  ∃ (lives : List (Life σ)) (life : Life σ),
    Event.ofFunction function.node.index journal =
      lives.flatMap (Life.ended function.node.index) ++ life.running function.node.index ∧
    function.source = life.source ∧
    function.binding = { life.binding with state := life.state }

/-- The release routines of bound nodes. -/
def BoundNode.pending (functions : List (BoundNode σ)) : List (Nat × Release σ) :=
  functions.filterMap fun function =>
    function.binding.release.map (function.node.index, ·)

/-- The release routine of the first bound node comes first, if it has one. -/
lemma pending_cons (function : BoundNode σ) (functions : List (BoundNode σ)) :
    BoundNode.pending (function :: functions) =
      function.binding.release.toList.map (function.node.index, ·) ++
        BoundNode.pending functions := by
  rw [BoundNode.pending, List.filterMap_cons, ← BoundNode.pending]
  cases function.binding.release <;> rfl

/-- The indices of bound nodes. -/
def BoundNode.indices (functions : List (BoundNode σ)) : List Nat :=
  functions.map fun function => function.node.index

/-- Bound nodes with ascending indices: the first one has the least, and the others ascend. -/
lemma pairwise_indices_cons {function : BoundNode σ} {functions : List (BoundNode σ)} :
    (BoundNode.indices (function :: functions)).Pairwise (· < ·) ↔
      (∀ other ∈ functions, function.node.index < other.node.index) ∧
        (BoundNode.indices functions).Pairwise (· < ·) := by
  rw [BoundNode.indices, List.map_cons, List.pairwise_cons, List.forall_mem_map,
    ← BoundNode.indices]

/-- What happened, if some functions are bound now: their lives go on, those of all other functions
have ended, and the release routines that were bound are those that ran and those that are still
bound. -/
structure Alive (functions : List (BoundNode σ)) (journal : List (Event σ)) : Prop where
  ascending : (BoundNode.indices functions).Pairwise (· < ·)
  running : ∀ function ∈ functions, Running function journal
  settled : ∀ function, function ∉ BoundNode.indices functions → Settled function journal
  balanced : Event.bindings journal = Event.releases journal ++ BoundNode.pending functions

/-- Nothing is bound before anything happens. -/
lemma alive_nil : Alive (σ := σ) [] [] where
  ascending := List.Pairwise.nil
  running := by simp
  settled := fun _ _ => ⟨[], rfl⟩
  balanced := rfl

/-! ## Binding -/

section

variable {functions : List (BoundNode σ)} {journal : List (Event σ)}

/-- In a list of bound nodes with ascending indices, one node has its index. -/
lemma filter_index_of_mem (h : (BoundNode.indices functions).Pairwise (· < ·))
    {function : BoundNode σ} (hmem : function ∈ functions) :
    functions.filter (fun other => other.node.index = function.node.index) = [function] := by
  induction functions with
  | nil => simp at hmem
  | cons first rest ih =>
    obtain ⟨hfirst, hrest⟩ := pairwise_indices_cons.mp h
    rcases List.mem_cons.mp hmem with rfl | hmem
    · have hothers : rest.filter (fun other => other.node.index = function.node.index) = [] := by
        rw [List.filter_eq_nil_iff]
        intro other hother
        have hlt := hfirst other hother
        simp only [decide_eq_true_eq]
        omega
      rw [List.filter_cons_of_pos (by simp), hothers]
    · have hlt := hfirst function hmem
      have hne : ¬first.node.index = function.node.index := by omega
      rw [List.filter_cons_of_neg (by simpa using hne), ih hrest hmem]

/-- No node has an index that is not there. -/
lemma filter_index_of_not_mem {index : Nat} (h : index ∉ BoundNode.indices functions) :
    functions.filter (fun other => other.node.index = index) = [] := by
  rw [List.filter_eq_nil_iff]
  intro other hother hsame
  apply h
  rw [decide_eq_true_eq] at hsame
  rw [← hsame]
  exact List.mem_map_of_mem (f := fun f => f.node.index) hother

/-- The event of a node that was bound. -/
def BoundNode.boundEvent (function : BoundNode σ) : Event σ :=
  .bound function.node.index function.source function.binding

/-- Binding nodes binds each function that is bound once. -/
lemma ofFunction_bindAll (dispatch : Dispatch σ) (loading : Nat) (nodes : List Node) (index : Nat) :
    Event.ofFunction index (dispatch.bindAll loading nodes).journal =
      ((dispatch.bindAll loading nodes).functions.filter (fun f => f.node.index = index)).map
        BoundNode.boundEvent := by
  induction nodes with
  | nil => rfl
  | cons node nodes ih =>
    have hquiet := (quiet_resolve dispatch loading node).ofFunction_eq index
    cases hresult : (dispatch.resolve loading node).result with
    | error fault =>
      simp only [Dispatch.bindAll, hresult]
      exact hquiet
    | ok found =>
      simp only [Dispatch.bindAll, hresult]
      rw [ofFunction_append, hquiet, List.nil_append, List.filter_cons, Event.ofFunction,
        List.filter_cons]
      by_cases hindex : node.index = index
      · simp only [Event.concerns, hindex, decide_true, if_true, List.map_cons]
        rw [← Event.ofFunction, ih]
        simp only [BoundNode.boundEvent, hindex]
      · simp only [Event.concerns, hindex, decide_false, Bool.false_eq_true, if_false]
        exact ih

/-- Binding nodes binds the release routines of the functions that are bound, and runs none. -/
lemma bindings_bindAll (dispatch : Dispatch σ) (loading : Nat) (nodes : List Node) :
    Event.bindings (dispatch.bindAll loading nodes).journal =
        BoundNode.pending (dispatch.bindAll loading nodes).functions ∧
      Event.releases (dispatch.bindAll loading nodes).journal = [] := by
  induction nodes with
  | nil => exact ⟨rfl, rfl⟩
  | cons node nodes ih =>
    have hquiet := quiet_resolve dispatch loading node
    obtain ⟨hbindings, hreleases⟩ := ih
    cases hresult : (dispatch.resolve loading node).result with
    | error fault =>
      simp only [Dispatch.bindAll, hresult]
      exact ⟨hquiet.bindings_eq, hquiet.releases_eq⟩
    | ok found =>
      simp only [Dispatch.bindAll, hresult]
      rw [bindings_append, releases_append, hquiet.bindings_eq, hquiet.releases_eq,
        List.nil_append, List.nil_append, BoundNode.pending, Event.bindings, Event.releases,
        List.filterMap_cons, List.filterMap_cons, List.filterMap_cons, ← Event.bindings,
        ← Event.releases, ← BoundNode.pending, hbindings, hreleases]
      exact ⟨rfl, rfl⟩

/-- The functions that are bound are the first ones of the nodes. -/
lemma indices_bindAll_sublist (dispatch : Dispatch σ) (loading : Nat) (nodes : List Node) :
    (BoundNode.indices (dispatch.bindAll loading nodes).functions).Sublist
      (nodes.map Node.index) := by
  induction nodes with
  | nil => exact List.Sublist.refl _
  | cons node nodes ih =>
    cases hresult : (dispatch.resolve loading node).result with
    | error fault =>
      simp only [Dispatch.bindAll, hresult]
      exact List.nil_sublist _
    | ok found =>
      simp only [Dispatch.bindAll, hresult]
      exact ih.cons_cons node.index

/-- **Binding**: when nothing is bound, binding nodes begins a life for each function that is
bound. -/
theorem Alive.bindAll (h : Alive [] journal) (dispatch : Dispatch σ) (loading : Nat)
    {nodes : List Node} (hnodes : (nodes.map Node.index).Pairwise (· < ·)) :
    Alive (dispatch.bindAll loading nodes).functions
      (journal ++ (dispatch.bindAll loading nodes).journal) := by
  have hascending := hnodes.sublist (indices_bindAll_sublist dispatch loading nodes)
  obtain ⟨hbindings, hreleases⟩ := bindings_bindAll dispatch loading nodes
  refine ⟨hascending, ?_, ?_, ?_⟩
  · intro function hmem
    obtain ⟨lives, hlives⟩ := h.settled function.node.index (by simp [BoundNode.indices])
    refine ⟨lives, ⟨function.source, function.binding, []⟩, ?_, rfl, rfl⟩
    rw [ofFunction_append, hlives, ofFunction_bindAll, filter_index_of_mem hascending hmem]
    rfl
  · intro index hindex
    obtain ⟨lives, hlives⟩ := h.settled index (by simp [BoundNode.indices])
    refine ⟨lives, ?_⟩
    rw [ofFunction_append, hlives, ofFunction_bindAll, filter_index_of_not_mem hindex,
      List.map_nil, List.append_nil]
  · rw [bindings_append, releases_append, hbindings, hreleases, h.balanced]
    simp [BoundNode.pending]

/-! ## Releasing -/

/-- The events of a bound node that is given up. -/
def BoundNode.releaseEvents (function : BoundNode σ) : List (Event σ) :=
  function.binding.release.toList.map fun release =>
    .released function.node.index release function.binding.state

/-- Releasing a bound node runs its release routine, if it has one, and notes what that says. -/
lemma exists_release_eq (function : BoundNode σ) :
    ∃ notes : List String, function.release = function.releaseEvents ++ notes.map .note := by
  unfold BoundNode.release BoundNode.releaseEvents
  cases function.binding.release with
  | none => exact ⟨[], rfl⟩
  | some release => exact ⟨_, rfl⟩

/-- Releasing bound nodes releases each function that is bound. -/
lemma ofFunction_releaseAll (functions : List (BoundNode σ)) (index : Nat) :
    Event.ofFunction index (BoundNode.releaseAll functions) =
      (functions.filter (fun f => f.node.index = index)).flatMap BoundNode.releaseEvents := by
  induction functions with
  | nil => rfl
  | cons function functions ih =>
    obtain ⟨notes, hrelease⟩ := exists_release_eq function
    rw [BoundNode.releaseAll, List.flatMap_cons, ← BoundNode.releaseAll, ofFunction_append, ih,
      hrelease, ofFunction_append, (quiet_notes notes).ofFunction_eq, List.append_nil,
      List.filter_cons, Event.ofFunction]
    by_cases hindex : function.node.index = index
    · rw [if_pos (by simpa using hindex), List.flatMap_cons]
      congr 1
      rw [List.filter_eq_self]
      intro event hevent
      obtain ⟨release, -, rfl⟩ := List.mem_map.mp hevent
      simpa [Event.concerns] using hindex
    · rw [if_neg (by simpa using hindex)]
      have hnone : function.releaseEvents.filter (Event.concerns index) = [] := by
        rw [List.filter_eq_nil_iff]
        intro event hevent
        obtain ⟨release, -, rfl⟩ := List.mem_map.mp hevent
        simpa [Event.concerns] using hindex
      rw [hnone, List.nil_append]

/-- Releasing bound nodes runs their release routines, in the order of the nodes, and binds
none. -/
lemma releases_releaseAll (functions : List (BoundNode σ)) :
    Event.releases (BoundNode.releaseAll functions) = BoundNode.pending functions ∧
      Event.bindings (BoundNode.releaseAll functions) = [] := by
  induction functions with
  | nil => exact ⟨rfl, rfl⟩
  | cons function functions ih =>
    obtain ⟨hreleases, hbindings⟩ := ih
    obtain ⟨notes, hrelease⟩ := exists_release_eq function
    rw [BoundNode.releaseAll, List.flatMap_cons, ← BoundNode.releaseAll, releases_append,
      bindings_append, hreleases, hbindings, hrelease, releases_append, bindings_append,
      (quiet_notes notes).releases_eq, (quiet_notes notes).bindings_eq, BoundNode.releaseEvents,
      pending_cons]
    cases function.binding.release with
    | none => exact ⟨rfl, rfl⟩
    | some release => exact ⟨rfl, rfl⟩

/-- **Releasing**: releasing the bound nodes ends their lives. -/
theorem Alive.releaseAll (h : Alive functions journal) :
    Alive [] (journal ++ BoundNode.releaseAll functions) := by
  obtain ⟨hreleases, hbindings⟩ := releases_releaseAll functions
  refine ⟨List.Pairwise.nil, by simp, ?_, ?_⟩
  · intro index _
    by_cases hindex : index ∈ BoundNode.indices functions
    · obtain ⟨function, hmem, rfl⟩ := List.mem_map.mp hindex
      obtain ⟨lives, life, hlives, -, hbinding⟩ := h.running function hmem
      refine ⟨lives ++ [life], ?_⟩
      rw [ofFunction_append, hlives, ofFunction_releaseAll, filter_index_of_mem h.ascending hmem,
        List.flatMap_append, List.flatMap_singleton, List.flatMap_singleton, Life.ended,
        BoundNode.releaseEvents, hbinding, List.append_assoc]
    · obtain ⟨lives, hlives⟩ := h.settled index hindex
      refine ⟨lives, ?_⟩
      rw [ofFunction_append, hlives, ofFunction_releaseAll, filter_index_of_not_mem hindex,
        List.flatMap_nil, List.append_nil]
  · rw [releases_append, bindings_append, hreleases, hbindings, h.balanced]
    simp [BoundNode.pending]

/-! ## Executing -/

/-- What a pass did to a bound node: its routine ran some number of times, and the node keeps the
private state that was left. -/
structure Progress (journal : List (Event σ)) (before after : BoundNode σ) : Prop where
  node_eq : after.node = before.node
  source_eq : after.source = before.source
  executed : ∃ left : List (Option σ),
    Event.ofFunction before.node.index journal = left.map (.executed before.node.index) ∧
    after.binding = { before.binding with state := left.getLast?.getD before.binding.state }

namespace Progress

variable {before after : BoundNode σ}

/-- A node whose function does not run keeps everything. -/
lemma refl (hnone : Event.ofFunction before.node.index journal = []) :
    Progress journal before before :=
  ⟨rfl, rfl, [], hnone, rfl⟩

/-- What happens first does not matter if the node's function does not run then. -/
lemma append_left (h : Progress journal before after) {front : List (Event σ)}
    (hnone : Event.ofFunction before.node.index front = []) :
    Progress (front ++ journal) before after := by
  obtain ⟨hnode, hsource, left, hleft, hbinding⟩ := h
  refine ⟨hnode, hsource, left, ?_, hbinding⟩
  rw [ofFunction_append, hnone, List.nil_append, hleft]

end Progress

/-- A turn executes one function and notes what its routine says. -/
lemma exists_execute_journal_eq (function : BoundNode σ) (contents : Contents) :
    ∃ notes : List String, (function.execute contents).journal =
      .executed function.node.index (function.execute contents).function.binding.state ::
        notes.map .note :=
  ⟨_, rfl⟩

/-- The only function of a turn is that of its node. -/
lemma ofFunction_execute (function : BoundNode σ) (contents : Contents) (index : Nat) :
    Event.ofFunction index (function.execute contents).journal =
      if function.node.index = index then
        [.executed index (function.execute contents).function.binding.state]
      else [] := by
  obtain ⟨notes, hjournal⟩ := exists_execute_journal_eq function contents
  rw [hjournal, Event.ofFunction, List.filter_cons, ← Event.ofFunction,
    (quiet_notes notes).ofFunction_eq]
  by_cases hindex : function.node.index = index <;> simp [Event.concerns, hindex]

/-- A turn binds and releases nothing. -/
lemma bindings_execute (function : BoundNode σ) (contents : Contents) :
    Event.bindings (function.execute contents).journal = [] ∧
      Event.releases (function.execute contents).journal = [] := by
  obtain ⟨notes, hjournal⟩ := exists_execute_journal_eq function contents
  rw [hjournal, ← List.singleton_append, bindings_append, releases_append,
    (quiet_notes notes).bindings_eq, (quiet_notes notes).releases_eq]
  exact ⟨rfl, rfl⟩

/-- A turn is progress of its node. -/
lemma progress_execute (function : BoundNode σ) (contents : Contents)
    (later : List (Event σ)) (hlater : Event.ofFunction function.node.index later = []) :
    Progress ((function.execute contents).journal ++ later) function
      (function.execute contents).function := by
  refine ⟨rfl, rfl, [(function.execute contents).function.binding.state], ?_, rfl⟩
  rw [ofFunction_append, hlater, ofFunction_execute, if_pos rfl]
  rfl

/-- A pass executes only functions of the list. -/
lemma ofFunction_walk (functions : List (BoundNode σ)) (contents : Contents) {index : Nat}
    (h : index ∉ BoundNode.indices functions) :
    Event.ofFunction index (Engine.walk functions contents).journal = [] := by
  induction functions generalizing contents with
  | nil => rfl
  | cons function rest ih =>
    rw [BoundNode.indices, List.map_cons, List.mem_cons, not_or] at h
    obtain ⟨hindex, hrest⟩ := h
    have hturn : Event.ofFunction index (function.execute contents).journal = [] := by
      rw [ofFunction_execute, if_neg (Ne.symm hindex)]
    cases hresult : (function.execute contents).result with
    | error fault =>
      rw [Engine.walk_cons_error hresult]
      exact hturn
    | ok _ =>
      rw [Engine.walk_cons_ok hresult]
      dsimp only
      rw [ofFunction_append, hturn, ih _ hrest]
      rfl

/-- Every node makes progress in a pass.

**Proof sketch.** By induction on the list. The first node runs once and then no more, because its
index does not occur again; the others do not run in its turn, so what they do later is all that
they do. If the first node fails, the others stay as they are. -/
theorem progress_walk (contents : Contents)
    (h : (BoundNode.indices functions).Pairwise (· < ·)) :
    ∀ after ∈ (Engine.walk functions contents).functions, ∃ before ∈ functions,
      Progress (Engine.walk functions contents).journal before after := by
  induction functions generalizing contents with
  | nil =>
    have hnone : (Engine.walk ([] : List (BoundNode σ)) contents).functions = [] := rfl
    simp [hnone]
  | cons function rest ih =>
    obtain ⟨hfirst, hrest⟩ := pairwise_indices_cons.mp h
    have hskipped : ∀ other ∈ rest,
        Event.ofFunction other.node.index (function.execute contents).journal = [] := by
      intro other hother
      have hne : ¬function.node.index = other.node.index := Nat.ne_of_lt (hfirst other hother)
      rw [ofFunction_execute, if_neg hne]
    cases hresult : (function.execute contents).result with
    | error fault =>
      rw [Engine.walk_cons_error hresult]
      intro after hafter
      rcases List.mem_cons.mp hafter with rfl | hafter
      · refine ⟨function, List.mem_cons_self, ?_⟩
        have hprogress := progress_execute function contents [] rfl
        rwa [List.append_nil] at hprogress
      · exact ⟨after, List.mem_cons_of_mem _ hafter, Progress.refl (hskipped after hafter)⟩
    | ok _ =>
      rw [Engine.walk_cons_ok hresult]
      have hprogress := ih (function.execute contents).contents hrest
      have hlast : Event.ofFunction function.node.index
          (Engine.walk rest (function.execute contents).contents).journal = [] := by
        apply ofFunction_walk
        intro hmem
        obtain ⟨other, hother, hsame⟩ := List.mem_map.mp hmem
        have hlt := hfirst other hother
        omega
      intro after hafter
      rcases List.mem_cons.mp hafter with rfl | hafter
      · exact ⟨function, List.mem_cons_self, progress_execute function contents _ hlast⟩
      · obtain ⟨before, hbefore, hafterwards⟩ := hprogress after hafter
        exact ⟨before, List.mem_cons_of_mem _ hbefore,
          hafterwards.append_left (hskipped before hbefore)⟩

/-- A pass only changes private states. -/
lemma withState_walk (functions : List (BoundNode σ)) (contents : Contents) :
    (Engine.walk functions contents).functions.map
        (fun function => function.withState none) =
      functions.map fun function => function.withState none := by
  induction functions generalizing contents with
  | nil => rfl
  | cons function rest ih =>
    cases hresult : (function.execute contents).result with
    | error fault =>
      rw [Engine.walk_cons_error hresult]
      rfl
    | ok _ =>
      rw [Engine.walk_cons_ok hresult]
      dsimp only
      rw [List.map_cons, List.map_cons, ih]
      rfl

/-- A pass binds and releases nothing. -/
lemma bindings_walk (functions : List (BoundNode σ)) (contents : Contents) :
    Event.bindings (Engine.walk functions contents).journal = [] ∧
      Event.releases (Engine.walk functions contents).journal = [] := by
  induction functions generalizing contents with
  | nil => exact ⟨rfl, rfl⟩
  | cons function rest ih =>
    have hturn := bindings_execute function contents
    cases hresult : (function.execute contents).result with
    | error fault =>
      rw [Engine.walk_cons_error hresult]
      exact hturn
    | ok _ =>
      obtain ⟨hbindings, hreleases⟩ := ih (function.execute contents).contents
      rw [Engine.walk_cons_ok hresult]
      dsimp only
      rw [bindings_append, releases_append, hturn.1, hturn.2, hbindings, hreleases]
      exact ⟨rfl, rfl⟩

/-- **Executing**: a pass continues the lives of the bound nodes. -/
theorem Alive.walk (h : Alive functions journal) (contents : Contents) :
    Alive (Engine.walk functions contents).functions
      (journal ++ (Engine.walk functions contents).journal) := by
  have hprogress := progress_walk contents h.ascending
  obtain ⟨hbindings, hreleases⟩ := bindings_walk functions contents
  have hkept := withState_walk functions contents
  set pass := Engine.walk functions contents
  have hindices : BoundNode.indices pass.functions = BoundNode.indices functions := by
    have hmapped := congrArg (List.map fun function => function.node.index) hkept
    rwa [List.map_map, List.map_map] at hmapped
  have hpending : BoundNode.pending pass.functions = BoundNode.pending functions := by
    have hmapped := congrArg (List.filterMap fun function =>
      function.binding.release.map (function.node.index, ·)) hkept
    rwa [List.filterMap_map, List.filterMap_map] at hmapped
  refine ⟨hindices ▸ h.ascending, ?_, ?_, ?_⟩
  · intro after hafter
    obtain ⟨before, hbefore, hnode, hsource, left, hleft, hbinding⟩ := hprogress after hafter
    obtain ⟨lives, life, hlives, hlifeSource, hlifeBinding⟩ := h.running before hbefore
    refine ⟨lives, life.extend left, ?_, hsource.trans hlifeSource, ?_⟩
    · rw [hnode, ofFunction_append, hlives, hleft, Life.running_extend, List.append_assoc]
    · rw [hbinding, hlifeBinding, Life.state_extend]
      rfl
  · intro index hindex
    rw [hindices] at hindex
    obtain ⟨lives, hlives⟩ := h.settled index hindex
    refine ⟨lives, ?_⟩
    rw [ofFunction_append, hlives, ofFunction_walk functions contents hindex,
      List.append_nil]
  · rw [bindings_append, releases_append, hbindings, hreleases, List.append_nil, List.append_nil,
      hpending, h.balanced]

end

end Inference
