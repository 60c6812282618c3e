import Inference.Proofs.Engine.Refinement
import Inference.Proofs.Session.Coherence
import Inference.Proofs.Session.Discarding
import Inference.Proofs.Session.Lifecycle

set_option autoImplicit false
set_option relaxedAutoImplicit false

/-!
# Releases

A release routine that was bound runs exactly once: when the loading that bound it fails, when its
session is freed, or when its session is given up. This file follows the lives of bindings through
a history, whatever the host does in whatever order.

## Main definitions

* `Session.functions` — the functions that are bound now.

## Main results

* `Alive.effect`, `Alive.after` — what one action and a whole history do to the lives of bindings.
* `Session.releases_perform` — an action releases everything or nothing.
* `Session.releases_exactly_once` — every release routine runs exactly once.
-/

namespace Inference

variable {σ : Type}

/-- The functions that are bound now. -/
def Session.functions (session : Session σ) : List (BoundNode σ) :=
  match session.held with
  | some bound => bound.functions
  | none => []

/-- Giving up a session releases the functions that are bound. -/
lemma Session.close_eq (session : Session σ) :
    session.close = BoundNode.releaseAll session.functions := by
  unfold Session.close Session.functions
  cases session.held <;> rfl

/-- The functions of a session that is ready are those of its network. -/
lemma Session.functions_of_ready {session : Session σ} {bound : Bound σ}
    (h : session.ready? = some bound) : session.functions = bound.functions := by
  rw [Session.functions, held_of_ready h]

/-- Nothing is bound unless the session is ready. -/
lemma Session.Coherent.functions_eq_nil {session : Session σ} (h : session.Coherent)
    (hstage : session.stage ≠ .ready) : session.functions = [] := by
  rw [Session.functions, h.held_eq_none hstage]

/-- The nodes of a network that was read have ascending indices. -/
lemma Network.pairwise_index_nodes {descriptor : Bytes} {network : Network}
    (h : Network.decode descriptor = .ok network) :
    (network.nodes.map Node.index).Pairwise (· < ·) := by
  have hindices : network.nodes.map Node.index = network.functions.map FunctionEntry.index := by
    rw [Network.nodes, List.map_map]
    rfl
  rw [hindices, Network.map_index_functions (Network.consistent_of_decode h)]
  exact List.pairwise_lt_range

/-! ## Lives -/

section

variable {session next : Session σ} {past journal : List (Event σ)}

/-- **One action**: an action begins, continues and ends the lives of bindings, and leaves none
behind whose function is not bound. -/
theorem Alive.effect (h : Alive session.functions past) (hcoherent : session.Coherent)
    (heffect : Effect session next journal) : Alive next.functions (past ++ journal) := by
  cases heffect with
  | unchanged | registered =>
    rw [List.append_nil]
    exact h
  | undone loading descriptor network hstage hdecode =>
    have hnone := hcoherent.functions_eq_nil (by simp [hstage])
    rw [hnone] at h ⊢
    rw [← List.append_assoc]
    exact (h.bindAll session.dispatch loading (Network.pairwise_index_nodes hdecode)).releaseAll
  | loaded loading descriptor network budget arena hstage hdecode hbound harena =>
    rw [hcoherent.functions_eq_nil (by simp [hstage])] at h
    rw [Session.close_of_held_eq_none (hcoherent.held_eq_none (by simp [hstage])),
      List.append_nil]
    exact h.bindAll session.dispatch loading (Network.pairwise_index_nodes hdecode)
  | passed bound readings hready =>
    rw [Session.functions_of_ready hready] at h
    exact h.walk bound.arena.split
  | written bound v offset bytes hready =>
    rw [Session.functions_of_ready hready] at h
    rw [List.append_nil]
    exact h
  | freed =>
    rw [Session.close_eq]
    exact h.releaseAll

/-- **A history**: after any actions, the bound functions are those whose lives go on. -/
theorem Alive.after (h : Alive session.functions past) (hcoherent : session.Coherent)
    (actions : List (Action σ)) :
    Alive (session.after actions).functions (past ++ session.events actions) := by
  induction actions generalizing session past with
  | nil =>
    rw [Session.events, List.append_nil]
    exact h
  | cons action actions ih =>
    rw [Session.events, Session.after, ← List.append_assoc]
    have heffect := session.effect_perform action
    exact ih (h.effect hcoherent heffect) (heffect.coherent hcoherent)

/-- A new session binds nothing, and nothing has happened to it. -/
lemma Alive.new (settings : Settings) (registry : Registry σ) :
    Alive (Session.new settings registry).functions [] :=
  alive_nil

/-! ## One action -/

/-- An action after which the session is ready releases nothing. -/
lemma Effect.releases_of_ready (heffect : Effect session next journal)
    (hcoherent : session.Coherent) (hnext : next.stage = .ready) :
    Event.releases journal = [] := by
  cases heffect with
  | unchanged | registered | written => rfl
  | undone loading descriptor network hstage =>
    rw [hstage] at hnext
    contradiction
  | loaded loading descriptor network budget arena hstage =>
    rw [Session.close_of_held_eq_none (hcoherent.held_eq_none (by simp [hstage])),
      List.append_nil]
    exact (bindings_bindAll session.dispatch loading network.nodes).2
  | passed bound => exact (bindings_walk bound.functions bound.arena.split).2
  | freed => contradiction

/-- The functions with a release routine are some of the bound functions, in their order. -/
lemma map_fst_pending_sublist (functions : List (BoundNode σ)) :
    ((BoundNode.pending functions).map Prod.fst).Sublist (BoundNode.indices functions) := by
  induction functions with
  | nil => exact List.Sublist.refl _
  | cons function functions ih =>
    rw [pending_cons, List.map_append, BoundNode.indices, List.map_cons, ← BoundNode.indices]
    cases function.binding.release with
    | none => exact ih.cons function.node.index
    | some release => exact ih.cons_cons function.node.index

/-- The release routines of bound functions that lie in the order of the table are in that
order. -/
lemma pairwise_pending {functions : List (BoundNode σ)}
    (h : (BoundNode.indices functions).Pairwise (· < ·)) :
    ((BoundNode.pending functions).map Prod.fst).Pairwise (· < ·) :=
  h.sublist (map_fst_pending_sublist functions)

/-- An action releases functions in the order of the table. -/
lemma Effect.pairwise_releases (heffect : Effect session next journal)
    (hcoherent : session.Coherent) (h : Alive session.functions past) :
    ((Event.releases journal).map Prod.fst).Pairwise (· < ·) := by
  by_cases hnext : next.stage = .ready
  · rw [heffect.releases_of_ready hcoherent hnext]
    exact List.Pairwise.nil
  cases heffect with
  | unchanged | registered => exact List.Pairwise.nil
  | undone loading descriptor network hstage hdecode =>
    rw [releases_append, (bindings_bindAll session.dispatch loading network.nodes).2,
      List.nil_append, (releases_releaseAll _).1]
    exact pairwise_pending ((Network.pairwise_index_nodes hdecode).sublist
      (indices_bindAll_sublist session.dispatch loading network.nodes))
  | loaded => exact absurd rfl hnext
  | passed bound readings hready | written bound v offset bytes hready =>
    exact absurd (Session.stage_of_ready hready) hnext
  | freed =>
    rw [Session.close_eq, (releases_releaseAll _).1]
    exact pairwise_pending h.ascending

/-- What was bound before an action and what the action binds is released by it or still bound
after it. -/
lemma Effect.balanced (heffect : Effect session next journal) (hcoherent : session.Coherent)
    (h : Alive session.functions past) :
    BoundNode.pending session.functions ++ Event.bindings journal =
      Event.releases journal ++ BoundNode.pending next.functions := by
  have hafter := (h.effect hcoherent heffect).balanced
  rw [bindings_append, releases_append, h.balanced, List.append_assoc, List.append_assoc] at hafter
  exact List.append_cancel_left hafter

end

namespace Session

/-- An action releases nothing if the session is ready after it. Otherwise it releases everything
that was bound before, and everything that it bound itself. -/
theorem releases_perform {session : Session σ} {past : List (Event σ)}
    (hcoherent : session.Coherent) (h : Alive session.functions past) (action : Action σ) :
    Event.releases (session.perform action).journal =
      if (session.perform action).session.stage = .ready then []
      else
        BoundNode.pending session.functions ++
          Event.bindings (session.perform action).journal := by
  have heffect := session.effect_perform action
  split
  next hstage => exact heffect.releases_of_ready hcoherent hstage
  next hstage =>
    have hbalanced := heffect.balanced hcoherent h
    rw [(heffect.coherent hcoherent).functions_eq_nil hstage] at hbalanced
    rw [hbalanced, BoundNode.pending, List.filterMap_nil, List.append_nil]

/-! ## Whole histories -/

/-- **Exactly one release**: whatever a host does with a new session before giving it up, every
release routine that was bound with a function runs exactly once.

The events of each function are whole lives: it is bound, executed any number of times, and
released on the private state that its last execution left. Over the whole history, the releases
are the bindings of release routines. An action releases everything that is bound if the session is
not ready after it, and nothing otherwise, so a routine runs when the loading that bound it fails,
when the session is freed, or at the end; each time the order is that of the table. What was
installed in slots that make no binding, also where an implementation then refuses the node, has no
part in this: everything happens in the same way if all such slots are emptied.

**Proof sketch.** Every action has one of the effects that an action can have
(`Session.effect_perform`), each of which keeps the lives of the bound functions going and ends the
others (`Alive.effect`). The claim about emptied slots is `Session.events_discarding`. -/
theorem releases_exactly_once (settings : Settings) (registry : Registry σ)
    (actions : List (Action σ)) :
    let start := Session.new settings registry
    let last := start.after actions
    let journal := start.events actions
    (∀ function, ∃ lives : List (Life σ),
      Event.ofFunction function (journal ++ last.close) = lives.flatMap (Life.ended function)) ∧
    Event.releases (journal ++ last.close) = Event.bindings (journal ++ last.close) ∧
    (∀ action,
      Event.releases (last.perform action).journal =
        (if (last.perform action).session.stage = .ready then []
        else BoundNode.pending last.functions ++ Event.bindings (last.perform action).journal) ∧
      ((Event.releases (last.perform action).journal).map Prod.fst).Pairwise (· < ·)) ∧
    Event.releases last.close = BoundNode.pending last.functions ∧
    ((Event.releases last.close).map Prod.fst).Pairwise (· < ·) ∧
    (Session.new settings registry.discarding).events (actions.map Action.discarding) = journal ∧
    ((Session.new settings registry.discarding).after (actions.map Action.discarding)).close =
      last.close := by
  intro start last journal
  have hcoherent : last.Coherent := coherent_after settings registry actions
  have halive : Alive last.functions journal :=
    (Alive.new settings registry).after (coherent_new settings registry) actions
  have hended : Alive [] (journal ++ last.close) := by
    rw [close_eq]
    exact halive.releaseAll
  have hclose : Event.releases last.close = BoundNode.pending last.functions := by
    rw [close_eq]
    exact (releases_releaseAll last.functions).1
  obtain ⟨hevents, hafter⟩ := start.events_discarding actions
  refine ⟨?_, ?_, ?_, hclose, ?_, hevents, ?_⟩
  · intro function
    exact hended.settled function (by simp [BoundNode.indices])
  · have hbalanced := hended.balanced
    rw [BoundNode.pending, List.filterMap_nil, List.append_nil] at hbalanced
    exact hbalanced.symm
  · intro action
    exact ⟨releases_perform hcoherent halive action,
      (last.effect_perform action).pairwise_releases hcoherent halive⟩
  · rw [hclose]
    exact pairwise_pending halive.ascending
  · have hkept : start.discarding = Session.new settings registry.discarding := rfl
    rw [← hkept, hafter]
    rfl

/-- Takes every node, counts its calls, and says the count when it is released. -/
def reporting : Resolver Nat := fun _ _ _ =>
  { resolution := .matched
    slot :=
      { execute := some fun call calls => ⟨call.outputs, some (calls.getD 0 + 1), .ok (), []⟩
        release := some fun calls => [toString (calls.getD 0)]
        state := some 0 }
    notes := [] }

/-- Installs routines and then refuses the node. -/
def refusing : Installer Nat := fun node slot =>
  { slot :=
      { slot with
        execute := some fun call calls => ⟨call.outputs, calls, .ok (), []⟩
        release := some fun _ => ["refused"] }
    result := .error (.invalidNode node.index (.arity node.op 0 0 1 0 0)) }

/-- The functions that were released, and the private states that they were released on. -/
def releasedStates (journal : List (Event Nat)) : List (Nat × Option Nat) :=
  journal.filterMap fun event =>
    match event with
    | .released function _ state => some (function, state)
    | _ => none

/-- A first loading binds one function and fails at the next one; after a second loading there are
two passes before the session is freed. What a built-in implementation installed before it refused
its node is never released. -/
theorem releases_exactly_once_reporting :
    let registry := Registry.empty.register .tanh 0 refusing
    let actions : List (Action Nat) :=
      [.register .relu reporting, .load 0 relay.encode, .register .tanh reporting,
        .load 1 relay.encode, .forward id, .forward id, .free]
    let journal := (Session.new {} registry).events actions
    releasedStates journal = [(0, some 0), (0, some 2), (1, some 2)] ∧
      Event.notes journal = ["0", "2", "2"] ∧
      (∀ function, ∃ lives : List (Life Nat),
        Event.ofFunction function (journal ++ ((Session.new {} registry).after actions).close) =
          lives.flatMap (Life.ended function)) ∧
      (Event.bindings journal).map Prod.fst = [0, 0, 1] := by
  intro registry actions journal
  obtain ⟨hlives, hbalanced, -⟩ := releases_exactly_once {} registry actions
  have hnone : ((Session.new {} registry).after actions).held.isNone := by decide +kernel
  have hclose := close_of_held_eq_none (Option.isNone_iff_eq_none.mp hnone)
  rw [hclose, List.append_nil] at hbalanced
  refine ⟨by decide +kernel, by decide +kernel, hlives, ?_⟩
  rw [← hbalanced]
  decide +kernel

end Session

end Inference
