import Inference.Proofs.Session.Contents

set_option autoImplicit false
set_option relaxedAutoImplicit false

/-!
# Discarded slots

An override that declines, or that takes a node without installing an execute routine, leaves a
slot behind that makes no binding. So does a built-in implementation that installs none, or that
refuses a node after it has begun to fill the slot. This file shows that nothing depends on what was
installed in such a slot: emptying it changes nothing that happens.

## Main definitions

* `Resolver.discarding`, `Installer.discarding` — an implementation that empties the slots which
  make no binding.
* `Session.discarding`, `Action.discarding` — sessions and actions with such implementations only.

## Main results

* `Dispatch.resolve_discarding` — emptying discarded slots does not change what a node is bound to.
* `Session.perform_discarding`, `Session.events_discarding` — nor anything that happens.
-/

namespace Inference

/-! ## Tables -/

namespace KeyedTable

variable {α β : Type}

/-- The table with a function applied to every value. -/
def map (f : α → β) (table : KeyedTable α) : KeyedTable β :=
  ⟨table.entries.map fun entry => (entry.1, f entry.2)⟩

/-- The value of a key in a table that a function was applied to. -/
lemma find?_map (f : α → β) (table : KeyedTable α) (key : Nat) :
    (table.map f).find? key = (table.find? key).map f := by
  obtain ⟨entries⟩ := table
  simp only [map, find?]
  induction entries with
  | nil => rfl
  | cons entry rest ih =>
    obtain ⟨k, v⟩ := entry
    rw [List.map_cons, findEntry?, findEntry?]
    split
    · rfl
    · exact ih

/-- A value can be set before or after a function is applied. -/
lemma map_set (f : α → β) (table : KeyedTable α) (key : Nat) (value : α) :
    (table.set key value).map f = (table.map f).set key (f value) := by
  obtain ⟨entries⟩ := table
  simp only [map, set, mk.injEq]
  induction entries with
  | nil => rfl
  | cons entry rest ih =>
    obtain ⟨k, v⟩ := entry
    rw [List.map_cons, setEntry, setEntry]
    split
    · rfl
    · split
      · rfl
      · rw [List.map_cons, ih]

end KeyedTable

variable {σ : Type}

/-! ## Slots -/

/-- A slot, or an empty one in place of a slot that makes no binding. -/
def Slot.kept (slot : Slot σ) : Slot σ :=
  if slot.isBound then slot else .empty

/-- A slot makes the same binding when it is emptied unless it makes one. -/
@[simp]
lemma Slot.binding?_kept (slot : Slot σ) : slot.kept.binding? = slot.binding? := by
  obtain ⟨execute, release, state⟩ := slot
  cases execute <;> rfl

/-- An override that empties its slot when it declines or installs no execute routine. -/
def Resolver.discarding (resolver : Resolver σ) : Resolver σ := fun loading node slot =>
  let trial := resolver loading node slot
  match trial.resolution with
  | .matched => { trial with slot := trial.slot.kept }
  | .declined => { trial with slot := .empty }

/-- A built-in implementation that empties its slot when it refuses the node or installs no execute
routine. -/
def Installer.discarding (installer : Installer σ) : Installer σ := fun node slot =>
  let installation := installer node slot
  match installation.result with
  | .ok () => { installation with slot := installation.slot.kept }
  | .error _ => { installation with slot := .empty }

/-- A registry whose implementations empty the slots that make no binding. -/
def Registry.discarding (registry : Registry σ) : Registry σ :=
  ⟨registry.byOperator.map (KeyedTable.map Installer.discarding)⟩

/-- A dispatch table whose implementations empty the slots that make no binding. -/
def Dispatch.discarding (dispatch : Dispatch σ) : Dispatch σ where
  chains := dispatch.chains.map (List.map Resolver.discarding)
  registry := dispatch.registry.discarding
  sentinel := dispatch.sentinel

/-! ## Binding -/

namespace Dispatch

/-- The registry has the same entries, each of which empties its slot. -/
lemma lookup?_discarding (registry : Registry σ) (op : Operator) (variant : UInt16) :
    registry.discarding.lookup? op variant =
      (registry.lookup? op variant).map Installer.discarding := by
  have hvariants : registry.discarding.variants op =
      (registry.variants op).map Installer.discarding := by
    rw [Registry.variants, Registry.discarding, KeyedTable.find?_map, Registry.variants]
    cases registry.byOperator.find? op.key <;> rfl
  rw [Registry.lookup?, Registry.lookup?, hvariants]
  simp only [KeyedTable.find?_map]
  cases (registry.variants op).find? variant.toNat <;> rfl

/-- The chains have the same overrides, each of which empties its slot. -/
lemma chain_discarding (dispatch : Dispatch σ) (op : Operator) :
    dispatch.discarding.chain op = (dispatch.chain op).map Resolver.discarding := by
  rw [chain, discarding, KeyedTable.find?_map, chain]
  cases dispatch.chains.find? op.key <;> rfl

/-- An override can be registered before or after its slot is emptied. -/
lemma register_discarding (dispatch : Dispatch σ) (op : Operator) (resolver : Resolver σ) :
    (dispatch.register op resolver).discarding =
      dispatch.discarding.register op (Resolver.discarding resolver) := by
  rw [register, register, chain_discarding]
  simp only [discarding, KeyedTable.map_set, List.map_append, List.map_singleton]

/-- The same override takes a node, and its slot is emptied if it makes no binding. -/
lemma askFrom_discarding (loading : Nat) (node : Node) (position : Nat)
    (chain : List (Resolver σ)) :
    askFrom loading node position (chain.map Resolver.discarding) =
      ((askFrom loading node position chain).1.map fun found => (found.1, found.2.kept),
        (askFrom loading node position chain).2) := by
  induction chain generalizing position with
  | nil => rfl
  | cons resolver chain ih =>
    rw [List.map_cons, askFrom, askFrom, Resolver.discarding]
    cases hresolution : (resolver loading node .empty).resolution with
    | matched => simp only [Option.map_some]
    | declined => simp only [ih]

/-- Emptying discarded slots does not change which built-in implementation a node is bound to. -/
lemma bindBuiltin_discarding (registry : Registry σ) (node : Node) :
    bindBuiltin registry.discarding node = bindBuiltin registry node := by
  rw [bindBuiltin, bindBuiltin, lookup?_discarding]
  cases registry.lookup? node.op node.variant with
  | none => rfl
  | some installer =>
    simp only [Option.map_some, Installer.discarding]
    split
    · cases hresult : (installer node .empty).result with
      | error fault => rfl
      | ok _ => simp only [Slot.binding?_kept]
    · rfl

/-- Emptying discarded slots does not change what a node is bound to, nor what happens when it is
resolved. -/
theorem resolve_discarding (dispatch : Dispatch σ) (loading : Nat) (node : Node) :
    dispatch.discarding.resolve loading node = dispatch.resolve loading node := by
  have hcandidates : dispatch.discarding.candidates node =
      (dispatch.candidates node).map Resolver.discarding := by
    rw [candidates, candidates, chain_discarding]
    show (if dispatch.sentinel = some node.variant then _ else _) = _
    split <;> rfl
  rw [resolve, resolve, hcandidates, askFrom_discarding]
  obtain ⟨found, journal⟩ := askFrom loading node 0 (dispatch.candidates node)
  cases found with
  | none =>
    have hregistry : dispatch.discarding.registry = dispatch.registry.discarding := rfl
    simp only [Option.map_none, hregistry, bindBuiltin_discarding]
  | some found => simp only [Option.map_some, bindOverride, Slot.binding?_kept]

/-- Emptying discarded slots does not change what nodes are bound to. -/
lemma bindAll_discarding (dispatch : Dispatch σ) (loading : Nat) (nodes : List Node) :
    dispatch.discarding.bindAll loading nodes = dispatch.bindAll loading nodes := by
  induction nodes with
  | nil => rfl
  | cons node nodes ih => rw [bindAll, bindAll, resolve_discarding, ih]

end Dispatch

/-! ## Sessions -/

/-- An action whose override empties the slots that make no binding. -/
def Action.discarding : Action σ → Action σ
  | .register op resolver => .register op (Resolver.discarding resolver)
  | action => action

namespace Session

/-- A session whose implementations empty the slots that make no binding. -/
def discarding (session : Session σ) : Session σ :=
  { session with dispatch := session.dispatch.discarding }

/-- Loading a descriptor does not depend on discarded slots. -/
lemma load_discarding (session : Session σ) (loading : Nat) (descriptor : Bytes) :
    session.discarding.load loading descriptor =
      { session.load loading descriptor with
        session := (session.load loading descriptor).session.discarding } :=
  load_change discarding rfl rfl rfl (session.dispatch.bindAll_discarding loading) (fun _ => rfl)
    descriptor

/-- **Discarded slots**: emptying the slots that make no binding changes neither the answer to an
action nor what happens on the way.

**Proof sketch.** Only loading looks at slots, and it binds every node to the same implementation
(`Dispatch.resolve_discarding`). -/
theorem perform_discarding (session : Session σ) (action : Action σ) :
    session.discarding.perform action.discarding =
      { session.perform action with
        session := (session.perform action).session.discarding } := by
  have hother (hregister : ∀ op resolver, action ≠ .register op resolver)
      (hload : ∀ loading descriptor, action ≠ .load loading descriptor) :
      session.discarding.perform action =
        { session.perform action with
          session := (session.perform action).session.discarding } := by
    have hkept := session.dispatch_perform hregister hload
    rw [discarding, session.perform_withDispatch_eq _ hregister hload, discarding, hkept]
  cases action with
  | register op resolver =>
    obtain ⟨settings, stage, dispatch, held, latest⟩ := session
    cases stage with
    | configuring =>
      simp only [perform, Action.discarding, register, discarding, updated,
        Dispatch.register_discarding]
    | ready | freed => rfl
  | load loading descriptor =>
    show replied (session.discarding.load loading descriptor) = _
    rw [load_discarding]
    rfl
  | forward | write | writeSingles | ask | free => exact hother (by simp) (by simp)

/-- Emptying discarded slots changes nothing that happens, and nothing about the session but the
implementations that it would still ask. -/
theorem events_discarding (session : Session σ) (actions : List (Action σ)) :
    session.discarding.events (actions.map Action.discarding) = session.events actions ∧
      session.discarding.after (actions.map Action.discarding) =
        (session.after actions).discarding := by
  induction actions generalizing session with
  | nil => exact ⟨rfl, rfl⟩
  | cons action actions ih =>
    obtain ⟨hevents, hafter⟩ := ih (session.perform action).session
    rw [List.map_cons, events, events, after, after, perform_discarding]
    exact ⟨congrArg _ hevents, hafter⟩

end Session

end Inference
