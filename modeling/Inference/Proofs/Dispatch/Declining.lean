import Inference.Proofs.Dispatch.Resolution
import Mathlib.Data.List.InsertIdx

set_option autoImplicit false
set_option relaxedAutoImplicit false

/-!
# Overrides that decline

An override that declines every node only takes a place in the chain where it stands. Every other
override is asked as before and is shown the same empty slot; from the place of the decliner on,
positions are one higher. So nodes are bound to what they would be bound to without the decliner,
and what it installs before it declines has no part in that.

Overrides of different operators stand in different chains, so it does not matter in which order
they are registered.

## Main definitions

* `Decliner` — an override that declines every node, and where it stands.
* `Decliner.moved`, `Decliner.source` — positions and implementations as they are with the decliner.
* `Decliner.dispatch` — a dispatch table with the decliner in its chain.
* `Decliner.Asked` — journals that tell the same, but that the decliner is asked in one of them.

## Main results

* `Decliner.resolve_dispatch`, `Decliner.bindAll_dispatch` — what nodes are bound to with the
  decliner.
* `Dispatch.register_comm` — overrides of different operators can be registered in any order.
-/

namespace Inference

/-! ## Tables -/

namespace KeyedTable

variable {α : Type}

/-- Of two values for one key, the later one counts. -/
lemma set_set (table : KeyedTable α) (key : Nat) (value value' : α) :
    (table.set key value).set key value' = table.set key value' := by
  obtain ⟨entries⟩ := table
  simp only [set, mk.injEq]
  induction entries with
  | nil => simp [setEntry]
  | cons entry rest ih =>
    obtain ⟨k, v⟩ := entry
    by_cases hlt : key < k
    · simp [setEntry, hlt]
    · by_cases heq : key = k
      · simp [setEntry, heq]
      · simp [setEntry, hlt, heq, ih]

/-- Values for different keys can be set in any order. -/
lemma set_comm (table : KeyedTable α) {key other : Nat} (h : key ≠ other) (value value' : α) :
    (table.set key value).set other value' = (table.set other value').set key value := by
  obtain ⟨entries⟩ := table
  simp only [set, mk.injEq]
  induction entries with
  | nil =>
    rcases Nat.lt_or_gt_of_ne h with hlt | hlt
    · simp [setEntry, hlt, h.symm, Nat.not_lt_of_lt hlt]
    · simp [setEntry, hlt, h, Nat.not_lt_of_lt hlt]
  | cons entry rest ih =>
    obtain ⟨k, v⟩ := entry
    simp only [setEntry]
    grind [setEntry]

end KeyedTable

/-- An item that is inserted before the end of a list stands there also when the list grows. -/
lemma insertIdx_append_singleton {α : Type} (item last : α) {items : List α} {i : Nat}
    (h : i ≤ items.length) :
    (items ++ [last]).insertIdx i item = items.insertIdx i item ++ [last] := by
  induction items generalizing i with
  | nil =>
    obtain rfl : i = 0 := Nat.le_zero.mp h
    rfl
  | cons first items ih =>
    cases i with
    | zero => rfl
    | succ i =>
      rw [List.cons_append, List.insertIdx_succ_cons, List.insertIdx_succ_cons, List.cons_append,
        ih (Nat.le_of_succ_le_succ h)]

variable {σ : Type}

/-! ## Decliners -/

/-- An override that declines every node, whatever it installs before it does, with the chain and
the position where it stands. -/
structure Decliner (σ : Type) where
  op : Operator
  position : Nat
  resolver : Resolver σ
  declines : ∀ loading node slot, (resolver loading node slot).resolution = .declined

namespace Decliner

/-- Where an override of an operator stands that would stand at a position without the decliner. -/
def moved (decliner : Decliner σ) (op : Operator) (position : Nat) : Nat :=
  if op = decliner.op ∧ decliner.position ≤ position then position + 1 else position

/-- The implementation of a node, told by where it stands with the decliner. -/
def source (decliner : Decliner σ) (op : Operator) : Source → Source
  | .override position => .override (decliner.moved op position)
  | .builtin => .builtin

/-- The reason why nothing binds a node, told by where overrides stand with the decliner. -/
def reason (decliner : Decliner σ) (op : Operator) : UnsupportedReason → UnsupportedReason
  | .emptyMatch position => .emptyMatch (decliner.moved op position)
  | reason => reason

/-- Why a node cannot be bound, told by where overrides stand with the decliner. -/
def bindingFault (decliner : Decliner σ) (op : Operator) : BindingFault → BindingFault
  | .unsupported reason => .unsupported (decliner.reason op reason)
  | .refused fault => .refused fault

/-- What a node is bound to with the decliner. -/
def found (decliner : Decliner σ) (op : Operator) :
    Except BindingFault (Source × Binding σ) → Except BindingFault (Source × Binding σ)
  | .ok (source, binding) => .ok (decliner.source op source, binding)
  | .error fault => .error (decliner.bindingFault op fault)

/-- A bound function with the decliner: it has the same routines and the same private state. -/
def function (decliner : Decliner σ) (function : BoundNode σ) : BoundNode σ :=
  { function with source := decliner.source function.node.op function.source }

/-- A dispatch table with the decliner in its chain. -/
def dispatch (decliner : Decliner σ) (dispatch : Dispatch σ) : Dispatch σ :=
  { dispatch with
    chains := dispatch.chains.set decliner.op.key
      ((dispatch.chain decliner.op).insertIdx decliner.position decliner.resolver) }

/-- Journals that tell the same about the given nodes, the second one with the decliner: there it
is asked, and tells what it tells, and the positions of the others are those they have with it. -/
inductive Asked (decliner : Decliner σ) (nodes : List Node) :
    List (Event σ) → List (Event σ) → Prop where
  | nil : Asked decliner nodes [] []
  | asked {node : Node} {old new : List (Event σ)} (loading : Nat) (hnode : node ∈ nodes)
      (hop : node.op = decliner.op) (h : Asked decliner nodes old new) :
      Asked decliner nodes old (.tried node.index decliner.position ::
        (decliner.resolver loading node .empty).notes.map .note ++ new)
  | tried {node : Node} {old new : List (Event σ)} (hnode : node ∈ nodes) (position : Nat)
      (h : Asked decliner nodes old new) :
      Asked decliner nodes (.tried node.index position :: old)
        (.tried node.index (decliner.moved node.op position) :: new)
  | bound {node : Node} {old new : List (Event σ)} (hnode : node ∈ nodes) (source : Source)
      (binding : Binding σ) (h : Asked decliner nodes old new) :
      Asked decliner nodes (.bound node.index source binding :: old)
        (.bound node.index (decliner.source node.op source) binding :: new)
  | executed (function : Nat) (state : Option σ) {old new : List (Event σ)}
      (h : Asked decliner nodes old new) :
      Asked decliner nodes (.executed function state :: old) (.executed function state :: new)
  | released (function : Nat) (release : Release σ) (state : Option σ) {old new : List (Event σ)}
      (h : Asked decliner nodes old new) :
      Asked decliner nodes (.released function release state :: old)
        (.released function release state :: new)
  | note (text : String) {old new : List (Event σ)} (h : Asked decliner nodes old new) :
      Asked decliner nodes (.note text :: old) (.note text :: new)

/-! ## Positions -/

variable {decliner : Decliner σ} {nodes : List Node} {node : Node}

/-- Positions before the decliner stay. -/
lemma moved_of_lt {position : Nat} (h : position < decliner.position) (op : Operator) :
    decliner.moved op position = position :=
  if_neg fun hmoved => Nat.not_le.mpr h hmoved.2

/-- Positions from the decliner on are one higher. -/
lemma moved_of_le {op : Operator} (hop : op = decliner.op) {position : Nat}
    (h : decliner.position ≤ position) : decliner.moved op position = position + 1 :=
  if_pos ⟨hop, h⟩

/-- Positions in other chains stay. -/
lemma moved_of_ne {op : Operator} (hop : op ≠ decliner.op) (position : Nat) :
    decliner.moved op position = position :=
  if_neg fun hmoved => hop hmoved.1

/-! ## Journals -/

namespace Asked

variable {old new : List (Event σ)}

/-- Journals that tell the same, one after another. -/
lemma append (h : decliner.Asked nodes old new) {old' new' : List (Event σ)}
    (h' : decliner.Asked nodes old' new') : decliner.Asked nodes (old ++ old') (new ++ new') := by
  induction h with
  | nil => exact h'
  | asked loading hnode hop _ ih =>
    rw [List.append_assoc]
    exact .asked loading hnode hop ih
  | tried hnode position _ ih => exact .tried hnode position ih
  | bound hnode source binding _ ih => exact .bound hnode source binding ih
  | executed function state _ ih => exact .executed function state ih
  | released function release state _ ih => exact .released function release state ih
  | note text _ ih => exact .note text ih

/-- Journals that tell the same about some nodes do so when there are more nodes. -/
lemma mono (h : decliner.Asked nodes old new) {others : List Node} (hsub : nodes ⊆ others) :
    decliner.Asked others old new := by
  induction h with
  | nil => exact .nil
  | asked loading hnode hop _ ih => exact .asked loading (hsub hnode) hop ih
  | tried hnode position _ ih => exact .tried (hsub hnode) position ih
  | bound hnode source binding _ ih => exact .bound (hsub hnode) source binding ih
  | executed function state _ ih => exact .executed function state ih
  | released function release state _ ih => exact .released function release state ih
  | note text _ ih => exact .note text ih

/-- Notes are the same with the decliner. -/
lemma notes (texts : List String) :
    decliner.Asked nodes (texts.map .note) (texts.map .note) := by
  induction texts with
  | nil => exact .nil
  | cons text texts ih => exact .note text ih

end Asked

end Decliner

/-! ## Asking -/

namespace Decliner

variable {decliner : Decliner σ} {nodes : List Node} {node : Node}

/-- Answers of two chains of an operator, the second one with the decliner: the same override takes
the node and fills the same slot, and the journals tell the same. -/
structure SameAnswer (decliner : Decliner σ) (nodes : List Node) (op : Operator)
    (old new : Option (Nat × Slot σ) × List (Event σ)) : Prop where
  found_eq : new.1 = old.1.map fun found => (decliner.moved op found.1, found.2)
  journal : decliner.Asked nodes old.2 new.2

/-- An override that is asked first does not make a difference. -/
lemma SameAnswer.cons {loading : Nat} (hnode : node ∈ nodes) {position position' : Nat}
    (hmoved : decliner.moved node.op position = position') (resolver : Resolver σ)
    {chain chain' : List (Resolver σ)}
    (h : decliner.SameAnswer nodes node.op (Dispatch.askFrom loading node (position + 1) chain)
      (Dispatch.askFrom loading node (position' + 1) chain')) :
    decliner.SameAnswer nodes node.op (Dispatch.askFrom loading node position (resolver :: chain))
      (Dispatch.askFrom loading node position' (resolver :: chain')) := by
  have hinquiry : decliner.Asked nodes
      (.tried node.index position :: (resolver loading node .empty).notes.map .note)
      (.tried node.index position' :: (resolver loading node .empty).notes.map .note) :=
    hmoved ▸ .tried hnode position (.notes _)
  rw [Dispatch.askFrom, Dispatch.askFrom]
  cases (resolver loading node .empty).resolution with
  | matched => exact ⟨by simp only [Option.map_some, hmoved], hinquiry⟩
  | declined => exact ⟨h.found_eq, hinquiry.append h.journal⟩

/-- A chain that starts at a moved position answers the same, if all its positions are moved
alike. -/
lemma sameAnswer_of_moved (loading : Nat) (hnode : node ∈ nodes) {start start' : Nat}
    (hmoved : ∀ i, decliner.moved node.op (start + i) = start' + i) (chain : List (Resolver σ)) :
    decliner.SameAnswer nodes node.op (Dispatch.askFrom loading node start chain)
      (Dispatch.askFrom loading node start' chain) := by
  induction chain generalizing start start' with
  | nil => exact ⟨rfl, .nil⟩
  | cons resolver chain ih =>
    have hnext : ∀ i, decliner.moved node.op (start + 1 + i) = start' + 1 + i := by
      intro i
      rw [Nat.add_assoc, hmoved, Nat.add_assoc]
    exact .cons hnode (hmoved 0) resolver (ih hnext)

/-- The chain of the decliner's operator answers the same with it.

**Proof sketch.** Induction on how far ahead the decliner stands. Overrides before it keep their
positions; it declines, and those behind it are asked at positions that are one higher. -/
lemma sameAnswer_insertIdx (loading : Nat) (hnode : node ∈ nodes) (hop : node.op = decliner.op)
    {start ahead : Nat} (hposition : start + ahead = decliner.position) {chain : List (Resolver σ)}
    (hlength : ahead ≤ chain.length) :
    decliner.SameAnswer nodes node.op (Dispatch.askFrom loading node start chain)
      (Dispatch.askFrom loading node start (chain.insertIdx ahead decliner.resolver)) := by
  induction ahead generalizing start chain with
  | zero =>
    have hmoved : ∀ i, decliner.moved node.op (start + i) = start + 1 + i := by
      intro i
      rw [moved_of_le hop (by omega), Nat.add_right_comm]
    obtain ⟨hfound, hjournal⟩ := sameAnswer_of_moved loading hnode hmoved chain
    rw [List.insertIdx_zero, Dispatch.askFrom, decliner.declines]
    refine ⟨hfound, ?_⟩
    have hasked := Asked.asked loading hnode hop hjournal
    rwa [← hposition] at hasked
  | succ ahead ih =>
    cases chain with
    | nil => cases hlength
    | cons resolver chain =>
      rw [List.insertIdx_succ_cons]
      exact .cons hnode (moved_of_lt (by omega) _) resolver
        (ih (by omega) (Nat.le_of_succ_le_succ hlength))

/-! ## Binding -/

/-- The chain of the decliner's operator has the decliner, and the other chains stay. -/
lemma chain_dispatch (decliner : Decliner σ) (dispatch : Dispatch σ) (op : Operator) :
    (decliner.dispatch dispatch).chain op =
      if op = decliner.op then
        (dispatch.chain op).insertIdx decliner.position decliner.resolver
      else dispatch.chain op := by
  simp only [Dispatch.chain, Decliner.dispatch, KeyedTable.find?_set]
  by_cases hop : op = decliner.op
  · rw [if_pos (by rw [hop]), if_pos hop, Option.getD_some, hop]
  · rw [if_neg (Operator.key_inj.not.mpr (Ne.symm hop)), if_neg hop]

/-- The overrides that are asked about a node answer the same with the decliner. -/
lemma sameAnswer_candidates (loading : Nat) {dispatch : Dispatch σ}
    (h : decliner.position ≤ dispatch.chainLength decliner.op) (hnode : node ∈ nodes) :
    decliner.SameAnswer nodes node.op (Dispatch.askFrom loading node 0 (dispatch.candidates node))
      (Dispatch.askFrom loading node 0 ((decliner.dispatch dispatch).candidates node)) := by
  have hsentinel : (decliner.dispatch dispatch).sentinel = dispatch.sentinel := rfl
  rw [Dispatch.candidates, Dispatch.candidates, chain_dispatch, hsentinel]
  split
  · exact ⟨rfl, .nil⟩
  · by_cases hop : node.op = decliner.op
    · have hlength : decliner.position ≤ (dispatch.chain node.op).length := by
        rw [hop]
        exact h
      rw [if_pos hop]
      exact sameAnswer_insertIdx loading hnode hop (Nat.zero_add _) hlength
    · rw [if_neg hop]
      exact sameAnswer_of_moved loading hnode (moved_of_ne hop <| 0 + ·) _

/-- Built-in implementations have no place in a chain. -/
lemma found_bindBuiltin (decliner : Decliner σ) (registry : Registry σ) (node : Node) :
    decliner.found node.op (Dispatch.bindBuiltin registry node) =
      Dispatch.bindBuiltin registry node := by
  simp only [Dispatch.bindBuiltin]
  split
  · rfl
  · split
    · split
      · rfl
      · split <;> rfl
    · rfl

/-- What an override installed is bound, and told by where the override stands. -/
lemma found_bindOverride (decliner : Decliner σ) (op : Operator) (position : Nat)
    (slot : Slot σ) :
    decliner.found op (Dispatch.bindOverride position slot) =
      Dispatch.bindOverride (decliner.moved op position) slot := by
  unfold Dispatch.bindOverride
  split <;> rfl

/-- A node is bound to the same implementation with the decliner. -/
theorem resolve_dispatch (loading : Nat) {dispatch : Dispatch σ}
    (h : decliner.position ≤ dispatch.chainLength decliner.op) (hnode : node ∈ nodes) :
    ((decliner.dispatch dispatch).resolve loading node).result =
        decliner.found node.op (dispatch.resolve loading node).result ∧
      decliner.Asked nodes (dispatch.resolve loading node).journal
        ((decliner.dispatch dispatch).resolve loading node).journal := by
  obtain ⟨hfound, hjournal⟩ := sameAnswer_candidates loading h hnode
  rw [Dispatch.resolve, Dispatch.resolve]
  generalize Dispatch.askFrom loading node 0 (dispatch.candidates node) = old at hfound hjournal ⊢
  generalize Dispatch.askFrom loading node 0 ((decliner.dispatch dispatch).candidates node) = new
    at hfound hjournal ⊢
  obtain ⟨found, journal⟩ := old
  obtain ⟨found', journal'⟩ := new
  subst hfound
  cases found with
  | none => exact ⟨(found_bindBuiltin decliner dispatch.registry node).symm, hjournal⟩
  | some found => exact ⟨(found_bindOverride decliner node.op found.1 found.2).symm, hjournal⟩

/-- **Binding**: nodes are bound to the same implementations with the decliner, up to the same
node that cannot be bound.

**Proof sketch.** Induction on the nodes; each of them is bound to the same implementation
(`resolve_dispatch`). -/
theorem bindAll_dispatch (loading : Nat) {dispatch : Dispatch σ}
    (h : decliner.position ≤ dispatch.chainLength decliner.op) (nodes : List Node) :
    ((decliner.dispatch dispatch).bindAll loading nodes).functions =
        (dispatch.bindAll loading nodes).functions.map decliner.function ∧
      ((decliner.dispatch dispatch).bindAll loading nodes).failure =
        (dispatch.bindAll loading nodes).failure.map
          (fun failure => (failure.1, decliner.bindingFault failure.1.op failure.2)) ∧
      decliner.Asked nodes (dispatch.bindAll loading nodes).journal
        ((decliner.dispatch dispatch).bindAll loading nodes).journal := by
  induction nodes with
  | nil => exact ⟨rfl, rfl, .nil⟩
  | cons node rest ih =>
    have hnode : node ∈ node :: rest := List.mem_cons_self
    obtain ⟨hresult, hjournal⟩ := resolve_dispatch loading h hnode
    rw [Dispatch.bindAll, Dispatch.bindAll]
    cases hfound : (dispatch.resolve loading node).result with
    | error fault =>
      rw [hfound] at hresult
      simp only [hresult, found, List.map_nil, Option.map_some, true_and]
      exact hjournal
    | ok bound =>
      obtain ⟨source, binding⟩ := bound
      obtain ⟨hfunctions, hfailure, hrest⟩ := ih
      rw [hfound] at hresult
      have hlater := hrest.mono (List.subset_cons_self node rest)
      simp only [hresult, found, hfunctions, hfailure, List.map_cons, function, true_and]
      exact hjournal.append (.bound hnode source binding hlater)

/-! ## Registering -/

/-- Overrides that are registered later stand behind the decliner. -/
lemma register_dispatch {dispatch : Dispatch σ}
    (h : decliner.position ≤ dispatch.chainLength decliner.op) (op : Operator)
    (resolver : Resolver σ) :
    (decliner.dispatch dispatch).register op resolver =
      decliner.dispatch (dispatch.register op resolver) := by
  have hlength : decliner.position ≤ (dispatch.chain decliner.op).length := h
  by_cases hop : op = decliner.op
  · subst hop
    have hchain : (dispatch.register decliner.op resolver).chain decliner.op =
        dispatch.chain decliner.op ++ [resolver] := by
      rw [Dispatch.chain_register, Function.update_self]
    have hmoved : (decliner.dispatch dispatch).chain decliner.op =
        (dispatch.chain decliner.op).insertIdx decliner.position decliner.resolver := by
      rw [chain_dispatch, if_pos rfl]
    rw [Dispatch.register, hmoved]
    simp only [Decliner.dispatch, hchain, insertIdx_append_singleton _ _ hlength]
    simp only [Dispatch.register, KeyedTable.set_set]
  · have hchain : (dispatch.register op resolver).chain decliner.op =
        dispatch.chain decliner.op := by
      rw [Dispatch.chain_register, Function.update_of_ne (Ne.symm hop)]
    have hsame : (decliner.dispatch dispatch).chain op = dispatch.chain op := by
      rw [chain_dispatch, if_neg hop]
    have hkeys := Operator.key_inj.not.mpr hop
    rw [Dispatch.register, hsame]
    simp only [Decliner.dispatch, hchain]
    simp only [Dispatch.register, KeyedTable.set_comm _ hkeys]

end Decliner

/-- Overrides of different operators can be registered in any order. -/
theorem Dispatch.register_comm (dispatch : Dispatch σ) {op other : Operator} (h : op ≠ other)
    (resolver resolver' : Resolver σ) :
    (dispatch.register op resolver).register other resolver' =
      (dispatch.register other resolver').register op resolver := by
  have hother : (dispatch.register op resolver).chain other = dispatch.chain other := by
    rw [chain_register, Function.update_of_ne (Ne.symm h)]
  have hop : (dispatch.register other resolver').chain op = dispatch.chain op := by
    rw [chain_register, Function.update_of_ne h]
  have hkeys := Operator.key_inj.not.mpr h
  rw [register, hother, register, register, hop, register]
  simp only [KeyedTable.set_comm _ hkeys]

-- An operator with a name and the one that is nothing but its code are different ones.
example : Operator.other Operator.relu.code ≠ .relu := by decide

end Inference
