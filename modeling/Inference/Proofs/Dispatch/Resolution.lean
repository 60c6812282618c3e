import Inference.Proofs.Session.Discarding
import Inference.Session.Fault
import Mathlib.Logic.Function.Basic

set_option autoImplicit false
set_option relaxedAutoImplicit false

/-!
# Resolution

What a dispatch table answers for a node, said without the order in which anything is looked up:
the first override that takes the node has it, and if there is none the entry of the registry
decides. Everything that an override or an installer is shown is the node and an empty slot, and
everything that becomes of a slot is told by the implementation that gets the node. An override may
answer differently in another loading.

## Main definitions

* `Resolver.Takes`, `Node.inquiries` — an override's answer, and what happens when overrides are
  asked.
* `Registry.registered?`, `Registry.Selects` — the entries of a registry, and the one for a node.
* `Registry.Decides`, `Dispatch.Decides` — the answers.

## Main results

* `Registry.decides_iff` — the registry answers what is said here.
* `Dispatch.resolve_iff_decides` — and so does the dispatch table.
-/

namespace Inference

variable {σ : Type}

/-! ## Overrides -/

/-- In a loading, an override takes a node when it is asked with an empty slot. -/
def Resolver.Takes (resolver : Resolver σ) (loading : Nat) (node : Node) : Prop :=
  (resolver loading node .empty).resolution = .matched

instance (resolver : Resolver σ) (loading : Nat) (node : Node) :
    Decidable (resolver.Takes loading node) :=
  inferInstanceAs (Decidable ((resolver loading node .empty).resolution = .matched))

/-- An override that does not take a node declines it. -/
lemma Resolver.not_takes_iff {resolver : Resolver σ} {loading : Nat} {node : Node} :
    ¬resolver.Takes loading node ↔ (resolver loading node .empty).resolution = .declined := by
  rw [Resolver.Takes]
  cases (resolver loading node .empty).resolution <;> simp

/-- What happens when overrides are asked about a node in order, each once and with an empty slot,
if the first of them stands at position `start`. -/
def Node.inquiries (node : Node) (loading start : Nat) (asked : List (Resolver σ)) :
    List (Event σ) :=
  (asked.zipIdx start).flatMap fun (resolver, position) =>
    .tried node.index position :: (resolver loading node .empty).notes.map .note

/-- The first override is asked before the others. -/
lemma inquiries_cons (node : Node) (loading start : Nat) (resolver : Resolver σ)
    (asked : List (Resolver σ)) :
    node.inquiries loading start (resolver :: asked) =
      (.tried node.index start :: (resolver loading node .empty).notes.map .note) ++
        node.inquiries loading (start + 1) asked := by
  rw [Node.inquiries, List.zipIdx_cons, List.flatMap_cons, ← Node.inquiries]

/-- A chain in which no override takes a node, or the first one in it that does. -/
lemma forall_not_takes_or_exists_first (chain : List (Resolver σ)) (loading : Nat) (node : Node) :
    (∀ resolver ∈ chain, ¬resolver.Takes loading node) ∨
      ∃ front resolver back, chain = front ++ resolver :: back ∧
        (∀ other ∈ front, ¬other.Takes loading node) ∧ resolver.Takes loading node := by
  cases hfind : chain.find? fun resolver => decide (resolver.Takes loading node) with
  | none =>
    left
    simpa using hfind
  | some resolver =>
    right
    obtain ⟨htakes, front, back, hchain, hfront⟩ := List.find?_eq_some_iff_append.mp hfind
    exact ⟨front, resolver, back, hchain, by simpa using hfront, by simpa using htakes⟩

namespace Dispatch

/-- If no override takes a node, all of them are asked. -/
lemma askFrom_of_forall_not_takes {loading : Nat} {node : Node} {chain : List (Resolver σ)}
    (h : ∀ resolver ∈ chain, ¬resolver.Takes loading node) (start : Nat) :
    askFrom loading node start chain = (none, node.inquiries loading start chain) := by
  induction chain generalizing start with
  | nil => rfl
  | cons resolver chain ih =>
    rw [List.forall_mem_cons] at h
    have hdeclined := Resolver.not_takes_iff.mp h.1
    simp only [askFrom, hdeclined, ih h.2, inquiries_cons]

/-- The first override that takes a node is the last one that is asked. -/
lemma askFrom_of_first {loading : Nat} {node : Node} {front back : List (Resolver σ)}
    {resolver : Resolver σ}
    (hfront : ∀ other ∈ front, ¬other.Takes loading node) (htakes : resolver.Takes loading node)
    (start : Nat) :
    askFrom loading node start (front ++ resolver :: back) =
      (some (start + front.length, (resolver loading node .empty).slot),
        node.inquiries loading start (front ++ [resolver])) := by
  induction front generalizing start with
  | nil =>
    rw [Resolver.Takes] at htakes
    simp only [List.nil_append, askFrom, htakes, inquiries_cons, List.length_nil, Nat.add_zero]
    simp [Node.inquiries]
  | cons other front ih =>
    rw [List.forall_mem_cons] at hfront
    have hdeclined := Resolver.not_takes_iff.mp hfront.1
    simp only [List.cons_append, askFrom, hdeclined, ih hfront.2, inquiries_cons,
      List.length_cons, Nat.add_assoc, Nat.add_comm 1]

/-- A chain grows at its end when an override is registered for its operator; the other chains
stay. -/
lemma chain_register (dispatch : Dispatch σ) (op : Operator) (resolver : Resolver σ) :
    (dispatch.register op resolver).chain =
      Function.update dispatch.chain op (dispatch.chain op ++ [resolver]) := by
  funext other
  rw [chain, register, KeyedTable.find?_set]
  by_cases hop : other = op
  · subst hop
    rw [if_pos rfl, Function.update_self, Option.getD_some]
  · rw [if_neg (Operator.key_inj.not.mpr (Ne.symm hop)), Function.update_of_ne hop]
    rfl

end Dispatch

/-! ## Registries -/

namespace Registry

/-- The installer that was registered for exactly this operator and variant. -/
def registered? (registry : Registry σ) (op : Operator) (variant : UInt16) : Option (Installer σ) :=
  (registry.variants op).find? variant.toNat

/-- The entries of a registry with one more entry. -/
lemma registered?_register (registry : Registry σ) (op other : Operator) (variant variant' : UInt16)
    (installer : Installer σ) :
    (registry.register op variant installer).registered? other variant' =
      if op = other ∧ variant = variant' then some installer
      else registry.registered? other variant' := by
  simp only [registered?, variants, register, KeyedTable.find?_set, Operator.key_inj]
  by_cases hop : op = other
  · subst hop
    simp only [if_true, Option.getD_some, KeyedTable.find?_set, UInt16.toNat_inj, true_and]
  · simp only [hop, false_and, if_false]

/-- The entry that stands for a node: the one for its own variant, and where there is none, the one
for variant 0. -/
def Selects (registry : Registry σ) (node : Node) (installer : Installer σ) : Prop :=
  registry.registered? node.op node.variant = some installer ∨
    registry.registered? node.op node.variant = none ∧
      registry.registered? node.op 0 = some installer

/-- The installer that is looked up is the one that stands for the node. -/
lemma lookup?_eq_some_iff {registry : Registry σ} {node : Node} {installer : Installer σ} :
    registry.lookup? node.op node.variant = some installer ↔ registry.Selects node installer := by
  rw [lookup?, Selects, registered?, registered?]
  cases (registry.variants node.op).find? node.variant.toNat <;> simp

/-- Nothing is looked up for a node that has neither entry. -/
lemma lookup?_eq_none_iff {registry : Registry σ} {node : Node} :
    registry.lookup? node.op node.variant = none ↔
      registry.registered? node.op node.variant = none ∧ registry.registered? node.op 0 = none := by
  rw [lookup?, registered?, registered?]
  cases (registry.variants node.op).find? node.variant.toNat <;> simp

/-- What a registry answers for a node. -/
inductive Decides (registry : Registry σ) (node : Node) :
    Except SessionFault (Source × Binding σ) → Prop where
  | missing (hown : registry.registered? node.op node.variant = none)
      (hzero : registry.registered? node.op 0 = none) :
      Decides registry node (.error (.unsupported node.op node.variant node.index .noCandidate))
  | notFloat {installer : Installer σ} {v : Variable} (hentry : registry.Selects node installer)
      (hargument : v ∈ node.inputs ++ node.outputs) (htype : v.elementType ≠ .float) :
      Decides registry node (.error (.unsupported node.op node.variant node.index .notFloat))
  | refused {installer : Installer σ} {fault : DescriptorFault}
      (hentry : registry.Selects node installer)
      (hfloat : ∀ v ∈ node.inputs ++ node.outputs, v.elementType = .float)
      (hrefused : (installer node .empty).result = .error fault) :
      Decides registry node (.error (.malformed fault))
  | empty {installer : Installer σ} (hentry : registry.Selects node installer)
      (hfloat : ∀ v ∈ node.inputs ++ node.outputs, v.elementType = .float)
      (hinstalled : (installer node .empty).result = .ok ())
      (hexecute : (installer node .empty).slot.execute = none) :
      Decides registry node (.error (.unsupported node.op node.variant node.index .emptyBuiltin))
  | installed {installer : Installer σ} {slot : Slot σ} {execute : Execute σ}
      (hentry : registry.Selects node installer)
      (hfloat : ∀ v ∈ node.inputs ++ node.outputs, v.elementType = .float)
      (hinstalled : (installer node .empty).result = .ok ())
      (hslot : (installer node .empty).slot = slot) (hexecute : slot.execute = some execute) :
      Decides registry node (.ok (.builtin, ⟨execute, slot.release, slot.state⟩))

end Registry

/-- The arguments of a node all have float elements, or one of them has not. -/
lemma Node.allOf_float_iff {node : Node} :
    node.allOf .float = true ↔ ∀ v ∈ node.inputs ++ node.outputs, v.elementType = .float := by
  simp only [Node.allOf, List.all_eq_true, decide_eq_true_eq]

/-- What a slot makes is known from its execute routine. -/
lemma Slot.binding?_eq {slot : Slot σ} {execute : Option (Execute σ)}
    (h : slot.execute = execute) :
    slot.binding? = execute.map fun routine => ⟨routine, slot.release, slot.state⟩ := by
  rw [Slot.binding?, h]

namespace Registry

/-- **Built-in implementations**: a registry answers with the entry that stands for a node.

**Proof sketch.** Each answer says which way every test goes. Conversely, the entry, the element
types, what the installer says and its slot are looked at in turn, and one answer is left. -/
theorem decides_iff {registry : Registry σ} {node : Node}
    {result : Except SessionFault (Source × Binding σ)} :
    registry.Decides node result ↔
      result = (Dispatch.bindBuiltin registry node).mapError (.ofBinding node) := by
  constructor
  · intro h
    cases h with
    | missing hown hzero =>
      rw [Dispatch.bindBuiltin, lookup?_eq_none_iff.mpr ⟨hown, hzero⟩]
      rfl
    | notFloat hentry hargument htype =>
      have hnot : ¬node.allOf .float = true := by
        intro hall
        exact htype (Node.allOf_float_iff.mp hall _ hargument)
      simp only [Dispatch.bindBuiltin, lookup?_eq_some_iff.mpr hentry, if_neg hnot]
      rfl
    | refused hentry hfloat hrefused =>
      simp only [Dispatch.bindBuiltin, lookup?_eq_some_iff.mpr hentry,
        if_pos (Node.allOf_float_iff.mpr hfloat), hrefused]
      rfl
    | empty hentry hfloat hinstalled hexecute =>
      simp only [Dispatch.bindBuiltin, lookup?_eq_some_iff.mpr hentry,
        if_pos (Node.allOf_float_iff.mpr hfloat), hinstalled, Slot.binding?_eq hexecute]
      rfl
    | installed hentry hfloat hinstalled hslot hexecute =>
      subst hslot
      simp only [Dispatch.bindBuiltin, lookup?_eq_some_iff.mpr hentry,
        if_pos (Node.allOf_float_iff.mpr hfloat), hinstalled, Slot.binding?_eq hexecute]
      rfl
  · rintro rfl
    cases hlookup : registry.lookup? node.op node.variant with
    | none =>
      obtain ⟨hown, hzero⟩ := lookup?_eq_none_iff.mp hlookup
      rw [Dispatch.bindBuiltin, hlookup]
      exact .missing hown hzero
    | some installer =>
      have hentry := lookup?_eq_some_iff.mp hlookup
      by_cases hall : node.allOf .float = true
      · have hfloat := Node.allOf_float_iff.mp hall
        simp only [Dispatch.bindBuiltin, hlookup, if_pos hall]
        cases hresult : (installer node .empty).result with
        | error fault => exact .refused hentry hfloat hresult
        | ok _ =>
          cases hexecute : (installer node .empty).slot.execute with
          | none =>
            simp only [Slot.binding?_eq hexecute]
            exact .empty hentry hfloat hresult hexecute
          | some execute =>
            simp only [Slot.binding?_eq hexecute]
            exact .installed hentry hfloat hresult rfl hexecute
      · have hargument : ∃ v ∈ node.inputs ++ node.outputs, v.elementType ≠ .float := by
          rw [Node.allOf_float_iff] at hall
          simpa only [not_forall, exists_prop] using hall
        obtain ⟨v, hmem, htype⟩ := hargument
        simp only [Dispatch.bindBuiltin, hlookup, if_neg hall]
        exact .notFloat hentry hmem htype

end Registry

/-! ## Dispatch tables -/

namespace Dispatch

/-- What a dispatch table answers for a node, and what happens on the way. -/
inductive Decides (dispatch : Dispatch σ) (loading : Nat) (node : Node) :
    Except SessionFault (Source × Binding σ) → List (Event σ) → Prop where
  /-- A node whose variant is the sentinel is left to the registry, and no override is asked. -/
  | sentinel {result : Except SessionFault (Source × Binding σ)}
      (hsentinel : dispatch.sentinel = some node.variant)
      (hbuiltin : dispatch.registry.Decides node result) :
      Decides dispatch loading node result []
  /-- The first override that takes the node has it, with what it installed. The overrides after it
  are not asked. -/
  | taken {front back : List (Resolver σ)} {resolver : Resolver σ} {slot : Slot σ}
      {execute : Execute σ} (hsentinel : dispatch.sentinel ≠ some node.variant)
      (hchain : dispatch.chain node.op = front ++ resolver :: back)
      (hfront : ∀ other ∈ front, ¬other.Takes loading node) (htakes : resolver.Takes loading node)
      (hslot : (resolver loading node .empty).slot = slot)
      (hexecute : slot.execute = some execute) :
      Decides dispatch loading node
        (.ok (.override front.length, ⟨execute, slot.release, slot.state⟩))
        (node.inquiries loading 0 (front ++ [resolver]))
  /-- If it installed no execute routine, the node is bound to nothing. -/
  | takenEmpty {front back : List (Resolver σ)} {resolver : Resolver σ}
      (hsentinel : dispatch.sentinel ≠ some node.variant)
      (hchain : dispatch.chain node.op = front ++ resolver :: back)
      (hfront : ∀ other ∈ front, ¬other.Takes loading node) (htakes : resolver.Takes loading node)
      (hexecute : (resolver loading node .empty).slot.execute = none) :
      Decides dispatch loading node
        (.error
          (.unsupported node.op node.variant node.index (.emptyMatch front.length)))
        (node.inquiries loading 0 (front ++ [resolver]))
  /-- A node that all overrides decline is left to the registry. -/
  | declined {result : Except SessionFault (Source × Binding σ)}
      (hsentinel : dispatch.sentinel ≠ some node.variant)
      (hchain : ∀ resolver ∈ dispatch.chain node.op, ¬resolver.Takes loading node)
      (hbuiltin : dispatch.registry.Decides node result) :
      Decides dispatch loading node result (node.inquiries loading 0 (dispatch.chain node.op))

variable {dispatch : Dispatch σ} {loading : Nat} {node : Node}

/-- A node whose variant is the sentinel goes to the registry at once. -/
lemma resolve_of_sentinel (h : dispatch.sentinel = some node.variant) :
    dispatch.resolve loading node = ⟨bindBuiltin dispatch.registry node, []⟩ := by
  rw [resolve, candidates, if_pos h]
  rfl

/-- A node that all overrides decline goes to the registry after they were asked. -/
lemma resolve_of_forall_not_takes (hsentinel : dispatch.sentinel ≠ some node.variant)
    (hchain : ∀ resolver ∈ dispatch.chain node.op, ¬resolver.Takes loading node) :
    dispatch.resolve loading node =
      ⟨bindBuiltin dispatch.registry node, node.inquiries loading 0 (dispatch.chain node.op)⟩ := by
  rw [resolve, candidates, if_neg hsentinel, askFrom_of_forall_not_takes hchain]

/-- The first override that takes a node has it. -/
lemma resolve_of_first {front back : List (Resolver σ)} {resolver : Resolver σ}
    (hsentinel : dispatch.sentinel ≠ some node.variant)
    (hchain : dispatch.chain node.op = front ++ resolver :: back)
    (hfront : ∀ other ∈ front, ¬other.Takes loading node) (htakes : resolver.Takes loading node) :
    dispatch.resolve loading node =
      ⟨bindOverride front.length (resolver loading node .empty).slot,
        node.inquiries loading 0 (front ++ [resolver])⟩ := by
  rw [resolve, candidates, if_neg hsentinel, hchain, askFrom_of_first hfront htakes,
    Nat.zero_add]

/-- Every node has an answer, which is the one that is computed. -/
lemma decides_resolve (dispatch : Dispatch σ) (loading : Nat) (node : Node) :
    dispatch.Decides loading node
      ((dispatch.resolve loading node).result.mapError (.ofBinding node))
      (dispatch.resolve loading node).journal := by
  by_cases hsentinel : dispatch.sentinel = some node.variant
  · rw [resolve_of_sentinel hsentinel]
    exact .sentinel hsentinel (Registry.decides_iff.mpr rfl)
  obtain hchain | ⟨front, resolver, back, hchain, hfront, htakes⟩ :=
    forall_not_takes_or_exists_first (dispatch.chain node.op) loading node
  · rw [resolve_of_forall_not_takes hsentinel hchain]
    exact .declined hsentinel hchain (Registry.decides_iff.mpr rfl)
  · rw [resolve_of_first hsentinel hchain hfront htakes]
    cases hexecute : (resolver loading node .empty).slot.execute with
    | none =>
      simp only [bindOverride, Slot.binding?_eq hexecute]
      exact .takenEmpty hsentinel hchain hfront htakes hexecute
    | some execute =>
      simp only [bindOverride, Slot.binding?_eq hexecute]
      exact .taken hsentinel hchain hfront htakes rfl hexecute

/-- An answer is the one that is computed. -/
lemma Decides.eq_resolve {result : Except SessionFault (Source × Binding σ)}
    {journal : List (Event σ)} (h : dispatch.Decides loading node result journal) :
    result = (dispatch.resolve loading node).result.mapError (.ofBinding node) ∧
      journal = (dispatch.resolve loading node).journal := by
  cases h with
  | sentinel hsentinel hbuiltin =>
    rw [resolve_of_sentinel hsentinel]
    exact ⟨Registry.decides_iff.mp hbuiltin, rfl⟩
  | taken hsentinel hchain hfront htakes hslot hexecute =>
    subst hslot
    rw [resolve_of_first hsentinel hchain hfront htakes, bindOverride, Slot.binding?_eq hexecute]
    exact ⟨rfl, rfl⟩
  | takenEmpty hsentinel hchain hfront htakes hexecute =>
    rw [resolve_of_first hsentinel hchain hfront htakes, bindOverride, Slot.binding?_eq hexecute]
    exact ⟨rfl, rfl⟩
  | declined hsentinel hchain hbuiltin =>
    rw [resolve_of_forall_not_takes hsentinel hchain]
    exact ⟨Registry.decides_iff.mp hbuiltin, rfl⟩

/-- **Resolution**: a dispatch table gives a node the answer that is said to be its answer, and no
other, and what happens on the way is what is said to happen. What was installed in a slot that
makes no binding has no part in it, and the chain that is asked is the list of the overrides that
were registered for the node's operator, in the order of their registration.

**Proof sketch.** A chain is searched up to the first override that takes the node
(`askFrom_of_first`, `askFrom_of_forall_not_takes`); there is one, or all decline. The registry's
answer is `Registry.decides_iff`. -/
theorem resolve_iff_decides (dispatch : Dispatch σ) (loading : Nat) (node : Node) :
    (∀ result journal, dispatch.Decides loading node result journal ↔
      result = (dispatch.resolve loading node).result.mapError (.ofBinding node) ∧
        journal = (dispatch.resolve loading node).journal) ∧
    dispatch.discarding.resolve loading node = dispatch.resolve loading node ∧
    ∀ (op : Operator) (resolver : Resolver σ),
      (dispatch.register op resolver).chain =
        Function.update dispatch.chain op (dispatch.chain op ++ [resolver]) := by
  refine ⟨?_, resolve_discarding dispatch loading node, chain_register dispatch⟩
  intro result journal
  constructor
  · exact Decides.eq_resolve
  · rintro ⟨rfl, rfl⟩
    exact decides_resolve dispatch loading node

end Dispatch

end Inference
