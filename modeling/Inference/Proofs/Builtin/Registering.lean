import Inference.Builtin.Installers
import Inference.Proofs.Dispatch.Resolution
import Mathlib.Data.Finset.Card
import Mathlib.Data.List.Destutter
import Mathlib.Data.List.Sort

set_option autoImplicit false
set_option relaxedAutoImplicit false

/-!
# Registering built-in implementations

A registry is filled by one registration after another. What it answers afterwards is decided by
the registrations alone: the last one for an operator and a variant counts, and the operators, the
number of entries and the fallback to variant 0 follow from those that count. The entries can also
be listed in any order and be questioned one by one; the answers are the same for every order.

## Main definitions

* `Registration`, `Registry.registerAll` — an installer with its place, and a registry after some
  registrations.
* `Registration.latest?` — the installer that was registered last at a place.
* `Registry.Kept` — a registry whose tables are in order and have no empty part.
* `Registration.Listing` — the registrations that count, in any order.
* `Registry.ReadsAs` — a registry that answers like a list of entries.
* `Registry.Answers` — what a registry answers after some registrations.

## Main results

* `Registry.registered?_registerAll` — the last registration for a place counts.
* `Registry.kept_registerAll` — registering keeps the tables in order.
* `Registry.answers_registered` — the answers after registrations from an empty registry or from
  the defaults.
-/

namespace Inference

/-! ## Tables in the order of their keys -/

namespace KeyedTable

variable {α : Type} {table : KeyedTable α} {key other : Nat} {value : α}

/-- A table whose keys increase. -/
def Ordered (table : KeyedTable α) : Prop :=
  table.keys.Pairwise (· < ·)

/-- An entry after a value was set is that of the key, or one from before. -/
lemma mem_setEntry {entries : List (Nat × α)} {entry : Nat × α}
    (h : entry ∈ setEntry key value entries) : entry = (key, value) ∨ entry ∈ entries := by
  induction entries with
  | nil => exact .inl (List.mem_singleton.mp h)
  | cons first rest ih =>
    obtain ⟨k, v⟩ := first
    rw [setEntry] at h
    split at h
    · exact List.mem_cons.mp h
    · split at h
      · exact (List.mem_cons.mp h).imp_right fun hrest => List.mem_cons_of_mem _ hrest
      · obtain rfl | hrest := List.mem_cons.mp h
        · exact .inr List.mem_cons_self
        · exact (ih hrest).imp_right fun hrest => List.mem_cons_of_mem _ hrest

/-- Setting a value keeps the keys in order. -/
lemma ordered_set (h : table.Ordered) (key : Nat) (value : α) : (table.set key value).Ordered := by
  obtain ⟨entries⟩ := table
  simp only [Ordered, keys, set] at h ⊢
  induction entries with
  | nil => exact List.pairwise_singleton _ _
  | cons first rest ih =>
    obtain ⟨k, v⟩ := first
    rw [List.map_cons, List.pairwise_cons] at h
    rw [setEntry]
    split
    · next hlt =>
      rw [List.map_cons, List.pairwise_cons, List.map_cons, List.pairwise_cons]
      refine ⟨?_, h⟩
      rw [List.forall_mem_cons]
      exact ⟨hlt, fun k' hk' => hlt.trans (h.1 k' hk')⟩
    · next hnot =>
      split
      · next heq =>
        rw [List.map_cons, List.pairwise_cons, heq]
        exact h
      · next hne =>
        rw [List.map_cons, List.pairwise_cons]
        refine ⟨fun k' hk' => ?_, ih h.2⟩
        obtain ⟨entry, hentry, rfl⟩ := List.mem_map.mp hk'
        obtain rfl | hrest := mem_setEntry hentry
        · exact Nat.lt_of_le_of_ne (Nat.not_lt.mp hnot) (Ne.symm hne)
        · exact h.1 _ (List.mem_map_of_mem hrest)

/-- The entries of a table in order are the values that are found. -/
lemma mem_entries_iff (h : table.Ordered) :
    (key, value) ∈ table.entries ↔ table.find? key = some value := by
  obtain ⟨entries⟩ := table
  simp only [Ordered, keys, find?] at h ⊢
  induction entries with
  | nil =>
    unfold findEntry?
    simp
  | cons first rest ih =>
    obtain ⟨k, v⟩ := first
    rw [List.map_cons, List.pairwise_cons] at h
    rw [List.mem_cons, findEntry?]
    by_cases hk : k = key
    · subst hk
      have hnot : (k, value) ∉ rest := fun hmem =>
        Nat.lt_irrefl k (h.1 k (List.mem_map_of_mem (f := Prod.fst) hmem))
      simp [hnot, eq_comm]
    · rw [if_neg hk, ← ih h.2]
      simp [Ne.symm hk]

/-- The keys of a table in order are those with a value. -/
lemma mem_keys_iff (h : table.Ordered) : key ∈ table.keys ↔ (table.find? key).isSome = true := by
  rw [keys, List.mem_map, Option.isSome_iff_exists]
  constructor
  · rintro ⟨⟨k, v⟩, hentry, rfl⟩
    exact ⟨v, (mem_entries_iff h).mp hentry⟩
  · rintro ⟨v, hfound⟩
    exact ⟨(key, v), (mem_entries_iff h).mpr hfound, rfl⟩

end KeyedTable

/-! ## Operators of codes -/

namespace Operator

/-- The number of the operator of a code comes from the code and says whether it has a name. -/
lemma key_ofCode (code : UInt16) :
    (ofCode code).key = if code.toNat < 41 then 2 * code.toNat else 2 * code.toNat + 1 := by
  unfold ofCode
  split <;> rfl

/-- Operators of codes are numbered in the order of the codes. -/
lemma key_ofCode_le_iff {code code' : UInt16} :
    (ofCode code).key ≤ (ofCode code').key ↔ code ≤ code' := by
  rw [key_ofCode, key_ofCode, UInt16.le_iff_toNat_le]
  split <;> split <;> omega

/-- Different codes have operators with different numbers. -/
lemma key_ofCode_lt_iff {code code' : UInt16} :
    (ofCode code).key < (ofCode code').key ↔ code < code' := by
  rw [← Nat.not_le, key_ofCode_le_iff, UInt16.not_le]

end Operator

section

variable {σ : Type}

/-! ## Registrations -/

/-- An installer that is registered under the operator of a code and a variant. -/
structure Registration (σ : Type) where
  code : UInt16
  variant : UInt16
  installer : Installer σ

namespace Registration

/-- The operator that an installer is registered under. -/
def op (entry : Registration σ) : Operator :=
  .ofCode entry.code

/-- Where an installer is registered. -/
def place (entry : Registration σ) : Operator × UInt16 :=
  (entry.op, entry.variant)

/-- The installer that was registered last for exactly this operator and variant. -/
def latest? (history : List (Registration σ)) (op : Operator) (variant : UInt16) :
    Option (Installer σ) :=
  (history.reverse.find? fun entry => entry.place = (op, variant)).map Registration.installer

/-- A registration is the last one at its place. -/
lemma latest?_concat (history : List (Registration σ)) (entry : Registration σ) (op : Operator)
    (variant : UInt16) :
    latest? (history ++ [entry]) op variant =
      if entry.place = (op, variant) then some entry.installer
      else latest? history op variant := by
  rw [latest?, List.reverse_concat, List.find?_cons]
  split <;> simp_all [latest?]

/-- What was registered last at a place is one of the registrations there. -/
lemma exists_of_latest? {history : List (Registration σ)} {op : Operator} {variant : UInt16}
    {installer : Installer σ} (h : latest? history op variant = some installer) :
    ∃ entry ∈ history, entry.place = (op, variant) ∧ entry.installer = installer := by
  obtain ⟨entry, hentry, rfl⟩ := Option.map_eq_some_iff.mp h
  refine ⟨entry, List.mem_reverse.mp (List.mem_of_find?_eq_some hentry), ?_, rfl⟩
  simpa using List.find?_some hentry

/-- An installer is registered last somewhere if one was registered there at all. -/
lemma isSome_latest?_iff (history : List (Registration σ)) {op : Operator} {variant : UInt16} :
    (latest? history op variant).isSome = true ↔ (op, variant) ∈ history.map place := by
  simp [latest?]

end Registration

namespace Registry

open Registration

/-- A registry after some registrations. -/
def registerAll (registry : Registry σ) (history : List (Registration σ)) : Registry σ :=
  history.foldl (fun registry entry => registry.register entry.op entry.variant entry.installer)
    registry

/-- The registrations that the defaults are made of. -/
def defaultRegistrations : List (Registration σ) :=
  [⟨Operator.affine.code, 0, Builtin.affine⟩,
   ⟨Operator.relu.code, 0, Builtin.unary Kernel.relu⟩,
   ⟨Operator.leakyRelu.code, 0, Builtin.leakyRelu⟩,
   ⟨Operator.sigmoid.code, 0, Builtin.unary Kernel.sigmoid⟩,
   ⟨Operator.tanh.code, 0, Builtin.unary Kernel.tanh⟩,
   ⟨Operator.softmax.code, 0, Builtin.softmax⟩,
   ⟨Operator.add2.code, 0, Builtin.binary Kernel.add2⟩,
   ⟨Operator.sub2.code, 0, Builtin.binary Kernel.sub2⟩,
   ⟨Operator.mul2.code, 0, Builtin.binary Kernel.mul2⟩,
   ⟨Operator.addScalar.code, 0, Builtin.withScalar Kernel.addScalar⟩,
   ⟨Operator.mulScalar.code, 0, Builtin.withScalar Kernel.mulScalar⟩]

/-- Registrations from the defaults follow those that the defaults are made of. -/
lemma registerAll_defaults (history : List (Registration σ)) :
    registerAll defaults history = registerAll empty (defaultRegistrations ++ history) := by
  rw [registerAll, registerAll, List.foldl_append]
  rfl

/-! ## The last registration counts -/

/-- The variants of an operator after a registration. -/
lemma variants_register (registry : Registry σ) (op other : Operator) (variant : UInt16)
    (installer : Installer σ) :
    (registry.register op variant installer).variants other =
      if op = other then (registry.variants op).set variant.toNat installer
      else registry.variants other := by
  rw [variants, register, KeyedTable.find?_set]
  by_cases hop : op = other
  · rw [if_pos (Operator.key_inj.mpr hop), if_pos hop, Option.getD_some]
  · rw [if_neg (Operator.key_inj.not.mpr hop), if_neg hop]
    rfl

/-- **The last registration counts**: what is registered at a place is what was registered there
last. -/
theorem registered?_registerAll (history : List (Registration σ)) (op : Operator)
    (variant : UInt16) :
    (registerAll empty history).registered? op variant = latest? history op variant := by
  induction history using List.reverseRecOn with
  | nil => rfl
  | append_singleton history entry ih =>
    rw [registerAll, List.foldl_append, List.foldl_cons, List.foldl_nil, registered?_register,
      latest?_concat, ← ih, registerAll]
    simp only [place, Prod.mk.injEq]

/-- What is looked up is registered for the variant, or for variant 0. -/
lemma lookup?_eq_or (registry : Registry σ) (op : Operator) (variant : UInt16) :
    registry.lookup? op variant =
      (registry.registered? op variant).or (registry.registered? op 0) := by
  rw [lookup?, registered?, registered?]
  cases (registry.variants op).find? variant.toNat <;> rfl

/-! ## Registries in order -/

/-- A registry whose tables are in order, in which every operator has an entry, and whose keys are
operators of codes and variants. -/
structure Kept (registry : Registry σ) : Prop where
  ordered : registry.byOperator.Ordered
  exists_code : ∀ key ∈ registry.byOperator.keys, ∃ code, (Operator.ofCode code).key = key
  variants_ordered : ∀ op, (registry.variants op).Ordered
  variant_lt : ∀ op, ∀ variant ∈ (registry.variants op).keys, variant < UInt16.size
  inhabited : ∀ op, (registry.byOperator.find? op.key).isSome = true →
    ∃ variant, (registry.registered? op variant).isSome = true

/-- A registry without entries is in order. -/
lemma kept_empty : (empty : Registry σ).Kept where
  ordered := List.Pairwise.nil
  exists_code := fun _ h => absurd h List.not_mem_nil
  variants_ordered := fun _ => List.Pairwise.nil
  variant_lt := fun _ _ h => absurd h List.not_mem_nil
  inhabited := fun _ h => absurd h Bool.false_ne_true

/-- A registration keeps a registry in order. -/
lemma Kept.register {registry : Registry σ} (h : registry.Kept) (entry : Registration σ) :
    (registry.register entry.op entry.variant entry.installer).Kept where
  ordered := KeyedTable.ordered_set h.ordered _ _
  exists_code := by
    intro key hkey
    obtain ⟨_, htable, rfl⟩ := List.mem_map.mp hkey
    obtain rfl | hold := KeyedTable.mem_setEntry htable
    · exact ⟨entry.code, rfl⟩
    · exact h.exists_code _ (List.mem_map_of_mem hold)
  variants_ordered := by
    intro other
    rw [variants_register]
    split
    · exact KeyedTable.ordered_set (h.variants_ordered _) _ _
    · exact h.variants_ordered other
  variant_lt := by
    intro other key hkey
    rw [variants_register] at hkey
    split at hkey
    · obtain ⟨_, hvariant, rfl⟩ := List.mem_map.mp hkey
      obtain rfl | hold := KeyedTable.mem_setEntry hvariant
      · exact entry.variant.toNat_lt_size
      · exact h.variant_lt _ _ (List.mem_map_of_mem hold)
    · exact h.variant_lt other key hkey
  inhabited := by
    intro other hfound
    by_cases hop : entry.op = other
    · subst hop
      refine ⟨entry.variant, ?_⟩
      rw [registered?_register, if_pos ⟨rfl, rfl⟩, Option.isSome_some]
    · rw [Registry.register, KeyedTable.find?_set,
        if_neg (Operator.key_inj.not.mpr hop)] at hfound
      obtain ⟨variant, hvariant⟩ := h.inhabited other hfound
      refine ⟨variant, ?_⟩
      rwa [registered?_register, if_neg fun h => hop h.1]

/-- **Tables stay in order**: registering from an empty registry keeps the tables in order. -/
theorem kept_registerAll (history : List (Registration σ)) :
    (registerAll empty history).Kept := by
  induction history using List.reverseRecOn with
  | nil => exact kept_empty
  | append_singleton history entry ih =>
    rw [registerAll, List.foldl_append]
    exact ih.register entry

/-! ## Entries -/

/-- All entries, in the order of their operators and variants. -/
def entries (registry : Registry σ) : List (Registration σ) :=
  registry.byOperator.entries.flatMap fun (key, variants) =>
    variants.entries.map fun (variant, installer) =>
      ⟨(Operator.ofKey key).code, UInt16.ofNat variant, installer⟩

/-- There are as many entries as are counted. -/
lemma length_entries (registry : Registry σ) : registry.entries.length = registry.count := by
  obtain ⟨⟨tables⟩⟩ := registry
  simp only [entries, count, KeyedTable.values]
  induction tables with
  | nil => rfl
  | cons first rest ih => simp [total, ih]

section

variable {registry : Registry σ} {op : Operator} {variant : UInt16}

/-- A table of variants is that of the operator of some code. -/
lemma Kept.exists_variants_eq (h : registry.Kept) {key : Nat}
    {variants : KeyedTable (Installer σ)}
    (hentry : (key, variants) ∈ registry.byOperator.entries) :
    ∃ code, (Operator.ofCode code).key = key ∧ (Operator.ofKey key).code = code ∧
      registry.variants (.ofCode code) = variants := by
  obtain ⟨code, rfl⟩ := h.exists_code key (List.mem_map_of_mem (f := Prod.fst) hentry)
  refine ⟨code, rfl, by simp, ?_⟩
  rw [Registry.variants, (KeyedTable.mem_entries_iff h.ordered).mp hentry, Option.getD_some]

/-- The entries are what is registered. -/
lemma Kept.mem_entries_iff (h : registry.Kept) {entry : Registration σ} :
    entry ∈ registry.entries ↔
      registry.registered? entry.op entry.variant = some entry.installer := by
  rw [entries, List.mem_flatMap]
  constructor
  · rintro ⟨⟨key, variants⟩, htable, hentry⟩
    obtain ⟨⟨variant, installer⟩, hvariant, rfl⟩ := List.mem_map.mp hentry
    obtain ⟨code, -, hcode, rfl⟩ := h.exists_variants_eq htable
    have hlt := h.variant_lt _ variant (List.mem_map_of_mem (f := Prod.fst) hvariant)
    have hfound := (KeyedTable.mem_entries_iff (h.variants_ordered _)).mp hvariant
    simpa only [registered?, op, hcode, UInt16.toNat_ofNat_of_lt' hlt] using hfound
  · intro hregistered
    have hvariant := (KeyedTable.mem_entries_iff (h.variants_ordered entry.op)).mpr hregistered
    have htable : (entry.op.key, registry.variants entry.op) ∈
        registry.byOperator.entries := by
      rw [KeyedTable.mem_entries_iff h.ordered]
      unfold Registry.variants at hvariant ⊢
      cases hfound : registry.byOperator.find? entry.op.key with
      | none => rw [hfound] at hvariant; exact absurd hvariant List.not_mem_nil
      | some variants => rfl
    refine ⟨_, htable, List.mem_map.mpr ⟨_, hvariant, ?_⟩⟩
    simp [op]

/-- Numbers of words are different if the numbers are in order. -/
lemma ofNat_ne_of_lt {low high : Nat} (hlt : low < high) (hsize : high < UInt16.size) :
    UInt16.ofNat low ≠ UInt16.ofNat high := by
  intro heq
  have hnat := congrArg UInt16.toNat heq
  rw [UInt16.toNat_ofNat_of_lt' (hlt.trans hsize), UInt16.toNat_ofNat_of_lt' hsize] at hnat
  exact Nat.ne_of_lt hlt hnat

/-- No two entries have the same place. -/
lemma Kept.nodup_entries (h : registry.Kept) : (registry.entries.map place).Nodup := by
  rw [entries, List.map_flatMap, List.nodup_flatMap]
  constructor
  · rintro ⟨key, variants⟩ htable
    obtain ⟨code, -, -, rfl⟩ := h.exists_variants_eq htable
    have hordered := List.pairwise_map.mp (h.variants_ordered (.ofCode code))
    rw [List.map_map, List.Nodup, List.pairwise_map]
    refine hordered.imp_of_mem fun {a b} _ hb hlt heq => ?_
    exact ofNat_ne_of_lt hlt (h.variant_lt _ _ (List.mem_map_of_mem hb)) (congrArg Prod.snd heq)
  · refine (List.pairwise_map.mp h.ordered).imp_of_mem fun {a b} ha hb hlt => ?_
    obtain ⟨code, hkey, hcode, -⟩ := h.exists_variants_eq ha
    obtain ⟨code', hkey', hcode', -⟩ := h.exists_variants_eq hb
    simp only [Function.onFun, List.map_map, List.disjoint_left, List.mem_map]
    rintro _ ⟨_, _, rfl⟩ ⟨_, _, heq⟩
    have hop : Operator.ofCode code' = Operator.ofCode code := by
      rw [← hcode, ← hcode']
      exact congrArg Prod.fst heq
    rw [← hkey, ← hkey', hop] at hlt
    exact Nat.lt_irrefl _ hlt

/-- An operator is supported if it has an entry. -/
lemma Kept.supports_iff (h : registry.Kept) :
    registry.supports op = true ↔
      ∃ variant, (registry.registered? op variant).isSome = true := by
  refine ⟨h.inhabited op, ?_⟩
  rintro ⟨variant, hvariant⟩
  unfold registered? Registry.variants at hvariant
  rw [supports]
  cases hfound : registry.byOperator.find? op.key with
  | none => rw [hfound] at hvariant; cases hvariant
  | some variants => rfl

/-- The operators that are listed are those that are supported. -/
lemma Kept.mem_operators_iff (h : registry.Kept) :
    op ∈ registry.operators ↔ registry.supports op = true := by
  rw [supports, ← KeyedTable.mem_keys_iff h.ordered, operators, List.mem_map]
  constructor
  · rintro ⟨key, hkey, rfl⟩
    obtain ⟨code, rfl⟩ := h.exists_code key hkey
    rwa [Operator.ofKey_key]
  · intro hkey
    exact ⟨_, hkey, Operator.ofKey_key op⟩

/-- The operators that are listed are operators of codes. -/
lemma Kept.exists_ofCode_eq (h : registry.Kept) (hop : op ∈ registry.operators) :
    ∃ code, Operator.ofCode code = op := by
  obtain ⟨key, hkey, rfl⟩ := List.mem_map.mp hop
  obtain ⟨code, rfl⟩ := h.exists_code key hkey
  exact ⟨code, (Operator.ofKey_key _).symm⟩

/-- The operators are listed by increasing codes. -/
lemma Kept.pairwise_operators (h : registry.Kept) :
    registry.operators.Pairwise fun op op' => op.code < op'.code := by
  rw [operators, List.pairwise_map]
  refine List.Pairwise.imp_of_mem (fun {low high} hlow hhigh hlt => ?_) h.ordered
  obtain ⟨code, rfl⟩ := h.exists_code low hlow
  obtain ⟨code', rfl⟩ := h.exists_code high hhigh
  rw [Operator.ofKey_key, Operator.ofKey_key, Operator.code_ofCode, Operator.code_ofCode]
  exact Operator.key_ofCode_lt_iff.mp hlt

/-- No operator is listed twice. -/
lemma Kept.nodup_operators (h : registry.Kept) : registry.operators.Nodup := by
  refine h.pairwise_operators.imp ?_
  rintro op _ hlt rfl
  exact UInt16.lt_irrefl _ hlt

/-- The supported operators are those of the entries. -/
lemma Kept.supports_iff_mem (h : registry.Kept) :
    registry.supports op = true ↔ ∃ entry ∈ registry.entries, entry.op = op := by
  rw [h.supports_iff]
  constructor
  · rintro ⟨variant, hvariant⟩
    obtain ⟨installer, hinstaller⟩ := Option.isSome_iff_exists.mp hvariant
    obtain ⟨code, rfl⟩ := h.exists_ofCode_eq
      (h.mem_operators_iff.mpr (h.supports_iff.mpr ⟨variant, hvariant⟩))
    exact ⟨⟨code, variant, installer⟩, h.mem_entries_iff.mpr hinstaller, rfl⟩
  · rintro ⟨entry, hentry, rfl⟩
    exact ⟨entry.variant, Option.isSome_iff_exists.mpr ⟨_, h.mem_entries_iff.mp hentry⟩⟩

/-- A registry in order has no entries if none are counted. -/
lemma Kept.isEmpty_iff (h : registry.Kept) : registry.isEmpty = true ↔ registry.count = 0 := by
  rw [isEmpty, List.isEmpty_iff, ← length_entries, List.length_eq_zero_iff]
  constructor
  · intro hempty
    rw [entries, hempty, List.flatMap_nil]
  · intro hempty
    rw [List.eq_nil_iff_forall_not_mem]
    rintro ⟨key, variants⟩ htable
    have hkey : key ∈ registry.byOperator.keys := List.mem_map_of_mem (f := Prod.fst) htable
    have hop : Operator.ofKey key ∈ registry.operators := List.mem_map_of_mem hkey
    obtain ⟨entry, hentry, -⟩ := h.supports_iff_mem.mp (h.mem_operators_iff.mp hop)
    rw [hempty] at hentry
    exact List.not_mem_nil hentry

end

/-! ## Listings in any order -/

/-- The registrations that count after a history, in any order and each of them once. A table
without an order of its own gives its entries in one of these orders. -/
structure Listing (history listing : List (Registration σ)) : Prop where
  nodup : (listing.map place).Nodup
  mem_iff : ∀ entry : Registration σ,
    entry ∈ listing ↔ latest? history entry.op entry.variant = some entry.installer

/-- What a registry answers is found by going through a list of entries. -/
structure ReadsAs (registry : Registry σ) (listing : List (Registration σ)) : Prop where
  lookup?_eq : ∀ op variant, registry.lookup? op variant =
    ((listing.find? fun entry => entry.place = (op, variant)).or
      (listing.find? fun entry => entry.place = (op, 0))).map Registration.installer
  supports_eq : ∀ op, registry.supports op = listing.any fun entry => entry.op = op
  /-- The operators are sorted by their codes, and repeated ones next to each other left out. -/
  operators_eq : registry.operators =
    ((listing.map Registration.op).mergeSort fun op op' => op.code ≤ op'.code).destutter (· ≠ ·)
  count_eq : registry.count = listing.length
  isEmpty_eq : registry.isEmpty = listing.isEmpty

section

variable {history listing : List (Registration σ)}

/-- What is found in a listing at a place is what was registered there last. -/
lemma Listing.map_find? (h : Listing history listing) (op : Operator) (variant : UInt16) :
    (listing.find? fun entry => entry.place = (op, variant)).map Registration.installer =
      latest? history op variant := by
  cases hfound : listing.find? fun entry => entry.place = (op, variant) with
  | some entry =>
    have hplace : entry.place = (op, variant) := by simpa using List.find?_some hfound
    obtain ⟨rfl, rfl⟩ := Prod.mk.inj hplace
    exact ((h.mem_iff entry).mp (List.mem_of_find?_eq_some hfound)).symm
  | none =>
    cases hlatest : latest? history op variant with
    | none => rfl
    | some installer =>
      obtain ⟨entry, -, hplace, rfl⟩ := exists_of_latest? hlatest
      obtain ⟨rfl, rfl⟩ := Prod.mk.inj hplace
      have hentry := (h.mem_iff entry).mpr hlatest
      exact absurd (List.find?_eq_none.mp hfound _ hentry) (by simp [place])

/-- The entries of a registry after a history are a listing. -/
lemma listing_entries (history : List (Registration σ)) :
    Listing history (registerAll empty history).entries where
  nodup := (kept_registerAll history).nodup_entries
  mem_iff := fun entry => by
    rw [(kept_registerAll history).mem_entries_iff, registered?_registerAll]

/-- Listings of one history differ in their order only. -/
lemma Listing.perm {other : List (Registration σ)} (h : Listing history listing)
    (hother : Listing history other) : listing.Perm other := by
  rw [List.perm_ext_iff_of_nodup h.nodup.of_map hother.nodup.of_map]
  exact fun entry => (h.mem_iff entry).trans (hother.mem_iff entry).symm

/-- The operators of a registry are those of its entries, sorted and without repetitions. -/
lemma Kept.operators_eq {registry : Registry σ} (h : registry.Kept)
    (hlisting : listing.Perm registry.entries) :
    registry.operators = ((listing.map Registration.op).mergeSort
      fun op op' => op.code ≤ op'.code).destutter (· ≠ ·) := by
  -- all operators here are operators of codes, so sorting them by codes sorts them by keys
  let le (op op' : Operator) : Prop := op.key ≤ op'.key
  have : Std.Antisymm le :=
    ⟨fun op op' hle hge => Operator.key_inj.mp (Nat.le_antisymm hle hge)⟩
  have hle {op op' : Operator} (hop : ∃ code, Operator.ofCode code = op)
      (hop' : ∃ code, Operator.ofCode code = op') (hcodes : op.code ≤ op'.code) : le op op' := by
    obtain ⟨code, rfl⟩ := hop
    obtain ⟨code', rfl⟩ := hop'
    rw [Operator.code_ofCode, Operator.code_ofCode] at hcodes
    exact Operator.key_ofCode_le_iff.mpr hcodes
  have hlisted {op : Operator} (hop : op ∈ listing.map Registration.op) :
      ∃ code, Operator.ofCode code = op := by
    obtain ⟨entry, -, rfl⟩ := List.mem_map.mp hop
    exact ⟨entry.code, rfl⟩
  have hsorted : ((listing.map Registration.op).mergeSort
      fun op op' => op.code ≤ op'.code).Pairwise le := by
    have hcodes : ((listing.map Registration.op).mergeSort
        fun op op' => op.code ≤ op'.code).Pairwise fun op op' => op.code ≤ op'.code := by
      refine (List.pairwise_mergeSort ?_ ?_ _).imp of_decide_eq_true
      · exact fun a b c hab hbc =>
          decide_eq_true (UInt16.le_trans (of_decide_eq_true hab) (of_decide_eq_true hbc))
      · exact fun a b => by simpa using UInt16.le_total a.code b.code
    exact hcodes.imp_of_mem fun hop hop' =>
      hle (hlisted (List.mem_mergeSort.mp hop)) (hlisted (List.mem_mergeSort.mp hop'))
  have hoperators : registry.operators.Pairwise le :=
    h.pairwise_operators.imp_of_mem fun hop hop' hlt =>
      hle (h.exists_ofCode_eq hop) (h.exists_ofCode_eq hop') (UInt16.le_of_lt hlt)
  rw [hsorted.destutter_eq_dedup]
  refine List.Perm.eq_of_pairwise' (r := le) hoperators
    (hsorted.sublist (List.dedup_sublist _)) ?_
  rw [List.perm_ext_iff_of_nodup h.nodup_operators (List.nodup_dedup _)]
  intro op
  rw [List.mem_dedup, List.mem_mergeSort, h.mem_operators_iff, h.supports_iff_mem, List.mem_map]
  simp only [hlisting.mem_iff]

/-- **Order does not matter**: a registry answers like every listing of what it was filled with. -/
theorem readsAs_listing (h : Listing history listing) :
    (registerAll empty history).ReadsAs listing where
  lookup?_eq := by
    intro op variant
    rw [lookup?_eq_or, registered?_registerAll, registered?_registerAll, Option.map_or,
      h.map_find?, h.map_find?]
  supports_eq := by
    intro op
    rw [Bool.eq_iff_iff, (kept_registerAll history).supports_iff_mem, List.any_eq_true]
    simp only [(h.perm (listing_entries history)).mem_iff, decide_eq_true_eq]
  operators_eq := (kept_registerAll history).operators_eq (h.perm (listing_entries history))
  count_eq := by rw [← length_entries, (h.perm (listing_entries history)).length_eq]
  isEmpty_eq := by
    rw [Bool.eq_iff_iff, (kept_registerAll history).isEmpty_iff, ← length_entries,
      ← (h.perm (listing_entries history)).length_eq, List.length_eq_zero_iff, List.isEmpty_iff]

end

/-! ## Answers -/

/-- What a registry answers after some registrations. -/
structure Answers (registry : Registry σ) (history : List (Registration σ)) : Prop where
  lookup?_eq : ∀ op variant, registry.lookup? op variant =
    (latest? history op variant).or (latest? history op 0)
  supports_iff_lookup? : ∀ op, registry.supports op = true ↔
    ∃ variant, (registry.lookup? op variant).isSome = true
  supports_iff_registered : ∀ op, registry.supports op = true ↔ ∃ entry ∈ history, entry.op = op
  mem_operators_iff : ∀ op, op ∈ registry.operators ↔ ∃ entry ∈ history, entry.op = op
  operators_increasing : registry.operators.Pairwise fun op op' => op.code < op'.code
  operators_nodup : registry.operators.Nodup
  /-- The entries are counted by their places, each of them once. -/
  count_eq : registry.count = (history.map place).toFinset.card
  isEmpty_iff : registry.isEmpty = true ↔ registry.count = 0
  exists_listing : ∃ listing, Listing history listing
  readsAs : ∀ listing, Listing history listing → registry.ReadsAs listing

/-- An operator is supported if it was ever registered. -/
lemma supports_registerAll_iff (history : List (Registration σ)) (op : Operator) :
    (registerAll empty history).supports op = true ↔ ∃ entry ∈ history, entry.op = op := by
  simp only [(kept_registerAll history).supports_iff, registered?_registerAll,
    isSome_latest?_iff, List.mem_map, place, Prod.mk.injEq]
  constructor
  · rintro ⟨_, entry, hentry, rfl, _⟩
    exact ⟨entry, hentry, rfl⟩
  · rintro ⟨entry, hentry, rfl⟩
    exact ⟨entry.variant, entry, hentry, rfl, rfl⟩

/-- An operator is supported if something is looked up for one of its variants. -/
lemma Kept.supports_iff_lookup? {registry : Registry σ} (h : registry.Kept) (op : Operator) :
    registry.supports op = true ↔
      ∃ variant, (registry.lookup? op variant).isSome = true := by
  simp only [h.supports_iff, lookup?_eq_or, Option.isSome_or, Bool.or_eq_true]
  constructor
  · rintro ⟨variant, hvariant⟩
    exact ⟨variant, .inl hvariant⟩
  · rintro ⟨variant, hvariant | hzero⟩
    · exact ⟨variant, hvariant⟩
    · exact ⟨0, hzero⟩

/-- The entries are counted by the places at which something was registered. -/
lemma count_registerAll (history : List (Registration σ)) :
    (registerAll empty history).count = (history.map place).toFinset.card := by
  have hkept := kept_registerAll history
  rw [← length_entries, ← List.length_map place, ← List.toFinset_card_of_nodup hkept.nodup_entries]
  refine congrArg Finset.card (Finset.ext ?_)
  rintro ⟨op, variant⟩
  have hlisting := (listing_entries history).mem_iff
  rw [List.mem_toFinset, List.mem_toFinset, ← isSome_latest?_iff history,
    Option.isSome_iff_exists, List.mem_map]
  constructor
  · rintro ⟨entry, hentry, hplace⟩
    obtain ⟨rfl, rfl⟩ := Prod.mk.inj hplace
    exact ⟨_, (hlisting entry).mp hentry⟩
  · rintro ⟨installer, hlatest⟩
    obtain ⟨entry, -, hplace, rfl⟩ := exists_of_latest? hlatest
    obtain ⟨rfl, rfl⟩ := Prod.mk.inj hplace
    exact ⟨entry, (hlisting entry).mpr hlatest, rfl⟩

/-- What a registry answers after registrations from an empty one. -/
lemma answers_registerAll (history : List (Registration σ)) :
    (registerAll empty history).Answers history where
  lookup?_eq := fun op variant => by
    rw [lookup?_eq_or, registered?_registerAll, registered?_registerAll]
  supports_iff_lookup? := (kept_registerAll history).supports_iff_lookup?
  supports_iff_registered := supports_registerAll_iff history
  mem_operators_iff := fun op =>
    (kept_registerAll history).mem_operators_iff.trans (supports_registerAll_iff history op)
  operators_increasing := (kept_registerAll history).pairwise_operators
  operators_nodup := (kept_registerAll history).nodup_operators
  count_eq := count_registerAll history
  isEmpty_iff := (kept_registerAll history).isEmpty_iff
  exists_listing := ⟨_, listing_entries history⟩
  readsAs := fun _ => readsAs_listing

/-- **Answers after registrations**: whether registrations start from an empty registry or from the
defaults, the last one for a place counts, variant 0 stands in for the others, and the operators
and the number of entries are those that were registered. A list of the entries in any order gives
the same answers.

**Proof sketch.** Registrations from the defaults follow those of the defaults
(`registerAll_defaults`). The tables stay in order (`kept_registerAll`) and hold the last
registrations (`registered?_registerAll`), so each answer can be read off the history. -/
theorem answers_registered (history : List (Registration σ)) :
    (registerAll empty history).Answers history ∧
      (registerAll defaults history).Answers (defaultRegistrations ++ history) := by
  refine ⟨answers_registerAll history, ?_⟩
  rw [registerAll_defaults]
  exact answers_registerAll (defaultRegistrations ++ history)

end Registry

end

end Inference
