import Inference.Proofs.Toml.Standard
import Inference.Settings

set_option autoImplicit false
set_option relaxedAutoImplicit false

/-!
# Settings texts

A library that reads back what it writes reads settings back from the text that it writes for them,
whatever the memory budget is and whether there is a built-in variant or none. A text that others
wrote may leave keys out, name further keys and order them as it likes: a key is defined at most
once, so every setting has the value of its key, or its default.

## Main definitions

* `Settings.Given` — what a table says about the settings.

## Main results

* `Settings.applyAll_given` — the settings that a table gives.
* `Settings.plain_root` — settings are a plain table.
* `Settings.toml_codec` — settings are read back, and a negative number stands for no variant.
-/

namespace Inference

namespace Toml

namespace Root

variable {key other : String} {value : Value} {rest : List (String × Value)}

/-- The first key of a table stands for the value behind it. -/
lemma find?_cons_self (hdistinct : (((key, value) :: rest).map Prod.fst).Nodup) :
    (Root.mk ((key, value) :: rest) hdistinct).find? key = some value := by
  simp [find?]

/-- Every other key stands for what it stands for further on. -/
lemma find?_cons_of_ne (h : key ≠ other)
    (hdistinct : (((key, value) :: rest).map Prod.fst).Nodup) :
    (Root.mk ((key, value) :: rest) hdistinct).find? other =
      (Root.mk rest hdistinct.of_cons).find? other := by
  simp [find?, h]

/-- The first key of a table does not stand there once more. -/
lemma find?_tail_eq_none (hdistinct : (((key, value) :: rest).map Prod.fst).Nodup) :
    (Root.mk rest hdistinct.of_cons).find? key = none := by
  have hnew : key ∉ rest.map Prod.fst := (List.nodup_cons.mp hdistinct).1
  rw [find?, Option.map_eq_none_iff, List.find?_eq_none]
  intro entry hentry heq
  exact hnew (List.mem_map.mpr ⟨entry, hentry, by simpa using heq⟩)

end Root

end Toml

namespace Settings

open Toml

/-! ## Settings of a table -/

/-- What a table says about the settings: each key is missing or has a value of the right kind. -/
structure Given (root : Root) (budget? : Option String) (variant? : Option Int)
    (profiling? : Option Bool) : Prop where
  budget : root.find? "memory_budget" = budget?.map Value.text
  variant : root.find? "builtin_variant" = variant?.map Value.integer
  profiling : root.find? "enable_profiling" = profiling?.map Value.truth

/-- Taking over the key of no setting changes nothing. -/
lemma apply_of_ne {settings : Settings} {key : String} (value : Value)
    (hbudget : key ≠ "memory_budget") (hvariant : key ≠ "builtin_variant")
    (hprofiling : key ≠ "enable_profiling") : settings.apply (key, value) = .ok settings := by
  unfold apply
  split
  · next heq => exact absurd (Prod.mk.inj heq).1 hbudget
  · next heq => exact absurd (Prod.mk.inj heq).1 hvariant
  · next heq => exact absurd (Prod.mk.inj heq).1 hprofiling
  · rfl

/-- **The settings that a table gives**: the value of every key that is there, and the settings
there were for the others. The table gives none if the number of the variant is too large.

**Proof sketch.** Induction on the keys of the table. When the key of a setting is taken over, it is
missing behind, since keys are distinct. -/
theorem applyAll_given {root : Root} {budget? : Option String} {variant? : Option Int}
    {profiling? : Option Bool} (h : Given root budget? variant? profiling?)
    (settings : Settings) :
    settings.applyAll root.entries =
      (variant?.elim (.ok settings.builtinVariant) variantOf).map fun variant =>
        { memoryBudget := budget?.getD settings.memoryBudget
          builtinVariant := variant
          profiling := profiling?.getD settings.profiling } := by
  obtain ⟨entries, hdistinct⟩ := root
  induction entries generalizing settings budget? variant? profiling? with
  | nil =>
    obtain ⟨hbudget, hvariant, hprofiling⟩ := h
    obtain rfl : budget? = none := Option.map_eq_none_iff.mp hbudget.symm
    obtain rfl : variant? = none := Option.map_eq_none_iff.mp hvariant.symm
    obtain rfl : profiling? = none := Option.map_eq_none_iff.mp hprofiling.symm
    rfl
  | cons entry entries ih =>
    obtain ⟨key, value⟩ := entry
    obtain ⟨hbudget, hvariant, hprofiling⟩ := h
    have hgone := Root.find?_tail_eq_none hdistinct
    rw [applyAll]
    by_cases hkey : key = "memory_budget"
    case pos =>
      subst hkey
      rw [Root.find?_cons_self] at hbudget
      rw [Root.find?_cons_of_ne (by decide)] at hvariant hprofiling
      obtain ⟨text, rfl, rfl⟩ := Option.map_eq_some_iff.mp hbudget.symm
      have hgiven : Given ⟨entries, hdistinct.of_cons⟩ none variant? profiling? :=
        ⟨hgone, hvariant, hprofiling⟩
      exact ih { settings with memoryBudget := text } _ hgiven
    rw [Root.find?_cons_of_ne hkey] at hbudget
    by_cases hkey : key = "builtin_variant"
    case pos =>
      subst hkey
      rw [Root.find?_cons_self] at hvariant
      rw [Root.find?_cons_of_ne (by decide)] at hprofiling
      obtain ⟨n, rfl, rfl⟩ := Option.map_eq_some_iff.mp hvariant.symm
      have happly : settings.apply ("builtin_variant", .integer n) =
          (variantOf n).map fun variant => { settings with builtinVariant := variant } := rfl
      rw [happly, Option.elim]
      cases variantOf n with
      | error fault => rfl
      | ok variant =>
        have hgiven : Given ⟨entries, hdistinct.of_cons⟩ budget? none profiling? :=
          ⟨hbudget, hgone, hprofiling⟩
        exact ih { settings with builtinVariant := variant } _ hgiven
    rw [Root.find?_cons_of_ne hkey] at hvariant
    by_cases hkey : key = "enable_profiling"
    case pos =>
      subst hkey
      rw [Root.find?_cons_self] at hprofiling
      obtain ⟨on, rfl, rfl⟩ := Option.map_eq_some_iff.mp hprofiling.symm
      have hgiven : Given ⟨entries, hdistinct.of_cons⟩ budget? variant? none :=
        ⟨hbudget, hvariant, hgone⟩
      exact ih { settings with profiling := on } _ hgiven
    rw [Root.find?_cons_of_ne hkey] at hprofiling
    rw [apply_of_ne value ‹_› ‹_› ‹_›]
    exact ih settings _ ⟨hbudget, hvariant, hprofiling⟩

/-- The settings of a text are those that its table gives, on top of the defaults. -/
lemma ofToml_given {library : Library} {text : String} {root : Root}
    (hroot : library.read text = some root) {budget? : Option String} {variant? : Option Int}
    {profiling? : Option Bool} (h : Given root budget? variant? profiling?) :
    ofToml library text =
      (variant?.elim (.ok (some 100)) variantOf).map fun variant =>
        { memoryBudget := budget?.getD "16M"
          builtinVariant := variant
          profiling := profiling?.getD false } := by
  rw [ofToml, hroot]
  exact applyAll_given h {}

/-! ## Written settings -/

/-- The number of a variant fits 64 bits. -/
lemma variantNumber_bounds (variant : Option UInt16) :
    -1 ≤ variantNumber variant ∧ variantNumber variant < 0x10000 := by
  cases variant with
  | none => decide
  | some variant =>
    have hlt := variant.toNat_lt
    simp only [variantNumber]
    omega

/-- A variant is read back from its number. -/
lemma variantOf_variantNumber (variant : Option UInt16) :
    variantOf (variantNumber variant) = .ok variant := by
  cases variant with
  | none => rfl
  | some variant =>
    have hlt := variant.toNat_lt
    rw [variantNumber, variantOf, if_neg (by omega), if_pos (by omega), Int.toNat_natCast,
      UInt16.ofNat_toNat]

/-- **Settings are a plain table**, whatever the memory budget is. -/
theorem plain_root (settings : Settings) : settings.root.Plain where
  bare := by
    have hkeys : ∀ key ∈ ["memory_budget", "builtin_variant", "enable_profiling"],
        key.toList ≠ [] ∧ ∀ c ∈ key.toList, isBareKey c = true := by simp [isBareKey]
    exact fun entry hentry => hkeys entry.1 (List.mem_map_of_mem hentry)
  values := by
    obtain ⟨hlow, hhigh⟩ := variantNumber_bounds settings.builtinVariant
    have hvariant : (Value.integer (variantNumber settings.builtinVariant)).Plain :=
      ⟨by omega, by omega⟩
    simp only [root, List.forall_mem_cons, List.not_mem_nil, false_imp_iff, implies_true, and_true]
    exact ⟨trivial, hvariant, trivial⟩

/-- The table of settings gives these settings. -/
lemma given_root (settings : Settings) :
    Given settings.root (some settings.memoryBudget)
      (some (variantNumber settings.builtinVariant)) (some settings.profiling) :=
  ⟨rfl, rfl, rfl⟩

/-- **Settings texts.** With a library that reads back the plain tables that it writes, settings
have a text and are read back from it. In every text whose built-in variant is a number, a negative
number stands for no variant, a number of 16 bits for the variant of that number, and a larger one
is a fault; keys that are missing keep their defaults. -/
theorem toml_codec {library : Library} (hfaithful : library.Faithful) :
    (∀ settings : Settings, ∃ text, settings.toToml library = .ok text ∧
      ofToml library text = .ok settings) ∧
      ∀ (text : String) (root : Root) (budget? : Option String) (n : Int)
        (profiling? : Option Bool), library.read text = some root →
        Given root budget? (some n) profiling? →
        (n < 0 → ofToml library text = .ok
          { memoryBudget := budget?.getD "16M"
            builtinVariant := none
            profiling := profiling?.getD false }) ∧
        (∀ variant : UInt16, n = variant.toNat → ofToml library text = .ok
          { memoryBudget := budget?.getD "16M"
            builtinVariant := some variant
            profiling := profiling?.getD false }) ∧
        (65535 < n → ofToml library text = .error (.variantTooLarge n)) := by
  constructor
  · intro settings
    obtain ⟨text, hwritten, hread⟩ := hfaithful.reads_written _ settings.plain_root
    refine ⟨text, by rw [toToml, hwritten, orFault], ?_⟩
    rw [ofToml_given hread settings.given_root, Option.elim, variantOf_variantNumber]
    rfl
  · intro text root budget? n profiling? hroot hgiven
    rw [ofToml_given hroot hgiven, Option.elim]
    refine ⟨fun hn => ?_, fun variant hn => ?_, fun hn => ?_⟩
    · rw [variantOf, if_pos hn]
      rfl
    · rw [hn, show ((variant.toNat : Nat) : Int) = variantNumber (some variant) from rfl,
        variantOf_variantNumber]
      rfl
    · rw [variantOf, if_neg (by omega), if_neg (by omega)]
      rfl

/-- With the standard library, settings whose budget needs escapes are read back from the text that
it writes for them. Comments in a text do not count, the order of the keys does not, and the memory
budget may be missing; a number of more than 16 bits is a fault. -/
theorem toml_codec_standard :
    (∃ text, toToml standard { memoryBudget := "\"\\\t\n'", builtinVariant := none } = .ok text ∧
        ofToml standard text = .ok { memoryBudget := "\"\\\t\n'", builtinVariant := none }) ∧
      ofToml standard "# timed\nenable_profiling = true\nbuiltin_variant = -5\n" = .ok
        { memoryBudget := "16M", builtinVariant := none, profiling := true } ∧
      ofToml standard "builtin_variant = 70000\n" = .error (.variantTooLarge 70000) := by
  have hnegative : document? "# timed\nenable_profiling = true\nbuiltin_variant = -5\n" =
      some (.mk .header [("enable_profiling", .value (.truth true)),
        ("builtin_variant", .value (.integer (-5)))]) := rfl
  have hlarge : document? "builtin_variant = 70000\n" =
      some (.mk .header [("builtin_variant", .value (.integer 70000))]) := rfl
  obtain ⟨hread, hvariants⟩ := toml_codec faithful_standard
  refine ⟨hread _, ?_, ?_⟩
  · exact (hvariants _ _ none (-5) (some true) (read_standard hnegative) ⟨rfl, rfl, rfl⟩).1
      (by decide)
  · exact (hvariants _ _ none 70000 none (read_standard hlarge) ⟨rfl, rfl, rfl⟩).2.2 (by decide)

end Settings

end Inference
