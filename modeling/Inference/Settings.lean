import Inference.Memory.Budget
import Inference.Toml.Library
import Inference.Traverse

set_option autoImplicit false
set_option relaxedAutoImplicit false

/-!
# Settings

What a host can set before it binds a network. Settings are stored as TOML, by whatever library the
host has for it. TOML has no empty value: a negative number stands for "no variant".

## Main definitions

* `Settings` — the three settings, with their defaults.
* `Settings.ofToml`, `Settings.toToml` — reading and writing.
* `Settings.budget` — the memory budget that the settings name.
* `SettingsFault` — what can be wrong with settings.
-/

namespace Inference

/-- What a host can set before it binds a network. -/
structure Settings where
  /-- The ceiling on the store of a bound network, as a text. -/
  memoryBudget : String := "16M"
  /-- The variant that always selects the built-in implementation, if there is one. -/
  builtinVariant : Option UInt16 := some 100
  /-- Whether passes are timed. -/
  profiling : Bool := false
deriving DecidableEq

/-- What can be wrong with settings. -/
inductive SettingsFault where
  /-- The text is no TOML, or a key has a value of the wrong kind. -/
  | malformed
  /-- The library has no text for the settings. -/
  | unwritable
  /-- The number of a variant does not fit 16 bits. -/
  | variantTooLarge (n : Int)
  /-- The memory budget names no budget. -/
  | budget (fault : BudgetFault)
  /-- The file that holds the settings cannot be read. -/
  | unreadable (path reason : String)
deriving DecidableEq

/-- The wording of a settings fault. -/
def SettingsFault.message : SettingsFault → String
  | .malformed => "TOML parse error"
  | .unwritable => "TOML serialise error"
  | .variantTooLarge n => s!"TOML parse error: builtin_variant {n} exceeds 65535"
  | .budget fault => s!"invalid budget: {fault.message}"
  | .unreadable path reason => s!"cannot read config '{path}': {reason}"

namespace Settings

/-- The variant that a number in a settings text stands for. -/
def variantOf (n : Int) : Except SettingsFault (Option UInt16) :=
  if n < 0 then .ok none
  else if n < 0x10000 then .ok (some (UInt16.ofNat n.toNat))
  else .error (.variantTooLarge n)

/-- The number that stands for a variant in a settings text. -/
def variantNumber : Option UInt16 → Int
  | some variant => variant.toNat
  | none => -1

/-- Takes the value of one key over; keys that are no setting are ignored. -/
def apply (settings : Settings) : String × Toml.Value → Except SettingsFault Settings
  | ("memory_budget", value) =>
    match value with
    | .text text => .ok { settings with memoryBudget := text }
    | _ => .error .malformed
  | ("builtin_variant", value) =>
    match value with
    | .integer n => (variantOf n).map fun variant => { settings with builtinVariant := variant }
    | _ => .error .malformed
  | ("enable_profiling", value) =>
    match value with
    | .truth on => .ok { settings with profiling := on }
    | _ => .error .malformed
  | _ => .ok settings

/-- Takes the values of all keys over, in the order of their definition; the first fault is the
answer. -/
def applyAll (settings : Settings) : List (String × Toml.Value) → Except SettingsFault Settings
  | [] => .ok settings
  | entry :: rest =>
    match settings.apply entry with
    | .error fault => .error fault
    | .ok settings => settings.applyAll rest

/-- The settings that a text stands for. Keys that are missing keep their defaults. -/
def ofToml (library : Toml.Library) (text : String) : Except SettingsFault Settings :=
  match library.read text with
  | none => .error .malformed
  | some root => applyAll {} root.entries

/-- Settings as a table: one key for each setting. -/
def root (settings : Settings) : Toml.Root where
  entries :=
    [("memory_budget", .text settings.memoryBudget),
     ("builtin_variant", .integer (variantNumber settings.builtinVariant)),
     ("enable_profiling", .truth settings.profiling)]
  distinct := (by decide : ["memory_budget", "builtin_variant", "enable_profiling"].Nodup)

/-- The text of settings. -/
def toToml (library : Toml.Library) (settings : Settings) : Except SettingsFault String :=
  orFault (library.write settings.root) .unwritable

/-- The memory budget that the settings name. -/
def budget (settings : Settings) : Except SettingsFault Budget :=
  match Budget.parse settings.memoryBudget with
  | .ok budget => .ok budget
  | .error fault => .error (.budget fault)

end Settings

end Inference
