import Inference.Proofs.Engine.Reference

set_option autoImplicit false
set_option relaxedAutoImplicit false

/-!
# Passes over slices

A machine passes slices of one store to a routine: the table has a slice for each variable, the
slices of the outputs are moved out of it for the time of a call, an empty one is left in each of
their places, and they are put back afterwards. A slice is more than its bytes, since a cast to
float values also looks at its address, and an empty slice that was left behind has none that is
aligned.

This file has the pass over such slices, with every access to the table checked, and shows that it
always comes to its end, that the slices are back where they were after every call, and that a
routine is shown exactly what the pass over contents shows it.

## Main definitions

* `Slice`, `takeOut?`, `giveBack?` — slices, moved out of a table and back.
* `Engine.calls` — the calls of a pass, as routines see them.
* `SliceCall` — a call as the machine holds it.
* `Engine.slicePass?` — a pass over slices.

## Main results

* `exists_giveBack?` — slices that were moved out are put back where they were.
* `SliceCall.Sound.singles_eq` — a cast only fails for the length of a slice.
* `Engine.executions_walk` — the calls of a pass are those of the functions that it executes.
* `Engine.exists_slicePass?` — the pass over slices makes the calls of the pass over contents.
-/

namespace Inference

/-! ## Slices -/

/-- A slice of memory. -/
structure Slice where
  address : Nat
  bytes : Bytes

/-- The empty slice: it stands nowhere in particular, and at no aligned address. -/
def Slice.empty : Slice := ⟨1, []⟩

/-- The float values in a slice, unless its address is no multiple of four or its length is none. -/
def Slice.castSingles? (slice : Slice) : Option (List Single) :=
  if 4 ∣ slice.address then Single.ofBytes? slice.bytes else none

/-- A slice with new bytes laid over its own, as far as they fit. -/
def Slice.write (slice : Slice) (bytes : Bytes) : Slice :=
  { slice with bytes := Bytes.overwrite slice.bytes bytes }

/-- Slices with new bytes laid over their own, in order. -/
def Slice.writeAll : List Slice → List Bytes → List Slice
  | slice :: slices, new :: news => slice.write new :: writeAll slices news
  | slices, _ => slices

/-- The slices of an arena whose store stands at an address. -/
def Arena.slices (arena : Arena) (address : Nat) : List Slice :=
  arena.regions.map fun span => ⟨address + span.start, arena.store.slice span⟩

/-- The slices of variables, moved out of a table, and the table without them. Absent if the table
has no entry for one of them. -/
def takeOut? (table : List Slice) : List Variable → Option (List Slice × List Slice)
  | [] => some ([], table)
  | v :: vs => do
    let slice ← table[v.index]?
    let (others, rest) ← takeOut? (table.set v.index .empty) vs
    return (slice :: others, rest)

/-- The table with slices put into the entries of variables, in order. Absent if it has no entry for
one of them. -/
def giveBack? (table : List Slice) : List Variable → List Slice → Option (List Slice)
  | v :: vs, slice :: slices =>
    if v.index < table.length then giveBack? (table.set v.index slice) vs slices else none
  | _, _ => some table

section

variable {table taken rest slices : List Slice} {vs : List Variable}

/-- New bytes do not move slices. -/
lemma map_address_writeAll (slices : List Slice) (news : List Bytes) :
    (Slice.writeAll slices news).map Slice.address = slices.map Slice.address := by
  induction slices generalizing news with
  | nil => cases news <;> rfl
  | cons slice slices ih =>
    cases news with
    | nil => rfl
    | cons new news => rw [Slice.writeAll, List.map_cons, List.map_cons, ih, Slice.write]

/-- Writing slices is writing what they hold. -/
lemma map_bytes_writeAll (slices : List Slice) (news : List Bytes) :
    (Slice.writeAll slices news).map Slice.bytes =
      Bytes.overwriteAll (slices.map Slice.bytes) news := by
  induction slices generalizing news with
  | nil => cases news <;> rfl
  | cons slice slices ih =>
    cases news with
    | nil => rfl
    | cons new news =>
      rw [Slice.writeAll, List.map_cons, List.map_cons, Bytes.overwriteAll, ih, Slice.write]

/-- The slices of an arena hold the contents of its regions. -/
lemma Arena.map_bytes_slices {arena : Arena} (h : arena.Tiled) (address : Nat) :
    (arena.slices address).map Slice.bytes = arena.split := by
  rw [Arena.split_eq_map h, Arena.slices, List.map_map]
  rfl

/-- The slice of the first variable is moved out before the others. -/
lemma takeOut?_cons_eq_some_iff {v : Variable} :
    takeOut? table (v :: vs) = some (taken, rest) ↔
      ∃ slice others, table[v.index]? = some slice ∧
        takeOut? (table.set v.index .empty) vs = some (others, rest) ∧
          taken = slice :: others := by
  rw [takeOut?]
  cases table[v.index]? with
  | none => simp
  | some slice =>
    cases takeOut? (table.set v.index .empty) vs with
    | none => simp
    | some found => simp [Prod.ext_iff, and_comm, eq_comm]

/-- What is moved out is what slices hold. -/
lemma moveOut_map_bytes (h : takeOut? table vs = some (taken, rest)) :
    moveOut (table.map Slice.bytes) vs = (taken.map Slice.bytes, rest.map Slice.bytes) := by
  induction vs generalizing table taken with
  | nil =>
    obtain ⟨rfl, rfl⟩ : [] = taken ∧ table = rest := by simpa [takeOut?] using h
    rfl
  | cons v vs ih =>
    obtain ⟨slice, others, hslice, hothers, rfl⟩ := takeOut?_cons_eq_some_iff.mp h
    have hlater := ih hothers
    rw [List.map_set] at hlater
    have hfirst : Contents.arrays (table.map Slice.bytes) v.index = slice.bytes := by
      rw [Contents.arrays, List.getElem?_map, hslice]
      rfl
    rw [moveOut_cons, hfirst, ← show Slice.empty.bytes = [] from rfl, hlater]
    rfl

/-- Moving slices out keeps the length of the table. -/
lemma length_takeOut? (h : takeOut? table vs = some (taken, rest)) :
    rest.length = table.length := by
  have hlength := length_moveOut (table.map Slice.bytes) vs
  rwa [moveOut_map_bytes h, List.length_map, List.length_map] at hlength

/-- What is put back is what slices hold. -/
lemma putBack_map_bytes {last : List Slice} (h : giveBack? table vs slices = some last) :
    putBack (table.map Slice.bytes) vs (slices.map Slice.bytes) = last.map Slice.bytes := by
  induction vs generalizing table slices with
  | nil =>
    obtain rfl : table = last := by simpa [giveBack?] using h
    rw [putBack_nil]
  | cons v vs ih =>
    cases slices with
    | nil =>
      obtain rfl : table = last := by simpa [giveBack?] using h
      rfl
    | cons slice slices =>
      rw [giveBack?] at h
      split at h
      · rw [List.map_cons, putBack, ← ih h, List.map_set]
      · cases h

/-- Slices of variables that are in the table can be moved out of it. They are those of the table,
and a slice that is not moved out stays.

**Proof sketch.** Induction on the variables: when the first slice was moved out, the others are
still there, since no variable is listed twice. -/
lemma exists_takeOut? (hnodup : (vs.map Variable.index).Nodup)
    (hlt : ∀ i ∈ vs.map Variable.index, i < table.length) :
    ∃ taken rest, takeOut? table vs = some (taken, rest) ∧
      taken.map some = vs.map (fun v => table[v.index]?) ∧ rest.length = table.length ∧
        ∀ i ∉ vs.map Variable.index, rest[i]? = table[i]? := by
  induction vs generalizing table with
  | nil => exact ⟨[], table, rfl, rfl, rfl, fun _ _ => rfl⟩
  | cons v vs ih =>
    rw [List.map_cons, List.nodup_cons] at hnodup
    rw [List.map_cons, List.forall_mem_cons] at hlt
    obtain ⟨hnotMem, hnodup⟩ := hnodup
    obtain ⟨hv, hlt⟩ := hlt
    have hltSet : ∀ i ∈ vs.map Variable.index, i < (table.set v.index .empty).length := by
      simpa using hlt
    obtain ⟨others, rest, hothers, htaken, hlength, hrest⟩ := ih hnodup hltSet
    have hkept {i : Nat} (hi : i ≠ v.index) : (table.set v.index .empty)[i]? = table[i]? :=
      List.getElem?_set_ne hi.symm
    refine ⟨table[v.index] :: others, rest, ?_, ?_, ?_, ?_⟩
    · exact takeOut?_cons_eq_some_iff.mpr
        ⟨_, others, List.getElem?_eq_getElem hv, hothers, rfl⟩
    · rw [List.map_cons, List.map_cons, List.getElem?_eq_getElem hv, htaken]
      congr 1
      apply List.map_congr_left
      intro w hw
      apply hkept
      rintro hsame
      exact hnotMem (hsame ▸ List.mem_map_of_mem hw)
    · rw [hlength, List.length_set]
    · intro i hi
      rw [List.map_cons, List.mem_cons, not_or] at hi
      rw [hrest i hi.2, hkept hi.1]

/-- An entry that no slice is put into can be replaced before or after. -/
lemma giveBack?_set {i : Nat} (hi : i ∉ vs.map Variable.index) (slice : Slice) :
    giveBack? (table.set i slice) vs slices =
      (giveBack? table vs slices).map fun last => last.set i slice := by
  induction vs generalizing table slices with
  | nil => simp [giveBack?]
  | cons v vs ih =>
    cases slices with
    | nil => simp [giveBack?]
    | cons first slices =>
      rw [List.map_cons, List.mem_cons, not_or] at hi
      rw [giveBack?, giveBack?, List.length_set, List.set_comm _ _ hi.1, ih hi.2]
      split <;> rfl

/-- **Giving back**: slices at the addresses of those that were moved out are put back in their
places, and then every slice of the table has the address that it had.

**Proof sketch.** Induction on the variables: the first slice can be put back after the others
(`giveBack?_set`), and replaces the empty one that was left in its place. -/
theorem exists_giveBack? (hnodup : (vs.map Variable.index).Nodup)
    (h : takeOut? table vs = some (taken, rest))
    (haddress : slices.map Slice.address = taken.map Slice.address) :
    ∃ last, giveBack? rest vs slices = some last ∧
      last.map Slice.address = table.map Slice.address := by
  induction vs generalizing table taken slices with
  | nil =>
    obtain ⟨rfl, rfl⟩ : [] = taken ∧ table = rest := by simpa [takeOut?] using h
    exact ⟨table, by simp [giveBack?], rfl⟩
  | cons v vs ih =>
    rw [List.map_cons, List.nodup_cons] at hnodup
    obtain ⟨slice, others, hslice, hothers, rfl⟩ := takeOut?_cons_eq_some_iff.mp h
    obtain ⟨first, later, rfl⟩ : ∃ first later, slices = first :: later := by
      cases slices with
      | nil => simp at haddress
      | cons first later => exact ⟨first, later, rfl⟩
    rw [List.map_cons, List.map_cons, List.cons.injEq] at haddress
    obtain ⟨last, hlast, hsame⟩ := ih hnodup.2 hothers haddress.2
    obtain ⟨hv, rfl⟩ := List.getElem?_eq_some_iff.mp hslice
    have hroom : v.index < rest.length := by
      rw [length_takeOut? hothers, List.length_set]
      exact hv
    refine ⟨last.set v.index first, ?_, ?_⟩
    · rw [giveBack?, if_pos hroom, giveBack?_set hnodup.1, hlast, Option.map_some]
    · rw [List.map_set, hsame, List.map_set, List.set_set, haddress.1, ← List.map_set,
        List.set_getElem_self]

end

/-! ## Calls -/

/-- The variables on one side of a node. -/
def Node.arguments (node : Node) : Side → List Variable
  | .input => node.inputs
  | .output => node.outputs

/-- The name of the view of an argument as float values. -/
def Side.viewName : Side → String
  | .input => "input_f32"
  | .output => "output_f32_mut"

namespace Invocation

/-- The bytes of an argument. -/
def bytes (call : Invocation) : Side → Nat → Except RoutineFault Bytes
  | .input => call.input
  | .output => call.output

/-- The values of an argument. -/
def singles (call : Invocation) : Side → Nat → Except RoutineFault (List Single)
  | .input => call.inputSingles
  | .output => call.outputSingles

/-- The call after a routine laid bytes over outputs, one after another. -/
def written (call : Invocation) (writings : List (Nat × Bytes)) : Invocation :=
  writings.foldl (fun call writing => call.writeOutput writing.1 writing.2) call

/-- The values of an argument that the node lists are those of its bytes. -/
lemma singles_of_argument {call : Invocation} {side : Side} {index : Nat} {v : Variable}
    (hv : (call.node.arguments side)[index]? = some v) :
    call.singles side index =
      (call.bytes side index >>= view side.viewName side index v.elementType) := by
  cases side with
  | input =>
    have hinput : call.inputVariable index = .ok v := by
      rw [inputVariable, show call.node.inputs[index]? = some v from hv]
    show call.inputSingles index = _
    rw [inputSingles, hinput]
    rfl
  | output =>
    have houtput : call.outputVariable index = .ok v := by
      rw [outputVariable, show call.node.outputs[index]? = some v from hv]
    show call.outputSingles index = _
    rw [outputSingles, houtput]
    rfl

/-- An argument that the node does not list has no values. -/
lemma singles_of_none {call : Invocation} {side : Side} {index : Nat}
    (hv : (call.node.arguments side)[index]? = none) :
    call.singles side index =
      .error (.missingArgument side index (call.node.arguments side).length) := by
  cases side with
  | input =>
    have hinput : call.inputVariable index =
        .error (.missingArgument .input index call.node.inputs.length) := by
      rw [inputVariable, show call.node.inputs[index]? = none from hv]
    show call.inputSingles index = _
    rw [inputSingles, hinput]
    rfl
  | output =>
    have houtput : call.outputVariable index =
        .error (.missingArgument .output index call.node.outputs.length) := by
      rw [outputVariable, show call.node.outputs[index]? = none from hv]
    show call.outputSingles index = _
    rw [outputSingles, houtput]
    rfl

end Invocation

/-- What the routine of a bound node is shown while the outputs are moved out. -/
def BoundNode.call {σ : Type} (function : BoundNode σ) (contents : Contents) : Invocation :=
  ⟨function.node, gather (moveOut contents function.node.outputs).2 function.node.inputs,
    (moveOut contents function.node.outputs).1⟩

/-- The calls that a pass makes, up to the first that fails. -/
def Engine.calls {σ : Type} : List (BoundNode σ) → Contents → List Invocation
  | [], _ => []
  | function :: rest, contents =>
    let turn := function.execute contents
    function.call contents ::
      match turn.result with
      | .error _ => []
      | .ok () => calls rest turn.contents

/-- A call as the machine holds it: the table of slices without the outputs, and the slices of the
outputs. -/
structure SliceCall where
  node : Node
  table : List Slice
  outputs : List Slice

namespace SliceCall

/-- The slice of an argument. An input is looked up in the table when it is asked for. -/
def slice (call : SliceCall) : Side → Nat → Except RoutineFault Slice
  | .input, index => do
    let count := call.node.inputs.length
    let v ← orFault call.node.inputs[index]? (.missingArgument .input index count)
    orFault call.table[v.index]? (.missingArgument .input index count)
  | .output, index =>
    orFault call.outputs[index]? (.missingArgument .output index call.outputs.length)

/-- The values of an argument: the element type is checked first, then its slice is cast. -/
def singles (call : SliceCall) (side : Side) (index : Nat) :
    Except RoutineFault (List Single) := do
  let vs := call.node.arguments side
  let v ← orFault vs[index]? (.missingArgument side index vs.length)
  if v.elementType ≠ .float then
    throw (.kernel (.unsupportedElementType side.viewName v.elementType))
  let slice ← call.slice side index
  orFault slice.castSingles? (.misaligned side index "f32")

/-- The call with new bytes laid over an output, as far as they fit. -/
def writeOutput (call : SliceCall) (index : Nat) (bytes : Bytes) : SliceCall :=
  { call with outputs := call.outputs.modify index fun slice => slice.write bytes }

/-- The call after a routine laid bytes over outputs, one after another. -/
def written (call : SliceCall) (writings : List (Nat × Bytes)) : SliceCall :=
  writings.foldl (fun call writing => call.writeOutput writing.1 writing.2) call

/-- The contents that a call shows. -/
def shown (call : SliceCall) : Invocation :=
  ⟨call.node, gather (call.table.map Slice.bytes) call.node.inputs,
    call.outputs.map Slice.bytes⟩

/-- A call whose inputs are in the table and whose outputs are in step with their variables, with
slices at aligned addresses only. -/
structure Sound (call : SliceCall) : Prop where
  inputs : ∀ v ∈ call.node.inputs, ∃ slice, call.table[v.index]? = some slice ∧ 4 ∣ slice.address
  length_eq : call.outputs.length = call.node.outputs.length
  outputs : ∀ slice ∈ call.outputs, 4 ∣ slice.address

variable {call : SliceCall}

/-- Writing an output is writing what is shown. -/
lemma shown_writeOutput (call : SliceCall) (index : Nat) (bytes : Bytes) :
    (call.writeOutput index bytes).shown = call.shown.writeOutput index bytes := by
  have hmodify : (call.outputs.modify index fun slice => slice.write bytes).map Slice.bytes =
      (call.outputs.map Slice.bytes).modify index fun old => Bytes.overwrite old bytes := by
    apply List.ext_getElem?
    intro k
    simp only [List.getElem?_map, List.getElem?_modify]
    cases call.outputs[k]? with
    | none => rfl
    | some slice => by_cases hk : index = k <;> simp [hk, Slice.write]
  rw [shown, shown, writeOutput, Invocation.writeOutput, hmodify]

/-- Writing an output keeps a call sound. -/
lemma Sound.writeOutput (h : call.Sound) (index : Nat) (bytes : Bytes) :
    (call.writeOutput index bytes).Sound where
  inputs := h.inputs
  length_eq := by
    rw [SliceCall.writeOutput, List.length_modify]
    exact h.length_eq
  outputs := by
    intro slice hslice
    obtain ⟨k, hk⟩ := List.getElem?_of_mem hslice
    rw [SliceCall.writeOutput, List.getElem?_modify] at hk
    obtain ⟨old, hold, rfl⟩ := Option.map_eq_some_iff.mp hk
    have haligned := h.outputs old (List.mem_of_getElem? hold)
    split
    · exact haligned
    · exact haligned

/-- Writing outputs is writing what is shown. -/
lemma shown_written (call : SliceCall) (writings : List (Nat × Bytes)) :
    (call.written writings).shown = call.shown.written writings := by
  induction writings generalizing call with
  | nil => rfl
  | cons writing writings ih =>
    rw [written, List.foldl_cons, ← written, ih, shown_writeOutput]
    rfl

/-- Writing outputs keeps a call sound. -/
lemma Sound.written (h : call.Sound) (writings : List (Nat × Bytes)) :
    (call.written writings).Sound := by
  induction writings generalizing call with
  | nil => exact h
  | cons writing writings ih => exact ih (h.writeOutput writing.1 writing.2)

/-- **Slices**: the slices of a sound call hold what is shown.

**Proof sketch.** An input that the node lists is in the table, so looking it up there is looking it
up among the inputs; an output is looked up in both. -/
theorem Sound.map_slice (h : call.Sound) (side : Side) (index : Nat) :
    (call.slice side index).map Slice.bytes = call.shown.bytes side index := by
  cases side with
  | input =>
    simp only [slice, Invocation.bytes, Invocation.input, shown, gather, List.getElem?_map]
    cases hv : call.node.inputs[index]? with
    | none => rfl
    | some v =>
      obtain ⟨found, hfound, -⟩ := h.inputs v (List.mem_of_getElem? hv)
      show (orFault call.table[v.index]? _).map _ = _
      simp [hfound, orFault, Except.map]
  | output =>
    simp only [slice, Invocation.bytes, Invocation.output, shown, List.getElem?_map,
      List.length_map]
    cases call.outputs[index]? <;> rfl

/-- The slice of an argument that the node lists is there, at an aligned address. -/
lemma Sound.exists_slice (h : call.Sound) {side : Side} {index : Nat} {v : Variable}
    (hv : (call.node.arguments side)[index]? = some v) :
    ∃ found, call.slice side index = .ok found ∧ 4 ∣ found.address := by
  cases side with
  | input =>
    have hinput : call.node.inputs[index]? = some v := hv
    obtain ⟨found, hfound, haligned⟩ := h.inputs v (List.mem_of_getElem? hinput)
    refine ⟨found, ?_, haligned⟩
    simp only [slice, hinput]
    show orFault call.table[v.index]? _ = _
    rw [hfound]
    rfl
  | output =>
    obtain ⟨hlt, -⟩ := List.getElem?_eq_some_iff.mp hv
    have hlt' : index < call.outputs.length := by
      rw [h.length_eq]
      exact hlt
    refine ⟨call.outputs[index], ?_, h.outputs _ (List.getElem_mem _)⟩
    rw [slice, List.getElem?_eq_getElem hlt']
    rfl

/-- **Casts**: a cast of an argument only fails for the length of its slice, so checking addresses
makes no difference. -/
theorem Sound.singles_eq (h : call.Sound) (side : Side) (index : Nat) :
    call.singles side index = call.shown.singles side index := by
  cases hv : (call.node.arguments side)[index]? with
  | none =>
    rw [Invocation.singles_of_none (show (call.shown.node.arguments side)[index]? = none from hv)]
    simp only [singles, hv]
    rfl
  | some v =>
    obtain ⟨found, hfound, haligned⟩ := h.exists_slice hv
    have hbytes : call.shown.bytes side index = .ok found.bytes := by
      rw [← h.map_slice, hfound]
      rfl
    rw [Invocation.singles_of_argument (show (call.shown.node.arguments side)[index]? = some v
      from hv), hbytes]
    simp only [singles, hv, hfound]
    show (if v.elementType ≠ .float then _ else orFault found.castSingles? _) =
      Invocation.view side.viewName side index v.elementType found.bytes
    rw [Slice.castSingles?, if_pos haligned, Invocation.view]
    cases Single.ofBytes? found.bytes <;> rfl

end SliceCall

/-! ## Passes -/

namespace Engine

variable {σ : Type}

/-- The calls of a pass are those of the functions that it executes, in order. -/
theorem executions_walk (functions : List (BoundNode σ)) (contents : Contents) :
    Event.executions (walk functions contents).journal =
      (calls functions contents).map fun call => call.node.index := by
  induction functions generalizing contents with
  | nil => rfl
  | cons function functions ih =>
    have hturn : Event.executions (function.execute contents).journal = [function.node.index] :=
      congrArg (function.node.index :: ·) (executions_notes _)
    cases hresult : (function.execute contents).result with
    | error fault =>
      rw [walk_cons_error hresult, hturn]
      simp [calls, hresult, BoundNode.call]
    | ok _ =>
      rw [walk_cons_ok hresult, executions_append, hturn, ih]
      simp [calls, hresult, BoundNode.call]

/-- A pass over a table of slices: the calls that it makes, up to the first that fails, and the
table that it leaves. Absent if a slice is moved out of or put into an entry that is not there. -/
def slicePass? : List (BoundNode σ) → List Slice → Option (List SliceCall × List Slice)
  | [], table => some ([], table)
  | function :: rest, table => do
    let (outputs, others) ← takeOut? table function.node.outputs
    let call : SliceCall := ⟨function.node, others, outputs⟩
    let outcome := function.binding.execute call.shown function.binding.state
    let table ← giveBack? others function.node.outputs (Slice.writeAll outputs outcome.outputs)
    match outcome.result with
    | .error _ => return ([call], table)
    | .ok () => do
      let (calls, last) ← slicePass? rest table
      return (call :: calls, last)

/-- **Turns over slices**: the slices of the outputs can be moved out, the call is sound and shows
what the turn of the node shows, and the slices can be given back, with what the turn leaves and at
the addresses that they had. -/
lemma exists_sliceTurn {table : List Slice} {entry : FunctionEntry} {function : BoundNode σ}
    (h : Conforms table.length entry function) (haligned : ∀ slice ∈ table, 4 ∣ slice.address) :
    ∃ outputs others, takeOut? table function.node.outputs = some (outputs, others) ∧
      (SliceCall.mk function.node others outputs).Sound ∧
      (SliceCall.mk function.node others outputs).shown =
        function.call (table.map Slice.bytes) ∧
      ∀ news, ∃ last, giveBack? others function.node.outputs (Slice.writeAll outputs news) =
          some last ∧ last.map Slice.address = table.map Slice.address ∧
        last.map Slice.bytes = putBack (moveOut (table.map Slice.bytes) function.node.outputs).2
          function.node.outputs (Bytes.overwriteAll
            (moveOut (table.map Slice.bytes) function.node.outputs).1 news) := by
  have hnodup : (function.node.outputs.map Variable.index).Nodup := by
    rw [h.outputs_eq]
    exact h.consistent.outputs_nodup
  have hlt : ∀ i ∈ function.node.outputs.map Variable.index, i < table.length := by
    rw [h.outputs_eq]
    exact h.consistent.outputs_lt
  obtain ⟨outputs, others, htake, houtputs, hlength, hothers⟩ := exists_takeOut? hnodup hlt
  have hmoved := moveOut_map_bytes htake
  refine ⟨outputs, others, htake, ⟨?_, ?_, ?_⟩, ?_, fun news => ?_⟩
  · intro v hv
    have hindex : v.index ∈ entry.inputs := h.inputs_eq ▸ List.mem_map_of_mem hv
    have hkept := hothers v.index (by rw [h.outputs_eq]; exact h.consistent.disjoint hindex)
    have hroom := h.consistent.inputs_lt v.index hindex
    refine ⟨table[v.index], hkept.trans (List.getElem?_eq_getElem hroom), ?_⟩
    exact haligned _ (List.getElem_mem _)
  · simpa using congrArg List.length houtputs
  · intro slice hslice
    have hfound : some slice ∈ function.node.outputs.map fun v => table[v.index]? := by
      rw [← houtputs]
      exact List.mem_map_of_mem hslice
    obtain ⟨v, -, hv⟩ := List.mem_map.mp hfound
    exact haligned slice (List.mem_of_getElem? hv)
  · rw [SliceCall.shown, BoundNode.call, hmoved]
  · obtain ⟨last, hlast, haddress⟩ :=
      exists_giveBack? hnodup htake (map_address_writeAll outputs news)
    refine ⟨last, hlast, haddress, ?_⟩
    rw [← putBack_map_bytes hlast, map_bytes_writeAll, hmoved]

/-- **Passes over slices**: over slices at aligned addresses, every slice that is asked for is
there, all calls are sound and show what the pass over contents shows, and afterwards the table has
the slices that it had, with the contents that the pass over contents leaves.

**Proof sketch.** Induction on the functions. The first call is sound (`exists_sliceTurn`), and
after its turn the table has slices at the same addresses, so the others find what they ask
for. -/
theorem exists_slicePass? {entries : List FunctionEntry} {functions : List (BoundNode σ)}
    {table : List Slice} (h : List.Forall₂ (Conforms table.length) entries functions)
    (haligned : ∀ slice ∈ table, 4 ∣ slice.address) :
    ∃ made last, slicePass? functions table = some (made, last) ∧
      made.map SliceCall.shown = calls functions (table.map Slice.bytes) ∧
      (∀ call ∈ made, call.Sound) ∧ last.map Slice.address = table.map Slice.address ∧
        last.map Slice.bytes = (walk functions (table.map Slice.bytes)).contents := by
  induction functions generalizing entries table with
  | nil => exact ⟨[], table, rfl, rfl, by simp, rfl, rfl⟩
  | cons function functions ih =>
    obtain ⟨entry, entries, hhead, htail, rfl⟩ := List.forall₂_cons_right_iff.mp h
    obtain ⟨outputs, others, htake, hsound, hshown, hturn⟩ := exists_sliceTurn hhead haligned
    set contents := table.map Slice.bytes with hcontents
    set outcome := function.binding.execute (function.call contents) function.binding.state
      with houtcome
    obtain ⟨between, hbetween, haddress, hbytes⟩ := hturn outcome.outputs
    have hresult : (function.execute contents).result = outcome.result := rfl
    have hleft : between.map Slice.bytes = (function.execute contents).contents := hbytes
    cases hcase : outcome.result with
    | error fault =>
      refine ⟨[⟨function.node, others, outputs⟩], between, ?_, ?_, by simpa using hsound, haddress,
        ?_⟩
      · simp [slicePass?, htake, hshown, ← houtcome, hbetween, hcase]
      · simp [calls, hshown, hresult, hcase]
      · rw [walk_cons_error (hresult.trans hcase), hleft]
    | ok _ =>
      have hlength : between.length = table.length := by
        simpa using congrArg List.length haddress
      have hlater : ∀ slice ∈ between, 4 ∣ slice.address := by
        rw [← List.forall_mem_map (f := Slice.address) (P := fun address => 4 ∣ address), haddress,
          List.forall_mem_map]
        exact haligned
      obtain ⟨made, last, hmade, hshownLater, hsoundLater, haddressLater, hbytesLater⟩ :=
        ih (by rwa [hlength]) hlater
      rw [hleft] at hbytesLater hshownLater
      refine ⟨⟨function.node, others, outputs⟩ :: made, last, ?_, ?_, ?_,
        haddressLater.trans haddress, ?_⟩
      · simp [slicePass?, htake, hshown, ← houtcome, hbetween, hcase, hmade]
      · simp [calls, hshown, hresult, hcase, hshownLater]
      · simpa using ⟨hsound, hsoundLater⟩
      · rw [walk_cons_ok (hresult.trans hcase), hbytesLater]

end Engine

end Inference
