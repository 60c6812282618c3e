import Inference.Proofs.Engine.Slices
import Inference.Proofs.Session.Views

set_option autoImplicit false
set_option relaxedAutoImplicit false

/-!
# Arguments of calls

A routine sees the arguments of its function: their number, the bytes of each, and the float values
of those that have such elements. This file shows that they are always those that the descriptor
lists, with the sizes that it declares, whichever function it is, whatever the host did before,
whichever passes failed in the middle, and whatever the routine wrote already. An argument that is
not listed is refused, and an argument that is listed is never cut short nor at an address that
cannot be cast.

## Main definitions

* `Invocation.Shows`, `Invocation.Lacks` — what a routine sees under an index that is listed or is
  not.
* `Invocation.Exposes` — a call that shows the arguments of a function.
* `Bound.calls` — the calls of a pass over a bound network.

## Main results

* `Invocation.Fits.exposes` — a call whose arguments have the sizes of the variables shows them.
* `Bound.Serves.fits_calls` — every call of a pass is such a call.
* `Session.arguments_after` — after loading, all calls of all passes show the arguments.
-/

namespace Inference

variable {σ : Type}

/-- The arguments on one side of a function entry, by index. -/
def FunctionEntry.arguments (entry : FunctionEntry) : Side → List Nat
  | .input => entry.inputs
  | .output => entry.outputs

/-- In an aligned arena, every slice stands at a multiple of four. -/
lemma Arena.four_dvd_address {arena : Arena} (h : arena.Aligned) {address : Nat}
    (haddress : alignment ∣ address) : ∀ slice ∈ arena.slices address, 4 ∣ slice.address := by
  rw [Arena.slices, List.forall_mem_map]
  intro span hspan
  exact Nat.dvd_trans (by decide : 4 ∣ alignment) (Nat.dvd_add haddress (h span hspan))

/-! ## What a call shows -/

namespace Invocation

/-- What a routine sees of an argument that is there: as many bytes as the variable takes, and float
values exactly if the variable has such elements. The values then are as many as the elements and
stand for the bytes. -/
structure Shows (call : Invocation) (side : Side) (index : Nat) (v : Variable) : Prop where
  contents : ∃ bytes, call.bytes side index = .ok bytes ∧
    bytes.length = v.elementCount * v.elementType.byteSize ∧
    (v.elementType = .float → ∃ values, call.singles side index = .ok values ∧
      values.length = v.elementCount ∧ Single.bytesOf values = bytes)
  unsupported : v.elementType ≠ .float → call.singles side index =
    .error (.kernel (.unsupportedElementType side.viewName v.elementType))

/-- What a routine is told about an argument that is not there: the index, and how many there
are. -/
structure Lacks (call : Invocation) (side : Side) (index count : Nat) : Prop where
  bytes_eq : call.bytes side index = .error (.missingArgument side index count)
  singles_eq : call.singles side index = .error (.missingArgument side index count)

/-- A call that shows the arguments of a function of a network: those that the function lists, and
no others. -/
structure Exposes (call : Invocation) (network : Network) (entry : FunctionEntry) : Prop where
  node_eq : call.node = network.node entry
  shows : ∀ side index i, (entry.arguments side)[index]? = some i →
    ∃ v, network.variableTable[i]? = some v ∧ v.Countable ∧ call.Shows side index v
  lacks : ∀ side index, (entry.arguments side).length ≤ index →
    call.Lacks side index (entry.arguments side).length
  bytes_iff : ∀ side index, (∃ bytes, call.bytes side index = .ok bytes) ↔
    index < (entry.arguments side).length
  singles_iff : ∀ side index, (∃ values, call.singles side index = .ok values) ↔
    ∃ i v, (entry.arguments side)[index]? = some i ∧ network.variableTable[i]? = some v ∧
      v.elementType = .float
  singles_ne : ∀ side index other position view,
    call.singles side index ≠ .error (.misaligned other position view)

variable {call : Invocation} {node : Node} {side : Side} {index : Nat}

/-- The bytes on one side of a call. -/
def contents (call : Invocation) : Side → List Bytes
  | .input => call.inputs
  | .output => call.outputs

/-- The bytes of an argument are looked up on its side. -/
lemma bytes_of_getElem? {bytes : Bytes} (h : (call.contents side)[index]? = some bytes) :
    call.bytes side index = .ok bytes := by
  cases side with
  | input => simp only [Invocation.bytes, input, show call.inputs[index]? = some bytes from h]
  | output => simp only [Invocation.bytes, output, show call.outputs[index]? = some bytes from h]

namespace Fits

/-- Both sides have the sizes of the variables. -/
lemma map_length_contents (h : call.Fits node) (side : Side) :
    (call.contents side).map List.length = (node.arguments side).map Variable.byteSize := by
  cases side with
  | input => exact h.inputs_eq
  | output => exact h.outputs_eq

/-- A call that fits shows the arguments of its node. -/
theorem shows (h : call.Fits node) {v : Variable}
    (hv : (node.arguments side)[index]? = some v) : call.Shows side index v := by
  have hlengths := congrArg (fun lengths : List Nat => lengths[index]?)
    (h.map_length_contents side)
  simp only [List.getElem?_map, hv, Option.map_some, Option.map_eq_some_iff] at hlengths
  obtain ⟨bytes, hfound, hlength⟩ := hlengths
  have hbytes := bytes_of_getElem? hfound
  have hsingles : call.singles side index =
      view side.viewName side index v.elementType bytes := by
    rw [singles_of_argument (by rw [h.node_eq]; exact hv), hbytes]
    rfl
  refine ⟨⟨bytes, hbytes, hlength, fun hfloat => ?_⟩, fun hfloat => ?_⟩
  · rw [Variable.byteSize, Shape.byteSize, hfloat] at hlength
    obtain ⟨values, hvalues, hcount⟩ := Single.exists_ofBytes? hlength
    refine ⟨values, ?_, hcount, Single.bytesOf_of_ofBytes? hvalues⟩
    rw [hsingles, view, if_neg (not_not.mpr hfloat), hvalues]
  · rw [hsingles, view, if_pos hfloat]

/-- It refuses any other argument. -/
theorem lacks (h : call.Fits node) (hindex : (node.arguments side).length ≤ index) :
    call.Lacks side index (node.arguments side).length := by
  have hcount : (call.contents side).length = (node.arguments side).length := by
    simpa using congrArg List.length (h.map_length_contents side)
  refine ⟨?_, ?_⟩
  · have hnone : (call.contents side)[index]? = none :=
      List.getElem?_eq_none (by rwa [hcount])
    cases side with
    | input =>
      simp only [Invocation.bytes, input, show call.inputs[index]? = none from hnone, h.node_eq]
      rfl
    | output =>
      have houtputs : call.outputs.length = node.outputs.length := hcount
      simp only [Invocation.bytes, output, show call.outputs[index]? = none from hnone, houtputs]
      rfl
  · have hnone := List.getElem?_eq_none hindex
    rw [singles_of_none (by rwa [h.node_eq]), h.node_eq]

/-- Writing an output keeps a call fitting. -/
lemma writeOutput (h : call.Fits node) (index : Nat) (bytes : Bytes) :
    (call.writeOutput index bytes).Fits node where
  node_eq := h.node_eq
  inputs_eq := h.inputs_eq
  outputs_eq := by
    rw [← h.outputs_eq]
    apply List.ext_getElem?
    intro k
    simp only [Invocation.writeOutput, List.getElem?_map, List.getElem?_modify]
    cases call.outputs[k]? with
    | none => rfl
    | some old => by_cases hk : index = k <;> simp [hk]

/-- Writing outputs keeps a call fitting. -/
lemma written (h : call.Fits node) (writings : List (Nat × Bytes)) :
    (call.written writings).Fits node := by
  induction writings generalizing call with
  | nil => exact h
  | cons writing writings ih => exact ih (h.writeOutput writing.1 writing.2)

/-- **What a call shows**: a call whose arguments have the sizes of the variables shows the
arguments that its function lists, and no others.

**Proof sketch.** The variables of the node are those that the function lists, in order, so an index
below their number is listed (`shows`) and any other is not (`lacks`). -/
theorem exposes {network : Network} {entry : FunctionEntry} (h : call.Fits (network.node entry))
    (hconsistent : entry.Consistent network.variableTable.length) (hrange : network.InRange) :
    call.Exposes network entry := by
  have hvariables (side : Side) : ((network.node entry).arguments side).map some =
      (entry.arguments side).map fun i => network.variableTable[i]? := by
    cases side with
    | input => exact Network.map_some_select hconsistent.inputs_lt
    | output => exact Network.map_some_select hconsistent.outputs_lt
  have hlength (side : Side) :
      ((network.node entry).arguments side).length = (entry.arguments side).length := by
    simpa using congrArg List.length (hvariables side)
  have hshows : ∀ side index i, (entry.arguments side)[index]? = some i →
      ∃ v, network.variableTable[i]? = some v ∧ v.Countable ∧ call.Shows side index v := by
    intro side index i hi
    have hfound := congrArg (fun vs : List (Option Variable) => vs[index]?) (hvariables side)
    simp only [List.getElem?_map, hi, Option.map_some] at hfound
    obtain ⟨v, hv, hsome⟩ := Option.map_eq_some_iff.mp hfound
    exact ⟨v, hsome.symm, hrange.countable v (List.mem_of_getElem? hsome.symm), h.shows hv⟩
  have hlacks : ∀ side index, (entry.arguments side).length ≤ index →
      call.Lacks side index (entry.arguments side).length := by
    intro side index hindex
    rw [← hlength] at hindex ⊢
    exact h.lacks hindex
  exact
    { node_eq := h.node_eq
      shows := hshows
      lacks := hlacks
      bytes_iff := by
        intro side index
        constructor
        · rintro ⟨bytes, hbytes⟩
          by_contra hindex
          rw [(hlacks side index (Nat.not_lt.mp hindex)).bytes_eq] at hbytes
          cases hbytes
        · intro hindex
          obtain ⟨v, -, -, hshown⟩ := hshows side index _ (List.getElem?_eq_getElem hindex)
          obtain ⟨bytes, hbytes, -⟩ := hshown.contents
          exact ⟨bytes, hbytes⟩
      singles_iff := by
        intro side index
        constructor
        · rintro ⟨values, hvalues⟩
          rcases Nat.lt_or_ge index (entry.arguments side).length with hlt | hge
          · have hi := List.getElem?_eq_getElem hlt
            obtain ⟨v, hv, -, hshown⟩ := hshows side index _ hi
            refine ⟨_, v, hi, hv, ?_⟩
            by_contra hfloat
            rw [hshown.unsupported hfloat] at hvalues
            cases hvalues
          · rw [(hlacks side index hge).singles_eq] at hvalues
            cases hvalues
        · rintro ⟨i, v, hi, hv, hfloat⟩
          obtain ⟨found, hfound, -, hshown⟩ := hshows side index i hi
          obtain rfl := Option.some.inj (hfound.symm.trans hv)
          obtain ⟨bytes, -, -, hsingles⟩ := hshown.contents
          obtain ⟨values, hvalues, -⟩ := hsingles hfloat
          exact ⟨values, hvalues⟩
      singles_ne := by
        intro side index other position view hmisaligned
        rcases Nat.lt_or_ge index (entry.arguments side).length with hlt | hge
        · obtain ⟨v, -, -, hshown⟩ := hshows side index _ (List.getElem?_eq_getElem hlt)
          by_cases hfloat : v.elementType = .float
          · obtain ⟨bytes, -, -, hsingles⟩ := hshown.contents
            obtain ⟨values, hvalues, -⟩ := hsingles hfloat
            rw [hvalues] at hmisaligned
            cases hmisaligned
          · rw [hshown.unsupported hfloat] at hmisaligned
            cases hmisaligned
        · rw [(hlacks side index hge).singles_eq] at hmisaligned
          cases hmisaligned }

end Fits

end Invocation

/-! ## The calls of a pass -/

/-- A call of a pass over nodes that conform to function entries shows one of them byte strings with
the lengths of the contents.

**Proof sketch.** Induction on the functions. The first call shows the contents as they are
(`call_moveOut`), and what its turn stores leaves the lengths as they are
(`Reference.length_store`). -/
lemma Engine.exists_arrays_of_mem_calls {entries : List FunctionEntry}
    {functions : List (BoundNode σ)} {contents : Contents}
    (h : List.Forall₂ (Conforms contents.length) entries functions) :
    ∀ call ∈ calls functions contents, ∃ entry function, (entry, function) ∈ entries.zip functions ∧
      ∃ arrays : Arrays, (∀ i, (arrays i).length = (contents.arrays i).length) ∧
        call = Reference.Task.call ⟨entry, function.node, function.binding.execute⟩ arrays := by
  induction functions generalizing entries contents with
  | nil => simp [calls]
  | cons function functions ih =>
    obtain ⟨entry, entries, hhead, htail, rfl⟩ := List.forall₂_cons_right_iff.mp h
    obtain ⟨-, hlength, harrays, -⟩ := execute_refines hhead
    intro call hcall
    rw [calls, List.mem_cons] at hcall
    rcases hcall with rfl | hlater
    · exact ⟨entry, function, List.mem_cons_self, contents.arrays, fun _ => rfl,
        call_moveOut hhead⟩
    · split at hlater
      · cases hlater
      · obtain ⟨other, another, hmem, arrays, hlengths, hcall⟩ :=
          ih (by rwa [hlength]) call hlater
        refine ⟨other, another, List.mem_cons_of_mem _ hmem, arrays, fun i => ?_, hcall⟩
        rw [hlengths i, harrays, Reference.length_store]

/-- The calls of a pass over a bound network. -/
def Bound.calls (bound : Bound σ) : List Invocation :=
  Engine.calls bound.functions bound.arena.split

/-- Every call of a pass is one of a function of the network, with arguments of the sizes of its
variables. -/
theorem Bound.Serves.fits_calls {bound : Bound σ} {network : Network} (h : bound.Serves network)
    (hconsistent : network.Consistent) :
    ∀ call ∈ bound.calls, ∃ entry ∈ network.functions, call.Fits (network.node entry) := by
  intro call hcall
  obtain ⟨entry, function, hmem, arrays, hlengths, rfl⟩ :=
    Engine.exists_arrays_of_mem_calls (h.conforms hconsistent) call hcall
  have hfunction := (List.of_mem_zip hmem).2
  have hconforms := List.forall₂_zip (h.conforms hconsistent) hmem
  rw [h.arrays_split] at hlengths
  have hnode : function.node ∈ network.nodes := h.nodes_eq ▸ List.mem_map_of_mem hfunction
  obtain ⟨other, hother, hsame⟩ := List.mem_map.mp hnode
  refine ⟨other, hother, ?_⟩
  rw [hsame]
  exact h.fits_call hconsistent hconforms hfunction hlengths

/-! ## Sessions -/

namespace Session

variable {session : Session σ}

/-- **Arguments**: once a descriptor was loaded, whatever the host did and whichever passes failed,
a pass makes one call for each function that it executes, in order. Each call is one of a function
of the network that was read and, whatever the routine has written to its outputs already, shows the
arguments that this function lists: each with the bytes of its variable, in full, and with float
values exactly if the variable has such elements; any other index is refused, and no cast fails for
the address or the length.

The pass over slices of a store at an aligned address makes the same calls. It finds every slice
that it asks for, the slices are those that are shown, casting them where they stand makes no
difference, and in the end they all are where they were.

**Proof sketch.** The session serves the network as long as it is ready (`serves_after`), so the
arguments of every call have the sizes of the variables (`Bound.Serves.fits_calls`) and go on to do
so when the routine writes (`Invocation.Fits.written`). Regions start at multiples of the alignment
(`aligned_after`), so all slices of the store do (`Engine.exists_slicePass?`). -/
theorem arguments_after {loading : Nat} {descriptor : Bytes}
    (hload : (session.load loading descriptor).result = .ok ()) :
    ∃ network, Network.decode descriptor = .ok network ∧
      ∀ (actions : List (Action σ)) (bound : Bound σ),
        let current := (session.load loading descriptor).session.after actions
        current.ready? = some bound →
          (∀ readings, Event.executions (current.forward tick readings).1.journal =
            bound.calls.map fun call => call.node.index) ∧
          (∀ call ∈ bound.calls, ∃ entry ∈ network.functions,
            ∀ writings, (call.written writings).Exposes network entry) ∧
          ∀ address, Arena.alignment ∣ address → ∃ made last,
            Engine.slicePass? bound.functions (bound.arena.slices address) = some (made, last) ∧
              made.map SliceCall.shown = bound.calls ∧
              last.map Slice.address = (bound.arena.slices address).map Slice.address ∧
              ∀ call ∈ made, ∀ writings side index,
                (call.written writings).shown = call.shown.written writings ∧
                ((call.written writings).slice side index).map Slice.bytes =
                  (call.shown.written writings).bytes side index ∧
                (call.written writings).singles side index =
                  (call.shown.written writings).singles side index := by
  obtain ⟨network, first, hdecode, hfirst, hserves⟩ := ready_of_load hload
  have hconsistent := Network.consistent_of_decode hdecode
  have hrange := Network.inRange_of_decode hdecode
  have haligned : session.Aligned := by
    intro bound hbound
    rw [load, stage_of_ready hbound] at hload
    cases hload
  refine ⟨network, hdecode, fun actions bound => ?_⟩
  intro current hready
  have hserved := (serves_after (serves_of_ready hfirst hserves) hconsistent actions).ready bound
    hready
  refine ⟨fun readings => ?_, fun call hcall => ?_, fun address haddress => ?_⟩
  · rw [forward_of_ready hready]
    exact Engine.executions_walk _ _
  · obtain ⟨entry, hentry, hfits⟩ := hserved.fits_calls hconsistent call hcall
    exact ⟨entry, hentry, fun writings => (hfits.written writings).exposes
      (hconsistent.functions_consistent entry hentry) hrange⟩
  · have hregions := aligned_after ((session.effect_load loading descriptor).aligned haligned)
      actions bound hready
    have hbytes := Arena.map_bytes_slices hserved.tiled address
    have hlength : (bound.arena.slices address).length = bound.arena.split.length := by
      simpa using congrArg List.length hbytes
    obtain ⟨made, last, hmade, hshown, hsound, hlast, -⟩ :=
      Engine.exists_slicePass? (by rw [hlength]; exact hserved.conforms hconsistent)
        (Arena.four_dvd_address hregions haddress)
    rw [hbytes] at hshown
    refine ⟨made, last, hmade, hshown, hlast, fun call hcall writings side index => ?_⟩
    have hwritten := (hsound call hcall).written writings
    have hcontents := SliceCall.shown_written call writings
    refine ⟨hcontents, ?_, ?_⟩
    · rw [hwritten.map_slice, hcontents]
    · rw [hwritten.singles_eq, hcontents]

/-- The calls of a pass of a session; none unless it is ready. -/
def calls (session : Session σ) : List Invocation :=
  match session.ready? with
  | some bound => bound.calls
  | none => []

/-- Float values, signs and a float value. The second function takes the signs first. -/
def signed : Draft where
  buffers := [2, 3, 1]
  variableTable :=
    [{ id := 0, dims := [2], elementType := .float, backing := .buffer 0 },
     { id := 1, dims := [3], elementType := .sign, backing := .buffer 1 },
     { id := 2, dims := [1], elementType := .float, backing := .buffer 2 }]
  functions :=
    [{ op := .relu, inputs := [0], outputs := [1] },
     { op := .tanh, inputs := [1, 0], outputs := [2] }]
  inputs := [0]
  outputs := [2]

/-- The second function fails in the first pass, and in the second pass both functions are called
with all their arguments again. The signs have no float values, and there is no second output. -/
theorem arguments_after_signed :
    let ready := (relaySession.load 0 signed.encode).session.after [.writeSingles 0 [.one, .zero]]
    let current := (relaySession.load 0 signed.encode).session.after
      [.writeSingles 0 [.one, .zero], .forward id]
    (ready.forward tick id).1.result = .error (.failed ⟨1, .tanh, .failed "refused"⟩) ∧
      ∃ network bound, Network.decode signed.encode = .ok network ∧
        current.ready? = some bound ∧
        (∀ call ∈ bound.calls, ∃ entry ∈ network.functions,
          ∀ writings, (call.written writings).Exposes network entry) ∧
        bound.calls.map (fun call => call.node.index) = [0, 1] ∧
        bound.calls.map (fun call => call.input 0) = [.ok [0, 0, 128, 63, 0, 0, 0, 0],
          .ok [0, 0, 128]] ∧
        bound.calls.map (fun call => call.inputSingles 0) = [.ok [.one, .zero],
          .error (.kernel (.unsupportedElementType "input_f32" .sign))] ∧
        bound.calls.map (fun call => call.inputSingles 1) =
          [.error (.missingArgument .input 1 1), .ok [.one, .zero]] ∧
        bound.calls.map (fun call => (call.written [(0, [1, 2, 3, 4, 5])]).output 0) =
          [.ok [1, 2, 3], .ok [1, 2, 3, 4]] ∧
        bound.calls.map (fun call => call.output 1) =
          [.error (.missingArgument .output 1 1), .error (.missingArgument .output 1 1)] := by
  intro ready current
  have hload : (relaySession.load 0 signed.encode).result = .ok () := by decide +kernel
  obtain ⟨network, hdecode, hafter⟩ := arguments_after hload
  have hready : current.ready?.isSome := by decide +kernel
  obtain ⟨bound, hbound⟩ := Option.isSome_iff_exists.mp hready
  obtain ⟨-, hexposes, -⟩ := hafter [.writeSingles 0 [.one, .zero], .forward id] bound hbound
  have hcalls : current.calls = bound.calls := by rw [calls, hbound]
  refine ⟨by decide +kernel, network, bound, hdecode, hbound, hexposes, ?_⟩
  rw [← hcalls]
  decide +kernel

end Session

end Inference
