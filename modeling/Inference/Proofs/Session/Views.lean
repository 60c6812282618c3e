import Inference.Proofs.Session.Ranges
import Inference.Proofs.Session.Stages

set_option autoImplicit false
set_option relaxedAutoImplicit false

/-!
# Views of inputs and outputs

A host sees a network that is bound through its inputs and outputs: their number, their variables,
the sizes of these, and their contents as bytes or as float values. Sizes come from the shapes that
the descriptor declares, contents from the store, which passes take apart and put together again.
This file shows that the two always agree, whatever the host did and whichever passes failed.

Float values are a cast of the bytes of a region. A cast can fail for the address and for the length
of the region; here it never does, since the store stands at a multiple of the alignment and so does
every region in it.

## Main definitions

* `Network.listed` — the inputs or outputs of a network.
* `Arena.Aligned` — an arena whose regions start at multiples of the alignment.
* `Session.castSingles` — the float values, as a cast that also checks the address finds them.
* `Session.Shows`, `Session.Lacks` — what a host sees under an index that is listed or is not.
* `Session.Exposes` — a session through which a host sees the inputs and outputs of a network.

## Main results

* `Single.bytesOf_of_ofBytes?` — the values that are read from bytes stand for these bytes.
* `Arena.aligned_of_allocate` — an arena that was allocated is aligned.
* `Session.castSingles_eq` — checking the address makes no difference.
* `Session.exposed_after` — after loading, a session exposes its network until it is freed.
-/

namespace Inference

variable {σ : Type}

/-! ## Values and their bytes -/

namespace Single

/-- Four bytes are those of the value that they are read as. -/
lemma bytes_ofNat_toNatLE {word : Bytes} (h : word.length = 4) :
    bytes ⟨UInt32.ofNat (Bytes.toNatLE word)⟩ = word := by
  have hlt : Bytes.toNatLE word < 2 ^ 32 := by
    have hcapacity := Bytes.toNatLE_lt word
    rw [h] at hcapacity
    exact hcapacity
  rw [bytes, UInt32.toNat_ofNat_of_lt' hlt, ← h, Bytes.ofNatLE_toNatLE]

/-- The values that are read from bytes stand for these bytes. -/
theorem bytesOf_of_ofBytes? {region : Bytes} {values : List Single}
    (h : ofBytes? region = some values) : bytesOf values = region := by
  induction region using ofBytes?.induct generalizing values with
  | case1 =>
    obtain rfl := Option.some.inj h
    rfl
  | case2 b₀ b₁ b₂ b₃ rest ih =>
    rw [ofBytes?, Option.map_eq_some_iff] at h
    obtain ⟨later, hlater, rfl⟩ := h
    rw [bytesOf, List.flatMap_cons, ← bytesOf, ih hlater, bytes_ofNat_toNatLE rfl]
    rfl
  | case3 => simp_all [ofBytes?]

end Single

/-! ## Aligned regions -/

namespace Arena

/-- Every region of an arena starts at a multiple of the alignment. -/
def Aligned (arena : Arena) : Prop :=
  ∀ span ∈ arena.regions, alignment ∣ span.start

/-- Regions that are laid out from an aligned position on are aligned. -/
lemma alignment_dvd_start_of_layout {region offset total : Nat} {sizes : List Nat}
    {spans : List Span} (hoffset : alignment ∣ offset)
    (h : layout region offset sizes = .ok (spans, total)) :
    ∀ span ∈ spans, alignment ∣ span.start := by
  induction sizes generalizing region offset spans with
  | nil =>
    cases h
    simp
  | cons size sizes ih =>
    rw [layout] at h
    split at h
    · cases h
    · split at h
      · cases h
      · next later total hlater =>
        cases h
        intro span hspan
        rcases List.mem_cons.mp hspan with rfl | hspan
        · exact hoffset
        · exact ih (alignment_dvd_alignUp _) hlater span hspan

/-- An arena that was allocated is aligned. -/
theorem aligned_of_allocate {sizes : List Nat} {budget : Budget} {arena : Arena}
    (h : allocate sizes budget = .ok arena) : arena.Aligned := by
  unfold allocate at h
  split at h
  · cases h
  · next regions total hlayout =>
    split at h
    · cases h
      exact alignment_dvd_start_of_layout (Nat.dvd_zero _) hlayout
    · cases h

/-- The values in a region of a store that stands at an address in memory, as a cast finds them:
there are none if the region does not start at a multiple of four, or if its length is none. -/
def castSingles? (arena : Arena) (address index : Nat) : Option (List Single) :=
  arena.regions[index]?.bind fun span =>
    if 4 ∣ address + span.start then Single.ofBytes? (arena.store.slice span) else none

/-- In an aligned arena whose store stands at a multiple of the alignment, a cast only fails for the
length of a region. -/
lemma castSingles?_eq {arena : Arena} (h : arena.Aligned) {address : Nat}
    (haddress : alignment ∣ address) (index : Nat) :
    arena.castSingles? address index = (arena.region? index).bind Single.ofBytes? := by
  rw [castSingles?, region?]
  cases hspan : arena.regions[index]? with
  | none => rfl
  | some span =>
    have hstart : alignment ∣ span.start := h span (List.mem_of_getElem? hspan)
    have hfour : 4 ∣ address + span.start :=
      Nat.dvd_trans (by decide : 4 ∣ alignment) (Nat.dvd_add haddress hstart)
    rw [Option.bind_some, if_pos hfour, Option.map_some, Option.bind_some]

end Arena

/-- The arena of a network is aligned. -/
lemma Network.aligned_of_arena {network : Network} {budget : Budget} {arena : Arena}
    (h : network.arena budget = .ok arena) : arena.Aligned := by
  rw [Network.arena, map_eq_ok_iff] at h
  obtain ⟨zeroed, hzeroed, rfl⟩ := h
  obtain ⟨-, hregions⟩ := foldl_fillRegion_layout network (Arena.tiled_of_allocate hzeroed).1
    network.variableTable
  rw [Arena.Aligned, hregions]
  exact Arena.aligned_of_allocate hzeroed

/-- The contents of a variable as float values, as a cast finds them in a store that stands at an
address in memory. -/
def Bound.castSingles (bound : Bound σ) (address : Nat) (v : Variable) :
    Except SessionFault (List Single) := do
  if v.elementType ≠ .float then throw (.typeMismatch v.index v.elementType)
  let _ ← bound.region v
  orFault (bound.arena.castSingles? address v.index) (.typeMismatch v.index v.elementType)

/-- In an aligned arena, checking the address makes no difference. -/
lemma Bound.castSingles_eq {bound : Bound σ} (h : bound.arena.Aligned) {address : Nat}
    (haddress : Arena.alignment ∣ address) (v : Variable) :
    bound.castSingles address v = bound.singles v := by
  rw [castSingles, singles, Arena.castSingles?_eq h haddress, region]
  cases bound.arena.region? v.index <;> rfl

namespace Session

/-- A session with no arena but an aligned one. -/
def Aligned (session : Session σ) : Prop :=
  ∀ bound, session.ready? = some bound → bound.arena.Aligned

/-- The contents of an input or output as float values, as a cast finds them in a store that stands
at an address in memory. -/
def castSingles (session : Session σ) (address : Nat) (side : Side) (index : Nat) :
    Except SessionFault (List Single) := do
  let bound ← session.bound (viewOperation side)
  let v ← bound.argument side index
  bound.castSingles address v

/-- **Casts**: where the store stands at a multiple of the alignment, checking the address makes no
difference. -/
theorem castSingles_eq {session : Session σ} (h : session.Aligned) {address : Nat}
    (haddress : Arena.alignment ∣ address) (side : Side) (index : Nat) :
    session.castSingles address side index = session.readSingles side index := by
  unfold castSingles readSingles
  cases hbound : session.bound (viewOperation side) with
  | error fault => rfl
  | ok bound =>
    have haligned := h bound (bound_eq_ok_iff.mp hbound)
    show (bound.argument side index >>= bound.castSingles address) =
      (bound.argument side index >>= bound.singles)
    rw [funext (Bound.castSingles_eq haligned haddress)]

end Session

/-- Every effect keeps arenas aligned: a network is bound to an arena that was allocated for it, and
no region ever moves. -/
lemma Effect.aligned {session next : Session σ} {journal : List (Event σ)}
    (heffect : Effect session next journal) (h : session.Aligned) : next.Aligned := by
  cases heffect with
  | unchanged | undone => exact h
  | registered => exact h
  | loaded loading descriptor network budget arena _ _ _ harena =>
    rintro _ ⟨rfl⟩
    exact Network.aligned_of_arena harena
  | passed bound readings hready =>
    intro other hother
    obtain rfl := Option.some.inj ((Session.ready?_holding hready _ _).symm.trans hother)
    exact h bound hready
  | written bound v offset bytes hready =>
    intro other hother
    obtain rfl := Option.some.inj ((Session.ready?_holding hready _ _).symm.trans hother)
    rw [Arena.Aligned, Arena.regions_write]
    exact h bound hready
  | freed => rintro _ ⟨⟩

/-- Arenas stay aligned, whatever the host does. -/
lemma Session.aligned_after {session : Session σ} (h : session.Aligned)
    (actions : List (Action σ)) : (session.after actions).Aligned := by
  induction actions generalizing session with
  | nil => exact h
  | cons action actions ih => exact ih ((session.effect_perform action).aligned h)

/-! ## Inputs and outputs of a bound network -/

/-- The inputs or outputs of a network, by index. -/
def Network.listed (network : Network) : Side → List Nat
  | .input => network.inputs
  | .output => network.outputs

/-- What a network lists are variables of it. -/
lemma Network.Consistent.listed_lt {network : Network} (h : network.Consistent) (side : Side) :
    ∀ i ∈ network.listed side, i < network.variableTable.length := by
  cases side with
  | input => exact h.inputs_lt
  | output => exact h.outputs_lt

namespace Bound.Serves

variable {bound : Bound σ} {network : Network} {side : Side} {index i : Nat}

/-- The sides of a bound network are those of its network. -/
lemma arguments_eq (h : bound.Serves network) (side : Side) :
    bound.arguments side = network.select (network.listed side) := by
  cases side with
  | input => exact h.inputs_eq
  | output => exact h.outputs_eq

/-- A side has as many variables as the network lists. -/
lemma length_arguments (h : bound.Serves network) (hconsistent : network.Consistent)
    (side : Side) : (bound.arguments side).length = (network.listed side).length := by
  have hindices := Network.map_index_select hconsistent (hconsistent.listed_lt side)
  rw [h.arguments_eq, ← List.length_map (f := Variable.index), hindices]

/-- Under an index that is listed, the listed variable is found. -/
lemma exists_argument (h : bound.Serves network) (hconsistent : network.Consistent)
    (hi : (network.listed side)[index]? = some i) :
    ∃ v, network.variableTable[i]? = some v ∧ v.index = i ∧ bound.argument side index = .ok v := by
  have hselect := Network.map_some_select (hconsistent.listed_lt side)
  have hfound := congrArg (fun vs : List (Option Variable) => vs[index]?) hselect
  simp only [List.getElem?_map, hi, Option.map_some] at hfound
  obtain ⟨v, hv, hsome⟩ := Option.map_eq_some_iff.mp hfound
  refine ⟨v, hsome.symm, hconsistent.variable_index i v hsome.symm, ?_⟩
  rw [Bound.argument, h.arguments_eq, hv]
  rfl

/-- Under any other index, none is. -/
lemma argument_eq_error (h : bound.Serves network) (hconsistent : network.Consistent)
    (hindex : (network.listed side).length ≤ index) :
    bound.argument side index =
      .error (.indexOutOfRange (.arguments side) index (network.listed side).length) := by
  have hlength := h.length_arguments hconsistent side
  rw [Bound.argument, List.getElem?_eq_none (by rwa [hlength]), hlength]
  rfl

/-- A variable has a region, of its size. -/
lemma region_eq_ok (h : bound.Serves network) (hconsistent : network.Consistent) {v : Variable}
    (hv : network.variableTable[i]? = some v) : bound.region v = .ok (bound.arrays i) := by
  have hi : i < network.variableTable.length := (List.getElem?_eq_some_iff.mp hv).1
  rw [Bound.region, hconsistent.variable_index i v hv, h.region?_eq, if_pos hi]
  rfl

/-- The region of a float variable holds the bytes of as many values as the variable has
elements. -/
lemma exists_singles (h : bound.Serves network) (hconsistent : network.Consistent) {v : Variable}
    (hv : network.variableTable[i]? = some v) (hfloat : v.elementType = .float) :
    ∃ values, bound.singles v = .ok values ∧ values.length = v.elementCount ∧
      Single.bytesOf values = bound.arrays i := by
  have hlength := h.length_arrays hconsistent (List.mem_of_getElem? hv)
  rw [hconsistent.variable_index i v hv, Variable.byteSize, Shape.byteSize, hfloat] at hlength
  obtain ⟨values, hvalues, hcount⟩ := Single.exists_ofBytes? hlength
  refine ⟨values, ?_, hcount, Single.bytesOf_of_ofBytes? hvalues⟩
  rw [Bound.singles, if_neg (not_not.mpr hfloat), h.region_eq_ok hconsistent hv]
  show orFault (Single.ofBytes? (bound.arrays i)) _ = _
  rw [hvalues]
  rfl

end Bound.Serves

/-- A variable with elements of another type has no float values. -/
lemma Bound.singles_of_ne_float (bound : Bound σ) {v : Variable} (hfloat : v.elementType ≠ .float) :
    bound.singles v = .error (.typeMismatch v.index v.elementType) := by
  rw [singles, if_pos hfloat]
  rfl

/-! ## Sessions -/

namespace Session

variable {session : Session σ}

/-- What a host sees of an input or output that is there: its variable, sizes that agree with what
is read, and float values exactly if the variable has such elements. The values then are as many as
the elements and stand for the bytes that are read. -/
structure Shows (session : Session σ) (side : Side) (index : Nat) (v : Variable) : Prop where
  argument_eq : session.argument side index = .ok v
  elementCount_eq : session.elementCount side index = .ok v.elementCount
  byteSize_eq : session.byteSize side index = .ok (v.elementCount * v.elementType.byteSize)
  contents : ∃ bytes, session.read side index = .ok bytes ∧
    bytes.length = v.elementCount * v.elementType.byteSize ∧
    (v.elementType = .float → ∃ values, session.readSingles side index = .ok values ∧
      values.length = v.elementCount ∧ Single.bytesOf values = bytes)
  mismatch : v.elementType ≠ .float →
    session.readSingles side index = .error (.typeMismatch v.index v.elementType)
  writable : ∀ offset bytes, ∃ next, session.write side index offset bytes = .ok next

/-- What a host is told about an input or output that is not there: the index, and how many there
are. -/
structure Lacks (session : Session σ) (side : Side) (index count : Nat) : Prop where
  argument_eq : session.argument side index =
    .error (.indexOutOfRange (.arguments side) index count)
  elementCount_eq : session.elementCount side index =
    .error (.indexOutOfRange (.arguments side) index count)
  byteSize_eq : session.byteSize side index =
    .error (.indexOutOfRange (.arguments side) index count)
  read_eq : session.read side index = .error (.indexOutOfRange (.arguments side) index count)
  readSingles_eq : session.readSingles side index =
    .error (.indexOutOfRange (.arguments side) index count)
  write_eq : ∀ offset bytes, session.write side index offset bytes =
    .error (.indexOutOfRange (.arguments side) index count)

/-- A session through which a host sees the inputs and outputs of a network: those that the network
lists, and no others. -/
structure Exposes (session : Session σ) (network : Network) : Prop where
  count_eq : ∀ side, session.count side = .ok (network.listed side).length
  shows : ∀ side index i, (network.listed side)[index]? = some i →
    ∃ v, network.variableTable[i]? = some v ∧ v.Countable ∧ session.Shows side index v
  lacks : ∀ side index, (network.listed side).length ≤ index →
    session.Lacks side index (network.listed side).length
  /-- Float values can be written to an input exactly if they can be read. -/
  writable_iff : ∀ index values, (∃ next, session.writeInputSingles index values = .ok next) ↔
    ∃ found, session.readSingles .input index = .ok found
  /-- A cast never fails for the address of the store, -/
  cast_eq : ∀ address, Arena.alignment ∣ address → ∀ side index,
    session.castSingles address side index = session.readSingles side index
  /-- nor for the length of a region: the elements of a float variable can be viewed. -/
  cast_ne : ∀ side index i, session.readSingles side index ≠ .error (.typeMismatch i .float)

section

variable {bound : Bound σ} {network : Network} {side : Side} {index i : Nat}

/-- The contents of a listed variable are read. -/
lemma read_eq_ok (hheld : session.ready? = some bound) (h : bound.Serves network)
    (hconsistent : network.Consistent) (hi : (network.listed side)[index]? = some i) :
    session.read side index = .ok (bound.arrays i) := by
  obtain ⟨v, hv, -, hargument⟩ := h.exists_argument hconsistent hi
  rw [read, bound_eq_ok_iff.mpr hheld]
  show (bound.argument side index >>= bound.region) = _
  rw [hargument]
  exact h.region_eq_ok hconsistent hv

/-- The contents of a listed variable can be written to. -/
lemma write_eq_ok (hheld : session.ready? = some bound) (h : bound.Serves network)
    (hconsistent : network.Consistent) (hi : (network.listed side)[index]? = some i)
    (offset : Nat) (bytes : Bytes) :
    session.write side index offset bytes = .ok { session with
      held := some { bound with arena := bound.arena.write i offset bytes } } := by
  obtain ⟨v, hv, rfl, hargument⟩ := h.exists_argument hconsistent hi
  rw [write, bound_eq_ok_iff.mpr hheld]
  show (bound.argument side index >>= fun v => bound.region v >>= fun _ => _) = _
  rw [hargument]
  show (bound.region v >>= fun _ => _) = _
  rw [h.region_eq_ok hconsistent hv]
  rfl

/-- The float values of a session that is ready are those of the bound network. -/
lemma readSingles_of_ready (hheld : session.ready? = some bound) (side : Side) (index : Nat) :
    session.readSingles side index = (bound.argument side index >>= bound.singles) := by
  rw [readSingles, bound_eq_ok_iff.mpr hheld]
  rfl

/-- The float values of a listed float variable are read. -/
lemma exists_readSingles (hheld : session.ready? = some bound) (h : bound.Serves network)
    (hconsistent : network.Consistent) (hi : (network.listed side)[index]? = some i) {v : Variable}
    (hv : network.variableTable[i]? = some v) (hfloat : v.elementType = .float) :
    ∃ values, session.readSingles side index = .ok values ∧ values.length = v.elementCount ∧
      Single.bytesOf values = bound.arrays i := by
  obtain ⟨found, hfound, -, hargument⟩ := h.exists_argument hconsistent hi
  obtain rfl := Option.some.inj (hfound.symm.trans hv)
  rw [readSingles_of_ready hheld, hargument]
  exact h.exists_singles hconsistent hv hfloat

/-- A listed variable is shown. -/
theorem shows_of_ready (hheld : session.ready? = some bound) (h : bound.Serves network)
    (hconsistent : network.Consistent) (hi : (network.listed side)[index]? = some i) :
    ∃ v, network.variableTable[i]? = some v ∧ session.Shows side index v := by
  obtain ⟨v, hv, hindex, hargument⟩ := h.exists_argument hconsistent hi
  have hfound : session.argument side index = .ok v :=
    (argument_of_ready hheld side index).trans hargument
  have hlength := h.length_arrays hconsistent (List.mem_of_getElem? hv)
  rw [hindex] at hlength
  refine ⟨v, hv, ?_⟩
  exact
    { argument_eq := hfound
      elementCount_eq := by
        rw [elementCount, hfound]
        rfl
      byteSize_eq := by
        rw [byteSize, hfound]
        rfl
      contents := ⟨_, read_eq_ok hheld h hconsistent hi, hlength,
        exists_readSingles hheld h hconsistent hi hv⟩
      mismatch := by
        rw [readSingles_of_ready hheld, hargument]
        exact bound.singles_of_ne_float
      writable := fun offset bytes =>
        ⟨_, write_eq_ok hheld h hconsistent hi offset bytes⟩ }

/-- Any other index is refused. -/
theorem lacks_of_ready (hheld : session.ready? = some bound) (h : bound.Serves network)
    (hconsistent : network.Consistent) (hindex : (network.listed side).length ≤ index) :
    session.Lacks side index (network.listed side).length := by
  have hargument := h.argument_eq_error hconsistent hindex
  have hfound := (argument_of_ready hheld side index).trans hargument
  exact
    { argument_eq := hfound
      elementCount_eq := by
        rw [elementCount, hfound]
        rfl
      byteSize_eq := by
        rw [byteSize, hfound]
        rfl
      read_eq := by
        rw [read, bound_eq_ok_iff.mpr hheld]
        show (bound.argument side index >>= bound.region) = _
        rw [hargument]
        rfl
      readSingles_eq := by
        rw [readSingles_of_ready hheld, hargument]
        rfl
      write_eq := by
        intro offset bytes
        rw [write, bound_eq_ok_iff.mpr hheld]
        show (bound.argument side index >>= fun v => bound.region v >>= fun _ => _) = _
        rw [hargument]
        rfl }

end

/-- A session that is ready exposes the network that it serves. -/
theorem exposes_of_ready {bound : Bound σ} {network : Network}
    (hheld : session.ready? = some bound) (h : bound.Serves network)
    (hconsistent : network.Consistent) (hrange : network.InRange) (haligned : session.Aligned) :
    session.Exposes network where
  count_eq side := by rw [count_of_ready hheld, h.length_arguments hconsistent]
  shows side index i hi := by
    obtain ⟨v, hv, hshows⟩ := shows_of_ready hheld h hconsistent hi
    exact ⟨v, hv, hrange.countable v (List.mem_of_getElem? hv), hshows⟩
  lacks side index hindex := lacks_of_ready hheld h hconsistent hindex
  writable_iff index values := by
    constructor
    · rintro ⟨next, hnext⟩
      obtain ⟨found, hfound, -⟩ := bind_eq_ok_iff.mp hnext
      exact ⟨found, hfound⟩
    · rintro ⟨found, hfound⟩
      rw [writeInputSingles, hfound]
      show ∃ next, session.write .input index 0 (Single.bytesOf values) = .ok next
      rcases Nat.lt_or_ge index (network.listed .input).length with hlt | hge
      · exact ⟨_, write_eq_ok hheld h hconsistent (List.getElem?_eq_getElem hlt) _ _⟩
      · rw [(lacks_of_ready hheld h hconsistent hge).readSingles_eq] at hfound
        cases hfound
  cast_eq address haddress side index := castSingles_eq haligned haddress side index
  cast_ne side index i hcast := by
    rcases Nat.lt_or_ge index (network.listed side).length with hlt | hge
    · obtain ⟨v, -, hshows⟩ :=
        shows_of_ready hheld h hconsistent (List.getElem?_eq_getElem hlt)
      by_cases hfloat : v.elementType = .float
      · obtain ⟨bytes, -, -, hsingles⟩ := hshows.contents
        obtain ⟨values, hvalues, -⟩ := hsingles hfloat
        rw [hvalues] at hcast
        cases hcast
      · rw [hshows.mismatch hfloat, Except.error.injEq, SessionFault.typeMismatch.injEq] at hcast
        exact hfloat hcast.2
    · rw [(lacks_of_ready hheld h hconsistent hge).readSingles_eq] at hcast
      cases hcast

/-- A session that is ready stays so exactly until it is freed. -/
theorem stage_after_eq_ready_iff (h : session.stage = .ready) (actions : List (Action σ)) :
    (session.after actions).stage = .ready ↔ Action.free ∉ actions := by
  induction actions generalizing session with
  | nil => simp [after, h]
  | cons action actions ih =>
    have hmoves := session.moves_perform action
    rw [h] at hmoves
    rw [after, List.mem_cons, not_or]
    by_cases hfree : action = .free
    · subst hfree
      have hfreed : (session.perform .free).session.stage = .freed := by
        simp only [perform, replied, free, h]
      rw [(after_of_freed hfreed actions).1, hfreed]
      simp
    · have hnext : (session.perform action).session.stage = .ready := by
        generalize (session.perform action).answer.fault?.isNone = succeeds at hmoves
        generalize (session.perform action).session.stage = next at hmoves ⊢
        cases hmoves with
        | freed => exact absurd rfl hfree
        | failed | stays => rfl
      rw [ih hnext]
      simp [Ne.symm hfree]

/-- **Views**: once a descriptor was loaded, the session stays ready until it is freed, and as long
as it does, whatever the host writes and whichever passes fail, it exposes the network that the
descriptor was read as: the counts, variables and sizes are the same all the time and agree with
what is read, float values are a cast of the bytes that never fails for address or length, and every
index that is not listed is refused.

**Proof sketch.** The session serves the network as long as it is ready (`serves_after`), so each
side has the listed variables and each of these a region of its size. The regions were laid out at
multiples of the alignment and never move (`aligned_after`), and sizes are exact because the network
was read (`Network.inRange_of_decode`). -/
theorem exposed_after {loading : Nat} {descriptor : Bytes}
    (hload : (session.load loading descriptor).result = .ok ()) :
    ∃ network, Network.decode descriptor = .ok network ∧
      ∀ actions : List (Action σ),
        let current := (session.load loading descriptor).session.after actions
        (current.stage = .ready ↔ Action.free ∉ actions) ∧
          (current.stage = .ready → current.Exposes network) := by
  obtain ⟨network, first, hdecode, hfirst, hserves⟩ := ready_of_load hload
  have hconsistent := Network.consistent_of_decode hdecode
  have haligned : session.Aligned := by
    intro bound hbound
    rw [load, stage_of_ready hbound] at hload
    cases hload
  refine ⟨network, hdecode, fun actions => ?_⟩
  intro current
  constructor
  · exact stage_after_eq_ready_iff (stage_of_ready hfirst) actions
  · intro hready
    obtain ⟨bound, hbound⟩ := ((coherent_of_ready hfirst).after actions).exists_ready hready
    have hserved := (serves_after (serves_of_ready hfirst hserves) hconsistent actions).ready bound
      hbound
    exact exposes_of_ready hbound hserved hconsistent (Network.inRange_of_decode hdecode)
      (aligned_after ((session.effect_load loading descriptor).aligned haligned) actions)

/-- Two float values and three signs. The values are an input and an output, the signs an output. -/
def mixed : Draft where
  buffers := [2, 3]
  variableTable :=
    [{ id := 0, dims := [2], elementType := .float, backing := .buffer 0 },
     { id := 1, dims := [3], elementType := .sign, backing := .buffer 1 }]
  functions := [{ op := .relu, inputs := [0], outputs := [1] }]
  inputs := [0]
  outputs := [1, 0]

/-- Values that are written to the input are read from the second output, and a pass copies the
first bytes of them to the signs, which cannot be viewed as values. There is no second input. -/
theorem exposed_after_mixed :
    let current := (relaySession.load 0 mixed.encode).session.after
      [.writeSingles 0 [.zero, .one], .write .output 1 2 [5], .forward id]
    ∃ network, Network.decode mixed.encode = .ok network ∧ current.stage = .ready ∧
      current.Exposes network ∧ network.listed .output = [1, 0] ∧
      current.read .input 0 = .ok [0, 0, 5, 0, 0, 0, 128, 63] ∧
      current.readSingles .output 1 = .ok [⟨0x50000⟩, .one] ∧
      current.read .output 0 = .ok [0, 0, 5] ∧
      current.readSingles .output 0 = .error (.typeMismatch 1 .sign) ∧
      current.elementCount .input 1 = .error (.indexOutOfRange (.arguments .input) 1 1) := by
  intro current
  have hload : (relaySession.load 0 mixed.encode).result = .ok () := by decide +kernel
  obtain ⟨network, hdecode, hcurrent⟩ := exposed_after hload
  obtain ⟨hready, hexposes⟩ := hcurrent
    [.writeSingles 0 [.zero, .one], .write .output 1 2 [5], .forward id]
  have hstage : current.stage = .ready := hready.mpr (by simp)
  have houtputs : (Network.decode mixed.encode).map (fun network => network.listed .output) =
      .ok [1, 0] := by decide +kernel
  rw [hdecode, Except.map, Except.ok.injEq] at houtputs
  exact ⟨network, hdecode, hstage, hexposes hstage, houtputs, by decide +kernel, by decide +kernel,
    by decide +kernel, by decide +kernel, by decide +kernel⟩

end Session

end Inference
