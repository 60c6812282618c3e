import Inference.Proofs.Memory.Independence
import Inference.Proofs.Session.Views

set_option autoImplicit false
set_option relaxedAutoImplicit false

/-!
# Views that share a variable

The inputs and outputs of a network are lists of variables, and a variable can stand in them more
than once. A host that writes through one entry changes the variable, so it is seen through every
entry for that variable and through no other one. It makes no difference where the descriptor says
that the data of a variable lives: two variables may name one buffer or one block of initial data,
and still each has a region of its own.

## Main definitions

* `Writing` — bytes or float values that a host writes through an input or output.
* `Session.written` — a session after some writings.
* `Writing.patch?`, `latest?` — what a writing does to the variables of a network, and the latest
  byte that was written to a position of one.
* `Session.Sees` — whether what is read through one entry can be changed through another.
* `Session.Remembers` — a session that shows what was written to each variable.

## Main results

* `Single.bytesOf_overlay` — changing some values changes their bytes and no others.
* `Session.perform_writing` — a writing patches one variable, or none.
* `Bound.Serves.arrays_written` — so do writings, one after another.
* `Session.remembers_after` — whatever happened after loading, a session that is ready shows the
  latest bytes that were written to each variable.
-/

namespace Inference

variable {σ : Type}

/-! ## Changing values -/

/-- A list with new entries laid over it from a position on, as far as they fit. -/
def overlay {α : Type} (old : List α) (position : Nat) (new : List α) : List α :=
  old.take position ++ new.take (old.length - position) ++ old.drop (position + new.length)

namespace Single

/-- The bytes of values behind others. -/
lemma bytesOf_append (front back : List Single) :
    bytesOf (front ++ back) = bytesOf front ++ bytesOf back :=
  List.flatMap_append

/-- The bytes of the first values. -/
lemma bytesOf_take (values : List Single) (n : Nat) :
    bytesOf (values.take n) = (bytesOf values).take (n * 4) := by
  have hcut : bytesOf values = bytesOf (values.take n) ++ bytesOf (values.drop n) := by
    rw [← bytesOf_append, List.take_append_drop]
  have hlength : (bytesOf (values.take n)).length = min n values.length * 4 := by
    rw [length_bytesOf, List.length_take]
  rcases Nat.le_total n values.length with hle | hle
  · rw [hcut, List.take_left' (by rw [hlength, Nat.min_eq_left hle])]
  · rw [List.take_of_length_le hle, List.take_of_length_le]
    rw [length_bytesOf]
    omega

/-- The bytes of the other values. -/
lemma bytesOf_drop (values : List Single) (n : Nat) :
    bytesOf (values.drop n) = (bytesOf values).drop (n * 4) := by
  have hcut : bytesOf values = (bytesOf values).take (n * 4) ++ bytesOf (values.drop n) := by
    rw [← bytesOf_take, ← bytesOf_append, List.take_append_drop]
  have hwhole := List.take_append_drop (n * 4) (bytesOf values)
  exact (List.append_cancel_left (hwhole.trans hcut)).symm

/-- Changing some values changes their bytes and no others. -/
theorem bytesOf_overlay (held values : List Single) (position : Nat) :
    bytesOf (overlay held position values) =
      Bytes.overwriteAt (bytesOf held) (position * 4) (bytesOf values) := by
  have hroom : (held.length - position) * 4 = held.length * 4 - position * 4 := by omega
  have hrest : (position + values.length) * 4 = position * 4 + values.length * 4 := by omega
  rw [overlay, bytesOf_append, bytesOf_append, bytesOf_take, bytesOf_take, bytesOf_drop,
    Bytes.overwriteAt, Bytes.overwrite, List.drop_drop, List.length_drop, length_bytesOf,
    length_bytesOf, hroom, hrest, List.append_assoc]

end Single

namespace Bytes

/-- Nothing can be laid over nothing. -/
lemma overwriteAt_nil_left (offset : Nat) (new : Bytes) : overwriteAt [] offset new = [] := by
  have hlength := length_overwriteAt [] offset new
  exact List.length_eq_zero_iff.mp hlength

/-- Contents of the full length replace everything. -/
lemma overwriteAt_zero_of_length_eq {old new : Bytes} (h : new.length = old.length) :
    overwriteAt old 0 new = new := by
  rw [overwriteAt, List.take_zero, List.drop_zero, List.nil_append, overwrite_of_length_eq h]

end Bytes

/-! ## Writings -/

/-- What a host writes through an input or output. -/
inductive Writing where
  /-- Bytes, from an offset on. -/
  | bytes (side : Side) (index offset : Nat) (new : Bytes)
  /-- Float values of an input, from a position on. -/
  | singles (index position : Nat) (values : List Single)

namespace Writing

/-- The action of a writing. Who changes some of the values of an input leaves the others as they
are. -/
def action (writing : Writing) (session : Session σ) : Action σ :=
  match writing with
  | .bytes side index offset new => .write side index offset new
  | .singles index position values =>
    let held := (session.readSingles .input index).toOption.getD []
    .writeSingles index (overlay held position values)

/-- The variable that is written to, by index. -/
def target? (network : Network) : Writing → Option Nat
  | .bytes side index _ _ => (network.listed side)[index]?
  | .singles index _ _ => (network.listed .input)[index]?

/-- What a writing does to the variables of a network: it lays bytes over one of them. A writing is
refused where nothing is listed, and so are float values for elements of another type. -/
def patch? (network : Network) : Writing → Option Patch
  | .bytes side index offset new =>
    (network.listed side)[index]?.map fun i => ⟨i, offset, new⟩
  | .singles index position values =>
    (network.listed .input)[index]?.bind fun i =>
      if network.variableTable[i]?.map Variable.elementType = some .float then
        some ⟨i, position * 4, Single.bytesOf values⟩
      else none

/-- A patch is for the variable that is written to. -/
lemma target?_of_patch? {network : Network} {writing : Writing} {patch : Patch}
    (h : writing.patch? network = some patch) : writing.target? network = some patch.region := by
  cases writing with
  | bytes side index offset new =>
    obtain ⟨i, hi, rfl⟩ := Option.map_eq_some_iff.mp h
    exact hi
  | singles index position values =>
    obtain ⟨i, hi, hpatch⟩ := Option.bind_eq_some_iff.mp h
    split at hpatch
    · obtain rfl := Option.some.inj hpatch
      exact hi
    · cases hpatch

end Writing

/-- A session after some writings. -/
def Session.written (session : Session σ) : List Writing → Session σ
  | [] => session
  | writing :: writings => (session.perform (writing.action session)).session.written writings

/-- The contents of variables with a patch laid over the one that it is for. -/
def Patch.onto (patch : Patch) (arrays : Arrays) : Arrays :=
  Function.update arrays patch.region
    (Bytes.overwriteAt (arrays patch.region) patch.offset patch.bytes)

/-- The byte that a patch has for a position of a variable. -/
def Patch.byte? (patch : Patch) (i k : Nat) : Option UInt8 :=
  if patch.region = i ∧ patch.offset ≤ k then patch.bytes[k - patch.offset]? else none

/-- The byte that was written last to a position of a variable, if any was. -/
def latest? (network : Network) (writings : List Writing) (i k : Nat) : Option UInt8 :=
  (writings.filterMap (Writing.patch? network)).reverse.findSome? fun patch => patch.byte? i k

/-! ## Patches -/

section

variable {arrays : Arrays}

/-- A patch does not change a length. -/
lemma Patch.length_onto (patch : Patch) (i : Nat) :
    (patch.onto arrays i).length = (arrays i).length := by
  rw [onto]
  by_cases hi : i = patch.region
  · subst hi
    rw [Function.update_self, Bytes.length_overwriteAt]
  · rw [Function.update_of_ne hi]

/-- Nor do several. -/
lemma length_foldl_onto (patches : List Patch) (i : Nat) :
    (patches.foldl (fun arrays patch => patch.onto arrays) arrays i).length =
      (arrays i).length := by
  induction patches generalizing arrays with
  | nil => rfl
  | cons patch patches ih => rw [List.foldl_cons, ih, Patch.length_onto]

/-- After a patch, a position has the byte that the patch has for it, or what it had. -/
lemma Patch.getElem?_onto (patch : Patch) {i k : Nat} (hk : k < (arrays i).length) :
    (patch.onto arrays i)[k]? = (patch.byte? i k).or (arrays i)[k]? := by
  rw [onto, byte?]
  by_cases hi : patch.region = i
  · subst hi
    rw [Function.update_self, Bytes.getElem?_overwriteAt]
    by_cases hoffset : patch.offset ≤ k
    · by_cases hbytes : k < patch.offset + patch.bytes.length
      · rw [if_pos ⟨hoffset, hbytes, hk⟩, if_pos ⟨rfl, hoffset⟩,
          List.getElem?_eq_getElem (by omega), Option.some_or]
      · have hnone : patch.bytes[k - patch.offset]? = none :=
          List.getElem?_eq_none (by omega)
        rw [if_neg (by omega), if_pos ⟨rfl, hoffset⟩, hnone, Option.none_or]
    · rw [if_neg (by omega), if_neg (by omega), Option.none_or]
  · rw [Function.update_of_ne (Ne.symm hi), if_neg (by simp [hi]), Option.none_or]

/-- After patches, a position has the byte that the latest of them has for it that has one, or what
it had. -/
theorem getElem?_foldl_onto (patches : List Patch) {i k : Nat} (hk : k < (arrays i).length) :
    (patches.foldl (fun arrays patch => patch.onto arrays) arrays i)[k]? =
      (patches.reverse.findSome? fun patch => patch.byte? i k).or (arrays i)[k]? := by
  induction patches using List.reverseRecOn with
  | nil => rfl
  | append_singleton patches patch ih =>
    have hlength : (patches.foldl (fun arrays patch => patch.onto arrays) arrays i).length =
        (arrays i).length := length_foldl_onto patches i
    rw [List.foldl_append, List.foldl_cons, List.foldl_nil, Patch.getElem?_onto patch (by omega),
      ih, List.reverse_append, List.reverse_singleton, List.singleton_append, List.findSome?_cons]
    cases patch.byte? i k <;> rfl

end

/-- A variable that nothing was written to has no latest byte. -/
lemma latest?_eq_none {network : Network} {writings : List Writing} {i : Nat}
    (h : ∀ writing ∈ writings, writing.target? network ≠ some i) (k : Nat) :
    latest? network writings i k = none := by
  rw [latest?, List.findSome?_eq_none_iff]
  intro patch hpatch
  rw [List.mem_reverse, List.mem_filterMap] at hpatch
  obtain ⟨writing, hmem, hwriting⟩ := hpatch
  have htarget := h writing hmem
  rw [Writing.target?_of_patch? hwriting] at htarget
  rw [Patch.byte?, if_neg fun hregion => htarget (congrArg some hregion.1)]

/-! ## Writing through a session -/

/-- Writing to the region of a variable patches it. -/
lemma Bound.Serves.arrays_write {bound : Bound σ} {network : Network} (h : bound.Serves network)
    (i offset : Nat) (new : Bytes) :
    Bound.arrays { bound with arena := bound.arena.write i offset new } =
      Patch.onto ⟨i, offset, new⟩ bound.arrays := by
  rw [← (h.after_write i offset new).arrays_split, ← h.arrays_split, Arena.split_write h.tiled,
    Patch.onto]
  funext j
  simp only [Contents.arrays, List.getElem?_modify]
  by_cases hj : j = i
  · subst hj
    rw [Function.update_self]
    cases bound.arena.split[j]? with
    | none => exact (Bytes.overwriteAt_nil_left _ _).symm
    | some old => exact congrArg (fun new => (some new).getD []) (if_pos rfl)
  · rw [Function.update_of_ne hj]
    simp only [if_neg (Ne.symm hj), Option.map_eq_map, Option.map_id', Contents.arrays]

namespace Session

variable {session : Session σ} {bound : Bound σ} {network : Network}

/-- Values that are laid over those of a float input, the others being left as they are, patch the
variable. -/
lemma exists_writeInputSingles (hheld : session.ready? = some bound) (h : bound.Serves network)
    (hconsistent : network.Consistent) {index i : Nat}
    (hi : (network.listed .input)[index]? = some i)
    (hfloat : network.variableTable[i]?.map Variable.elementType = some .float) (position : Nat)
    (values : List Single) :
    ∃ held next, session.readSingles .input index = .ok held ∧
      session.writeInputSingles index (overlay held position values) =
        .ok { session with held := some next } ∧ next.Serves network ∧
      next.arrays = Patch.onto ⟨i, position * 4, Single.bytesOf values⟩ bound.arrays := by
  obtain ⟨v, hv, hfloat⟩ := Option.map_eq_some_iff.mp hfloat
  obtain ⟨held, hread, -, hbytes⟩ := exists_readSingles hheld h hconsistent hi hv hfloat
  refine ⟨held, _, hread, ?_, h.after_write i 0 (Single.bytesOf (overlay held position values)), ?_⟩
  · rw [writeInputSingles, hread]
    exact write_eq_ok hheld h hconsistent hi 0 _
  · -- all values are written, but only some of the bytes change
    have hwhole : Bytes.overwriteAt (bound.arrays i) 0
        (Single.bytesOf (overlay held position values)) =
          Bytes.overwriteAt (bound.arrays i) (position * 4) (Single.bytesOf values) := by
      rw [Single.bytesOf_overlay, hbytes]
      exact Bytes.overwriteAt_zero_of_length_eq (Bytes.length_overwriteAt _ _ _)
    rw [h.arrays_write, Patch.onto, Patch.onto]
    exact congrArg (Function.update bound.arrays i) hwhole

/-- **Writings**: a writing lays its patch over the contents of the variables, or leaves them if it
has none. -/
theorem perform_writing (hheld : session.ready? = some bound) (h : bound.Serves network)
    (hconsistent : network.Consistent) (writing : Writing) :
    ∃ next, (session.perform (writing.action session)).session.ready? = some next ∧
      next.Serves network ∧ next.arrays =
        (writing.patch? network).elim bound.arrays fun patch => patch.onto bound.arrays := by
  have hkept {fault : SessionFault} {result : Except SessionFault (Session σ)}
      (hresult : result = .error fault) :
      (session.updated result).session.ready? = some bound := by
    rw [hresult]
    exact hheld
  cases writing with
  | bytes side index offset new =>
    cases hi : (network.listed side)[index]? with
    | none =>
      have hlacks := lacks_of_ready hheld h hconsistent (List.getElem?_eq_none_iff.mp hi)
      refine ⟨bound, hkept (hlacks.write_eq offset new), h, ?_⟩
      rw [Writing.patch?, hi]
      rfl
    | some i =>
      refine ⟨{ bound with arena := bound.arena.write i offset new }, ?_,
        h.after_write i offset new, ?_⟩
      · rw [Writing.action, perform, write_eq_ok hheld h hconsistent hi]
        exact ready?_holding hheld _ _
      · rw [Writing.patch?, hi]
        exact h.arrays_write i offset new
  | singles index position values =>
    cases hi : (network.listed .input)[index]? with
    | none =>
      have hlacks := lacks_of_ready hheld h hconsistent (List.getElem?_eq_none_iff.mp hi)
      have hrefused (given : List Single) : session.writeInputSingles index given =
          .error (.indexOutOfRange (.arguments .input) index (network.listed .input).length) := by
        rw [writeInputSingles, hlacks.readSingles_eq]
        rfl
      refine ⟨bound, hkept (hrefused _), h, ?_⟩
      rw [Writing.patch?, hi]
      rfl
    | some i =>
      by_cases hfloat : network.variableTable[i]?.map Variable.elementType = some .float
      · obtain ⟨held, next, hread, hwrite, hserves, harrays⟩ :=
          exists_writeInputSingles hheld h hconsistent hi hfloat position values
        refine ⟨next, ?_, hserves, ?_⟩
        · simp only [Writing.action, hread, Except.toOption, Option.getD_some, perform, hwrite]
          exact ready?_holding hheld _ _
        · rw [harrays, Writing.patch?, hi, Option.bind_some, if_pos hfloat]
          rfl
      · obtain ⟨v, hv, hshows⟩ := shows_of_ready hheld h hconsistent hi
        have hmismatch : v.elementType ≠ .float := by
          intro hv'
          rw [hv, Option.map_some, hv'] at hfloat
          exact hfloat rfl
        have hrefused (given : List Single) : session.writeInputSingles index given =
            .error (.typeMismatch v.index v.elementType) := by
          rw [writeInputSingles, hshows.mismatch hmismatch]
          rfl
        refine ⟨bound, hkept (hrefused _), h, ?_⟩
        rw [Writing.patch?, hi, Option.bind_some, if_neg hfloat]
        rfl

/-- Writings lay their patches over the contents of the variables, one after another. -/
theorem arrays_written (hheld : session.ready? = some bound) (h : bound.Serves network)
    (hconsistent : network.Consistent) (writings : List Writing) :
    ∃ next, (session.written writings).ready? = some next ∧ next.Serves network ∧
      next.arrays = (writings.filterMap (Writing.patch? network)).foldl
        (fun arrays patch => patch.onto arrays) bound.arrays := by
  induction writings generalizing session bound with
  | nil => exact ⟨bound, hheld, h, rfl⟩
  | cons writing writings ih =>
    obtain ⟨next, hnext, hserves, harrays⟩ := perform_writing hheld h hconsistent writing
    obtain ⟨last, hlast, hserves', harrays'⟩ := ih hnext hserves
    refine ⟨last, hlast, hserves', ?_⟩
    rw [harrays', harrays, List.filterMap_cons]
    cases writing.patch? network <;> rfl

/-! ## What is read -/

/-- Whether what is read through one entry can be changed by writing through another one. -/
def Sees (session : Session σ) (side : Side) (index : Nat) (side' : Side) (index' : Nat) : Prop :=
  ∃ offset new next, session.write side' index' offset new = .ok next ∧
    next.read side index ≠ session.read side index

/-- A session that shows what was written to each variable, through every entry for it, and nothing
else. -/
structure Remembers (session : Session σ) (network : Network) : Prop where
  /-- What is read has the latest byte written at each position, and otherwise the byte that was
  there before. Float values stand for these bytes. -/
  latest : ∀ (writings : List Writing) side index i, (network.listed side)[index]? = some i →
    ∃ old new, session.read side index = .ok old ∧
      (session.written writings).read side index = .ok new ∧ new.length = old.length ∧
      (∀ k < old.length, new[k]? = (latest? network writings i k).or old[k]?) ∧
      (network.variableTable[i]?.map Variable.elementType = some .float →
        ∃ values, (session.written writings).readSingles side index = .ok values ∧
          Single.bytesOf values = new)
  /-- Writing to other variables makes no difference. -/
  untouched : ∀ (writings : List Writing) side index i,
    (network.listed side)[index]? = some i →
      (∀ writing ∈ writings, writing.target? network ≠ some i) →
        (session.written writings).read side index = session.read side index
  /-- Entries for one variable always show the same. -/
  shared : ∀ (writings : List Writing) side index side' index' i,
    (network.listed side)[index]? = some i → (network.listed side')[index']? = some i →
      (session.written writings).read side index = (session.written writings).read side' index'
  /-- An entry sees what is written through another one exactly if they are for one variable,
  unless that has no bytes. -/
  sees_iff : ∀ (writings : List Writing) side index side' index' i i',
    (network.listed side)[index]? = some i → (network.listed side')[index']? = some i' →
      ((session.written writings).Sees side index side' index' ↔
        i = i' ∧ session.read side index ≠ .ok [])

/-- A session that is ready shows what was written to each variable. -/
theorem remembers_of_ready (hheld : session.ready? = some bound) (h : bound.Serves network)
    (hconsistent : network.Consistent) : session.Remembers network := by
  have hlatest (writings : List Writing) (side : Side) (index i : Nat)
      (hi : (network.listed side)[index]? = some i) :
      ∃ last : Bound σ, (session.written writings).ready? = some last ∧ last.Serves network ∧
        (last.arrays i).length = (bound.arrays i).length ∧
        ∀ k < (bound.arrays i).length,
          (last.arrays i)[k]? = (latest? network writings i k).or (bound.arrays i)[k]? := by
    obtain ⟨last, hlast, hserves, harrays⟩ := arrays_written hheld h hconsistent writings
    refine ⟨last, hlast, hserves, ?_, fun k hk => ?_⟩
    · rw [harrays, length_foldl_onto]
    · rw [harrays, getElem?_foldl_onto _ hk, latest?]
  refine
    { latest := fun writings side index i hi => ?_
      untouched := fun writings side index i hi htargets => ?_
      shared := fun writings side index side' index' i hi hi' => ?_
      sees_iff := fun writings side index side' index' i i' hi hi' => ?_ }
  · obtain ⟨last, hlast, hserves, hlength, hbytes⟩ := hlatest writings side index i hi
    refine ⟨_, _, read_eq_ok hheld h hconsistent hi, read_eq_ok hlast hserves hconsistent hi,
      hlength, hbytes, fun hfloat => ?_⟩
    obtain ⟨v, hv, hfloat⟩ := Option.map_eq_some_iff.mp hfloat
    obtain ⟨values, hvalues, -, hheld⟩ := exists_readSingles hlast hserves hconsistent hi hv hfloat
    exact ⟨values, hvalues, hheld⟩
  · obtain ⟨last, hlast, hserves, hlength, hbytes⟩ := hlatest writings side index i hi
    have hsame : last.arrays i = bound.arrays i := by
      apply List.ext_getElem?
      intro k
      rcases Nat.lt_or_ge k (bound.arrays i).length with hk | hk
      · rw [hbytes k hk, latest?_eq_none htargets, Option.none_or]
      · rw [List.getElem?_eq_none hk, List.getElem?_eq_none (by omega)]
    rw [read_eq_ok hlast hserves hconsistent hi, read_eq_ok hheld h hconsistent hi, hsame]
  · obtain ⟨last, hlast, hserves, -⟩ := hlatest writings side index i hi
    rw [read_eq_ok hlast hserves hconsistent hi, read_eq_ok hlast hserves hconsistent hi']
  · obtain ⟨last, hlast, hserves, hlength, -⟩ := hlatest writings side index i hi
    have hwrite := write_eq_ok hlast hserves hconsistent hi'
    -- what is read after one more writing
    have hread (offset : Nat) (new : Bytes) :
        Session.read { session.written writings with
            held := some { last with arena := last.arena.write i' offset new } } side index =
          .ok (Patch.onto ⟨i', offset, new⟩ last.arrays i) := by
      rw [read_eq_ok (ready?_holding hlast _ _) (hserves.after_write i' offset new) hconsistent hi,
        hserves.arrays_write]
    rw [read_eq_ok hheld h hconsistent hi, Ne, Except.ok.injEq]
    constructor
    · rintro ⟨offset, new, next, hnext, hsees⟩
      obtain rfl := Except.ok.inj ((hwrite offset new).symm.trans hnext)
      rw [hread, read_eq_ok hlast hserves hconsistent hi, Ne, Except.ok.injEq] at hsees
      refine ⟨?_, fun hempty => hsees ?_⟩
      · by_contra hne
        exact hsees (Function.update_of_ne hne _ _)
      · have hnone : last.arrays i = [] := by
          rw [← List.length_eq_zero_iff, hlength, hempty, List.length_nil]
        rw [hnone, ← List.length_eq_zero_iff, Patch.length_onto, hnone, List.length_nil]
    · rintro ⟨rfl, hsome⟩
      obtain ⟨byte, rest, hheld⟩ : ∃ byte rest, last.arrays i = byte :: rest := by
        apply List.exists_cons_of_length_pos
        rw [hlength]
        exact List.length_pos_of_ne_nil hsome
      refine ⟨0, [byte + 1], _, hwrite 0 _, ?_⟩
      rw [hread, read_eq_ok hlast hserves hconsistent hi, Ne, Except.ok.injEq, Patch.onto,
        Function.update_self, hheld]
      intro hsame
      have hbyte : byte + 1 = byte := (List.cons.inj hsame).1
      exact absurd hbyte (by simp)

/-- **Sharing**: once a descriptor was loaded, whatever happened since then, a session that is ready
shows what a host writes through its inputs and outputs: reading gives the latest byte that was
written to each position of the variable, through whichever entry for it, and the byte that was
there before if none was. Two entries see what is written through each other exactly if they are for
one variable.

**Proof sketch.** The session serves the network (`serves_after`), so there is one region for each
variable. A writing goes through the list of its side to the region of one variable and patches that
one only (`perform_writing`); so after some writings each region has its own patches laid over it,
one after another (`arrays_written`), of which the latest shows (`getElem?_foldl_onto`). -/
theorem remembers_after {loading : Nat} {descriptor : Bytes}
    (hload : (session.load loading descriptor).result = .ok ()) :
    ∃ network, Network.decode descriptor = .ok network ∧ ∀ actions : List (Action σ),
      ((session.load loading descriptor).session.after actions).stage = .ready →
        ((session.load loading descriptor).session.after actions).Remembers network := by
  obtain ⟨network, first, hdecode, hfirst, hserves⟩ := ready_of_load hload
  have hconsistent := Network.consistent_of_decode hdecode
  refine ⟨network, hdecode, fun actions hready => ?_⟩
  obtain ⟨bound, hbound⟩ := ((coherent_of_ready hfirst).after actions).exists_ready hready
  exact remembers_of_ready hbound ((serves_after (serves_of_ready hfirst hserves) hconsistent
    actions).ready bound hbound) hconsistent

/-- A descriptor of two float values in one buffer and two pairs of signs with one block of initial
data. The first value and the first pair are both inputs and outputs. -/
def sharing : Bytes :=
  let draft : Draft :=
    { buffers := [1]
      variableTable :=
        [{ id := 0, dims := [1], elementType := .float, backing := .buffer 0 },
         { id := 1, dims := [1], elementType := .float, backing := .buffer 0 },
         { id := 2, dims := [2], elementType := .sign, backing := .data [1, 2] },
         { id := 3, dims := [2], elementType := .sign, backing := .data [] }]
      inputs := [0, 1, 2]
      outputs := [3, 0, 2] }
  -- the entry of the second pair refers to the data of the first one
  draft.encode.set 238 8

/-- Entries for one variable see what is written through each other. Entries for two variables do
not, though these share a buffer or a block. -/
theorem remembers_after_sharing :
    let start := ((Session.new {} .empty : Session Nat).load 0 sharing).session
    let last := start.written [.singles 0 0 [.one], .bytes .output 2 1 [7], .singles 2 0 [.one]]
    ∃ network, Network.decode sharing = .ok network ∧ start.Remembers network ∧
      network.variableTable.map Variable.storage =
        [.buffer 0, .buffer 0, .parameter 8, .parameter 8] ∧
      start.Sees .output 1 .input 0 ∧ start.Sees .input 2 .output 2 ∧
      ¬start.Sees .input 1 .input 0 ∧ ¬start.Sees .output 0 .output 2 ∧
      last.readSingles .output 1 = .ok [.one] ∧ last.readSingles .input 1 = .ok [.zero] ∧
      last.read .input 2 = .ok [1, 7] ∧ last.read .output 0 = .ok [1, 2] := by
  intro start last
  have hload : ((Session.new {} .empty : Session Nat).load 0 sharing).result = .ok () := by
    decide +kernel
  obtain ⟨network, hdecode, hremembers⟩ := remembers_after hload
  have hstart : start.Remembers network := hremembers [] (by decide +kernel)
  have htables : (Network.decode sharing).map (fun network =>
      (network.inputs, network.outputs, network.variableTable.map Variable.storage)) =
        .ok ([0, 1, 2], [3, 0, 2], [.buffer 0, .buffer 0, .parameter 8, .parameter 8]) := by
    decide +kernel
  rw [hdecode, Except.map, Except.ok.injEq, Prod.mk.injEq, Prod.mk.injEq] at htables
  obtain ⟨hinputs, houtputs, hstorage⟩ := htables
  have hlisted : network.listed .input = [0, 1, 2] := hinputs
  have hlisted' : network.listed .output = [3, 0, 2] := houtputs
  refine ⟨network, hdecode, hstart, hstorage, ?_, ?_, ?_, ?_, by decide +kernel, by decide +kernel,
    by decide +kernel, by decide +kernel⟩
  · exact (hstart.sees_iff [] .output 1 .input 0 0 0 (by rw [hlisted']; rfl)
      (by rw [hlisted]; rfl)).mpr ⟨rfl, by decide +kernel⟩
  · exact (hstart.sees_iff [] .input 2 .output 2 2 2 (by rw [hlisted]; rfl)
      (by rw [hlisted']; rfl)).mpr ⟨rfl, by decide +kernel⟩
  · intro hsees
    have hsame := ((hstart.sees_iff [] .input 1 .input 0 1 0 (by rw [hlisted]; rfl)
      (by rw [hlisted]; rfl)).mp hsees).1
    cases hsame
  · intro hsees
    have hsame := ((hstart.sees_iff [] .output 0 .output 2 3 2 (by rw [hlisted']; rfl)
      (by rw [hlisted']; rfl)).mp hsees).1
    cases hsame

end Session

end Inference
