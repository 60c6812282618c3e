import Inference.Proofs.Memory.Padding

set_option autoImplicit false
set_option relaxedAutoImplicit false

/-!
# Independent regions

An arena that was allocated behaves like a list of byte strings of the sizes that were asked for,
each on its own. They start out zeroed, and whatever is written through a region, through the table
of all regions or by clearing is seen in the same way wherever it is looked at, and nowhere else.

The regions are cut off the store one after another, each cut being relative to the end of the one
before. `Arena.refill?` is this walk with every cut checked: it gives nothing if a cut goes back
behind what was cut off already or past the end of the store. It always gives the table.

## Main definitions

* `Arena.refill?`, `Arena.checkedRegion?` — the table of all regions and a single region, absent
  where the store does not reach.
* `Patch`, `Access` — bytes for a part of a region, and what is done to an arena.
* `Arena.after?`, `Access.onArrays` — the same accesses to an arena and to separate byte strings.

## Main results

* `Arena.refill?_eq_split` — filling a table gives all regions, whatever the table held.
* `Arena.perform?_eq` — an access does to the regions what it does to separate byte strings.
* `Arena.behaves_as_arrays` — so does any sequence of accesses to an arena that was allocated.
-/

namespace Inference

/-! ## Checked cuts -/

/-- A byte string cut in two, absent if it ends before the position. -/
def Bytes.cut? (bytes : Bytes) (position : Nat) : Option (Bytes × Bytes) :=
  if position ≤ bytes.length then some (bytes.take position, bytes.drop position) else none

/-- A cut that the bytes reach is made. -/
lemma Bytes.cut?_of_le {bytes : Bytes} {position : Nat} (h : position ≤ bytes.length) :
    bytes.cut? position = some (bytes.take position, bytes.drop position) :=
  if_pos h

namespace Arena

/-- A table with the contents of successive ranges added to it, cut off one after another from
`rest`, which starts at position `consumed`. Absent if a range starts before that position or
ends behind the store. -/
def cutFrom? (consumed : Nat) (rest : Bytes) (table : List Bytes) :
    List Span → Option (List Bytes)
  | [] => some table
  | span :: spans =>
    if span.start < consumed then none
    else
      match rest.cut? (span.start - consumed) with
      | none => none
      | some (_, tail) =>
        match tail.cut? span.length with
        | none => none
        | some (region, tail) => cutFrom? span.stop tail (table ++ [region]) spans

/-- A table that is cleared and filled with all regions. -/
def refill? (arena : Arena) (stale : List Bytes) : Option (List Bytes) :=
  cutFrom? 0 arena.store (stale.take 0) arena.regions

/-- Contents of a region, absent if the store does not hold all of it. -/
def checkedRegion? (arena : Arena) (index : Nat) : Option Bytes :=
  arena.regions[index]?.bind arena.store.slice?

/-- Ranges that follow one another are cut off as they are split off.

**Proof sketch.** Induction on the ranges. A range starts where the one before ended or later and
ends inside the store, so both cuts are made; what is left starts where the range ends, and the
other ranges follow one another inside it. -/
lemma cutFrom?_eq {rest : Bytes} {spans : List Span} {consumed : Nat}
    (h : Successive consumed (consumed + rest.length) spans) (table : List Bytes) :
    cutFrom? consumed rest table spans = some (table ++ splitFrom consumed rest spans) := by
  induction spans generalizing consumed rest table with
  | nil => rw [cutFrom?, splitFrom, List.append_nil]
  | cons span spans ih =>
    obtain ⟨hspan, hrest⟩ := h
    set tail := rest.drop (span.start - consumed) with htail
    have hroom : span.length ≤ tail.length := by
      rw [htail, List.length_drop, Span.length]
      omega
    have hlength : span.stop + (tail.drop span.length).length = consumed + rest.length := by
      rw [List.length_drop, htail, List.length_drop, Span.length]
      omega
    rw [cutFrom?, if_neg (by omega), Bytes.cut?_of_le (by omega), ← htail]
    dsimp only
    rw [Bytes.cut?_of_le hroom]
    dsimp only
    rw [ih (by rwa [hlength]), splitFrom, List.append_assoc, List.singleton_append]

variable {arena : Arena}

/-- **Filling a table**: no cut goes back or past the end, whatever the table held, and the table
then has all regions. -/
theorem refill?_eq_split (h : arena.Tiled) (stale : List Bytes) :
    arena.refill? stale = some arena.split :=
  cutFrom?_eq (by rwa [Nat.zero_add]) []

/-- The store holds all of every region. -/
theorem checkedRegion?_eq_region? (h : arena.Tiled) (index : Nat) :
    arena.checkedRegion? index = arena.region? index := by
  rw [checkedRegion?, region?]
  cases hspan : arena.regions[index]? with
  | none => rfl
  | some span =>
    have hbounds := h.getElem?_le hspan
    exact if_pos hbounds.2

end Arena

/-! ## Accesses -/

/-- Bytes for a region, from a position of it on, as far as they fit. -/
structure Patch where
  region : Nat
  offset : Nat
  bytes : Bytes

/-- Byte strings with a patch laid over the one that it is for. -/
def Patch.apply (arrays : List Bytes) (patch : Patch) : List Bytes :=
  arrays.modify patch.region fun old => Bytes.overwriteAt old patch.offset patch.bytes

/-- What is done to an arena. -/
inductive Access where
  /-- A region is written to. -/
  | write (patch : Patch)
  /-- A table is filled with all regions, and these are written to. -/
  | writeAll (stale : List Bytes) (patches : List Patch)
  | clear

/-- What an access does to byte strings that have nothing to do with each other. -/
def Access.onArrays (arrays : List Bytes) : Access → List Bytes
  | .write patch => patch.apply arrays
  | .writeAll _ patches => patches.foldl Patch.apply arrays
  | .clear => arrays.map fun array => Bytes.zeros array.length

namespace Arena

/-- An access to an arena. Absent if a table cannot be filled. -/
def perform? (arena : Arena) : Access → Option Arena
  | .write patch => some (arena.write patch.region patch.offset patch.bytes)
  | .writeAll stale patches =>
    (arena.refill? stale).map fun table => arena.join (patches.foldl Patch.apply table)
  | .clear => some arena.clear

/-- An arena after a sequence of accesses. -/
def after? (arena : Arena) : List Access → Option Arena
  | [] => some arena
  | access :: accesses => (arena.perform? access).bind fun next => next.after? accesses

end Arena

/-! ## Lengths -/

section

variable {arrays : List Bytes}

/-- A patch does not change a length. -/
lemma map_length_apply (patch : Patch) :
    (patch.apply arrays).map List.length = arrays.map List.length := by
  apply List.ext_getElem?
  intro i
  rw [Patch.apply, List.getElem?_map, List.getElem?_map, List.getElem?_modify]
  cases arrays[i]? with
  | none => rfl
  | some array => by_cases hi : patch.region = i <;> simp [hi]

/-- Nor do several. -/
lemma map_length_foldl_apply (patches : List Patch) :
    (patches.foldl Patch.apply arrays).map List.length = arrays.map List.length := by
  induction patches generalizing arrays with
  | nil => rfl
  | cons patch patches ih => rw [List.foldl_cons, ih, map_length_apply]

/-- No access changes a length. -/
lemma map_length_onArrays (access : Access) :
    (access.onArrays arrays).map List.length = arrays.map List.length := by
  cases access with
  | write patch => exact map_length_apply patch
  | writeAll stale patches => exact map_length_foldl_apply patches
  | clear =>
    rw [Access.onArrays, List.map_map]
    apply List.map_congr_left
    intro array _
    exact List.length_replicate

/-- No sequence of accesses does. -/
lemma map_length_foldl_onArrays (accesses : List Access) :
    (accesses.foldl Access.onArrays arrays).map List.length = arrays.map List.length := by
  induction accesses generalizing arrays with
  | nil => rfl
  | cons access accesses ih => rw [List.foldl_cons, ih, map_length_onArrays]

end

/-! ## Agreement -/

namespace Arena

variable {arena : Arena}

/-- Clearing keeps the layout. -/
lemma tiled_clear (h : arena.Tiled) : arena.clear.Tiled := by
  rw [Tiled, clear, totalBytes, Bytes.zeros, List.length_replicate]
  exact h

/-- Clearing zeroes every region. -/
theorem split_clear (h : arena.Tiled) :
    arena.clear.split = arena.split.map fun region => Bytes.zeros region.length := by
  rw [split_eq_map (tiled_clear h), split_eq_map h, List.map_map]
  apply List.map_congr_left
  intro span hspan
  obtain ⟨i, hi⟩ := List.getElem?_of_mem hspan
  have hstop := (h.getElem?_le hi).2.2
  rw [clear, totalBytes, slice_zeros hstop, Function.comp_apply, Bytes.length_slice hstop]

/-- **One access**: an access to an arena is made, keeps the layout, and does to the regions what it
does to separate byte strings. -/
theorem perform?_eq (h : arena.Tiled) (access : Access) :
    ∃ next, arena.perform? access = some next ∧ next.Tiled ∧
      next.split = access.onArrays arena.split := by
  cases access with
  | write patch => exact ⟨_, rfl, tiled_write h _ _ _, split_write h _ _ _⟩
  | writeAll stale patches =>
    refine ⟨arena.join (patches.foldl Patch.apply arena.split), ?_, tiled_join h _, ?_⟩
    · rw [perform?, refill?_eq_split h, Option.map_some]
    · rw [split_join h, Bytes.overwriteAll_of_map_length_eq (map_length_foldl_apply patches)]
      rfl
  | clear => exact ⟨_, rfl, tiled_clear h, split_clear h⟩

/-- A sequence of accesses does to the regions what it does to separate byte strings. -/
theorem after?_eq (h : arena.Tiled) (accesses : List Access) :
    ∃ last, arena.after? accesses = some last ∧ last.Tiled ∧
      last.split = accesses.foldl Access.onArrays arena.split := by
  induction accesses generalizing arena with
  | nil => exact ⟨arena, rfl, h, rfl⟩
  | cons access accesses ih =>
    obtain ⟨next, hnext, htiled, hsplit⟩ := perform?_eq h access
    obtain ⟨last, hlast, htiled', hsplit'⟩ := ih htiled
    refine ⟨last, ?_, htiled', ?_⟩
    · rw [after?, hnext, Option.bind_some, hlast]
    · rw [hsplit', hsplit, List.foldl_cons]

/-- **Independence**: after any accesses to an arena that was allocated, which are all made, its
regions are what the same accesses leave of zeroed byte strings of the sizes that were asked for,
each on its own. A single region, a region that is checked against the store and the entry of a
table that is filled over another one all show the same bytes, and there are none past the last
region. A patch changes the region that it is for and no other one, and clearing zeroes all.

**Proof sketch.** The regions follow one another inside the store (`tiled_of_allocate`) and start
out zeroed (`split_allocate`). Each access keeps the first and does to the regions what it does to
separate byte strings (`perform?_eq`), and so does the sequence. -/
theorem behaves_as_arrays {sizes : List Nat} {budget : Budget}
    (h : allocate sizes budget = .ok arena) (accesses : List Access) :
    ∃ last, arena.after? accesses = some last ∧
      let arrays := accesses.foldl Access.onArrays (sizes.map Bytes.zeros)
      arrays.map List.length = sizes ∧
      (∀ i, last.region? i = arrays[i]? ∧ last.checkedRegion? i = arrays[i]?) ∧
      (∀ stale, last.refill? stale = some arrays) ∧
      (∀ i, last.region? i = none ↔ sizes.length ≤ i) ∧
      (∀ (patch : Patch) (i : Nat), (last.write patch.region patch.offset patch.bytes).region? i =
        if i = patch.region then
          arrays[i]?.map fun old => Bytes.overwriteAt old patch.offset patch.bytes
        else arrays[i]?) ∧
      ∀ i, last.clear.region? i = sizes[i]?.map Bytes.zeros := by
  obtain ⟨htiled, -⟩ := tiled_of_allocate h
  obtain ⟨last, hlast, htiled', hsplit⟩ := after?_eq htiled accesses
  rw [split_allocate h] at hsplit
  refine ⟨last, hlast, ?_⟩
  intro arrays
  have hlengths : arrays.map List.length = sizes := by
    rw [map_length_foldl_onArrays, List.map_map]
    conv_rhs => rw [← List.map_id sizes]
    apply List.map_congr_left
    intro size _
    exact List.length_replicate
  have harrays : last.split = arrays := hsplit
  have hregion (i : Nat) : last.region? i = arrays[i]? := by
    rw [← getElem?_split htiled', harrays]
  refine ⟨hlengths, ?_, ?_, ?_, ?_, ?_⟩
  · exact fun i => ⟨hregion i, by rw [checkedRegion?_eq_region? htiled', hregion]⟩
  · intro stale
    rw [refill?_eq_split htiled', harrays]
  · intro i
    rw [hregion, List.getElem?_eq_none_iff, ← hlengths, List.length_map]
  · intro patch i
    rw [← getElem?_split (tiled_write htiled' _ _ _), split_write htiled', List.getElem?_modify,
      harrays]
    by_cases hi : i = patch.region
    · simp [hi]
    · simp [hi, Ne.symm hi]
  · intro i
    have hsize : sizes[i]? = arrays[i]?.map List.length := by rw [← List.getElem?_map, hlengths]
    rw [← getElem?_split (tiled_clear htiled'), split_clear htiled', harrays, List.getElem?_map,
      hsize, Option.map_map]
    rfl

/-- Regions of three, no and seventeen bytes. What does not fit the first one does not reach the
last one, which is then written to through a table that held other bytes. -/
theorem behaves_as_arrays_unaligned :
    ∃ arena last, allocate [3, 0, 17] ⟨64⟩ = .ok arena ∧
      arena.after? [.write ⟨0, 1, [1, 2, 3, 4]⟩,
        .writeAll [[9, 9]] [⟨2, 16, [5]⟩, ⟨1, 0, [6]⟩]] = some last ∧
      last.region? 0 = some [0, 1, 2] ∧ last.region? 1 = some [] ∧
      last.region? 2 = some (Bytes.zeros 16 ++ [5]) ∧ last.region? 3 = none := by
  obtain ⟨arena, harena⟩ : ∃ arena, allocate [3, 0, 17] ⟨64⟩ = .ok arena :=
    allocate_eq_ok (by decide) (by decide)
  obtain ⟨last, hlast, -, hregion, -⟩ := behaves_as_arrays harena
    [.write ⟨0, 1, [1, 2, 3, 4]⟩, .writeAll [[9, 9]] [⟨2, 16, [5]⟩, ⟨1, 0, [6]⟩]]
  exact ⟨arena, last, harena, hlast, (hregion 0).1, (hregion 1).1, (hregion 2).1, (hregion 3).1⟩

end Arena

end Inference
