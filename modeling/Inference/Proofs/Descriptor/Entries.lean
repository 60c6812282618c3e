import Inference.Proofs.Descriptor.Format
import Inference.Proofs.Products
import Inference.Proofs.Traversal
import Inference.Proofs.Words

set_option autoImplicit false
set_option relaxedAutoImplicit false

/-!
# Reading entries

Each part of a descriptor is read successfully exactly when it satisfies its condition in the
format, and what is read is what the format says it holds.

## Main results

* `BlockTable.get_eq_ok_iff`, `BlockTable.signedList_eq_ok_iff` — references and lists.
* `checkedCount_eq_ok_iff` — the checked number of elements.
* `decodeVariable_eq_ok_iff`, `decodeFunction_eq_ok_iff` — entries of the two tables.
-/

namespace Inference

open Format

/-! ## References and lists -/

/-- A block is found when the reference names one. -/
lemma BlockTable.get_eq_ok_iff {table : BlockTable} {reference : Int} {what : Referent}
    {number : Nat} {bytes : Bytes} :
    table.get reference what = .ok (number, bytes) ↔
      named? table.block? reference = some bytes ∧ number = reference.toNat := by
  unfold BlockTable.get named?
  by_cases hneg : reference < 0
  · simp [hneg]
  · simp only [hneg, if_false]
    cases table.block? reference.toNat with
    | none => simp
    | some block => simp [eq_comm, and_comm]

/-- A block that is named is the one that the reference stands for. -/
lemma named_eq {blocks : BlockContents} {reference : Int} {bytes : Bytes}
    (h : named? blocks reference = some bytes) : named blocks reference = bytes := by
  rw [named, h, Option.getD_some]

/-- A list is read when it can be followed, and gives its items. -/
theorem BlockTable.signedList_eq_ok_iff {table : BlockTable} {ref : ListRef} {what : Referent}
    {words : List Int} :
    table.signedList ref what = .ok words ↔
      ListFits table.block? ref ∧ words = items table.block? ref := by
  unfold BlockTable.signedList ListFits items
  by_cases hempty : ref.count = 0
  · simp [hempty, eq_comm]
  · simp only [hempty, if_false, false_or]
    cases hget : table.get ref.block what with
    | error fault =>
      have hnone : ∀ bytes, named? table.block? ref.block ≠ some bytes := by
        intro bytes hbytes
        rw [BlockTable.get_eq_ok_iff.mpr ⟨hbytes, rfl⟩] at hget
        cases hget
      simp [hnone]
    | ok found =>
      obtain ⟨number, bytes⟩ := found
      obtain ⟨hnamed, -⟩ := BlockTable.get_eq_ok_iff.mp hget
      simp only [hnamed, Option.some.injEq, exists_eq_left', named_eq hnamed]
      by_cases hshort : bytes.length < 4 * ref.count
      · simp [hshort, Nat.not_le.mpr hshort]
      · rw [if_neg hshort, Bytes.signedWords_take bytes (Nat.le_of_not_lt hshort)]
        simp [Nat.le_of_not_lt hshort, eq_comm]

/-- A list whose items are checked one by one is read when it can be followed and every item
passes. -/
lemma readItems_eq_ok_iff {β : Type} {P : Int → Prop} {g : Int → β}
    {f : Nat → Int → Except DescriptorFault β} (h : ∀ i x y, f i x = .ok y ↔ P x ∧ y = g x)
    {table : BlockTable} {ref : ListRef} {what : Referent} {results : List β} :
    (table.signedList ref what >>= traverse f) = .ok results ↔
      (ListFits table.block? ref ∧ ∀ x ∈ items table.block? ref, P x) ∧
        results = (items table.block? ref).map g := by
  simp only [bind_eq_ok_iff, BlockTable.signedList_eq_ok_iff, traverse_eq_ok_iff_map h]
  constructor
  · rintro ⟨raw, ⟨hfits, rfl⟩, hitems, rfl⟩
    exact ⟨⟨hfits, hitems⟩, rfl⟩
  · rintro ⟨⟨hfits, hitems⟩, rfl⟩
    exact ⟨_, ⟨hfits, rfl⟩, hitems, rfl⟩

/-- An index is accepted when it lies below the count. -/
lemma checkIndex_eq_ok_iff {what : Referent} {count : Nat} (index : Int) (i : Nat) :
    checkIndex what count index = .ok i ↔
      (0 ≤ index ∧ index < count) ∧ i = index.toNat := by
  unfold checkIndex
  by_cases h : 0 ≤ index ∧ index < count
  · simp [h, eq_comm]
  · rw [if_neg h]
    simp [h]

/-- A count is accepted when it is not negative. -/
lemma natural_eq_ok_iff {fault : DescriptorFault} (value : Int) (n : Nat) :
    (if value < 0 then .error fault else .ok value.toNat : Except DescriptorFault Nat) = .ok n ↔
      0 ≤ value ∧ n = value.toNat := by
  rw [refusal_eq_ok_iff, Int.not_lt, Except.ok.injEq, @eq_comm _ n]

/-- A list of indices is read when it can be followed and all of them lie below the count. -/
lemma decodeIndices_eq_ok_iff {table : BlockTable} {ref : ListRef} {list item : Referent}
    {count : Nat} {is : List Nat} :
    decodeIndices table ref list item count = .ok is ↔
      IndicesFit table.block? ref count ∧ is = indices table.block? ref := by
  unfold decodeIndices IndicesFit indices
  exact readItems_eq_ok_iff fun _ => checkIndex_eq_ok_iff

/-- The table of buffers is read when it can be followed and no element count is negative. -/
lemma decodeBuffers_eq_ok_iff {table : BlockTable} {ref : ListRef} {sizes : List Nat} :
    decodeBuffers table ref = .ok sizes ↔
      CountsFit table.block? ref ∧ sizes = indices table.block? ref := by
  unfold decodeBuffers CountsFit indices
  exact readItems_eq_ok_iff fun _ size => natural_eq_ok_iff size

/-! ## Variable entries -/

/-- The dimensions of a variable are read when their list can be followed and none is negative. -/
lemma decodeShape_eq_ok_iff {table : BlockTable} {index : Nat} {ref : ListRef} {shape : Shape} :
    decodeShape table index ref = .ok shape ↔
      CountsFit table.block? ref ∧ shape = ⟨indices table.block? ref⟩ := by
  unfold decodeShape CountsFit indices
  rw [← bind_assoc, bind_eq_ok_iff]
  simp only [pure_eq_ok_iff]
  constructor
  · rintro ⟨dims, hdims, rfl⟩
    obtain ⟨hfits, rfl⟩ := (readItems_eq_ok_iff fun _ size => natural_eq_ok_iff size).mp hdims
    exact ⟨hfits, rfl⟩
  · rintro ⟨hfits, rfl⟩
    exact ⟨_, (readItems_eq_ok_iff fun _ size => natural_eq_ok_iff size).mpr ⟨hfits, rfl⟩, rfl⟩

/-- The checked product of dimensions is there when the leading products all stay below the word
limit. -/
lemma Shape.productFrom?_eq_some_iff {start : Nat} {dims : List Nat} {n : Nat} :
    Shape.productFrom? start dims = some n ↔
      (∀ k < dims.length, start * (dims.take (k + 1)).prod < wordLimit) ∧
        n = start * dims.prod := by
  induction dims generalizing start with
  | nil => simp [Shape.productFrom?, eq_comm]
  | cons dim rest ih =>
    have hfirst : (∀ k < (dim :: rest).length,
        start * ((dim :: rest).take (k + 1)).prod < wordLimit) ↔
        start * dim < wordLimit ∧
          ∀ k < rest.length, start * dim * (rest.take (k + 1)).prod < wordLimit := by
      constructor
      · intro h
        refine ⟨by simpa using h 0 (by simp), fun k hk => ?_⟩
        have := h (k + 1) (by simpa using hk)
        rwa [List.take_succ_cons, List.prod_cons, ← Nat.mul_assoc] at this
      · rintro ⟨h0, hrest⟩ k hk
        cases k with
        | zero => simpa using h0
        | succ k =>
          rw [List.take_succ_cons, List.prod_cons, ← Nat.mul_assoc]
          exact hrest k (by simpa using hk)
    rw [Shape.productFrom?, hfirst, List.prod_cons, ← Nat.mul_assoc]
    by_cases hdim : start * dim < wordLimit
    · simp [hdim, ih]
    · simp [hdim]

/-- The checked number of elements is there when every leading product stays below the word
limit. -/
theorem Shape.elementCount?_eq_some_iff {dims : List Nat} {n : Nat} :
    Shape.elementCount? ⟨dims⟩ = some n ↔
      (∀ k ≤ dims.length, (dims.take k).prod < wordLimit) ∧ n = dims.prod := by
  simp only [Shape.elementCount?, Shape.productFrom?_eq_some_iff, Nat.one_mul]
  have hshift : (∀ k < dims.length, (dims.take (k + 1)).prod < wordLimit) ↔
      ∀ k ≤ dims.length, (dims.take k).prod < wordLimit := by
    constructor
    · intro h k hk
      cases k with
      | zero => exact Nat.lt_of_lt_of_le Nat.one_lt_two (by decide)
      | succ k => exact h k hk
    · exact fun h k hk => h (k + 1) hk
  rw [hshift]

/-- A variable's elements are counted when their leading products and their bytes stay below the
word limit. -/
lemma checkedCount_eq_ok_iff {index : Nat} {dims : List Nat} {type : ElementType} {n : Nat} :
    checkedCount index ⟨dims⟩ type = .ok n ↔
      (∀ k ≤ dims.length, (dims.take k).prod < wordLimit) ∧
        dims.prod * type.byteSize < wordLimit ∧ n = dims.prod := by
  unfold checkedCount
  cases hcount : Shape.elementCount? ⟨dims⟩ with
  | none =>
    have hover : ¬∀ k ≤ dims.length, (dims.take k).prod < wordLimit := by
      intro h
      rw [Shape.elementCount?_eq_some_iff.mpr ⟨h, rfl⟩] at hcount
      cases hcount
    simp [hover]
  | some count =>
    obtain ⟨hprod, rfl⟩ := Shape.elementCount?_eq_some_iff.mp hcount
    by_cases hsize : dims.prod * type.byteSize < wordLimit
    · simpa [hsize, eq_comm] using fun _ => hprod
    · simp [hsize]

/-- A variable's place is accepted when it is there and large enough. -/
lemma decodeStorage_eq_ok_iff {table : BlockTable} {buffers : List Nat}
    {index count byteSize : Nat} {dataIndex : Int} {storage : Storage} :
    decodeStorage table buffers index count byteSize dataIndex = .ok storage ↔
      DataFits table.block? buffers count byteSize dataIndex ∧
        storage = storageOf dataIndex := by
  unfold decodeStorage storageOf
  by_cases hneg : dataIndex < 0
  · simp only [hneg, if_true, bind_eq_ok_iff, checkIndex_eq_ok_iff]
    constructor
    · rintro ⟨buffer, ⟨⟨hlow, hhigh⟩, rfl⟩, hroom⟩
      have hlt : (-dataIndex - 1).toNat < buffers.length := by omega
      rw [List.getElem?_eq_getElem hlt, Option.getD_some] at hroom
      split at hroom
      · cases hroom
      · next hle =>
        cases hroom
        refine ⟨⟨fun _ => ⟨_, List.getElem?_eq_getElem hlt, Nat.not_lt.mp hle⟩, ?_⟩, rfl⟩
        exact fun hpos => absurd hneg (Int.not_lt.mpr hpos)
    · rintro ⟨hfits, rfl⟩
      obtain ⟨capacity, hbuffer, hle⟩ := hfits.buffer hneg
      obtain ⟨hlt, -⟩ := List.getElem?_eq_some_iff.mp hbuffer
      refine ⟨_, ⟨⟨by omega, by omega⟩, rfl⟩, ?_⟩
      rw [hbuffer, Option.getD_some, if_neg (Nat.not_lt.mpr hle)]
  · have hpos : 0 ≤ dataIndex := Int.not_lt.mp hneg
    simp only [hneg, if_false, bind_eq_ok_iff, Prod.exists, BlockTable.get_eq_ok_iff, named?]
    constructor
    · rintro ⟨number, data, ⟨hblock, rfl⟩, hroom⟩
      split at hroom
      · cases hroom
      · next hle =>
        cases hroom
        exact ⟨⟨fun h => absurd h hneg, fun _ => ⟨data, hblock, Nat.not_lt.mp hle⟩⟩, rfl⟩
    · rintro ⟨hfits, rfl⟩
      obtain ⟨data, hblock, hle⟩ := hfits.block hpos
      refine ⟨_, data, ⟨hblock, rfl⟩, ?_⟩
      rw [if_neg (Nat.not_lt.mpr hle)]

/-- The type codes are those from 0 to 3, and each has the element size of its type. -/
lemma ofCode?_eq_some {code : Nat} (h : code ≤ 3) :
    ∃ type, ElementType.ofCode? code = some type ∧ type.byteSize = elementSize code := by
  match code, h with
  | 0, _ => exact ⟨.float, rfl, rfl⟩
  | 1, _ => exact ⟨.fixed16, rfl, rfl⟩
  | 2, _ => exact ⟨.fixed8, rfl, rfl⟩
  | 3, _ => exact ⟨.sign, rfl, rfl⟩

/-- A code of an element type is at most 3. -/
lemma le_of_ofCode?_eq_some {code : Nat} {type : ElementType}
    (h : ElementType.ofCode? code = some type) : code ≤ 3 := by
  rw [ElementType.ofCode?_eq_some_iff] at h
  subst h
  cases type <;> decide

/-- The variable of an entry whose type code is known. -/
lemma variableAt_eq {blocks : BlockContents} {inputs outputs : List Nat} {index : Nat}
    {entry : Bytes} {type : ElementType}
    (htype : ElementType.ofCode? (typeCode entry) = some type) :
    variableAt blocks inputs outputs index entry =
      { index := index
        id := UInt32.ofNat (entry.word 0 4)
        shape := ⟨dims blocks entry⟩
        elementType := type
        fixedPoint := entry.word 12 4 / 16 % 16
        storage := storageOf (entry.signedWord 16)
        role := roleOf inputs outputs index (storageOf (entry.signedWord 16)) } := by
  rw [variableAt, htype, Option.getD_some]

/-- A variable is read when its reference leads to an entry that is in order, and it is the one
that the entry describes. -/
theorem decodeVariable_eq_ok_iff {table : BlockTable} {buffers inputs outputs : List Nat}
    (index : Nat) (reference : Int) (v : Variable) :
    decodeVariable table buffers inputs outputs index reference = .ok v ↔
      (∃ entry, named? table.block? reference = some entry ∧
        VariableFits table.block? buffers entry) ∧
      v = variableAt table.block? inputs outputs index (named table.block? reference) := by
  unfold decodeVariable
  simp only [bind_eq_ok_iff, Prod.exists, BlockTable.get_eq_ok_iff, guard_eq_ok_iff,
    decodeShape_eq_ok_iff, orFault_eq_ok_iff, pure_eq_ok_iff, Nat.not_lt]
  constructor
  · rintro ⟨number, entry, ⟨hnamed, rfl⟩, hcomplete, shape, ⟨hshape, rfl⟩, type, htype, count,
      hcount, storage, hstorage, rfl⟩
    obtain ⟨hprod, hsize, rfl⟩ := checkedCount_eq_ok_iff.mp hcount
    obtain ⟨hdata, hplace⟩ := decodeStorage_eq_ok_iff.mp hstorage
    have hcode : typeCode entry ≤ 3 := le_of_ofCode?_eq_some htype
    obtain ⟨type', htype', hbytes⟩ := ofCode?_eq_some hcode
    obtain rfl : type = type' := Option.some.inj (htype.symm.trans htype')
    rw [hbytes] at hsize hdata
    refine ⟨⟨entry, hnamed, hcomplete, hshape, hcode, hprod, hsize, hdata⟩, ?_⟩
    rw [named_eq hnamed, variableAt_eq htype, hplace]
    rfl
  · rintro ⟨⟨entry, hnamed, hfits⟩, rfl⟩
    obtain ⟨type, htype, hbytes⟩ := ofCode?_eq_some hfits.type
    have hsize := hfits.size
    have hdata := hfits.data
    rw [← hbytes] at hsize hdata
    refine ⟨_, entry, ⟨hnamed, rfl⟩, hfits.complete, _, ⟨hfits.shape, rfl⟩, type, htype, _,
      checkedCount_eq_ok_iff.mpr ⟨hfits.products, hsize, rfl⟩, _,
      decodeStorage_eq_ok_iff.mpr ⟨hdata, rfl⟩, ?_⟩
    rw [named_eq hnamed, variableAt_eq htype]
    rfl

/-! ## Function entries -/

/-- No output is faulty when the outputs are distinct, none is an input, and none was listed
before. -/
lemma aliasing?_eq_none_iff {inputs earlier outputs : List Nat} :
    aliasing? inputs earlier outputs = none ↔
      outputs.Nodup ∧ inputs.Disjoint outputs ∧ earlier.Disjoint outputs := by
  induction outputs generalizing earlier with
  | nil => simp [aliasing?]
  | cons output rest ih =>
    simp only [aliasing?, List.contains_iff_mem]
    by_cases hearlier : output ∈ earlier
    · simp [hearlier]
    · by_cases hinput : output ∈ inputs
      · simp [hearlier, hinput]
      · simp only [hearlier, hinput, if_false, ih, List.nodup_cons, List.disjoint_cons_left,
          List.disjoint_cons_right]
        tauto

/-- A function is read when its reference leads to an entry that is in order, and it is the one
that the entry describes. -/
theorem decodeFunction_eq_ok_iff {table : BlockTable} {variableCount : Nat} (index : Nat)
    (reference : Int) (f : FunctionEntry) :
    decodeFunction table variableCount index reference = .ok f ↔
      (∃ entry, named? table.block? reference = some entry ∧
        FunctionFits table.block? variableCount entry) ∧
      f = functionAt table.block? index (named table.block? reference) := by
  unfold decodeFunction
  simp only [bind_eq_ok_iff, Prod.exists, BlockTable.get_eq_ok_iff, guard_eq_ok_iff,
    decodeIndices_eq_ok_iff, Nat.not_lt]
  constructor
  · rintro ⟨number, entry, ⟨hnamed, rfl⟩, hcomplete, inputs, ⟨hinputs, rfl⟩, outputs,
      ⟨houtputs, rfl⟩, hlast⟩
    split at hlast
    · cases hlast
    · next haliasing =>
      obtain ⟨hdistinct, hdisjoint, -⟩ := aliasing?_eq_none_iff.mp haliasing
      rw [pure_eq_ok_iff.mp hlast, named_eq hnamed]
      exact ⟨⟨entry, hnamed, hcomplete, hinputs, houtputs, hdistinct, hdisjoint⟩, rfl⟩
  · rintro ⟨⟨entry, hnamed, hfits⟩, rfl⟩
    have haliasing : aliasing? (indices table.block? (.read entry 4)) []
        (indices table.block? (.read entry 12)) = none :=
      aliasing?_eq_none_iff.mpr ⟨hfits.distinct, hfits.disjoint, List.disjoint_nil_left _⟩
    refine ⟨_, entry, ⟨hnamed, rfl⟩, hfits.complete, _, ⟨hfits.inputs, rfl⟩, _,
      ⟨hfits.outputs, rfl⟩, ?_⟩
    rw [haliasing, named_eq hnamed]
    rfl

end Inference
