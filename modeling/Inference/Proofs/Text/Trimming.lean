import Inference.Text.Blank
import Mathlib.Data.List.DropRight
import Mathlib.Data.List.TakeWhile

set_option autoImplicit false
set_option relaxedAutoImplicit false

/-!
# Trimming

What is left of a text without the blanks around it is the one part of it that has only blanks
around it and none at either end. So it does not depend on the blanks around, and a change of case
can be made before or after.

## Main definitions

* `Text.Blank` — a text of blanks only.
* `Text.Bare` — a text without blanks at its ends.

## Main results

* `Text.trim_eq_iff` — what the trimmed text is.
* `Text.trim_surround` — blanks around a text do not matter.
* `Text.trim_map_toUpper` — trimming and capitals commute.
-/

namespace Inference

namespace Text

/-- A text of blanks only. -/
def Blank (text : List Char) : Prop :=
  ∀ c ∈ text, isBlank c

instance (text : List Char) : Decidable (Blank text) :=
  List.decidableBAll _ text

/-- A text that neither starts nor ends in a blank. -/
structure Bare (text : List Char) : Prop where
  head : ∀ c ∈ text.head?, ¬isBlank c
  last : ∀ c ∈ text.getLast?, ¬isBlank c

variable {before core after text : List Char}

/-- A text without any blanks has none at its ends. -/
lemma bare_of_forall (h : ∀ c ∈ text, ¬isBlank c) : Bare text where
  head c hc := h c (List.mem_of_mem_head? hc)
  last c hc := h c (List.mem_of_mem_getLast? hc)

/-- A text is bare if what it starts with and what it ends in are. -/
lemma Bare.append (hbefore : Bare before) (hafter : Bare after) (hne : before ≠ [])
    (hne' : after ≠ []) (middle : List Char) : Bare (before ++ middle ++ after) where
  head c hc := by
    rw [List.append_assoc, List.head?_append_of_ne_nil _ hne] at hc
    exact hbefore.head c hc
  last c hc := by
    rw [List.getLast?_append_of_ne_nil _ hne'] at hc
    exact hafter.last c hc

/-- There are no blanks in front of a text without blanks at its ends. -/
lemma Bare.eq_nil_of_blank (h : Bare (before ++ text)) (hbefore : Blank before) : before = [] := by
  cases before with
  | nil => rfl
  | cons c before => exact absurd (hbefore c List.mem_cons_self) (h.head c rfl)

/-- A text is trimmed from the left, then from the right. -/
lemma trim_eq_rdropWhile (text : List Char) :
    trim text = (text.dropWhile isBlank).rdropWhile isBlank :=
  rfl

/-! ## Blanks around a text -/

/-- Blanks in front of a text are dropped. -/
lemma trim_append_left (h : Blank before) (text : List Char) :
    trim (before ++ text) = trim text := by
  rw [trim, trim, List.dropWhile_append_of_pos h]

/-- Blanks behind a text are dropped. -/
lemma trim_append_right (h : Blank after) (text : List Char) :
    trim (text ++ after) = trim text := by
  have hreverse : ∀ c ∈ after.reverse, isBlank c := fun c hc => h c (List.mem_reverse.mp hc)
  rw [trim, trim, List.dropWhile_append]
  split
  · next hempty =>
    rw [List.dropWhile_eq_nil_iff.mpr h, List.isEmpty_iff.mp hempty]
  · rw [List.reverse_append, List.dropWhile_append_of_pos hreverse]

/-- The blanks in front may be dropped beforehand. -/
lemma trim_dropWhile (text : List Char) : trim (text.dropWhile isBlank) = trim text := by
  conv_rhs => rw [← List.takeWhile_append_dropWhile (p := isBlank) (l := text),
    trim_append_left fun _ => List.mem_takeWhile_imp]

/-- **Blanks around** a text do not matter. -/
theorem trim_surround (hbefore : Blank before) (hafter : Blank after) (text : List Char) :
    trim (before ++ text ++ after) = trim text := by
  rw [trim_append_right hafter, trim_append_left hbefore]

/-- Nothing is dropped from the left of a text without blanks at its ends. -/
lemma Bare.dropWhile_eq (h : Bare core) : core.dropWhile isBlank = core := by
  rw [List.dropWhile_eq_self_iff]
  intro hlength
  exact h.head _ (List.head?_eq_getElem? ▸ List.getElem?_eq_getElem hlength)

/-- From a text that ends in another one, without blanks at the ends of that, only the blanks in
front are dropped. -/
lemma trim_append_of_bare (h : Bare core) (hne : core ≠ []) (before : List Char) :
    trim (before ++ core) = before.dropWhile isBlank ++ core := by
  have hleft : (before ++ core).dropWhile isBlank = before.dropWhile isBlank ++ core := by
    rw [List.dropWhile_append]
    split
    · next hempty =>
      rw [h.dropWhile_eq, List.isEmpty_iff.mp hempty, List.nil_append]
    · rfl
  rw [trim_eq_rdropWhile, hleft, List.rdropWhile_eq_self_iff]
  intro happend
  rw [List.getLast_append_of_ne_nil _ hne]
  exact h.last _ (List.getLast?_eq_some_getLast hne)

/-- A text without blanks at its ends is left alone. -/
lemma trim_of_bare (h : Bare core) : trim core = core := by
  by_cases hne : core = []
  · rw [hne]
    rfl
  · exact trim_append_of_bare h hne []

/-! ## What is left -/

/-- No blank is left at either end.

**Proof sketch.** The last character is none since trimming from the right stopped there. The
first one is the first that was left by trimming from the left, since what is dropped behind
that leaves a prefix. -/
lemma bare_trim (text : List Char) : Bare (trim text) where
  head c hc := by
    obtain ⟨dropped, hdropped⟩ := List.rdropWhile_prefix isBlank (text.dropWhile isBlank)
    have hhead : (text.dropWhile isBlank).head? = some c := by
      rw [← hdropped]
      exact List.mem_head?_append_of_mem_head? hc
    have hstopped := List.head?_dropWhile_not isBlank text
    rw [hhead] at hstopped
    simpa using hstopped
  last c hc := by
    obtain ⟨hne, rfl⟩ := List.mem_getLast?_eq_getLast hc
    exact List.rdropWhile_last_not isBlank _ hne

/-- What is dropped from the two ends is blank. -/
lemma exists_trim (text : List Char) :
    ∃ before after, text = before ++ trim text ++ after ∧ Blank before ∧ Blank after := by
  refine ⟨text.takeWhile isBlank, (text.dropWhile isBlank).rtakeWhile isBlank, ?_,
    fun _ => List.mem_takeWhile_imp, fun _ => List.mem_rtakeWhile_imp⟩
  rw [trim_eq_rdropWhile, List.append_assoc, List.rdropWhile_append_rtakeWhile,
    List.takeWhile_append_dropWhile]

/-- **The trimmed text** is the one without blanks at its ends that the text consists of, up to
blanks around it. -/
theorem trim_eq_iff : trim text = core ↔
    Bare core ∧ ∃ before after, text = before ++ core ++ after ∧ Blank before ∧ Blank after := by
  constructor
  · rintro rfl
    exact ⟨bare_trim text, exists_trim text⟩
  · rintro ⟨hbare, before, after, rfl, hbefore, hafter⟩
    rw [trim_surround hbefore hafter, trim_of_bare hbare]

/-! ## Capitals -/

/-- Between the space and the next line character there are no blanks: digits, letters and signs
are none. -/
lemma not_isBlank_of_lt {c : Char} (hlow : 0x20 < c.toNat) (hhigh : c.toNat < 0x85) :
    ¬isBlank c := by
  rw [isBlank, CodePoints.contains_eq_true_iff]
  simp only [whiteSpace, List.mem_cons, List.not_mem_nil, or_false, exists_eq_or_imp,
    exists_eq_left]
  omega

/-- A letter is as blank as its capital: neither is. -/
lemma isBlank_toUpper (c : Char) : isBlank c.toUpper = isBlank c := by
  by_cases hletter : 'a'.val ≤ c.val ∧ c.val ≤ 'z'.val
  · have hlow : 97 ≤ c.val.toNat := hletter.1
    have hhigh : c.val.toNat ≤ 122 := hletter.2
    have hcapital : c.toUpper.val = c.val + ('A'.val - 'a'.val) := by
      delta Char.toUpper
      rw [dif_pos hletter]
    have hoffset : ('A'.val - 'a'.val).toNat = 4294967264 := by decide
    have hupper : c.toUpper.toNat = c.val.toNat - 32 := by
      rw [Char.toNat, hcapital, UInt32.toNat_add, hoffset]
      omega
    have hsame : c.toNat = c.val.toNat := rfl
    rw [Bool.eq_iff_iff]
    exact iff_of_false (not_isBlank_of_lt (by omega) (by omega))
      (not_isBlank_of_lt (by omega) (by omega))
  · have hupper : c.toUpper = c := dif_neg hletter
    rw [hupper]

/-- Blanks are blanks in capitals. -/
lemma Blank.map_toUpper (h : Blank text) : Blank (text.map Char.toUpper) := by
  unfold Blank
  rw [List.forall_mem_map]
  intro c hc
  rw [isBlank_toUpper]
  exact h c hc

/-- Text may be trimmed before or after it is put in capitals. -/
theorem trim_map_toUpper (text : List Char) :
    trim (text.map Char.toUpper) = (trim text).map Char.toUpper := by
  have hsame : isBlank ∘ Char.toUpper = isBlank := funext isBlank_toUpper
  rw [trim, trim, List.dropWhile_map, ← List.map_reverse, List.dropWhile_map, ← List.map_reverse,
    hsame]

end Text

end Inference
