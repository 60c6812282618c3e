import Inference.Toml.Quoted
import Mathlib.Data.List.Basic
import Mathlib.Tactic.Common

set_option autoImplicit false
set_option relaxedAutoImplicit false

/-!
# Quoted texts are read back

A text is written in one of four ways, chosen by what it contains, and whatever it contains, the
reader gives it back and stops right behind it. Between quotation marks every character that means
something else there is escaped. Between apostrophes nothing is escaped, so that way is chosen only
if no run of apostrophes ends the text early. Over several lines up to two marks may stand in a row,
also right in front of the closing ones, where the reader counts them back.

## Main definitions

* `Toml.Unescapes` — a reader that replaces escapes.
* `Toml.Unmarked` — what may stand behind a quoted text.

## Main results

* `Toml.Unescapes.controlEscape` — the escape of a control character is replaced by it.
* `Toml.basicBody_writeBasicBody`, `Toml.multiBasicBody_writeBasicBody` — texts between quotation
  marks.
* `Toml.literalBody_append`, `Toml.multiLiteralBody_append` — texts between apostrophes.
* `Toml.quotedText_writeQuoted` — what is written in quotes is read back.
-/

namespace Inference

namespace Toml

/-! ## Escapes -/

/-- A reader that replaces the escapes of letters and of numbers with four digits. -/
structure Unescapes (body : List Char → Option (List Char × List Char)) : Prop where
  letter : ∀ (letter char : Char) (rest : List Char), letterEscape? letter = some char →
    body (backslash :: letter :: rest) = push char (body rest)
  number : ∀ (a b c d char : Char) (rest : List Char), unicodeEscape? [a, b, c, d] = some char →
    body (backslash :: 'u' :: a :: b :: c :: d :: rest) = push char (body rest)

/-- Letters that start the escape of a number stand for no character themselves. -/
lemma ne_of_letterEscape? {letter char : Char} (h : letterEscape? letter = some char) :
    letter ≠ 'u' ∧ letter ≠ 'U' := by
  constructor
  · rintro rfl
    cases h
  · rintro rfl
    cases h

/-- Texts on one line have their escapes replaced. -/
lemma unescapes_basicBody : Unescapes basicBody where
  letter := by
    intro letter char rest h
    obtain ⟨hu, hU⟩ := ne_of_letterEscape? h
    rw [basicBody.eq_def]
    dsimp only
    rw [if_neg (by decide), if_pos rfl]
    split
    · contradiction
    · exact absurd (List.cons.inj ‹_›).1 hu
    · exact absurd (List.cons.inj ‹_›).1 hU
    · next heq =>
      obtain ⟨rfl, rfl⟩ := List.cons.inj heq
      rw [h]
  number := by
    intro a b c d char rest h
    rw [basicBody.eq_def]
    dsimp only
    rw [if_neg (by decide), if_pos rfl]
    simp only [h]

/-- So have texts over several lines. -/
lemma unescapes_multiBasicBody : Unescapes (multiBasicBody .within) where
  letter := by
    intro letter char rest h
    obtain ⟨hu, hU⟩ := ne_of_letterEscape? h
    rw [multiBasicBody.eq_def]
    dsimp only
    rw [if_neg (by decide), if_neg (by decide), if_neg (by decide), if_neg (by decide), if_pos rfl]
    split
    · contradiction
    · exact absurd (List.cons.inj ‹_›).1 hu
    · exact absurd (List.cons.inj ‹_›).1 hU
    · next heq =>
      obtain ⟨rfl, rfl⟩ := List.cons.inj heq
      rw [h]
  number := by
    intro a b c d char rest h
    rw [multiBasicBody.eq_def]
    dsimp only
    rw [if_neg (by decide), if_neg (by decide), if_neg (by decide), if_neg (by decide), if_pos rfl]
    simp only [h]

/-- The number of a control character, in two digits behind two zeros, is read as it. -/
lemma unicodeEscape?_control {c : Char} (h : isControl c = true) :
    unicodeEscape? ['0', '0', upperHexDigit (c.toNat / 16), upperHexDigit (c.toNat % 16)] =
      some c := by
  have hall : ∀ n < 128, unicodeEscape?
      ['0', '0', upperHexDigit (n / 16), upperHexDigit (n % 16)] = some (Char.ofNat n) := by
    decide
  have hlt : c.toNat < 128 := by
    simp only [isControl, Bool.or_eq_true, decide_eq_true_eq] at h
    omega
  rw [hall c.toNat hlt, Char.ofNat_toNat]

/-- **Control characters** are read back from their escapes. -/
theorem Unescapes.controlEscape {body : List Char → Option (List Char × List Char)}
    (h : Unescapes body) {c : Char} (hc : isControl c = true) (rest : List Char) :
    body (controlEscape c ++ rest) = push c (body rest) := by
  unfold Toml.controlEscape
  split
  · next heq => exact h.letter 'b' c rest (heq ▸ rfl)
  split
  · next heq => exact h.letter 't' c rest (heq ▸ rfl)
  split
  · next heq => exact h.letter 'n' c rest (heq ▸ rfl)
  split
  · next heq => exact h.letter 'f' c rest (heq ▸ rfl)
  split
  · next heq => exact h.letter 'r' c rest (heq ▸ rfl)
  · exact h.number '0' '0' _ _ c rest (unicodeEscape?_control hc)

/-- A character that is no control character is not forbidden. -/
lemma isForbidden_of_not_isControl {c : Char} (h : isControl c = false) :
    isForbidden c = false := by
  rw [isForbidden, h, Bool.false_and]

/-! ## Between quotation marks -/

/-- A character that means nothing else stands for itself. -/
lemma basicBody_cons {c : Char} (hquote : c ≠ quote) (hbackslash : c ≠ backslash)
    (hforbidden : isForbidden c = false) (rest : List Char) :
    basicBody (c :: rest) = push c (basicBody rest) := by
  rw [basicBody.eq_def]
  dsimp only
  rw [if_neg hquote, if_neg hbackslash, hforbidden, if_neg Bool.false_ne_true]

/-- **Texts on one line between quotation marks** are read back.

**Proof sketch.** Induction on the text; each character is written as itself or as an escape. -/
theorem basicBody_writeBasicBody (run : Nat) (text rest : List Char) :
    basicBody (writeBasicBody false run text ++ quote :: rest) = some (text, rest) := by
  induction text generalizing run with
  | nil =>
    rw [writeBasicBody, List.nil_append, basicBody.eq_def]
    dsimp only
    rw [if_pos rfl]
  | cons c text ih =>
    rw [writeBasicBody]
    split
    · next hquote =>
      subst hquote
      simp only [Bool.false_and, Bool.false_eq_true, if_false, List.cons_append]
      rw [unescapes_basicBody.letter quote quote _ rfl, ih]
      rfl
    split
    · next hbackslash =>
      subst hbackslash
      simp only [List.cons_append]
      rw [unescapes_basicBody.letter backslash backslash _ rfl, ih]
      rfl
    rw [Bool.false_and, if_neg Bool.false_ne_true]
    split
    · next hcontrol =>
      rw [List.append_assoc, unescapes_basicBody.controlEscape hcontrol, ih]
      rfl
    · next hquote hbackslash hcontrol =>
      have hforbidden := isForbidden_of_not_isControl (Bool.eq_false_iff.mpr hcontrol)
      rw [List.cons_append, basicBody_cons hquote hbackslash hforbidden, ih]
      rfl

/-- Line ends are forbidden on a line. -/
lemma ne_of_not_isForbidden {c : Char} (h : isForbidden c = false) : c ≠ '\n' ∧ c ≠ '\r' := by
  constructor
  · rintro rfl
    cases h
  · rintro rfl
    cases h

/-- A character that means nothing else stands for itself, over several lines too. -/
lemma multiBasicBody_cons {c : Char} (hquote : c ≠ quote) (hbackslash : c ≠ backslash)
    (hforbidden : isForbidden c = false) (rest : List Char) :
    multiBasicBody .within (c :: rest) = push c (multiBasicBody .within rest) := by
  obtain ⟨hline, hreturn⟩ := ne_of_not_isForbidden hforbidden
  rw [multiBasicBody.eq_def]
  dsimp only
  rw [if_neg (by simp), if_neg hreturn, if_neg hline, if_neg hquote, if_neg hbackslash, hforbidden,
    if_neg Bool.false_ne_true]

/-- A line end stands for itself there. -/
lemma multiBasicBody_newline (rest : List Char) :
    multiBasicBody .within ('\n' :: rest) = push '\n' (multiBasicBody .within rest) := by
  rw [multiBasicBody.eq_def]
  dsimp only
  rw [if_neg (by decide), if_neg (by decide), if_pos rfl]

/-- A quotation mark stands for itself if it is not the first of three. -/
lemma multiBasicBody_quote {rest : List Char}
    (h : ∀ more, rest ≠ quote :: quote :: more) :
    multiBasicBody .within (quote :: rest) = push quote (multiBasicBody .within rest) := by
  rw [multiBasicBody.eq_def]
  dsimp only
  rw [if_neg (by decide), if_neg (by decide), if_neg (by decide), if_pos rfl]
  split
  · exact absurd rfl (h _)
  · rfl

/-- Three quotation marks close a text. -/
lemma multiBasicBody_closing (rest : List Char) :
    multiBasicBody .within (quote :: quote :: quote :: rest) = closing quote rest := by
  rw [multiBasicBody.eq_def]
  dsimp only
  rw [if_neg (by decide), if_neg (by decide), if_neg (by decide), if_pos rfl]
  rfl

/-- Up to two marks in front of the closing ones belong to the text. -/
lemma closing_replicate {mark : Char} {count : Nat} (hcount : count ≤ 2) {rest : List Char}
    (hrest : rest.head? ≠ some mark) :
    closing mark (List.replicate count mark ++ rest) = some (List.replicate count mark, rest) := by
  have htake : (List.replicate count mark ++ rest).takeWhile (· = mark) =
      List.replicate count mark := by
    rw [List.takeWhile_append_of_pos (by simp)]
    cases rest with
    | nil => simp
    | cons c rest =>
      have hc : c ≠ mark := fun h => hrest (congrArg some h)
      simp [hc]
  rw [closing, htake, List.length_replicate, if_pos hcount, List.drop_left' (by simp)]

/-- A text that is not empty starts, as it is written, with a backslash or with its first character.
That is no quotation mark on one line or behind two of them, and no control character but a line
end. -/
lemma exists_writeBasicBody (lines : Bool) (run : Nat) (c : Char) (text : List Char) :
    ∃ first more, writeBasicBody lines run (c :: text) = first :: more ∧
      (first = backslash ∨ first = c ∧ (c = quote → lines = true ∧ run < 2) ∧
        (c = '\n' ∨ isControl c = false)) := by
  rw [writeBasicBody]
  split
  · next hquote =>
    subst hquote
    split
    · next hraw => exact ⟨_, _, rfl, .inr ⟨rfl, by simpa using hraw, .inr rfl⟩⟩
    · exact ⟨_, _, rfl, .inl rfl⟩
  split
  · exact ⟨_, _, rfl, .inl rfl⟩
  split
  · next hquote _ hline =>
    refine ⟨_, _, rfl, .inr ⟨rfl, fun h => absurd h hquote, .inl ?_⟩⟩
    simp only [Bool.and_eq_true, decide_eq_true_eq] at hline
    exact hline.2
  split
  · unfold controlEscape
    split_ifs <;> exact ⟨_, _, rfl, .inl rfl⟩
  · next hquote _ _ hcontrol =>
    exact ⟨_, _, rfl, .inr ⟨rfl, fun h => absurd h hquote, .inr (Bool.eq_false_iff.mpr hcontrol)⟩⟩

/-- Behind two marks in a row, and in front of other characters, a text goes on with something
that is no quotation mark. -/
lemma writeBasicBody_cons {lines : Bool} {run : Nat} {c : Char}
    (h : c = quote → lines = true → 2 ≤ run) (text : List Char) :
    ∃ first more, writeBasicBody lines run (c :: text) = first :: more ∧ first ≠ quote := by
  obtain ⟨first, more, hwritten, hfirst⟩ := exists_writeBasicBody lines run c text
  refine ⟨first, more, hwritten, ?_⟩
  rintro rfl
  obtain hbackslash | ⟨hc, hraw, -⟩ := hfirst
  · exact absurd hbackslash (by decide)
  · obtain ⟨hlines, hrun⟩ := hraw hc.symm
    exact Nat.not_le.mpr hrun (h hc.symm hlines)

/-- Marks that stand as they are, with no more than one such mark in front, are read as marks: they
are the first of three only if the text ends with them. -/
lemma multiBasicBody_mark {run : Nat} {text rest : List Char} (hrest : rest.head? ≠ some quote)
    (hread : multiBasicBody .within
      (writeBasicBody true (run + 1) text ++ List.replicate 3 quote ++ rest) = some (text, rest)) :
    multiBasicBody .within
      (quote :: (writeBasicBody true (run + 1) text ++ List.replicate 3 quote ++ rest)) =
        some (quote :: text, rest) := by
  have hpush (h : ∀ more, writeBasicBody true (run + 1) text ++ List.replicate 3 quote ++ rest ≠
      quote :: quote :: more) :
      multiBasicBody .within
        (quote :: (writeBasicBody true (run + 1) text ++ List.replicate 3 quote ++ rest)) =
          some (quote :: text, rest) := by
    rw [multiBasicBody_quote h, hread]
    rfl
  match text with
  | [] =>
    have hclosing := closing_replicate (by decide : 1 ≤ 2) hrest
    exact (multiBasicBody_closing (quote :: rest)).trans hclosing
  | c :: text =>
    by_cases hc : c = quote → true = true → 2 ≤ run + 1
    case pos =>
      obtain ⟨first, more, hwritten, hfirst⟩ := writeBasicBody_cons hc text
      refine hpush fun others heq => hfirst ?_
      rw [hwritten] at heq
      exact (List.cons.inj heq).1
    case neg =>
      obtain ⟨rfl, -, hrun⟩ : c = quote ∧ True ∧ ¬2 ≤ run + 1 := by simpa using hc
      obtain rfl : run = 0 := by omega
      have hwritten : writeBasicBody true 1 (quote :: text) =
          quote :: writeBasicBody true 2 text := rfl
      match text with
      | [] =>
        have hclosing := closing_replicate (by decide : 2 ≤ 2) hrest
        exact (multiBasicBody_closing (quote :: quote :: rest)).trans hclosing
      | d :: text =>
        obtain ⟨first, more, hnext, hfirst⟩ :=
          writeBasicBody_cons (c := d) (fun _ _ => Nat.le_refl 2) text
        refine hpush fun others heq => hfirst ?_
        rw [hwritten, hnext] at heq
        exact (List.cons.inj (List.cons.inj heq).2).1

/-- **Texts over several lines between quotation marks** are read back.

**Proof sketch.** Induction on the text. Each character is written as itself or as an escape, and a
quotation mark that stands as it is is counted back from the closing ones if the text ends with it
(`multiBasicBody_mark`). -/
theorem multiBasicBody_writeBasicBody (run : Nat) (text : List Char) {rest : List Char}
    (hrest : rest.head? ≠ some quote) :
    multiBasicBody .within (writeBasicBody true run text ++ List.replicate 3 quote ++ rest) =
      some (text, rest) := by
  induction text generalizing run with
  | nil =>
    rw [writeBasicBody, List.nil_append]
    exact (multiBasicBody_closing rest).trans (closing_replicate (Nat.zero_le 2) hrest)
  | cons c text ih =>
    by_cases hquote : c = quote
    case pos =>
      subst hquote
      by_cases hrun : run < 2
      case neg =>
        have hwritten : writeBasicBody true run (quote :: text) =
            backslash :: quote :: writeBasicBody true 0 text := by
          rw [writeBasicBody, if_pos rfl, Bool.true_and, if_neg (by simpa using hrun)]
        rw [hwritten]
        simp only [List.cons_append]
        rw [unescapes_multiBasicBody.letter quote quote _ rfl, ih]
        rfl
      have hwritten : writeBasicBody true run (quote :: text) =
          quote :: writeBasicBody true (run + 1) text := by
        rw [writeBasicBody, if_pos rfl, Bool.true_and, if_pos (by simpa using hrun)]
      rw [hwritten]
      exact multiBasicBody_mark hrest (ih (run + 1))
    case neg =>
      rw [writeBasicBody, if_neg hquote]
      split
      · next hbackslash =>
        subst hbackslash
        simp only [List.cons_append]
        rw [unescapes_multiBasicBody.letter backslash backslash _ rfl, ih]
        rfl
      split
      · next hbackslash hline =>
        obtain rfl : c = '\n' := by simpa using hline
        simp only [List.cons_append]
        rw [multiBasicBody_newline, ih]
        rfl
      split
      · next hcontrol =>
        rw [List.append_assoc, List.append_assoc, unescapes_multiBasicBody.controlEscape hcontrol,
          ← List.append_assoc, ih]
        rfl
      · next hbackslash _ hcontrol =>
        have hforbidden := isForbidden_of_not_isControl (Bool.eq_false_iff.mpr hcontrol)
        simp only [List.cons_append]
        rw [multiBasicBody_cons hquote hbackslash hforbidden, ih]
        rfl

/-! ## Between apostrophes -/

/-- **Texts on one line between apostrophes** are read as they stand. -/
theorem literalBody_append {text : List Char} (rest : List Char)
    (h : ∀ c ∈ text, c ≠ apostrophe ∧ isForbidden c = false) :
    literalBody (text ++ apostrophe :: rest) = some (text, rest) := by
  induction text with
  | nil => rw [List.nil_append, literalBody, if_pos rfl]
  | cons c text ih =>
    rw [List.forall_mem_cons] at h
    obtain ⟨⟨hc, hforbidden⟩, htext⟩ := h
    rw [List.cons_append, literalBody, if_neg hc, hforbidden, if_neg Bool.false_ne_true, ih htext]
    rfl

/-- A run is at least as long as what was counted of it. -/
lemma le_longestRun (mark : Char) (run : Nat) (text : List Char) :
    run ≤ longestRun mark run text := by
  induction text generalizing run with
  | nil => exact Nat.le_refl run
  | cons c text ih =>
    rw [longestRun]
    split
    · exact Nat.le_of_succ_le (ih (run + 1))
    · exact Nat.le_max_left _ _

/-- A text without runs of a mark does not have the mark. -/
lemma not_mem_of_longestRun {mark : Char} {text : List Char} (h : longestRun mark 0 text = 0) :
    mark ∉ text := by
  induction text with
  | nil => exact List.not_mem_nil
  | cons c text ih =>
    rw [longestRun] at h
    split at h
    · have hle := le_longestRun mark (0 + 1) text
      omega
    · next hc =>
      have hrest : longestRun mark 0 text = 0 := by omega
      rw [List.mem_cons, not_or]
      exact ⟨Ne.symm hc, ih hrest⟩

/-- A line end stands for itself between apostrophes over several lines. -/
lemma multiLiteralBody_newline (rest : List Char) :
    multiLiteralBody ('\n' :: rest) = push '\n' (multiLiteralBody rest) := by
  rw [multiLiteralBody.eq_def]
  dsimp only
  rw [if_neg (by decide), if_pos rfl]

/-- So does every character that is no line end and no apostrophe. -/
lemma multiLiteralBody_cons {c : Char} (hapostrophe : c ≠ apostrophe)
    (hforbidden : isForbidden c = false) (rest : List Char) :
    multiLiteralBody (c :: rest) = push c (multiLiteralBody rest) := by
  obtain ⟨hline, hreturn⟩ := ne_of_not_isForbidden hforbidden
  rw [multiLiteralBody.eq_def]
  dsimp only
  rw [if_neg hreturn, if_neg hline, if_neg hapostrophe, hforbidden, if_neg Bool.false_ne_true]

/-- An apostrophe stands for itself if it is not the first of three. -/
lemma multiLiteralBody_apostrophe {rest : List Char}
    (h : ∀ more, rest ≠ apostrophe :: apostrophe :: more) :
    multiLiteralBody (apostrophe :: rest) = push apostrophe (multiLiteralBody rest) := by
  rw [multiLiteralBody.eq_def]
  dsimp only
  rw [if_neg (by decide), if_neg (by decide), if_pos rfl]
  split
  · exact absurd rfl (h _)
  · rfl

/-- Three apostrophes close a text. -/
lemma multiLiteralBody_closing (rest : List Char) :
    multiLiteralBody (apostrophe :: apostrophe :: apostrophe :: rest) =
      closing apostrophe rest := by
  rw [multiLiteralBody.eq_def]
  dsimp only
  rw [if_neg (by decide), if_neg (by decide), if_pos rfl]
  rfl

/-- Apostrophes that do not run to three are read as apostrophes, also in front of the closing
ones. -/
lemma multiLiteralBody_mark {run : Nat} {text rest : List Char}
    (hrest : rest.head? ≠ some apostrophe)
    (hrun : longestRun apostrophe run (apostrophe :: text) ≤ 2)
    (hread : multiLiteralBody (text ++ List.replicate 3 apostrophe ++ rest) = some (text, rest)) :
    multiLiteralBody (apostrophe :: (text ++ List.replicate 3 apostrophe ++ rest)) =
      some (apostrophe :: text, rest) := by
  have hpush (h : ∀ more, text ++ List.replicate 3 apostrophe ++ rest ≠
      apostrophe :: apostrophe :: more) :
      multiLiteralBody (apostrophe :: (text ++ List.replicate 3 apostrophe ++ rest)) =
        some (apostrophe :: text, rest) := by
    rw [multiLiteralBody_apostrophe h, hread]
    rfl
  match text with
  | [] =>
    have hclosing := closing_replicate (by decide : 1 ≤ 2) hrest
    exact (multiLiteralBody_closing (apostrophe :: rest)).trans hclosing
  | [c] =>
    by_cases hc : c = apostrophe
    · subst hc
      have hclosing := closing_replicate (by decide : 2 ≤ 2) hrest
      exact (multiLiteralBody_closing (apostrophe :: apostrophe :: rest)).trans hclosing
    · exact hpush fun more heq => hc (List.cons.inj heq).1
  | c :: d :: text =>
    refine hpush fun more heq => ?_
    obtain ⟨rfl, hmore⟩ := List.cons.inj heq
    obtain ⟨rfl, -⟩ := List.cons.inj hmore
    have hlong := le_longestRun apostrophe (run + 1 + 1 + 1) text
    simp only [longestRun, if_pos] at hrun
    omega

/-- **Texts over several lines between apostrophes** are read as they stand.

**Proof sketch.** Induction on the text; the apostrophes in a row that were passed are counted. -/
theorem multiLiteralBody_append {text rest : List Char} (run : Nat)
    (hrest : rest.head? ≠ some apostrophe) (hescapes : ∀ c ∈ text, needsEscape c = false)
    (hrun : longestRun apostrophe run text ≤ 2) :
    multiLiteralBody (text ++ List.replicate 3 apostrophe ++ rest) = some (text, rest) := by
  induction text generalizing run with
  | nil =>
    rw [List.nil_append]
    exact (multiLiteralBody_closing rest).trans (closing_replicate (Nat.zero_le 2) hrest)
  | cons c text ih =>
    rw [List.forall_mem_cons] at hescapes
    obtain ⟨hc, htext⟩ := hescapes
    by_cases hmark : c = apostrophe
    · subst hmark
      rw [List.cons_append, List.cons_append]
      refine multiLiteralBody_mark hrest hrun (ih (run + 1) htext ?_)
      rwa [longestRun, if_pos rfl] at hrun
    · rw [longestRun, if_neg hmark] at hrun
      have hread := ih 0 htext (by omega)
      rw [List.cons_append, List.cons_append]
      by_cases hline : c = '\n'
      · subst hline
        rw [multiLiteralBody_newline, hread]
        rfl
      · have hforbidden : isForbidden c = false := by simpa [needsEscape, hline] using hc
        rw [multiLiteralBody_cons hmark hforbidden, hread]
        rfl

/-! ## All four ways -/

/-- What stands behind a quoted text: no further mark. -/
def Unmarked (rest : List Char) : Prop :=
  rest.head? ≠ some quote ∧ rest.head? ≠ some apostrophe

section

variable {text rest : List Char}

/-- A text on one line between quotation marks is read back. -/
lemma quotedText_basic (text : List Char) (hrest : Unmarked rest) :
    quotedText (writeStyled .basic text ++ rest) = some (text, rest) := by
  have hwritten : writeStyled .basic text ++ rest =
      quote :: (writeBasicBody false 0 text ++ quote :: rest) := by simp [writeStyled]
  have hthree (more : List Char) :
      writeBasicBody false 0 text ++ quote :: rest ≠ quote :: quote :: more := by
    intro heq
    cases text with
    | nil => exact hrest.1 (congrArg List.head? (List.cons.inj heq).2)
    | cons c text =>
      have hline : c = quote → false = true → 2 ≤ 0 := fun _ h => by cases h
      obtain ⟨first, others, hbody, hfirst⟩ := writeBasicBody_cons hline text
      rw [hbody] at heq
      exact hfirst (List.cons.inj heq).1
  rw [hwritten, quotedText.eq_def]
  split
  · next heq => exact absurd (List.cons.inj heq).2 (hthree _)
  · next heq => exact absurd (List.cons.inj heq).1 (by decide)
  · exact basicBody_writeBasicBody 0 text rest

/-- A text on one line between apostrophes is read back. -/
lemma quotedText_literal (hrest : Unmarked rest)
    (h : ∀ c ∈ text, c ≠ apostrophe ∧ isForbidden c = false) :
    quotedText (writeStyled .literal text ++ rest) = some (text, rest) := by
  have hwritten : writeStyled .literal text ++ rest =
      apostrophe :: (text ++ apostrophe :: rest) := by simp [writeStyled]
  have hthree (more : List Char) :
      text ++ apostrophe :: rest ≠ apostrophe :: apostrophe :: more := by
    intro heq
    cases text with
    | nil => exact hrest.2 (congrArg List.head? (List.cons.inj heq).2)
    | cons c text => exact (h c List.mem_cons_self).1 (List.cons.inj heq).1
  rw [hwritten, quotedText.eq_def]
  split
  · next heq => exact absurd (List.cons.inj heq).1 (by decide)
  · next heq => exact absurd (List.cons.inj heq).2 (hthree _)
  · exact literalBody_append rest h

/-- The line end in front of a text with line ends does not belong to it; no other text starts with
one. -/
lemma dropNewline_append (body : List Char)
    (h : '\n' ∉ text → ∀ c ∈ body.head?, c ≠ '\n' ∧ c ≠ '\r') :
    dropNewline ((if text.contains '\n' then ['\n'] else []) ++ body) = body := by
  by_cases hline : '\n' ∈ text
  · rw [if_pos (List.contains_iff_mem.mpr hline)]
    rfl
  · rw [if_neg (List.contains_iff_mem.not.mpr hline), List.nil_append, dropNewline]
    cases body with
    | nil => rfl
    | cons c body =>
      obtain ⟨hnewline, hreturn⟩ := h hline c rfl
      have hnone : newline? (c :: body) = none := by
        rw [newline?.eq_def]
        split
        · next heq => exact absurd (List.cons.inj heq).1 hnewline
        · next heq => exact absurd (List.cons.inj heq).1 hreturn
        · rfl
      rw [hnone, Option.getD_none]

/-- A text over several lines between quotation marks is read back. -/
lemma quotedText_multiBasic (text : List Char) (hrest : Unmarked rest) :
    quotedText (writeStyled .multiBasic text ++ rest) = some (text, rest) := by
  have hwritten : writeStyled .multiBasic text ++ rest =
      quote :: quote :: quote :: ((if text.contains '\n' then ['\n'] else []) ++
        (writeBasicBody true 0 text ++ List.replicate 3 quote ++ rest)) := by
    simp [writeStyled, List.replicate]
  rw [hwritten]
  refine (congrArg (multiBasicBody .within) (dropNewline_append _ fun hline => ?_)).trans
    (multiBasicBody_writeBasicBody 0 text hrest.1)
  cases text with
  | nil =>
    rintro _ ⟨⟩
    exact ⟨by decide, by decide⟩
  | cons c text =>
    obtain ⟨first, more, hbody, hfirst⟩ := exists_writeBasicBody true 0 c text
    rw [hbody]
    rintro _ ⟨⟩
    obtain rfl | ⟨rfl, -, rfl | hcontrol⟩ := hfirst
    · exact ⟨by decide, by decide⟩
    · exact absurd List.mem_cons_self hline
    · exact ne_of_not_isForbidden (isForbidden_of_not_isControl hcontrol)

/-- A text over several lines between apostrophes is read back. -/
lemma quotedText_multiLiteral (hrest : Unmarked rest)
    (hescapes : ∀ c ∈ text, needsEscape c = false) (hrun : longestRun apostrophe 0 text ≤ 2) :
    quotedText (writeStyled .multiLiteral text ++ rest) = some (text, rest) := by
  have hwritten : writeStyled .multiLiteral text ++ rest =
      apostrophe :: apostrophe :: apostrophe :: ((if text.contains '\n' then ['\n'] else []) ++
        (text ++ List.replicate 3 apostrophe ++ rest)) := by
    simp [writeStyled, List.replicate]
  rw [hwritten]
  refine (congrArg multiLiteralBody (dropNewline_append _ fun hline => ?_)).trans
    (multiLiteralBody_append 0 hrest.2 hescapes hrun)
  cases text with
  | nil =>
    rintro _ ⟨⟩
    exact ⟨by decide, by decide⟩
  | cons c text =>
    rintro _ ⟨⟩
    have hc : c ≠ '\n' := fun h => hline (h ▸ List.mem_cons_self)
    have hforbidden : isForbidden c = false := by
      simpa [needsEscape, hc] using hescapes c List.mem_cons_self
    exact ne_of_not_isForbidden hforbidden

/-- **Quoted texts** are read back, in whatever way they are written, up to where they end.

**Proof sketch.** By cases on the way that is chosen. Between quotation marks every text is read
back; apostrophes are chosen only for texts without control characters, and on one line without
apostrophes and line ends, or over several lines without three apostrophes in a row. -/
theorem quotedText_writeQuoted (text : List Char) (hrest : Unmarked rest) :
    quotedText (writeQuoted text ++ rest) = some (text, rest) := by
  have hescapes (h : (!text.any needsEscape) = true) : ∀ c ∈ text, needsEscape c = false := by
    simpa using h
  unfold writeQuoted styleOf
  dsimp only
  split
  · exact quotedText_basic text hrest
  split
  · next h =>
    simp only [Bool.and_eq_true, decide_eq_true_eq] at h
    obtain ⟨⟨hplain, hrun⟩, hline⟩ := h
    refine quotedText_literal hrest fun c hc => ⟨?_, ?_⟩
    · rintro rfl
      exact not_mem_of_longestRun hrun hc
    · have hnewline : c ≠ '\n' := by
        rintro rfl
        simp [hc] at hline
      simpa [needsEscape, hnewline] using hescapes hplain c hc
  split
  · exact quotedText_multiBasic text hrest
  split
  · next h =>
    simp only [Bool.and_eq_true, decide_eq_true_eq] at h
    exact quotedText_multiLiteral hrest (hescapes h.1) h.2
  split
  · exact quotedText_multiBasic text hrest
  · exact quotedText_basic text hrest

end

end Toml

end Inference
