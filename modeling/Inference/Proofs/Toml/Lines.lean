import Inference.Proofs.Toml.Quoting
import Inference.Toml.Document
import Mathlib.Data.List.Basic
import Mathlib.Data.List.Nodup

set_option autoImplicit false
set_option relaxedAutoImplicit false

/-!
# Lines of definitions

A text of lines, each with a key, an equals sign and a value, is the table with these keys and
values, in the order of the lines. Quoted texts, integers of 64 bits and truth values can stand
there as they are written.

## Main definitions

* `Toml.Writes` — a written form of a value, read back up to the end of its line.
* `Toml.Line`, `Toml.Line.text`, `Toml.Line.Sound` — a line, its text, and when it is one.

## Main results

* `Toml.integer?_toString` — an integer is read back from its decimal digits.
* `Toml.writes_quoted`, `Toml.writes_integer`, `Toml.writes_truth` — written forms.
* `Toml.document?_lines` — a text of lines is the table of its definitions.
-/

namespace Inference

namespace Toml

/-! ## Decimal integers -/

/-- Digits are a run of digits. -/
lemma digitRun?_of_digits {digits : List Char} (hne : digits ≠ [])
    (h : ∀ c ∈ digits, c.isDigit = true) : digitRun? Char.isDigit digits = some digits := by
  induction digits with
  | nil => exact absurd rfl hne
  | cons c digits ih =>
    rw [List.forall_mem_cons] at h
    obtain ⟨hc, hrest⟩ := h
    cases digits with
    | nil => simp [digitRun?, hc]
    | cons d digits =>
      have hd : d ≠ '_' := by
        rintro rfl
        exact absurd (hrest '_' List.mem_cons_self) (by decide)
      rw [digitRun?.eq_def]
      split
      · contradiction
      · next heq => exact absurd (List.cons.inj heq).2 (List.cons_ne_nil _ _)
      · next heq => exact absurd (List.cons.inj (List.cons.inj heq).2).1 hd
      · next heq =>
        obtain ⟨rfl, rfl⟩ := List.cons.inj heq
        rw [if_pos hc, ih (List.cons_ne_nil _ _) hrest]
        rfl

/-- The number that decimal digits stand for. -/
lemma numberOf_ten {digits : List Char} (h : ∀ c ∈ digits, c.isDigit = true) :
    numberOf 10 digits = Nat.ofDigitChars 10 digits 0 := by
  unfold numberOf Nat.ofDigitChars
  refine List.foldl_ext _ _ _ fun n c hc => ?_
  rw [hexValue?, if_pos (h c hc)]
  rfl

/-- Only zero is written with a zero in front. -/
lemma eq_nil_of_toDigits_zero (n : Nat) {rest : List Char} (h : Nat.toDigits 10 n = '0' :: rest) :
    rest = [] := by
  induction n using Nat.strongRecOn generalizing rest with
  | ind n ih =>
    by_cases hn : n < 10
    · rw [Nat.toDigits_of_lt_base hn] at h
      exact (List.cons.inj h).2.symm
    · have hten : 10 ≤ n := Nat.not_lt.mp hn
      rw [Nat.toDigits_of_base_le (by decide) hten] at h
      cases hfront : Nat.toDigits 10 (n / 10) with
      | nil => exact absurd hfront Nat.toDigits_ne_nil
      | cons c front =>
        rw [hfront] at h
        obtain rfl := (List.cons.inj h).1
        obtain rfl := ih (n / 10) (by omega) hfront
        have hvalue := Nat.ofDigitChars_ten_toDigits (n := n / 10)
        rw [hfront] at hvalue
        have hzero : Nat.ofDigitChars 10 ['0'] 0 = 0 := by decide
        omega

/-- The digits of a number are digits. -/
lemma isDigit_of_mem_toDigits {n : Nat} : ∀ c ∈ Nat.toDigits 10 n, c.isDigit = true :=
  fun _ hc => Nat.isDigit_of_mem_toDigits (by decide) (by decide) hc

/-- The digits of a number are an unsigned decimal number. -/
lemma decimalRun?_toDigits (n : Nat) :
    decimalRun? (Nat.toDigits 10 n) = some (Nat.toDigits 10 n) := by
  unfold decimalRun?
  split
  · next heq => exact absurd (eq_nil_of_toDigits_zero n heq) (List.cons_ne_nil _ _)
  · exact digitRun?_of_digits Nat.toDigits_ne_nil isDigit_of_mem_toDigits

/-- An integer as it is written: its digits, behind a minus sign if it is negative. -/
lemma toList_toString (n : Int) :
    (toString n).toList =
      if n < 0 then '-' :: Nat.toDigits 10 n.natAbs else Nat.toDigits 10 n.natAbs := by
  cases n with
  | ofNat n => exact Nat.toList_repr
  | negSucc n =>
    change ("-" ++ (n + 1).repr).toList = _
    rw [String.toList_append, Nat.toList_repr, if_pos (Int.negSucc_lt_zero n)]
    rfl

/-- It consists of digits and signs. -/
lemma mem_toString {n : Int} {c : Char} (h : c ∈ (toString n).toList) :
    c = '-' ∨ c.isDigit = true := by
  rw [toList_toString] at h
  split at h
  · exact (List.mem_cons.mp h).imp_right (isDigit_of_mem_toDigits c)
  · exact .inr (isDigit_of_mem_toDigits c h)

/-- **Integers** of 64 bits are read back from their decimal digits. -/
theorem integer?_toString {n : Int} (hlow : -0x8000000000000000 ≤ n)
    (hhigh : n < 0x8000000000000000) : integer? (toString n).toList = some n := by
  have hcheck : checkInteger n = some n := if_pos ⟨hlow, hhigh⟩
  have hnumber : numberOf 10 (Nat.toDigits 10 n.natAbs) = n.natAbs := by
    rw [numberOf_ten isDigit_of_mem_toDigits, Nat.ofDigitChars_ten_toDigits]
  have hbase (c : Char) (hc : c.isDigit = false ∧ c ≠ '-') (front : Char) (rest : List Char) :
      (toString n).toList ≠ front :: c :: rest := by
    intro heq
    have hmem : c ∈ (toString n).toList := by
      rw [heq]
      exact List.mem_cons_of_mem _ List.mem_cons_self
    obtain rfl | hdigit := mem_toString hmem
    · exact hc.2 rfl
    · exact absurd hdigit (by simp [hc.1])
  rw [integer?.eq_def]
  split
  · next heq => exact absurd heq (hbase 'x' (by decide) _ _)
  · next heq => exact absurd heq (hbase 'o' (by decide) _ _)
  · next heq => exact absurd heq (hbase 'b' (by decide) _ _)
  · rw [toList_toString]
    by_cases hneg : n < 0
    · have habs : -(n.natAbs : Int) = n := by omega
      simp only [if_pos hneg, splitSign, decimalRun?_toDigits, hnumber, if_true, habs, hcheck]
    · have habs : (n.natAbs : Int) = n := by omega
      have hsign : splitSign (Nat.toDigits 10 n.natAbs) = (false, Nat.toDigits 10 n.natAbs) := by
        have hdigits := isDigit_of_mem_toDigits (n := n.natAbs)
        unfold splitSign
        split
        · next heq => exact absurd (hdigits '-' (heq ▸ List.mem_cons_self)) (by decide)
        · next heq => exact absurd (hdigits '+' (heq ▸ List.mem_cons_self)) (by decide)
        · rfl
      simp only [if_neg hneg, hsign, decimalRun?_toDigits, hnumber, Bool.false_eq_true, if_false,
        habs, hcheck]

/-! ## Written forms of values -/

/-- A written form of a value: it starts with no blank, and in front of a line end the value is read
off it. -/
structure Writes (written : List Char) (v : Value) : Prop where
  start : ∃ c more, written = c :: more ∧ isLineBlank c = false
  value_eq : ∀ rest, value depthLimit (written ++ '\n' :: rest) = some (v, '\n' :: rest)

/-- A literal reaches up to the end of its line. -/
lemma literalValue_append {written : List Char} (h : ∀ c ∈ written, isLiteralChar c = true)
    (rest : List Char) :
    literalValue (written ++ '\n' :: rest) =
      (literal? written).map fun v => (v, '\n' :: rest) := by
  have htake : (written ++ '\n' :: rest).takeWhile isLiteralChar = written := by
    rw [List.takeWhile_append_of_pos h, List.takeWhile_cons_of_neg (by decide), List.append_nil]
  have hsplit : splitLiteral (written ++ '\n' :: rest) = (written, '\n' :: rest) := by
    unfold splitLiteral
    simp only [htake, List.drop_left]
    rfl
  rw [literalValue, hsplit]

/-- A literal that starts with no quotation mark, apostrophe or bracket is a value. -/
lemma writes_literal {written : List Char} {v : Value} {c : Char} {more : List Char}
    (hstart : written = c :: more) (hliteral : ∀ c ∈ written, isLiteralChar c = true)
    (hvalue : literal? written = some v) : Writes written v where
  start := by
    refine ⟨c, more, hstart, Bool.eq_false_iff.mpr fun hblank => ?_⟩
    have hc := hliteral c (hstart ▸ List.mem_cons_self)
    simp only [isLineBlank, Bool.or_eq_true, decide_eq_true_eq] at hblank
    obtain rfl | rfl := hblank
    · exact absurd hc (by decide)
    · exact absurd hc (by decide)
  value_eq := by
    intro rest
    have hread := literalValue_append hliteral rest
    rw [hvalue, Option.map_some] at hread
    have hc := hliteral c (hstart ▸ List.mem_cons_self)
    have hne (d : Char) (hd : isLiteralChar d = false) (others : List Char) :
        written ++ '\n' :: rest ≠ d :: others := by
      intro heq
      rw [hstart] at heq
      obtain rfl := (List.cons.inj heq).1
      exact absurd hc (by simp [hd])
    rw [depthLimit, value.eq_def]
    dsimp only
    split
    · next heq => exact absurd heq (hne _ (by decide) _)
    · next heq => exact absurd heq (hne _ (by decide) _)
    · next heq => exact absurd heq (hne _ (by decide) _)
    · next heq => exact absurd heq (hne _ (by decide) _)
    · exact hread

/-- **Quoted texts** are written forms. -/
theorem writes_quoted (text : String) : Writes (writeQuoted text.toList) (.text text) := by
  have hstart : ∃ c more, writeQuoted text.toList = c :: more ∧ (c = quote ∨ c = apostrophe) := by
    unfold writeQuoted writeStyled
    cases styleOf text.toList
    · exact ⟨_, _, rfl, .inl rfl⟩
    · exact ⟨_, _, rfl, .inr rfl⟩
    · exact ⟨_, _, rfl, .inl rfl⟩
    · exact ⟨_, _, rfl, .inr rfl⟩
  obtain ⟨c, more, hwritten, hc⟩ := hstart
  constructor
  · obtain rfl | rfl := hc
    · exact ⟨_, more, hwritten, by decide⟩
    · exact ⟨_, more, hwritten, by decide⟩
  · intro rest
    have hunmarked : Unmarked ('\n' :: rest) := ⟨by simp [quote], by simp [apostrophe]⟩
    have hread := quotedText_writeQuoted text.toList hunmarked
    rw [hwritten] at hread ⊢
    obtain rfl | rfl := hc
    · change (quotedText _).map _ = _
      simp only [hread, Option.map_some, String.ofList_toList]
    · change (quotedText _).map _ = _
      simp only [hread, Option.map_some, String.ofList_toList]

/-- **Integers** of 64 bits are written as their decimal digits. -/
theorem writes_integer {n : Int} (hlow : -0x8000000000000000 ≤ n)
    (hhigh : n < 0x8000000000000000) : Writes (toString n).toList (.integer n) := by
  have hsome := integer?_toString hlow hhigh
  have hword (word : List Char) (hword : ∃ c ∈ word, c ≠ '-' ∧ c.isDigit = false) :
      (toString n).toList ≠ word := by
    rintro rfl
    obtain ⟨c, hc, hminus, hdigit⟩ := hword
    obtain h | h := mem_toString hc
    · exact hminus h
    · exact absurd h (by simp [hdigit])
  cases hwritten : (toString n).toList with
  | nil =>
    rw [hwritten] at hsome
    cases hsome
  | cons c more =>
    rw [← hwritten]
    refine writes_literal hwritten (fun d hd => ?_) ?_
    · obtain rfl | hdigit := mem_toString hd
      · decide
      · simp [isLiteralChar, Char.isAlphanum, hdigit]
    · rw [literal?, if_neg (hword _ ⟨'t', by decide⟩), if_neg (hword _ ⟨'f', by decide⟩), hsome]

/-- **Truth values** are written as words. -/
theorem writes_truth (b : Bool) : Writes (toString b).toList (.truth b) := by
  have hword (b : Bool) : (toString b).toList.all isLiteralChar = true := by
    cases b <;> decide
  cases b with
  | true => exact writes_literal rfl (List.all_eq_true.mp (hword true)) rfl
  | false => exact writes_literal rfl (List.all_eq_true.mp (hword false)) rfl

/-! ## Keys -/

/-- A character that no bare key has is not in one. -/
lemma ne_of_isBareKey {c d : Char} (hc : isBareKey c = true) (hd : isBareKey d = false) :
    c ≠ d := by
  rintro rfl
  exact absurd hc (by simp [hd])

section

variable {key : List Char}

/-- A key without quotes reaches up to the first other character. -/
lemma simpleKey_append (hne : key ≠ []) (hkey : ∀ c ∈ key, isBareKey c = true)
    (rest : List Char) :
    simpleKey (key ++ ' ' :: rest) = some (String.ofList key, ' ' :: rest) := by
  have hnone : lineText (key ++ ' ' :: rest) = none := by
    cases key with
    | nil => exact absurd rfl hne
    | cons c key =>
      have hc := hkey c List.mem_cons_self
      rw [lineText.eq_def]
      split
      · next heq => exact absurd (List.cons.inj heq).1 (ne_of_isBareKey hc (by decide))
      · next heq => exact absurd (List.cons.inj heq).1 (ne_of_isBareKey hc (by decide))
      · rfl
  have htake : (key ++ ' ' :: rest).takeWhile isBareKey = key := by
    rw [List.takeWhile_append_of_pos hkey, List.takeWhile_cons_of_neg (by decide),
      List.append_nil]
  have hnonempty : key.isEmpty = false := List.isEmpty_eq_false_iff.mpr hne
  simp only [simpleKey, hnone, htake, hnonempty, List.drop_left, Bool.false_eq_true, if_false]

/-- A text that starts with no blank has none to skip. -/
lemma skipBlanks_cons {c : Char} (h : isLineBlank c = false) (rest : List Char) :
    skipBlanks (c :: rest) = c :: rest :=
  List.dropWhile_cons_of_neg (by simp [h])

/-- A key without quotes and dots is a path of one part. -/
lemma keyPath_append (hne : key ≠ []) (hkey : ∀ c ∈ key, isBareKey c = true) (rest : List Char) :
    keyPath (key ++ ' ' :: '=' :: rest) = some (([], String.ofList key), '=' :: rest) := by
  have hblanks : skipBlanks (key ++ ' ' :: '=' :: rest) = key ++ ' ' :: '=' :: rest := by
    cases key with
    | nil => exact absurd rfl hne
    | cons c key =>
      refine skipBlanks_cons (Bool.eq_false_iff.mpr fun hblank => ?_) _
      simp only [isLineBlank, Bool.or_eq_true, decide_eq_true_eq] at hblank
      obtain rfl | rfl := hblank
      · exact absurd (hkey ' ' List.mem_cons_self) (by decide)
      · exact absurd (hkey '\t' List.mem_cons_self) (by decide)
  have hparts : keyParts (depthLimit - 1) (key ++ ' ' :: '=' :: rest) =
      some ([String.ofList key], '=' :: rest) := by
    change keyParts (78 + 1) _ = _
    rw [keyParts, hblanks, simpleKey_append hne hkey]
    rfl
  rw [keyPath, hparts]
  rfl

/-! ## Lines -/

/-- A line: its key, its value as it is written, and the value. -/
structure Line where
  key : List Char
  written : List Char
  value : Value

namespace Line

/-- The text of a line. -/
def text (line : Line) : List Char :=
  line.key ++ ' ' :: '=' :: ' ' :: (line.written ++ ['\n'])

/-- The definition on a line. -/
def entry (line : Line) : String × Item :=
  (String.ofList line.key, .value line.value)

/-- A line with a key without quotes and a written form of its value. -/
structure Sound (line : Line) : Prop where
  key_ne : line.key ≠ []
  key_bare : ∀ c ∈ line.key, isBareKey c = true
  writes : Writes line.written line.value

variable {line : Line}

/-- The definition on a line is read up to the end of the line. -/
lemma Sound.definition_eq (h : line.Sound) (rest : List Char) :
    definition (Toml.value depthLimit) (line.text ++ rest) =
      some ((([], String.ofList line.key), line.value), '\n' :: rest) := by
  have htext : line.text ++ rest =
      line.key ++ ' ' :: '=' :: (' ' :: (line.written ++ '\n' :: rest)) := by
    simp [text]
  have hblanks : skipBlanks (' ' :: (line.written ++ '\n' :: rest)) =
      line.written ++ '\n' :: rest := by
    obtain ⟨c, more, hwritten, hc⟩ := h.writes.start
    have hdrop : skipBlanks (' ' :: (line.written ++ '\n' :: rest)) =
        skipBlanks (line.written ++ '\n' :: rest) := rfl
    rw [hdrop, hwritten]
    exact skipBlanks_cons hc _
  rw [htext, definition, keyPath_append h.key_ne h.key_bare]
  change (Toml.value depthLimit (skipBlanks _)).bind _ = _
  rw [hblanks, h.writes.value_eq]
  rfl

/-- A line starts with a character of its key. -/
lemma Sound.exists_start (h : line.Sound) :
    ∃ c more, line.text = c :: more ∧ isBareKey c = true := by
  cases hkey : line.key with
  | nil => exact absurd hkey h.key_ne
  | cons c key =>
    have hc := h.key_bare c (hkey ▸ List.mem_cons_self)
    exact ⟨c, _, by rw [text, hkey]; rfl, hc⟩

end Line

end

/-! ## Documents -/

/-- Nothing is to be skipped in front of a key. -/
lemma skipLines_of_start {text : List Char} {c : Char} {more : List Char} (htext : text = c :: more)
    (hc : isBareKey c = true) : skipLines text = text := by
  subst htext
  have hblank : isLineBlank c = false := by
    simp only [isLineBlank, Bool.or_eq_false_iff, decide_eq_false_iff_not]
    exact ⟨ne_of_isBareKey hc (by decide), ne_of_isBareKey hc (by decide)⟩
  have hcomment : skipComment (c :: more) = c :: more := by
    unfold skipComment
    split
    · next heq => exact absurd (List.cons.inj heq).1 (ne_of_isBareKey hc (by decide))
    · rfl
  have hnewline : newline? (c :: more) = none := by
    unfold newline?
    split
    · next heq => exact absurd (List.cons.inj heq).1 (ne_of_isBareKey hc (by decide))
    · next heq => exact absurd (List.cons.inj heq).1 (ne_of_isBareKey hc (by decide))
    · rfl
  simp only [skipLines, skipLinesUpTo, skipBlanks_cons hblank, hcomment, hnewline]

/-- A new key is defined at the end of a table. -/
lemma define_of_new {entries : List (String × Item)} {key : String}
    (hnew : key ∉ entries.map Prod.fst) (v : Value) :
    (Table.mk .header entries).define [] key v =
      some (.mk .header (entries ++ [(key, .value v)])) := by
  have hfind : (Table.mk .header entries).find? key = none := Table.find?_eq_none_iff.mpr hnew
  simp [Table.define, Table.update, Table.origin, Table.set, hfind, Table.entries]

/-- One line is read as its definition. -/
lemma readLines_cons {line : Line} (h : line.Sound) {entries : List (String × Item)}
    (hnew : String.ofList line.key ∉ entries.map Prod.fst) (fuel : Nat) (rest : List Char) :
    readLines (fuel + 1) ⟨.mk .header entries, []⟩ (line.text ++ rest) =
      readLines fuel ⟨.mk .header (entries ++ [line.entry]), []⟩ rest := by
  obtain ⟨c, more, hstart, hc⟩ := h.exists_start
  have htext : line.text ++ rest = c :: (more ++ rest) := by rw [hstart, List.cons_append]
  have hline : definitionLine ⟨.mk .header entries, []⟩ (line.text ++ rest) =
      some (⟨.mk .header (entries ++ [line.entry]), []⟩, '\n' :: rest) := by
    rw [definitionLine, h.definition_eq]
    change (Table.define [] _ _ _).bind _ = _
    rw [define_of_new hnew]
    rfl
  rw [readLines, skipLines_of_start htext hc]
  split
  · next heq => exact absurd (htext.symm.trans heq) (List.cons_ne_nil _ _)
  · dsimp only
    split
    · next heq =>
      exact absurd (List.cons.inj (htext.symm.trans heq)).1 (ne_of_isBareKey hc (by decide))
    · rw [hline]
      rfl

/-- Lines are read as their definitions, in order. -/
lemma readLines_lines (entries : List (String × Item)) {lines : List Line}
    (h : ∀ line ∈ lines, line.Sound)
    (hkeys : (entries.map Prod.fst ++ lines.map fun line => String.ofList line.key).Nodup)
    {fuel : Nat} (hfuel : lines.length < fuel) :
    readLines fuel ⟨.mk .header entries, []⟩ (lines.flatMap Line.text) =
      some (.mk .header (entries ++ lines.map Line.entry)) := by
  induction lines generalizing entries fuel with
  | nil =>
    obtain ⟨fuel, rfl⟩ := Nat.exists_eq_add_one_of_ne_zero (Nat.ne_of_gt hfuel)
    rw [List.map_nil, List.append_nil]
    rfl
  | cons line lines ih =>
    rw [List.forall_mem_cons] at h
    obtain ⟨fuel, rfl⟩ := Nat.exists_eq_add_one_of_ne_zero (Nat.ne_zero_of_lt hfuel)
    have hnew : String.ofList line.key ∉ entries.map Prod.fst := by
      intro hmem
      exact List.disjoint_of_nodup_append hkeys hmem List.mem_cons_self
    rw [List.flatMap_cons, readLines_cons h.1 hnew, ih _ h.2 ?_ (Nat.lt_of_succ_lt_succ hfuel),
      List.map_cons, List.append_assoc, List.singleton_append]
    rw [List.map_append, List.append_assoc]
    exact hkeys

/-- **A text of lines** with different keys is the table of their definitions.

**Proof sketch.** No line starts with a byte-order mark, and the text has at least as many
characters as lines, so the fuel suffices. -/
theorem document?_lines {lines : List Line} (h : ∀ line ∈ lines, line.Sound)
    (hkeys : (lines.map fun line => String.ofList line.key).Nodup) {text : String}
    (htext : text.toList = lines.flatMap Line.text) :
    document? text = some (.mk .header (lines.map Line.entry)) := by
  have hfuel : lines.length < (lines.flatMap Line.text).length + 1 := by
    have hlong : lines.length ≤ (lines.flatMap Line.text).length := by
      clear htext hkeys h
      induction lines with
      | nil => exact Nat.le_refl 0
      | cons line lines ih =>
        simp only [List.flatMap_cons, List.length_append, List.length_cons, Line.text]
        omega
    omega
  unfold document?
  rw [htext]
  split
  · next heq =>
    cases lines with
    | nil => cases heq
    | cons line lines =>
      obtain ⟨c, more, hstart, hc⟩ := (h line List.mem_cons_self).exists_start
      rw [List.flatMap_cons, hstart] at heq
      exact absurd (List.cons.inj heq).1 (ne_of_isBareKey hc (by decide))
  · exact readLines_lines [] h hkeys hfuel

end Toml

end Inference
