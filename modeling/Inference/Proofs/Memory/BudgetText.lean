import Inference.Memory.Budget
import Inference.Proofs.Text.Trimming
import Mathlib.Data.List.Find
import Mathlib.Data.List.Infix

set_option autoImplicit false
set_option relaxedAutoImplicit false

/-!
# Budget texts

A budget is written as a decimal numeral, blanks, and the suffix of a unit. The reader takes the
text apart from its end, by the first unit that it ends in, and this finds the suffix that was
written: what stands in front of a suffix ends in a digit or in a blank, so no longer unit ends
where the suffix does. Since the printer writes texts of this form, what it prints is read as the
budget that was printed.

## Main definitions

* `Budget.Numeral` — decimal digits, with or without a plus sign, and their value.
* `Budget.EndsBeforeUnit` — a text behind which a suffix starts.
* `Budget.Wording` — a numeral, blanks and a suffix, with the count and the bytes in a unit.
* `Budget.reading` — the bytes that a text in capitals names.
* `Budget.SameReading` — texts that are read alike.

## Main results

* `Budget.splitUnit_append` — a suffix is split off as it was written.
* `Budget.parse_eq_ok_iff` — the texts that name a budget, and which one.
* `Budget.parse_worded` — what is read of a text, and what it does not depend on.
* `Budget.parse_text` — what is printed is read back.
-/

namespace Inference

namespace Budget

open Text

/-! ## Numerals -/

/-- Decimal digits, with or without a plus sign in front, and the number that they are. -/
def Numeral (text : List Char) (count : Nat) : Prop :=
  ∃ digits, (text = digits ∨ text = '+' :: digits) ∧ digits ≠ [] ∧ (∀ c ∈ digits, c.isDigit) ∧
    count = Nat.ofDigitChars 10 digits 0

/-- The value of digits is the number that they are, behind those that were read before. -/
lemma digitsValue?_eq_some_iff {digits : List Char} {start value : Nat} :
    digitsValue? digits start = some value ↔
      (∀ c ∈ digits, c.isDigit) ∧ value = Nat.ofDigitChars 10 digits start := by
  induction digits generalizing start with
  | nil =>
    rw [digitsValue?, Nat.ofDigitChars_nil, Option.some_inj]
    exact ⟨fun h => ⟨List.forall_mem_nil _, h.symm⟩, fun h => h.2.symm⟩
  | cons c digits ih =>
    rw [digitsValue?, Nat.ofDigitChars_cons, List.forall_mem_cons]
    by_cases hc : c.isDigit
    · rw [if_pos hc, ih]
      exact and_congr_left' (and_iff_right hc).symm
    · rw [if_neg hc]
      exact iff_of_false (by simp) fun h => hc h.1.1

/-- **Counts** are the numerals of numbers that fit a word. -/
theorem count?_eq_some_iff {text : List Char} {count : Nat} :
    count? text = some count ↔ Numeral text count ∧ count < wordLimit := by
  have hvalue (digits : List Char) :
      (if digits.isEmpty then none else (digitsValue? digits 0).filter (· < wordLimit)) =
          some count ↔
        (digits ≠ [] ∧ (∀ c ∈ digits, c.isDigit) ∧ count = Nat.ofDigitChars 10 digits 0) ∧
          count < wordLimit := by
    rw [← digitsValue?_eq_some_iff]
    cases digits with
    | nil => simp
    | cons c digits => simp [Option.filter_eq_some_iff]
  refine (hvalue _).trans (and_congr_left' ?_)
  split
  · next rest =>
    refine ⟨fun h => ⟨rest, .inr rfl, h⟩, ?_⟩
    rintro ⟨digits, rfl | h, hdigits⟩
    · exact absurd (hdigits.2.1 '+' List.mem_cons_self) (by decide)
    · rw [(List.cons_inj_right _).mp h]
      exact hdigits
  · next hplus =>
    refine ⟨fun h => ⟨text, .inl rfl, h⟩, ?_⟩
    rintro ⟨digits, rfl | h, hdigits⟩
    · exact hdigits
    · exact absurd h (hplus digits)

/-- Numerals consist of digits and signs. -/
lemma Numeral.forall_mem {numeral : List Char} {count : Nat} (h : Numeral numeral count) :
    ∀ c ∈ numeral, c = '+' ∨ c.isDigit := by
  obtain ⟨digits, rfl | rfl, -, hdigits, -⟩ := h
  · exact fun c hc => .inr (hdigits c hc)
  · rw [List.forall_mem_cons]
    exact ⟨.inl rfl, fun c hc => .inr (hdigits c hc)⟩

/-- There is a digit in a numeral. -/
lemma Numeral.ne_nil {numeral : List Char} {count : Nat} (h : Numeral numeral count) :
    numeral ≠ [] := by
  obtain ⟨digits, rfl | rfl, hne, -⟩ := h
  · exact hne
  · exact List.cons_ne_nil _ _

/-- There are no blanks in a numeral. -/
lemma Numeral.bare {numeral : List Char} {count : Nat} (h : Numeral numeral count) :
    Bare numeral := by
  refine bare_of_forall fun c hc => ?_
  obtain rfl | hdigit := h.forall_mem c hc
  · decide
  · have hbounds : 48 ≤ c.toNat ∧ c.toNat ≤ 57 := Char.isDigit_iff_toNat.mp hdigit
    exact not_isBlank_of_lt (by omega) (by omega)

/-- The numeral of a number. -/
lemma numeral_toDigits (n : Nat) : Numeral (Nat.toDigits 10 n) n :=
  ⟨_, .inl rfl, Nat.toDigits_ne_nil,
    fun _ hc => Nat.isDigit_of_mem_toDigits (by decide) (by decide) hc,
    Nat.ofDigitChars_ten_toDigits.symm⟩

/-! ## Suffixes -/

/-- The suffixes that a budget text may have, with the bytes in the unit of each. -/
def suffixes : List (List Char × Nat) :=
  [([], 1), (['B'], 1), (['K'], 1024), (['K', 'B'], 1024),
   (['M'], 1024 * 1024), (['M', 'B'], 1024 * 1024),
   (['G'], 1024 * 1024 * 1024), (['G', 'B'], 1024 * 1024 * 1024)]

/-- The letters of suffixes. -/
def unitLetters : List Char :=
  ['B', 'K', 'M', 'G']

/-- They are capitals. -/
lemma bounds_of_mem_unitLetters {c : Char} (h : c ∈ unitLetters) :
    65 ≤ c.toNat ∧ c.toNat ≤ 90 := by
  simp only [unitLetters, List.mem_cons, List.not_mem_nil, or_false] at h
  rcases h with rfl | rfl | rfl | rfl <;> decide

/-- A letter of a unit is no blank. -/
lemma not_isBlank_of_mem_unitLetters {c : Char} (h : c ∈ unitLetters) : ¬isBlank c := by
  obtain ⟨hlow, hhigh⟩ := bounds_of_mem_unitLetters h
  exact not_isBlank_of_lt (by omega) (by omega)

/-- A text whose last character is no letter of a unit, so that a suffix behind it is not part of a
longer one. (A `B` behind `5K` is: blanks between the two make a difference.) -/
def EndsBeforeUnit (front : List Char) : Prop :=
  ∀ c ∈ front.getLast?, c ∉ unitLetters

instance (front : List Char) : Decidable (EndsBeforeUnit front) :=
  Option.decidableForallMem front.getLast?

variable {front suffix : List Char} {unit : Nat}

/-- Behind a text that ends before a unit, letters of units end what the suffix alone ends in.

**Proof sketch.** Otherwise the letters are longer than the suffix, so those in front of it end the
text, which ends in no letter of a unit. -/
lemma suffix_append_iff (hfront : EndsBeforeUnit front) {letters : List Char}
    (hletters : letters ⊆ unitLetters) : letters <:+ front ++ suffix ↔ letters <:+ suffix := by
  refine ⟨fun h => ?_, List.suffix_append_of_suffix⟩
  obtain h | ⟨more, rfl⟩ := List.suffix_or_suffix_of_suffix h (List.suffix_append front suffix)
  · exact h
  obtain ⟨start, rfl⟩ := List.suffix_append_self_iff.mp h
  obtain rfl | ⟨more, c, rfl⟩ := List.eq_nil_or_concat more
  · exact List.suffix_rfl
  · have hc : c ∈ unitLetters := hletters (by simp)
    exact absurd hc (hfront c (by simp))

/-- **Splitting**: a suffix is split off as it was written. -/
theorem splitUnit_append (hfront : EndsBeforeUnit front) (hsuffix : (suffix, unit) ∈ suffixes) :
    splitUnit (front ++ suffix) = (front, unit) := by
  have hletters : ∀ entry ∈ units, entry.1 ⊆ unitLetters := by decide
  have halone : ∀ entry ∈ suffixes, units.find? (fun unit => unit.1.isSuffixOf entry.1) =
      if entry.1 = [] then none else some entry := by decide
  have hnone : ∀ entry ∈ suffixes, entry.1 = [] → entry.2 = 1 := by decide
  have hsame : ∀ entry ∈ units,
      entry.1.isSuffixOf (front ++ suffix) = entry.1.isSuffixOf suffix := by
    intro entry hentry
    rw [Bool.eq_iff_iff, List.isSuffixOf_iff_suffix, List.isSuffixOf_iff_suffix]
    exact suffix_append_iff hfront (hletters entry hentry)
  rw [splitUnit, List.find?_congr hsame, halone _ hsuffix]
  by_cases hempty : suffix = []
  · have hunit : unit = 1 := hnone _ hsuffix hempty
    simp [hempty, hunit]
  · simp [hempty]

/-- What is split off is a suffix. -/
lemma exists_splitUnit (text : List Char) :
    ∃ suffix, text = (splitUnit text).1 ++ suffix ∧ (suffix, (splitUnit text).2) ∈ suffixes := by
  have hunits : ∀ entry ∈ units, entry ∈ suffixes := by decide
  rw [splitUnit]
  split
  · next letters unit hfound =>
    have hends := List.find?_some hfound
    obtain ⟨front, rfl⟩ := List.isSuffixOf_iff_suffix.mp hends
    refine ⟨letters, ?_, hunits _ (List.mem_of_find?_eq_some hfound)⟩
    simp
  · exact ⟨[], (List.append_nil text).symm, List.mem_cons_self⟩

/-- There are no blanks in a suffix. -/
lemma bare_suffix (hsuffix : (suffix, unit) ∈ suffixes) : Bare suffix := by
  have hletters : ∀ entry ∈ suffixes, entry.1 ⊆ unitLetters := by decide
  exact bare_of_forall fun c hc => not_isBlank_of_mem_unitLetters (hletters _ hsuffix hc)

/-- Every unit has a byte. -/
lemma unit_pos (hsuffix : (suffix, unit) ∈ suffixes) : 0 < unit := by
  have hall : ∀ entry ∈ suffixes, 0 < entry.2 := by decide
  exact hall _ hsuffix

/-! ## Wordings -/

/-- A count of units, written out: a numeral, blanks, and the suffix of the unit. -/
def Wording (letters : List Char) (count unit : Nat) : Prop :=
  ∃ numeral blanks suffix, letters = numeral ++ blanks ++ suffix ∧ Numeral numeral count ∧
    Blank blanks ∧ (suffix, unit) ∈ suffixes

/-- A numeral does not end in a letter. -/
lemma Numeral.endsBeforeUnit {numeral : List Char} {count : Nat} (h : Numeral numeral count) :
    EndsBeforeUnit numeral := by
  intro c hc hunit
  have hbounds := bounds_of_mem_unitLetters hunit
  obtain rfl | hdigit := h.forall_mem c (List.mem_of_mem_getLast? hc)
  · exact absurd hbounds (by decide)
  · have hdigit' : 48 ≤ c.toNat ∧ c.toNat ≤ 57 := Char.isDigit_iff_toNat.mp hdigit
    omega

/-- Nor do blanks behind a text that ends in none. -/
lemma EndsBeforeUnit.append_blank {blanks : List Char} (hfront : EndsBeforeUnit front)
    (hblanks : Blank blanks) : EndsBeforeUnit (front ++ blanks) := by
  by_cases hne : blanks = []
  · rwa [hne, List.append_nil]
  · intro c hc hunit
    rw [List.getLast?_append_of_ne_nil _ hne] at hc
    exact not_isBlank_of_mem_unitLetters hunit (hblanks c (List.mem_of_mem_getLast? hc))

/-! ## Reading -/

/-- A text in capitals, without the blanks around it. -/
def capitals (text : String) : List Char :=
  (trim text.toList).map Char.toUpper

/-- The bytes in as many units as a numeral says. -/
def amount (numeral : List Char) (unit : Nat) : Except BudgetReason Nat :=
  match count? numeral with
  | none => .error .notANumber
  | some count =>
    if wordLimit ≤ count * unit then .error .overflow
    else if count * unit = 0 then .error .zero
    else .ok (count * unit)

/-- The bytes that a text names, given in capitals and without the blanks around it. -/
def reading (letters : List Char) : Except BudgetReason Nat :=
  if letters.isEmpty then .error .empty
  else amount (trim (splitUnit letters).1) (splitUnit letters).2

/-- A text is read in capitals, and a fault shows it as it was written. -/
lemma parse_eq (text : String) : parse text = match reading (capitals text) with
    | .ok bytes => .ok ⟨bytes⟩
    | .error reason => .error ⟨String.ofList (trim text.toList), reason⟩ := by
  rw [parse, reading, capitals, List.isEmpty_map]
  split
  · rfl
  obtain ⟨digits, unit⟩ := splitUnit ((trim text.toList).map Char.toUpper)
  rw [amount]
  cases hcount : count? (trim digits) with
  | none => simp only [hcount]
  | some count =>
    simp only [hcount]
    split_ifs <;> rfl

/-- There is an amount if the numeral is one and the bytes fit a word. -/
lemma amount_eq_ok_iff {numeral : List Char} (hunit : 0 < unit) {bytes : Nat} :
    amount numeral unit = .ok bytes ↔
      ∃ count, Numeral numeral count ∧ 0 < count * unit ∧ count * unit < wordLimit ∧
        bytes = count * unit := by
  constructor
  · intro h
    unfold amount at h
    split at h
    · cases h
    · next count hcount =>
      split_ifs at h with hlarge hzero
      cases h
      exact ⟨count, (count?_eq_some_iff.mp hcount).1, Nat.pos_of_ne_zero hzero,
        Nat.lt_of_not_le hlarge, rfl⟩
  · rintro ⟨count, hnumeral, hpos, hlt, rfl⟩
    have hcount : count? numeral = some count :=
      count?_eq_some_iff.mpr ⟨hnumeral, Nat.lt_of_le_of_lt (Nat.le_mul_of_pos_right _ hunit) hlt⟩
    simp only [amount, hcount]
    rw [if_neg (Nat.not_le_of_lt hlt), if_neg hpos.ne']

/-- The bytes of a text are those of its wording.

**Proof sketch.** If the text is a wording, its suffix is split off (`splitUnit_append`) and the
numeral is left when the blanks behind it are dropped. Conversely what is split off is a suffix
(`exists_splitUnit`), and since the text does not start in a blank, the numeral is all that stands
in front of it but for blanks. -/
lemma reading_eq_ok_iff {letters : List Char} (hbare : Bare letters) {bytes : Nat} :
    reading letters = .ok bytes ↔
      ∃ count unit, Wording letters count unit ∧ 0 < count * unit ∧ count * unit < wordLimit ∧
        bytes = count * unit := by
  constructor
  · intro h
    rw [reading] at h
    split_ifs at h
    obtain ⟨suffix, hsplit, hsuffix⟩ := exists_splitUnit letters
    obtain ⟨count, hnumeral, hbytes⟩ := (amount_eq_ok_iff (unit_pos hsuffix)).mp h
    obtain ⟨before, blanks, htrim, hbefore, hblanks⟩ := exists_trim (splitUnit letters).1
    refine ⟨count, _, ⟨_, blanks, suffix, ?_, hnumeral, hblanks, hsuffix⟩, hbytes⟩
    have hnil : before = [] := by
      rw [hsplit, htrim, List.append_assoc, List.append_assoc] at hbare
      exact hbare.eq_nil_of_blank hbefore
    rw [hnil, List.nil_append] at htrim
    rw [← htrim]
    exact hsplit
  · rintro ⟨count, unit, ⟨numeral, blanks, suffix, rfl, hnumeral, hblanks, hsuffix⟩, hbytes⟩
    have hne : ¬(numeral ++ blanks ++ suffix).isEmpty := by
      simp [hnumeral.ne_nil]
    have hends := hnumeral.endsBeforeUnit.append_blank hblanks
    rw [reading, if_neg hne, splitUnit_append hends hsuffix, trim_append_right hblanks,
      trim_of_bare hnumeral.bare, amount_eq_ok_iff (unit_pos hsuffix)]
    exact ⟨count, hnumeral, hbytes⟩

/-- A text that ends in a suffix is read as what is in front of the suffix, in its unit. -/
lemma reading_trim_append (hfront : EndsBeforeUnit front) (hsuffix : (suffix, unit) ∈ suffixes)
    (hne : suffix ≠ []) : reading (trim (front ++ suffix)) = amount (trim front) unit := by
  have hends : EndsBeforeUnit (front.dropWhile isBlank) := by
    intro c hc
    refine hfront c ?_
    rw [← List.takeWhile_append_dropWhile (p := isBlank) (l := front)]
    exact List.mem_getLast?_append_of_mem_getLast? hc
  rw [trim_append_of_bare (bare_suffix hsuffix) hne, reading,
    if_neg (by simp [hne]), splitUnit_append hends hsuffix, trim_dropWhile]

/-- Blanks before a suffix do not matter. -/
lemma reading_blanks {blanks : List Char} (hfront : EndsBeforeUnit front)
    (hsuffix : (suffix, unit) ∈ suffixes) (hblanks : Blank blanks) :
    reading (trim (front ++ blanks ++ suffix)) = reading (trim (front ++ suffix)) := by
  by_cases hne : suffix = []
  · rw [hne, List.append_nil, List.append_nil, trim_append_right hblanks]
  · rw [reading_trim_append (hfront.append_blank hblanks) hsuffix hne,
      reading_trim_append hfront hsuffix hne, trim_append_right hblanks]

/-! ## Texts -/

/-- Capitals have no blanks at their ends. -/
lemma bare_capitals (text : String) : Bare (capitals text) := by
  rw [capitals, ← trim_map_toUpper]
  exact bare_trim _

/-- **Reading** a text gives a budget exactly if the text is a wording, up to blanks around it and
the case of letters. -/
theorem parse_eq_ok_iff {text : String} {budget : Budget} :
    parse text = .ok budget ↔
      ∃ count unit, Wording (capitals text) count unit ∧ 0 < count * unit ∧
        count * unit < wordLimit ∧ budget.bytes = count * unit := by
  rw [← reading_eq_ok_iff (bare_capitals text), parse_eq]
  cases reading (capitals text) with
  | error reason => simp
  | ok bytes =>
    rw [Except.ok.injEq, Except.ok.injEq]
    exact ⟨fun h => h ▸ rfl, fun h => h ▸ rfl⟩

/-- Texts that are read alike: as the same budget, or not for the same reason. -/
def SameReading (text other : String) : Prop :=
  (parse text).mapError BudgetFault.reason = (parse other).mapError BudgetFault.reason

/-- Texts are read alike if their capitals are. -/
lemma sameReading_of_reading {text other : String}
    (h : reading (capitals text) = reading (capitals other)) : SameReading text other := by
  rw [SameReading, parse_eq, parse_eq, h]
  cases reading (capitals other) <;> rfl

/-- Capitals can be put before the blanks around are dropped. -/
lemma capitals_eq_trim (text : String) :
    capitals text = trim (text.toList.map Char.toUpper) :=
  (trim_map_toUpper _).symm

/-- Blanks around a text do not matter. -/
lemma parse_surround {before after : List Char} (hbefore : Blank before) (hafter : Blank after)
    (text : String) : parse (String.ofList (before ++ text.toList ++ after)) = parse text := by
  have htrim := trim_surround hbefore hafter text.toList
  rw [parse_eq, parse_eq text, capitals, capitals, String.toList_ofList, htrim]

/-- **Budget texts**: a text names a budget exactly if in capitals, and up to the blanks around it,
it is a numeral, blanks and a suffix, and if the count times the unit is a positive number that fits
a word. This number is the budget. Every other text is refused, and the fault shows it without the
blanks around it. Neither the case of letters matters, nor blanks around the text, nor those before
the suffix.

**Proof sketch.** What the reader splits off is the suffix that was written
(`Budget.splitUnit_append`) since a numeral and blanks do not end in a letter of a unit. What it
reads depends on the capitals alone, which do not notice case or blanks around (`Text.trim_eq_iff`),
and it trims what is in front of the suffix once more. -/
theorem parse_worded (text : String) :
    (∀ budget, parse text = .ok budget ↔
      ∃ count unit, Wording (capitals text) count unit ∧ 0 < count * unit ∧
        count * unit < wordLimit ∧ budget.bytes = count * unit) ∧
    ((∀ budget, parse text ≠ .ok budget) →
      ∃ reason, parse text = .error ⟨String.ofList (trim text.toList), reason⟩) ∧
    (∀ other : String, other.toList.map Char.toUpper = text.toList.map Char.toUpper →
      SameReading other text) ∧
    (∀ before after, Blank before → Blank after →
      parse (String.ofList (before ++ text.toList ++ after)) = parse text) ∧
    ∀ front blanks suffix unit, text.toList = front ++ suffix →
      EndsBeforeUnit (front.map Char.toUpper) → (suffix.map Char.toUpper, unit) ∈ suffixes →
      Blank blanks → SameReading (String.ofList (front ++ blanks ++ suffix)) text := by
  refine ⟨fun budget => parse_eq_ok_iff, fun hrefused => ?_, fun other hcase => ?_,
    fun _ _ hbefore hafter => parse_surround hbefore hafter text,
    fun front blanks suffix unit htext hfront hsuffix hblanks => ?_⟩
  · have heq := parse_eq text
    cases hreading : reading (capitals text) with
    | error reason => exact ⟨reason, by rw [heq, hreading]⟩
    | ok bytes => exact absurd (by rw [heq, hreading]) (hrefused ⟨bytes⟩)
  · apply sameReading_of_reading
    rw [capitals_eq_trim, capitals_eq_trim, hcase]
  · apply sameReading_of_reading
    rw [capitals_eq_trim, capitals_eq_trim, String.toList_ofList, htext, List.map_append,
      List.map_append, List.map_append, reading_blanks hfront hsuffix hblanks.map_toUpper]

/-- Five units, in any case and with blanks around or without any, and a text without a unit. -/
theorem parse_worded_five :
    parse "+5 mb" = .ok ⟨5 * mega⟩ ∧
      (∃ reason, parse " 5 tb" = .error ⟨"5 tb", reason⟩) ∧
      SameReading "+5 Mb" "+5 mb" ∧ parse "\t+5 mb\n" = parse "+5 mb" ∧
      SameReading "+5  mb" "+5 mb" := by
  obtain ⟨hok, -, hcase, haround, hbefore⟩ := parse_worded "+5 mb"
  obtain ⟨-, hrefused, -⟩ := parse_worded " 5 tb"
  refine ⟨(hok _).mpr ⟨5, mega, ?_, by decide, by decide, rfl⟩, hrefused ?_, hcase _ (by decide),
    haround ['\t'] ['\n'] (by decide) (by decide),
    hbefore ['+', '5', ' '] [' '] ['m', 'b'] mega (by decide) (by decide) (by decide)
      (by decide)⟩
  · have hnumeral : Numeral ['+', '5'] 5 :=
      ⟨['5'], .inr rfl, by decide, List.forall_mem_singleton.mpr (by decide), rfl⟩
    exact ⟨['+', '5'], [' '], ['M', 'B'], by decide, hnumeral, by decide, by decide⟩
  · have hparse : parse " 5 tb" = .error ⟨"5 tb", .notANumber⟩ := by decide +kernel
    intro budget
    rw [hparse]
    exact fun h => by cases h

/-! ## Printing -/

/-- The units that budgets are printed in, largest first. -/
def printed : List (String × Nat) :=
  [("GB", 1024 * 1024 * 1024), ("MB", 1024 * 1024), ("KB", 1024), ("B", 1)]

/-- A digit is its own capital. -/
lemma toUpper_of_isDigit {c : Char} (h : c.isDigit) : c.toUpper = c := by
  have hbounds : 48 ≤ c.toNat ∧ c.toNat ≤ 57 := Char.isDigit_iff_toNat.mp h
  refine dif_neg ?_
  rintro ⟨hlow, -⟩
  have hletter : 97 ≤ c.toNat := hlow
  omega

/-- What is printed is a wording. -/
lemma wording_printed {label : String} (hlabel : (label, unit) ∈ printed) (count : Nat) :
    Wording (capitals s!"{count} {label}") count unit := by
  have hsuffixes : ∀ entry ∈ printed, (entry.1.toList, entry.2) ∈ suffixes ∧ entry.1.toList ≠ [] ∧
      entry.1.toList.map Char.toUpper = entry.1.toList := by
    decide
  obtain ⟨hsuffix, hne, hupper⟩ := hsuffixes _ hlabel
  have hnumeral := numeral_toDigits count
  have hdigits : (Nat.toDigits 10 count).map Char.toUpper = Nat.toDigits 10 count := by
    refine (List.map_congr_left fun c hc => ?_).trans (List.map_id _)
    exact toUpper_of_isDigit (Nat.isDigit_of_mem_toDigits (by decide) (by decide) hc)
  have htext : (s!"{count} {label}").toList = Nat.toDigits 10 count ++ [' '] ++ label.toList := by
    simp [toString, Nat.toList_repr]
  have hends : Bare (Nat.toDigits 10 count ++ [' '] ++ label.toList) :=
    hnumeral.bare.append (bare_suffix hsuffix) hnumeral.ne_nil hne _
  refine ⟨Nat.toDigits 10 count, [' '], label.toList, ?_, hnumeral, by decide, hsuffix⟩
  rw [capitals, htext, trim_of_bare hends, List.map_append, List.map_append, hdigits, hupper]
  rfl

/-- The unit a budget is printed in is the first one that divides it. -/
lemma text_eq {budget : Budget} (hpos : 0 < budget.bytes) {label : String}
    (hfound : printed.find? (fun entry => decide (entry.2 ∣ budget.bytes)) = some (label, unit)) :
    budget.text = s!"{budget.bytes / unit} {label}" := by
  have hprinted : printed = labels ++ [("B", 1)] := by decide
  have hdivides : ∀ entry ∈ labels,
      (decide (entry.2 ≤ budget.bytes) && decide (budget.bytes % entry.2 = 0)) =
        decide (entry.2 ∣ budget.bytes) := by
    intro entry _
    rw [Bool.eq_iff_iff, Bool.and_eq_true, decide_eq_true_eq, decide_eq_true_eq, decide_eq_true_eq,
      ← Nat.dvd_iff_mod_eq_zero]
    exact and_iff_right_of_imp (Nat.le_of_dvd hpos)
  rw [hprinted, List.find?_append] at hfound
  rw [text, List.find?_congr hdivides]
  cases hlarge : labels.find? (fun entry => decide (entry.2 ∣ budget.bytes)) with
  | some large =>
    rw [hlarge, Option.some_or, Option.some_inj] at hfound
    rw [hfound]
  | none =>
    have hspace : " " ++ "B" = " B" := by decide
    rw [hlarge, Option.none_or, List.find?_singleton, if_pos (by simp), Option.some_inj,
      Prod.mk.injEq] at hfound
    obtain ⟨rfl, rfl⟩ := hfound
    simp only [toString, Nat.div_one, String.append_assoc, hspace]

/-- A budget is printed in the largest unit that divides it. -/
lemma exists_printed {budget : Budget} (hpos : 0 < budget.bytes) :
    ∃ label unit, (label, unit) ∈ printed ∧ budget.text = s!"{budget.bytes / unit} {label}" ∧
      unit ∣ budget.bytes ∧
      ∀ label' unit', (label', unit') ∈ printed → unit' ∣ budget.bytes → unit' ≤ unit := by
  have hsorted : printed.Pairwise fun larger smaller => smaller.2 ≤ larger.2 := by decide
  have hsome : (printed.find? (fun entry => decide (entry.2 ∣ budget.bytes))).isSome := by
    rw [List.find?_isSome]
    exact ⟨("B", 1), by decide, by simp⟩
  obtain ⟨⟨label, unit⟩, hfound⟩ := Option.isSome_iff_exists.mp hsome
  obtain ⟨hdvd, before, after, hprinted, hbefore⟩ := List.find?_eq_some_iff_append.mp hfound
  refine ⟨label, unit, List.mem_of_find?_eq_some hfound, text_eq hpos hfound,
    of_decide_eq_true hdvd, fun label' unit' hother hdvd' => ?_⟩
  rw [hprinted, List.pairwise_append, List.pairwise_cons] at hsorted
  rw [hprinted, List.mem_append, List.mem_cons] at hother
  obtain hlarger | heq | hsmaller := hother
  · have hnot := hbefore _ hlarger
    simp [hdvd'] at hnot
  · rw [(Prod.mk.inj heq).2]
  · exact hsorted.2.1.1 _ hsmaller

/-- What is printed is read back. -/
lemma parse_printed {budget : Budget} (hpos : 0 < budget.bytes) (hlt : budget.bytes < wordLimit) :
    parse budget.text = .ok budget := by
  obtain ⟨label, unit, hprinted, htext, hdvd, -⟩ := exists_printed hpos
  have hbytes : budget.bytes / unit * unit = budget.bytes := Nat.div_mul_cancel hdvd
  rw [htext, parse_eq_ok_iff]
  exact ⟨_, unit, wording_printed hprinted _, by rwa [hbytes], by rwa [hbytes], hbytes.symm⟩

/-- **Printing** can be undone: the text of a budget of at least one byte, which fits a word, is
read as this budget. So no two of them have the same text. It shows the budget in the largest unit
that divides it.

**Proof sketch.** The text is a wording of a count and a unit (`Budget.wording_printed`), and these
give the budget since the unit divides it (`Budget.parse_eq_ok_iff`). -/
theorem parse_text (budget : Budget) (hpos : 0 < budget.bytes) (hlt : budget.bytes < wordLimit) :
    parse budget.text = .ok budget ∧
      (∀ other : Budget, 0 < other.bytes → other.bytes < wordLimit → other.text = budget.text →
        other = budget) ∧
      ∃ label unit, (label, unit) ∈ printed ∧ budget.text = s!"{budget.bytes / unit} {label}" ∧
        unit ∣ budget.bytes ∧
        ∀ label' unit', (label', unit') ∈ printed → unit' ∣ budget.bytes → unit' ≤ unit := by
  refine ⟨parse_printed hpos hlt, fun other hpos' hlt' hsame => ?_, exists_printed hpos⟩
  have hother := parse_printed hpos' hlt'
  rw [hsame, parse_printed hpos hlt] at hother
  exact (Except.ok.inj hother).symm

/-- The largest multiple of the largest unit that fits a word is read back. -/
theorem parse_text_largest :
    text ⟨wordLimit - giga⟩ = "17179869183 GB" ∧
      parse (text ⟨wordLimit - giga⟩) = .ok ⟨wordLimit - giga⟩ ∧
      ∃ label unit, (label, unit) ∈ printed ∧ unit ∣ wordLimit - giga ∧
        text ⟨wordLimit - giga⟩ = s!"{(wordLimit - giga) / unit} {label}" := by
  obtain ⟨hparse, -, label, unit, hprinted, htext, hdvd, -⟩ :=
    parse_text ⟨wordLimit - giga⟩ (by decide) (by decide)
  exact ⟨by decide +kernel, hparse, label, unit, hprinted, hdvd, htext⟩

end Budget

end Inference
