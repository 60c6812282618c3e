import Inference.Toml.Quoted

set_option autoImplicit false
set_option relaxedAutoImplicit false

/-!
# Literals

Values without quotes: integers in four bases, decimal fractions, truth values, dates and times.
Settings only use integers and truth values, so of the other values nothing is kept but that they
are well formed.

## Main definitions

* `Toml.integer?`, `Toml.isFraction`, `Toml.isMoment` — the forms.
* `Toml.literal?` — the value that a literal stands for.
-/

namespace Inference

namespace Toml

/-! ## Integers -/

/-- The digits of a run in which single underscores may stand between digits; absent if the run
is empty or an underscore stands elsewhere. -/
def digitRun? (isDigit : Char → Bool) : List Char → Option (List Char)
  | [] => none
  | [c] => if isDigit c then some [c] else none
  | c :: '_' :: rest => if isDigit c then (digitRun? isDigit rest).map (c :: ·) else none
  | c :: rest => if isDigit c then (digitRun? isDigit rest).map (c :: ·) else none

/-- The number that digits stand for in a base. -/
def numberOf (base : Nat) (digits : List Char) : Nat :=
  digits.foldl (fun n c => base * n + (hexValue? c).getD 0) 0

/-- A sign, if there is one, and the rest: whether the sign is negative, and the text after it. -/
def splitSign (text : List Char) : Bool × List Char :=
  match text with
  | '-' :: rest => (true, rest)
  | '+' :: rest => (false, rest)
  | _ => (false, text)

/-- The digits of an unsigned decimal number: only a lone zero starts with a zero. -/
def decimalRun? (text : List Char) : Option (List Char) :=
  match text with
  | '0' :: _ :: _ => none
  | _ => digitRun? Char.isDigit text

/-- An integer of 64 bits with sign. -/
def checkInteger (n : Int) : Option Int :=
  if -0x8000000000000000 ≤ n ∧ n < 0x8000000000000000 then some n else none

/-- A number without sign in a base named by the letter after a leading zero. -/
def basedInteger? (base : Nat) (isDigit : Char → Bool) (text : List Char) : Option Int :=
  match digitRun? isDigit text with
  | some digits => checkInteger (numberOf base digits)
  | none => none

/-- A decimal integer with an optional sign, or an integer in base 16, 8 or 2. -/
def integer? (text : List Char) : Option Int :=
  match text with
  | '0' :: 'x' :: rest => basedInteger? 16 (fun c => (hexValue? c).isSome) rest
  | '0' :: 'o' :: rest => basedInteger? 8 (fun c => '0' ≤ c && c ≤ '7') rest
  | '0' :: 'b' :: rest => basedInteger? 2 (fun c => c = '0' || c = '1') rest
  | _ =>
    let (negative, rest) := splitSign text
    match decimalRun? rest with
    | some digits =>
      let n : Int := numberOf 10 digits
      checkInteger (if negative then -n else n)
    | none => none

/-! ## Fractions -/

/-- A power of ten above every finite double. -/
def largePower : Nat := 400

/-- Whether a decimal number rounds to a finite double. The number has the given digits, the last
`places` of them behind the point, and an exponent of ten. -/
def isFiniteDouble (digits : List Char) (places : Nat) (negativeExponent : Bool)
    (exponent : Nat) : Bool :=
  let n := numberOf 10 digits
  let bound := Nat.pow 2 1024 - Nat.pow 2 970
  if n = 0 then true
  else if negativeExponent then n < bound * Nat.pow 10 (min (places + exponent) digits.length)
  else if largePower < exponent - places then false
  else n * Nat.pow 10 (exponent - places) < bound * Nat.pow 10 (places - exponent)

/-- The exponent of a number: whether it is negative, and its digits. Its digits may start with
zeros. -/
def exponentPart? (text : List Char) : Option (Bool × Nat) :=
  let (negative, rest) := splitSign text
  (digitRun? Char.isDigit rest).map fun digits => (negative, numberOf 10 digits)

/-- Whether a text is a decimal fraction, a decimal number with an exponent, an infinity or the
value that is no number. A positive number too large for a double is refused. -/
def isFraction (text : List Char) : Bool :=
  let (negative, unsigned) := splitSign text
  if unsigned = ['i', 'n', 'f'] || unsigned = ['n', 'a', 'n'] then true
  else
    let isExponentMark (c : Char) : Bool := c = 'e' || c = 'E'
    let mantissa := unsigned.takeWhile fun c => !isExponentMark c
    let afterMark := unsigned.drop (mantissa.length + 1)
    let whole := mantissa.takeWhile (· != '.')
    let afterPoint := mantissa.drop (whole.length + 1)
    let hasPoint := whole.length < mantissa.length
    let hasExponent := mantissa.length < unsigned.length
    let places? := if hasPoint then digitRun? Char.isDigit afterPoint else some []
    let exponent? := if hasExponent then exponentPart? afterMark else some (false, 0)
    match decimalRun? whole, places?, exponent? with
    | some digits, some places, some (negativeExponent, exponent) =>
      (hasPoint || hasExponent) &&
        (negative || isFiniteDouble (digits ++ places) places.length negativeExponent exponent)
    | _, _, _ => false

/-! ## Dates and times -/

/-- A number of exactly `width` digits that lies between two bounds, and the rest. -/
def fixedNumber? (width low high : Nat) : Reader Nat := fun text =>
  let digits := text.take width
  let n := numberOf 10 digits
  if digits.length = width && digits.all Char.isDigit && low ≤ n && n ≤ high then
    some (n, text.drop width)
  else none

/-- Days in a month. -/
def daysIn (year month : Nat) : Nat :=
  if month = 2 then
    if year % 4 = 0 && (year % 100 != 0 || year % 400 = 0) then 29 else 28
  else if [4, 6, 9, 11].contains month then 30
  else 31

/-- What follows a date at the start of a text. -/
def afterDate? (text : List Char) : Option (List Char) := do
  let (year, rest) ← fixedNumber? 4 0 9999 text
  let '-' :: rest := rest | none
  let (month, rest) ← fixedNumber? 2 1 12 rest
  let '-' :: rest := rest | none
  let (_, rest) ← fixedNumber? 2 1 (daysIn year month) rest
  return rest

/-- What follows a time of day at the start of a text. -/
def afterTime? (text : List Char) : Option (List Char) := do
  let (_, rest) ← fixedNumber? 2 0 23 text
  let ':' :: rest := rest | none
  let (_, rest) ← fixedNumber? 2 0 59 rest
  let ':' :: rest := rest | none
  let (_, rest) ← fixedNumber? 2 0 60 rest
  match rest with
  | '.' :: fraction =>
    let after := fraction.dropWhile Char.isDigit
    if after.length < fraction.length then return after else none
  | _ => return rest

/-- What follows an offset from universal time at the start of a text, if there is one. -/
def afterOffset? (text : List Char) : Option (List Char) :=
  match text with
  | 'Z' :: rest => some rest
  | 'z' :: rest => some rest
  | '+' :: rest => afterHours? rest
  | '-' :: rest => afterHours? rest
  | _ => some text
where
  /-- What follows hours and minutes. -/
  afterHours? (text : List Char) : Option (List Char) := do
    let (_, rest) ← fixedNumber? 2 0 23 text
    let ':' :: rest := rest | none
    let (_, rest) ← fixedNumber? 2 0 59 rest
    return rest

/-- Whether a character separates a date from a time. -/
def isDateTimeMark (c : Char) : Bool :=
  c = 'T' || c = 't' || c = ' '

/-- Whether a text is a date, a time of day, or both with an optional offset. -/
def isMoment (text : List Char) : Bool :=
  match afterDate? text with
  | some [] => true
  | some (mark :: rest) =>
    isDateTimeMark mark && ((afterTime? rest).bind afterOffset?) = some []
  | none => afterTime? text = some []

/-! ## Literals -/

/-- The value that a literal stands for. -/
def literal? (text : List Char) : Option Value :=
  if text = "true".toList then some (.truth true)
  else if text = "false".toList then some (.truth false)
  else
    match integer? text with
    | some n => some (.integer n)
    | none => if isFraction text || isMoment text then some .other else none

/-- A character of a literal. -/
def isLiteralChar (c : Char) : Bool :=
  c.isAlphanum || c = '_' || c = '-' || c = '+' || c = '.' || c = ':'

/-- The literal at the start of a text, and the rest. A date may be followed by a blank and a
time. -/
def splitLiteral (text : List Char) : List Char × List Char :=
  let run := text.takeWhile isLiteralChar
  let rest := text.drop run.length
  match rest with
  | ' ' :: next =>
    let time := next.takeWhile isLiteralChar
    if afterDate? run = some [] && (time.take 2).all Char.isDigit && time[2]? = some ':' then
      (run ++ ' ' :: time, next.drop time.length)
    else (run, rest)
  | _ => (run, rest)

/-- A value without quotes or brackets. -/
def literalValue : Reader Value := fun text =>
  let (run, rest) := splitLiteral text
  (literal? run).map fun value => (value, rest)

end Toml

end Inference
