import Inference.Single

set_option autoImplicit false
set_option relaxedAutoImplicit false

/-!
# Decimals with a fixed number of places

A floating-point pattern stands for an exact binary number. Its decimal text has a fixed number of
places, is the nearest such decimal to the exact number, and of two nearest ones has the even last
digit.

## Main definitions

* `BinaryNumber` — a signed whole number times a power of two.
* `Pattern`, `Pattern.ofBits` — what a pattern of sign, exponent and fraction stands for.
* `roundHalfEven` — a quotient rounded to a whole number.
* `Pattern.fixed` — the decimal text; `Single.fixed` and `fixedDouble` apply it.
-/

namespace Inference

/-- The number `± mantissa · 2 ^ exponent`. -/
structure BinaryNumber where
  negative : Bool
  mantissa : Nat
  exponent : Int
deriving DecidableEq

/-- What a floating-point pattern stands for. -/
inductive Pattern where
  | nan
  | infinite (negative : Bool)
  | finite (number : BinaryNumber)
deriving DecidableEq

/-! ## Reading a pattern -/

/-- What a pattern with the given field widths stands for. The largest exponent is kept for
infinities and NaN; the smallest one has no leading one bit. -/
def Pattern.ofBits (exponentWidth fractionWidth bits : Nat) : Pattern :=
  let fractions := Nat.pow 2 fractionWidth
  let exponents := Nat.pow 2 exponentWidth
  let fraction := bits % fractions
  let exponent := bits / fractions % exponents
  let negative := bits / (fractions * exponents) % 2 = 1
  let offset : Int := exponents / 2 - 1 + fractionWidth
  if exponent + 1 = exponents then
    if fraction = 0 then .infinite negative else .nan
  else if exponent = 0 then .finite ⟨negative, fraction, 1 - offset⟩
  else .finite ⟨negative, fractions + fraction, exponent - offset⟩

/-! ## Writing a decimal -/

/-- A quotient rounded to the nearest whole number; of two nearest ones the even one. -/
def roundHalfEven (num den : Nat) : Nat :=
  let quotient := num / den
  let twice := 2 * (num % den)
  if twice < den then quotient
  else if den < twice then quotient + 1
  else quotient + quotient % 2

/-- A count of units of the last place as a decimal: the whole part, a point, and the places. -/
def placesText (places units : Nat) : String :=
  let fraction := toString (units % Nat.pow 10 places)
  let zeros := String.ofList (List.replicate (places - fraction.length) '0')
  toString (units / Nat.pow 10 places) ++ "." ++ zeros ++ fraction

/-- How many units of the last place a number has, without its sign. -/
def BinaryNumber.units (places : Nat) (x : BinaryNumber) : Nat :=
  roundHalfEven (x.mantissa * Nat.pow 10 places * Nat.pow 2 x.exponent.toNat)
    (Nat.pow 2 (-x.exponent).toNat)

/-- The sign of a number: a negative number keeps it even where all places are zero. -/
def signText (negative : Bool) : String :=
  if negative then "-" else ""

/-- The decimal text of what a pattern stands for. -/
def Pattern.fixed (places : Nat) : Pattern → String
  | .nan => "NaN"
  | .infinite negative => signText negative ++ "inf"
  | .finite x => signText x.negative ++ placesText places (x.units places)

/-- The decimal text of a single-precision value. -/
def Single.fixed (places : Nat) (x : Single) : String :=
  (Pattern.ofBits 8 23 x.bits.toNat).fixed places

/-- The decimal text of a double-precision value. -/
def fixedDouble (places : Nat) (x : Float) : String :=
  (Pattern.ofBits 11 52 x.toBits.toNat).fixed places

end Inference
