import PatchScript.Number.Numeral

/-!
# Decimal texts of binary64 numbers

The usual text of a number has the fewest digits that read back as the same number. Among the
decimal numbers with that many digits which read back, the nearest is taken, and of two equally
near ones that with the even last digit. The text is positional from `10 ^ -4` up to `10 ^ 16`, and
has an exponent of at least two digits elsewhere.

## Main definitions

* `Magnitude.shortest`: the digits and their power of ten.
* `Binary64.text`: the usual text.
* `Binary64.fixedText`: the text with six decimal places.
-/

namespace PatchScript

/-- The decimal digits of a number. -/
def decimalDigits (n : Nat) : List Char := Nat.toDigits 10 n

namespace Magnitude

/-! ### Choosing the digits -/

/-- The greatest `k` with `10 ^ k` at most the value; every positive magnitude exceeds
`10 ^ -400`, so the scaled value has at least one digit before its point. -/
def decimalExponent (x : Magnitude) : Int :=
  ((decimalDigits (x.toRat * (Nat.pow 10 400 : Rat)).floor.toNat).length : Int) - 401

/-- Whether `digits * 10 ^ exponent` rounds to this magnitude. -/
def readsBack (x : Magnitude) (digits : Nat) (exponent : Int) : Bool :=
  ofRat ((digits : Rat) * (10 : Rat) ^ exponent) == some x

/-- The nearest decimal number with a last digit worth `10 ^ exponent` that reads back. -/
def nearest? (x : Magnitude) (exponent : Int) : Option (Nat × Int) :=
  let scaled := x.toRat / (10 : Rat) ^ exponent
  let lower := scaled.floor.toNat
  let rest := scaled - (lower : Rat)
  let lowerFirst := decide (rest < 1 / 2) || (decide (rest = 1 / 2) && lower % 2 == 0)
  let order := if lowerFirst then [lower, lower + 1] else [lower + 1, lower]
  (order.find? (x.readsBack · exponent)).map (·, exponent)

/-- The exact decimal value, as digits and a power of ten. -/
def exactDecimal (x : Magnitude) : Nat × Int :=
  if 0 ≤ x.exponent then (x.mantissa * Nat.pow 2 x.exponent.toNat, 0)
  else (x.mantissa * Nat.pow 5 (-x.exponent).toNat, x.exponent)

/-- The decimal number with the fewest digits that reads back. -/
def shortest (x : Magnitude) : Nat × Int :=
  let top := x.decimalExponent
  match (List.range 17).findSome? fun (count : Nat) => x.nearest? (top - count) with
  | some found => found
  | none => x.exactDecimal

end Magnitude

/-! ### Laying out the digits -/

/-- Removes the zeros at the end of a list of digits. -/
def dropTrailingZeros (digits : List Char) : List Char :=
  (digits.reverse.dropWhile (· == '0')).reverse

/-- Positional notation of `0.digits * 10 ^ point`, always with a point and a digit behind it. -/
def positionalText (digits : List Char) (point : Int) : List Char :=
  if point ≤ 0 then ['0', '.'] ++ List.replicate (-point).toNat '0' ++ digits
  else if digits.length ≤ point.toNat then
    digits ++ List.replicate (point.toNat - digits.length) '0' ++ ['.', '0']
  else digits.take point.toNat ++ '.' :: digits.drop point.toNat

/-- Exponent notation of `0.digits * 10 ^ point`: one digit before the point, and an exponent with
its sign and at least two digits. -/
def exponentText (digits : List Char) (point : Int) : List Char :=
  let exponent := point - 1
  let exponentDigits := decimalDigits exponent.natAbs
  let padded := List.replicate (2 - exponentDigits.length) '0' ++ exponentDigits
  let mantissa :=
    match digits with
    | [] => ['0']
    | [d] => [d]
    | d :: others => d :: '.' :: others
  mantissa ++ ['e', if exponent < 0 then '-' else '+'] ++ padded

namespace Magnitude

/-- The usual text of a magnitude. -/
def text (x : Magnitude) : List Char :=
  if x.mantissa = 0 then ['0', '.', '0']
  else
    let (number, power) := x.shortest
    let all := decimalDigits number
    let point := (all.length : Int) + power
    let digits := dropTrailingZeros all
    if -4 < point ∧ point ≤ 16 then positionalText digits point
    else exponentText digits point

/-- The text with six decimal places, a half going to the even last place. -/
def fixedText (x : Magnitude) : List Char :=
  let q := x.toRat
  let scaled := roundQuotient (q.num.natAbs * Nat.pow 10 6) q.den
  let fraction := decimalDigits (scaled % Nat.pow 10 6)
  decimalDigits (scaled / Nat.pow 10 6) ++ '.' ::
    (List.replicate (6 - fraction.length) '0' ++ fraction)

end Magnitude

namespace Binary64

/-- Puts a minus sign before the text of a negative number. -/
def signed (negative : Bool) (text : List Char) : List Char :=
  if negative then '-' :: text else text

/-- The usual text of a number. -/
def text : Binary64 → List Char
  | .nan => "nan".toList
  | .infinite negative => signed negative "inf".toList
  | .finite negative x => signed negative x.text

/-- Whether the usual text has an exponent. -/
def hasExponent (x : Binary64) : Bool := x.text.contains 'e'

/-- The text with six decimal places. -/
def fixedText : Binary64 → List Char
  | .nan => "nan".toList
  | .infinite negative => signed negative "inf".toList
  | .finite negative x => signed negative x.fixedText

end Binary64

end PatchScript
