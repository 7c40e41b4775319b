import PatchScript.Number.Binary64
import PatchScript.Text.Digit

/-!
# Numerals

A numeral is the written form of a number: an optional sign, digits with an optional point among
them, and an optional power of ten. The grammars that accept numerals differ in what they allow;
they all produce a `Numeral`, whose value is defined once, here.

## Main definitions

* `Decimal`: `± digits * 10 ^ exponent`, and its nearest binary64 number.
* `Numeral`: the parts of a written number.
* `takeNumeral`: the longest numeral at the front of a text.
-/

namespace PatchScript

/-! ### Decimal numbers -/

/-- The decimal number `± digits * 10 ^ exponent`. -/
structure Decimal where
  negative : Bool
  digits : Nat
  exponent : Int
deriving DecidableEq

namespace Decimal

/-- The exact value without the sign. -/
def magnitude (d : Decimal) : Rat := (d.digits : Rat) * (10 : Rat) ^ d.exponent

/-- The nearest binary64 number. Exponents far outside the range of the format are settled without
computing the power: `digits < 2 ^ (log2 digits + 1)` bounds the magnitude from above, and a
positive number of digits bounds it from below. -/
def toBinary64 (d : Decimal) : Binary64 :=
  if d.digits = 0 then .zero d.negative
  else if 400 < d.exponent then .infinite d.negative
  else if d.exponent + ((d.digits.log2 : Int) + 1) < -400 then .zero d.negative
  else .ofMagnitude d.negative d.magnitude

end Decimal

/-! ### Numerals -/

/-- The parts of a written number. -/
structure Numeral where
  negative : Bool
  whole : List Nat
  /-- The digits after the point, when there is a point. -/
  fraction : Option (List Nat)
  /-- The power of ten, when one is written. -/
  power : Option Int
deriving DecidableEq

namespace Numeral

/-- Whether the numeral is written without point and power. -/
def isInteger (n : Numeral) : Bool := n.fraction.isNone && n.power.isNone

/-- The number that the digits before the point denote. -/
def toInt (n : Numeral) : Int :=
  if n.negative then -(Text.naturalOf n.whole : Int) else Text.naturalOf n.whole

/-- The decimal number written. -/
def toDecimal (n : Numeral) : Decimal :=
  let fraction := n.fraction.getD []
  { negative := n.negative
    digits := Text.naturalOf (n.whole ++ fraction)
    exponent := n.power.getD 0 - fraction.length }

/-- The nearest binary64 number. -/
def toBinary64 (n : Numeral) : Binary64 := n.toDecimal.toBinary64

end Numeral

/-! ### Reading numerals -/

/-- Splits off a minus sign or, where allowed, a plus sign. -/
def takeSign (plus : Bool) : List Char → Bool × List Char
  | '-' :: rest => (true, rest)
  | '+' :: rest => if plus then (false, rest) else (false, '+' :: rest)
  | text => (false, text)

/-- The power of ten at the front of a text: a letter `e` of either case, an optional sign and at
least one digit. Without the digits nothing is taken. -/
def takePower (digit? : Char → Option Nat) (text : List Char) : Option Int × List Char :=
  match text with
  | c :: rest =>
    if c == 'e' || c == 'E' then
      let (negative, unsigned) := takeSign true rest
      match Text.takeDigits digit? unsigned with
      | ([], _) => (none, text)
      | (digits, after) =>
        let n : Int := Text.naturalOf digits
        (some (if negative then -n else n), after)
    else (none, text)
  | [] => (none, [])

/-- Splits off an unsigned numeral: digits, a point with or without digits after it, or a point
followed by at least one digit; then a power of ten where `power` allows one. -/
def takeUnsigned (digit? : Char → Option Nat) (power : Bool) (text : List Char) :
    Option (Numeral × List Char) :=
  let finish (whole : List Nat) (fraction : Option (List Nat)) (rest : List Char) :
      Numeral × List Char :=
    if power then
      let (exponent, after) := takePower digit? rest
      (⟨false, whole, fraction, exponent⟩, after)
    else (⟨false, whole, fraction, none⟩, rest)
  match Text.takeDigits digit? text with
  | ([], '.' :: rest) =>
    match Text.takeDigits digit? rest with
    | ([], _) => none
    | (fraction, after) => some (finish [] (some fraction) after)
  | ([], _) => none
  | (whole, '.' :: rest) =>
    let (fraction, after) := Text.takeDigits digit? rest
    some (finish whole (some fraction) after)
  | (whole, rest) => some (finish whole none rest)

/-- The numeral that the whole text is: an optional sign, then an unsigned numeral. -/
def numeral? (digit? : Char → Option Nat) (text : List Char) : Option Numeral :=
  let (negative, unsigned) := takeSign true text
  match takeUnsigned digit? true unsigned with
  | some (n, []) => some { n with negative := negative }
  | _ => none

end PatchScript
