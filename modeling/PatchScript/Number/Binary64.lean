/-!
# Binary64 numbers

The format has a not-a-number value, two infinities and the finite numbers `± m * 2 ^ e`. Finite
numbers are kept in a canonical form, so equal data means equal bits: `0.0` and `-0.0` differ as
data and agree as numbers. Every operation is defined as *the exact rational result, rounded once*,
so nothing here depends on machine arithmetic.

## Main definitions

* `Magnitude`: a canonical `m * 2 ^ e`.
* `Magnitude.ofRat`: rounding to nearest, halves to the even mantissa; `none` when too large.
* `Binary64`: the numbers with sign, infinities and not-a-number.
* `Binary64.add`, `sub`, `mul`, `div`, `fmod`: the arithmetic.
* `Extended`: the number line with both ends, on which all numbers are compared.
-/

namespace PatchScript

/-! ### Canonical magnitudes -/

/-- A mantissa of at most 53 bits and an exponent in range; short mantissas only at the least
exponent, so that each magnitude has one form. -/
def IsCanonical (mantissa : Nat) (exponent : Int) : Prop :=
  mantissa < Nat.pow 2 53 ∧ -1074 ≤ exponent ∧ exponent ≤ 971 ∧
    (exponent = -1074 ∨ Nat.pow 2 52 ≤ mantissa)

instance (mantissa : Nat) (exponent : Int) : Decidable (IsCanonical mantissa exponent) := by
  unfold IsCanonical
  infer_instance

/-- The magnitude `mantissa * 2 ^ exponent` of a finite binary64 number. -/
structure Magnitude where
  mantissa : Nat
  exponent : Int
  canonical : IsCanonical mantissa exponent
deriving DecidableEq

namespace Magnitude

/-- The magnitude zero. -/
def zero : Magnitude := ⟨0, -1074, by decide⟩

instance : Inhabited Magnitude := ⟨zero⟩

/-- The exact value. -/
def toRat (x : Magnitude) : Rat := (x.mantissa : Rat) * (2 : Rat) ^ x.exponent

/-- Builds a magnitude from a mantissa and an exponent that are already canonical. -/
def ofParts? (mantissa : Nat) (exponent : Int) : Option Magnitude :=
  if h : IsCanonical mantissa exponent then some ⟨mantissa, exponent, h⟩ else none

/-- The quotient rounded to the nearest natural number, a half going to the even neighbour. -/
def roundQuotient (num den : Nat) : Nat :=
  let floor := num / den
  let rest := num % den
  if 2 * rest < den then floor
  else if den < 2 * rest then floor + 1
  else if floor % 2 = 0 then floor
  else floor + 1

/-- `num / (den * 2 ^ exponent)` rounded to the nearest natural number. -/
def roundScaled (num den : Nat) (exponent : Int) : Nat :=
  if 0 ≤ exponent then roundQuotient num (den * Nat.pow 2 exponent.toNat)
  else roundQuotient (num * Nat.pow 2 (-exponent).toNat) den

/-- The greatest `k` with `2 ^ k ≤ num / den`, for a positive quotient. -/
def binaryExponent (num den : Nat) : Int :=
  let guess : Int := (num.log2 : Int) - (den.log2 : Int)
  let reached : Bool :=
    if 0 ≤ guess then decide (den * Nat.pow 2 guess.toNat ≤ num)
    else decide (den ≤ num * Nat.pow 2 (-guess).toNat)
  if reached then guess else guess - 1

/-- The nearest magnitude of the quotient `num / den`, a tie going to the even mantissa; `none`
when the rounded value would exceed the largest finite one. -/
def ofQuotient (num den : Nat) : Option Magnitude :=
  if num = 0 then some zero
  else
    let exponent := max (-1074) (binaryExponent num den - 52)
    let mantissa := roundScaled num den exponent
    if mantissa = Nat.pow 2 53 then ofParts? (Nat.pow 2 52) (exponent + 1)
    else ofParts? mantissa exponent

/-- The nearest magnitude of the absolute value of a rational number. -/
def ofRat (q : Rat) : Option Magnitude := ofQuotient q.num.natAbs q.den

/-- Whether the magnitude is a whole number. -/
def isWhole (x : Magnitude) : Bool := x.toRat.den == 1

end Magnitude

/-! ### The number line -/

/-- A point of the number line with both ends. -/
inductive Extended where
  | below
  | at (q : Rat)
  | above
deriving DecidableEq

namespace Extended

/-- The order of the line. -/
def lt : Extended → Extended → Bool
  | .below, .below => false
  | .below, _ => true
  | .at _, .below => false
  | .at p, .at q => decide (p < q)
  | .at _, .above => true
  | .above, _ => false

end Extended

/-! ### Numbers -/

/-- A binary64 number. -/
inductive Binary64 where
  | nan
  | infinite (negative : Bool)
  | finite (negative : Bool) (magnitude : Magnitude)
deriving DecidableEq, Inhabited

namespace Binary64

/-- The positive or negative zero. -/
def zero (negative : Bool) : Binary64 := .finite negative Magnitude.zero

/-- The exact value of a finite number; zero stands for the others. -/
def toRat : Binary64 → Rat
  | .finite false x => x.toRat
  | .finite true x => -x.toRat
  | _ => 0

/-- Rounds a magnitude of the given sign; too large a value becomes infinite. -/
def ofMagnitude (negative : Bool) (q : Rat) : Binary64 :=
  match Magnitude.ofRat q with
  | some x => .finite negative x
  | none => .infinite negative

/-- Rounds an exact result; `zeroSign` is the sign that an exact zero gets. -/
def ofRat (zeroSign : Bool) (q : Rat) : Binary64 :=
  if q = 0 then zero zeroSign else ofMagnitude (decide (q < 0)) q

/-- The nearest number of an integer; `none` when it is too large. -/
def ofInt? (n : Int) : Option Binary64 :=
  (Magnitude.ofQuotient n.natAbs 1).map (.finite (decide (n < 0)))

/-- Whether the sign bit is set. A number that is not a number counts as positive. -/
def isNegative : Binary64 → Bool
  | .nan => false
  | .infinite negative => negative
  | .finite negative _ => negative

/-- Whether the value is zero, of either sign. -/
def isZero : Binary64 → Bool
  | .finite _ x => x.mantissa == 0
  | _ => false

/-- The position on the number line; a number that is not a number has none. -/
def point? : Binary64 → Option Extended
  | .nan => none
  | .infinite true => some .below
  | .infinite false => some .above
  | x => some (.at x.toRat)

/-- The same number with the other sign. -/
def neg : Binary64 → Binary64
  | .nan => .nan
  | .infinite negative => .infinite (!negative)
  | .finite negative x => .finite (!negative) x

/-- The number without its sign. -/
def abs : Binary64 → Binary64
  | .nan => .nan
  | .infinite _ => .infinite false
  | .finite _ x => .finite false x

/-- The integer that a whole finite number equals. -/
def toInt? : Binary64 → Option Int
  | .finite negative x =>
    if x.isWhole then some (if negative then -x.toRat.num else x.toRat.num) else none
  | _ => none

/-- The sum. An exact zero is negative only when both terms are negative zeros. -/
def add : Binary64 → Binary64 → Binary64
  | .nan, _ => .nan
  | _, .nan => .nan
  | .infinite s, .infinite t => if s = t then .infinite s else .nan
  | .infinite s, _ => .infinite s
  | _, .infinite t => .infinite t
  | .finite s x, .finite t y =>
    ofRat (s && t) ((Binary64.finite s x).toRat + (Binary64.finite t y).toRat)

/-- The difference. -/
def sub (x y : Binary64) : Binary64 := add x y.neg

/-- The product. -/
def mul : Binary64 → Binary64 → Binary64
  | .nan, _ => .nan
  | _, .nan => .nan
  | .infinite s, .infinite t => .infinite (s != t)
  | .infinite s, .finite t y => if y.mantissa = 0 then .nan else .infinite (s != t)
  | .finite s x, .infinite t => if x.mantissa = 0 then .nan else .infinite (s != t)
  | .finite s x, .finite t y => ofMagnitude (s != t) (x.toRat * y.toRat)

/-- The quotient, with the sign rule also for a zero divisor. -/
def div : Binary64 → Binary64 → Binary64
  | .nan, _ => .nan
  | _, .nan => .nan
  | .infinite _, .infinite _ => .nan
  | .infinite s, .finite t _ => .infinite (s != t)
  | .finite s _, .infinite t => zero (s != t)
  | .finite s x, .finite t y =>
    if y.mantissa = 0 then
      if x.mantissa = 0 then .nan else .infinite (s != t)
    else ofMagnitude (s != t) (x.toRat / y.toRat)

/-- The remainder of division toward zero; it has the sign of the dividend and is exact. -/
def fmod : Binary64 → Binary64 → Binary64
  | .nan, _ => .nan
  | _, .nan => .nan
  | .infinite _, _ => .nan
  | x, .infinite _ => x
  | .finite s x, .finite _ y =>
    if y.mantissa = 0 then .nan
    else
      let quotient := x.toRat / y.toRat
      ofMagnitude s (x.toRat - y.toRat * (quotient.floor : Rat))

end Binary64

end PatchScript
