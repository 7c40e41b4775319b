import PatchScript.Number.Shortest

/-!
# Numbers

A number is an integer of any size or a binary64 number. Integers stay exact; an operation that
mixes the two kinds converts its integer first, and fails when that integer is too large for the
format. Comparison is exact across the kinds.

## Main definitions

* `Number`: the two kinds.
* `Number.same`, `Number.lt`, `Number.le`: comparison by exact value.
* `Number.add`, `sub`, `mul`, `divide`, `remainder`: arithmetic.
* `Number.normalize`: whole binary64 numbers become integers.
-/

namespace PatchScript

/-- Why arithmetic has no result. -/
inductive Overflow where
  /-- An integer operand has no nearest finite number. -/
  | operand
  /-- The quotient of two integers has no nearest finite number. -/
  | quotient
deriving DecidableEq

/-- The wording of an overflow. -/
def Overflow.message : Overflow → String
  | .operand => "int too large to convert to float"
  | .quotient => "integer division result too large for a float"

/-- An integer or a binary64 number. -/
inductive Number where
  | int (n : Int)
  | float (x : Binary64)
deriving DecidableEq

namespace Number

instance : Inhabited Number := ⟨.int 0⟩

/-! ### Comparison -/

/-- The position on the number line; what is not a number has none. -/
def point? : Number → Option Extended
  | .int n => some (.at n)
  | .float x => x.point?

/-- Equality of values. What is not a number equals nothing. -/
def same (a b : Number) : Bool :=
  match a.point?, b.point? with
  | some p, some q => p == q
  | _, _ => false

/-- Strict order of values. -/
def lt (a b : Number) : Bool :=
  match a.point?, b.point? with
  | some p, some q => p.lt q
  | _, _ => false

/-- Order of values. -/
def le (a b : Number) : Bool := a.lt b || a.same b

/-- Whether the value is zero, of either kind and sign. -/
def isZero : Number → Bool
  | .int n => n == 0
  | .float x => x.isZero

/-- Whether the number is negative or has its sign bit set. -/
def isNegative : Number → Bool
  | .int n => decide (n < 0)
  | .float x => x.isNegative

/-- The first integer beyond a signed word of 64 bits. -/
def int64End : Int := Nat.pow 2 63

/-- Whether an integer fits a signed word of 64 bits. -/
def isInt64 (n : Int) : Bool := decide (-int64End ≤ n ∧ n < int64End)

/-! ### Arithmetic -/

/-- The number as a binary64 number. -/
def toBinary64 : Number → Except Overflow Binary64
  | .float x => .ok x
  | .int n =>
    match Binary64.ofInt? n with
    | some x => .ok x
    | none => .error .operand

/-- Applies the integer operation to two integers and the other operation to anything else. -/
def lift (onInt : Int → Int → Int) (onFloat : Binary64 → Binary64 → Binary64) (a b : Number) :
    Except Overflow Number :=
  match a, b with
  | .int m, .int n => .ok (.int (onInt m n))
  | _, _ => do
    let x ← a.toBinary64
    let y ← b.toBinary64
    return .float (onFloat x y)

/-- The sum. -/
def add : Number → Number → Except Overflow Number := lift (· + ·) Binary64.add

/-- The difference. -/
def sub : Number → Number → Except Overflow Number := lift (· - ·) Binary64.sub

/-- The product. -/
def mul : Number → Number → Except Overflow Number := lift (· * ·) Binary64.mul

/-- The number with the other sign. -/
def neg : Number → Number
  | .int n => .int (-n)
  | .float x => .float x.neg

/-- The number without its sign. -/
def abs : Number → Number
  | .int n => .int n.natAbs
  | .float x => .float x.abs

/-- The binary64 number nearest to the quotient of two integers. -/
def quotient (a b : Int) : Except Overflow Number :=
  match Magnitude.ofQuotient a.natAbs b.natAbs with
  | some x => .ok (.float (.finite (decide (a < 0) != decide (b < 0)) x))
  | none => .error .quotient

/-- The quotient. A zero divisor gives the infinity of the sign rule, or not-a-number where the
dividend is zero or not a number. -/
def divide (a b : Number) : Except Overflow Number :=
  if b.isZero then
    if a.isZero then .ok (.float .nan)
    else do
      let x ← a.toBinary64
      if x = .nan then return .float .nan
      return .float (.infinite (x.isNegative != b.isNegative))
  else
    match a, b with
    | .int m, .int n => quotient m n
    | _, _ => do
      let x ← a.toBinary64
      let y ← b.toBinary64
      return .float (x.div y)

/-- The remainder of division toward zero, with the sign of the dividend. An infinite divisor
leaves the dividend as it is, an integer staying an integer. -/
def remainder (a b : Number) : Except Overflow Number :=
  match a, b with
  | .int m, .int n => .ok (if n = 0 then .float .nan else .int (m.tmod n))
  | _, _ =>
    if b.isZero then .ok (.float .nan)
    else do
      let x ← a.toBinary64
      match x with
      | .finite _ _ =>
        match ← b.toBinary64 with
        | .infinite _ => return a
        | y => return .float (x.fmod y)
      | _ => return .float .nan

/-- Turns a whole binary64 number into the integer that it equals. -/
def normalize : Number → Number
  | .int n => .int n
  | .float x =>
    match x.toInt? with
    | some n => .int n
    | none => .float x

/-! ### Text -/

/-- The decimal text of an integer. -/
def intText (n : Int) : List Char := Binary64.signed (decide (n < 0)) (decimalDigits n.natAbs)

/-- The usual text of a number. -/
def text : Number → List Char
  | .int n => intText n
  | .float x => x.text

end Number

end PatchScript
