import PatchScript.Expression.Reader
import PatchScript.Store.Basic
import PatchScript.Text.Word

/-!
# Names in expressions

Before an expression is read, every name in it gives way to the number stored under that name, and
to zero where there is none. A name is a word, possibly followed by further words behind dots and
by indices in brackets. The numbers are written so that they stand for themselves in any place, and
only characters of arithmetic may be left.

## Main definitions

* `ExpressionPart`, `expressionParts`: the numbers, names and other characters of a text.
* `Number.rendered`: a number as it replaces a name.
* `substitute`: the text with its names replaced.
* `ExpressionLimits`, `calculate`: the value of a text, if it has one.
-/

namespace PatchScript

/-! ### Parts -/

/-- A part of a text: a number, a name, or any other character. -/
inductive ExpressionPart where
  | number (text : List Char)
  | name (text : List Char)
  | other (c : Char)
deriving DecidableEq

/-- Whether a character can begin a name. -/
def isNameStart (c : Char) : Bool := Text.isWord c && !Text.isDigit c

/-- The length of a further word behind a dot at the front of a text, zero if there is none. -/
def memberLength : List Char → Nat
  | '.' :: rest =>
    match rest.takeWhile Text.isWord with
    | [] => 0
    | word => word.length + 1
  | _ => 0

/-- The length of an index in brackets at the front of a text, zero if there is none. -/
def indexLength : List Char → Nat
  | '[' :: rest =>
    let digitsOn := rest.dropWhile Text.isBlank
    match digitsOn.takeWhile Text.isDigit with
    | [] => 0
    | digits =>
      match (digitsOn.drop digits.length).dropWhile Text.isBlank with
      | ']' :: after => rest.length + 1 - after.length
      | _ => 0
  | _ => 0

/-- The length of the members and indices at the front of a text. The number bounds their count. -/
def stepsLength : Nat → List Char → Nat
  | 0, _ => 0
  | fuel + 1, text =>
    let length := max (memberLength text) (indexLength text)
    if length = 0 then 0 else length + stepsLength fuel (text.drop length)

/-- The length of the name that a text begins with, zero if it begins with none. -/
def nameLength (text : List Char) : Nat :=
  match text with
  | [] => 0
  | c :: rest =>
    if isNameStart c then
      let word := (rest.takeWhile Text.isWord).length + 1
      word + stepsLength text.length (text.drop word)
    else 0

/-- The length of the number that a text begins with, zero if it begins with none. -/
def numberLength (text : List Char) : Nat :=
  match takeNumber? text with
  | some (_, number, _) => number.length
  | none => 0

/-- The parts of a text. The number counts the characters that belong to the part before and are to
be passed over. -/
def partsFrom : (skip : Nat) → List Char → List ExpressionPart
  | _, [] => []
  | skip + 1, _ :: rest => partsFrom skip rest
  | 0, c :: rest =>
    let number := numberLength (c :: rest)
    if number ≠ 0 then .number ((c :: rest).take number) :: partsFrom (number - 1) rest
    else
      let name := nameLength (c :: rest)
      if name ≠ 0 then .name ((c :: rest).take name) :: partsFrom (name - 1) rest
      else .other c :: partsFrom 0 rest

/-- The parts of a text. -/
def expressionParts (text : List Char) : List ExpressionPart := partsFrom 0 text

/-! ### Replacement -/

/-- Puts a text that begins with a minus sign into parentheses. -/
def guardSign (text : List Char) : List Char :=
  match text with
  | '-' :: _ => '(' :: text ++ [')']
  | _ => text

/-- A number as it replaces a name. Infinite numbers and not-a-number are written as quotients that
have them as values, and a number whose usual text has an exponent is written with six decimal
places. -/
def Number.rendered : Number → List Char
  | .int n => guardSign (Number.intText n)
  | .float .nan => "(0/0)".toList
  | .float (.infinite false) => "(1/0)".toList
  | .float (.infinite true) => "(-1/0)".toList
  | .float x => guardSign (if x.hasExponent then x.fixedText else x.text)

/-- The number stored under a name, or zero. -/
def numberAt (store : Store) (name : String) : Number :=
  match store.get (Path.parse name) with
  | .number n => n
  | _ => .int 0

/-- A part with its name replaced. -/
def substitutePart (valueOf : String → Number) : ExpressionPart → List Char
  | .number text => text
  | .name text => ' ' :: (valueOf (String.ofList text)).rendered ++ [' ']
  | .other c => [c]

/-- The text with every name replaced by the number that it stands for. -/
def substitute (valueOf : String → Number) (text : List Char) : List Char :=
  (expressionParts text).flatMap (substitutePart valueOf)

/-- Whether a character may occur once names are replaced. -/
def isArithmetic (c : Char) : Bool :=
  (Text.asciiDigit? c).isSome || "+-*/%().".toList.contains c || Text.isBlank c

/-! ### Calculation -/

/-- The greatest length of a text, and how many parentheses and signs may be open in it at once. -/
structure ExpressionLimits where
  length : Int
  depth : Int
deriving DecidableEq

/-- The value of a text; `none` when it is blank or too long, holds anything but arithmetic, is no
expression, or overflows. -/
def calculate (limits : ExpressionLimits) (valueOf : String → Number) (text : List Char) :
    Option Number :=
  if (Text.trim text).isEmpty || decide (limits.length < text.length) then none
  else
    let substituted := substitute valueOf text
    if substituted.all isArithmetic then
      match Expression.read limits.depth.toNat substituted with
      | .error _ => none
      | .ok e =>
        match e.evaluate with
        | .ok n => some n.normalize
        | .error _ => none
    else none

end PatchScript
