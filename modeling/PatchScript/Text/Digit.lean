/-!
# Decimal digits

A decimal digit is a character of the Unicode category *Nd*. These characters come in runs of ten,
in the order of their values, so the table lists where each run starts.

## Main definitions

* `digitValue?`: the value of a decimal digit of any script.
* `asciiDigit?`: the value of one of `0` to `9`.
* `takeDigits`: the digits at the front of a text.
* `separatedDigits?`: digits with underscores between them.
* `naturalOf`: the number that a list of digit values denotes.
-/

namespace PatchScript.Text

/-- The first characters of the runs of ten decimal digits beyond ASCII. -/
def digitRuns : List Nat := [
  1632, 1776, 1984, 2406, 2534, 2662, 2790, 2918, 3046, 3174, 3302, 3430, 3558, 3664, 3792, 3872,
  4160, 4240, 6112, 6160, 6470, 6608, 6784, 6800, 6992, 7088, 7232, 7248, 42528, 43216, 43264,
  43472, 43504, 43600, 44016, 65296, 66720, 68912, 69734, 69872, 69942, 70096, 70384, 70736,
  70864, 71248, 71360, 71472, 71904, 72016, 72784, 73040, 73120, 92768, 92864, 93008, 120782,
  120792, 120802, 120812, 120822, 123200, 123632, 125264, 130032]

/-- The value of an ASCII digit. -/
def asciiDigit? (c : Char) : Option Nat :=
  if '0'.val ≤ c.val ∧ c.val ≤ '9'.val then some (c.toNat - '0'.toNat) else none

/-- The value of a decimal digit of any script. -/
def digitValue? (c : Char) : Option Nat :=
  if c.toNat < 128 then asciiDigit? c
  else (digitRuns.find? fun start => start ≤ c.toNat && c.toNat < start + 10).map (c.toNat - ·)

/-- Whether the character is a decimal digit of any script. -/
def isDigit (c : Char) : Bool := (digitValue? c).isSome

/-- Splits off the digits at the front, read by `digit?`. -/
def takeDigits (digit? : Char → Option Nat) : List Char → List Nat × List Char
  | [] => ([], [])
  | c :: rest =>
    match digit? c with
    | some d => let (ds, after) := takeDigits digit? rest; (d :: ds, after)
    | none => ([], c :: rest)

/-- The number that digit values denote, the most significant first. -/
def naturalOf (digits : List Nat) : Nat := digits.foldl (fun n d => 10 * n + d) 0

/-- The value of a text of one or more digits and nothing else. -/
def natural? (digit? : Char → Option Nat) (text : List Char) : Option Nat :=
  match takeDigits digit? text with
  | ([], _) => none
  | (digits, []) => some (naturalOf digits)
  | _ => none

/-- The values of digits with single underscores between some of them. -/
def separatedDigits? (digit? : Char → Option Nat) : List Char → Option (List Nat)
  | [] => none
  | [c] => (digit? c).map ([·])
  | c :: '_' :: rest => do return (← digit? c) :: (← separatedDigits? digit? rest)
  | c :: rest => do return (← digit? c) :: (← separatedDigits? digit? rest)

end PatchScript.Text
