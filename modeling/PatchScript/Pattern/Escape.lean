import PatchScript.Pattern.Token

/-!
# Reading escapes and classes

A backslash gives some letters a meaning of their own: control characters, named classes, anchors
and code points in hexadecimal digits. Digits after a backslash are a code point in octal digits or
refer to a group. Other letters must not stand after a backslash, and all other characters then
stand for themselves.

## Main definitions

* `Pattern.escape`: what a backslash and a character denote.
* `Pattern.reference`: a reference to what a group has matched.
* `Pattern.readClass`: the class between brackets.
-/

namespace PatchScript.Pattern

/-! ### Characters -/

/-- A class with a single character. -/
def single (flags : Flags) (n : Nat) : Pattern := .one flags ⟨false, [.single n]⟩

/-- The code point that a letter after a backslash stands for, in classes and outside. -/
def controlEscape? : Char → Option Nat
  | 'a' => some 7
  | 'f' => some 12
  | 'n' => some 10
  | 'r' => some 13
  | 't' => some 9
  | 'v' => some 11
  | _ => none

/-- The named class, or its complement, of a letter after a backslash. -/
def categoryEscape? : Char → Option ClassItem
  | 'd' => some (.category .digit false)
  | 'D' => some (.category .digit true)
  | 's' => some (.category .blank false)
  | 'S' => some (.category .blank true)
  | 'w' => some (.category .word false)
  | 'W' => some (.category .word true)
  | _ => none

/-- The anchor of a letter after a backslash. -/
def anchorEscape? : Char → Option Anchor
  | 'A' => some .textStart
  | 'Z' => some .textEnd
  | 'b' => some .boundary
  | 'B' => some .noBoundary
  | _ => none

/-- The value of hexadecimal digits. -/
def hexNumber (cs : List Char) : Nat :=
  cs.foldl (fun n c => 16 * n + (if c.isDigit then c.toNat - '0'.toNat
    else c.toLower.toNat - 'a'.toNat + 10)) 0

/-- The value of octal digits. -/
def octalNumber (cs : List Char) : Nat := cs.foldl (fun n c => 8 * n + (c.toNat - '0'.toNat)) 0

/-- Whether the character is a hexadecimal digit. -/
def isHex (c : Char) : Bool :=
  c.isDigit || ('a' ≤ c && c ≤ 'f') || ('A' ≤ c && c ≤ 'F')

/-- Whether the character is an octal digit. -/
def isOctal (c : Char) : Bool := '0' ≤ c && c ≤ '7'

/-- Exactly so many hexadecimal digits. -/
def hexEscape (digits : Nat) : Reader Nat := do
  let cs ← takeBare isHex digits
  let n := hexNumber cs
  if cs.length = digits ∧ n ≤ 0x10ffff then return n else refuse

/-- The code point of a letter after a backslash with digits behind it, or of a character that is
not a letter and stands for itself. -/
def codeEscape (c : Char) : Reader Nat :=
  match c with
  | 'x' => hexEscape 2
  | 'u' => hexEscape 4
  | 'U' => hexEscape 8
  | c => if c.isAlpha || c.isDigit then refuse else pure c.toNat

/-- What a backslash and a character denote inside a class. -/
def classEscape (c : Char) : Reader ClassItem := do
  match controlEscape? c, categoryEscape? c with
  | some n, _ => return .single n
  | none, some item => return item
  | none, none =>
    if c = 'b' then return .single 8
    else if isOctal c then
      let n := octalNumber (c :: (← takeBare isOctal 2))
      if n ≤ 0o377 then return .single n else refuse
    else return ClassItem.single (← codeEscape c)

/-! ### References -/

/-- Whether a group may be referred to: it is closed, and does not belong to the look-behind that
is being read. -/
def mayReferTo (state : ReadState) (number : Nat) : Bool :=
  (state.widths.lookup number).isSome &&
    match state.behindGroups with
    | some limit => decide (number < limit)
    | none => true

/-- A reference to what a group has matched. -/
def reference (flags : Flags) (number : Nat) : Reader Pattern := do
  if mayReferTo (← get) number then return .again flags number else refuse

/-- What a backslash and a digit other than zero denote: three octal digits are a character, other
digits refer to a group. -/
def digitEscape (flags : Flags) (c : Char) : Reader Pattern := do
  match ← takeBare Char.isDigit 1 with
  | [d] =>
    let more ← if isOctal c && isOctal d then takeBare isOctal 1 else pure []
    match more with
    | [e] =>
      let n := octalNumber [c, d, e]
      if n ≤ 0o377 then return single flags n else refuse
    | _ => reference flags (Text.naturalOf [c.toNat - 48, d.toNat - 48])
  | _ => reference flags (c.toNat - 48)

/-- What a backslash and a character denote outside classes. -/
def escape (flags : Flags) (c : Char) : Reader Pattern := do
  match categoryEscape? c, anchorEscape? c, controlEscape? c with
  | some item, _, _ => return .one flags ⟨false, [item]⟩
  | _, some a, _ => return .anchor flags a
  | _, _, some n => return single flags n
  | none, none, none =>
    if c = '0' then return single flags (octalNumber (← takeBare isOctal 2))
    else if c.isDigit then digitEscape flags c
    else return single flags (← codeEscape c)

/-! ### Classes -/

/-- One end of a range: a single code point. -/
def classEnd? : ClassItem → Option Nat
  | .single n => some n
  | _ => none

/-- The item that a token denotes inside a class. -/
def classItem : Token → Reader ClassItem
  | .bare c => pure (.single c.toNat)
  | .escaped c => classEscape c
  | .dangling => refuse

/-- The items of a class up to its closing bracket, the latest first. At the very beginning the
bracket is an ordinary character. The number bounds the items. -/
def readItems : Nat → List ClassItem → Reader (List ClassItem)
  | 0, _ => refuse
  | fuel + 1, found => do
    match ← next with
    | none => refuse
    | some token =>
      if token = .bare ']' ∧ found ≠ [] then return found
      else
        let item ← classItem token
        if ← accept '-' then
          match ← next with
          | none => refuse
          | some (.bare ']') => return .single '-'.toNat :: item :: found
          | some last =>
            match classEnd? item, classEnd? (← classItem last) with
            | some lo, some hi =>
              if lo ≤ hi then readItems fuel (.range lo hi :: found) else refuse
            | _, _ => refuse
        else readItems fuel (item :: found)

/-- The class whose opening bracket has been taken. -/
def readClass : Reader Class := do
  let negated ← accept '^'
  let items ← readItems ((← get).rest.length + 1) []
  return ⟨negated, items.reverse.eraseDups⟩

end PatchScript.Pattern
