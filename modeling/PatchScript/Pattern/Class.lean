import PatchScript.Text.Blank
import PatchScript.Text.Case
import PatchScript.Text.Digit
import PatchScript.Text.Word

/-!
# Classes of characters

A class is given by single characters, ranges and named classes. How letter case is disregarded
depends on the class. A class with one single character has all characters that are the same letter.
A larger class first takes the lower-case form of what it is asked about; its items up to U+FFFF
have the lower-case forms of their characters and those that count as the same letter, a single
character beyond has only itself, and a range that goes beyond has what has either form in it.

## Main definitions

* `Flags`: the switches that change what the parts of a pattern match.
* `Category`: the named classes.
* `Class`, `Class.holds`: the classes, and which characters belong to them.
-/

namespace PatchScript

/-- The switches of a pattern. -/
structure Flags where
  ignoreCase : Bool := false
  multiline : Bool := false
  dotAll : Bool := false
  verbose : Bool := false
  ascii : Bool := false
deriving DecidableEq

/-! ### Letter case -/

namespace Flags

/-- The lower-case form of a code point; with `ascii`, only ASCII letters have another one. -/
def lower (flags : Flags) (n : Nat) : Nat :=
  if flags.ascii && 128 ≤ n then n else Text.lowerCase n

/-- Whether a code point has another form. -/
def isCased (flags : Flags) (n : Nat) : Bool := !(flags.ascii && 128 ≤ n) && Text.isCased n

/-- Whether a range has a code point with another form. -/
def hasCased (flags : Flags) (first last : Nat) : Bool :=
  Text.hasCased first (if flags.ascii then min last 127 else last)

/-- The lower-case forms that are the same letter as a lower-case form. -/
def family (flags : Flags) (n : Nat) : List Nat :=
  if flags.ascii then [n] else Text.letterFamily n

/-- The code points with a given lower-case form. -/
def origins (flags : Flags) (n : Nat) : List Nat :=
  if flags.ascii && 128 ≤ n then [n]
  else (Text.lowerCaseOrigins n).filter fun m => !flags.ascii || m < 128

/-- Whether two characters are equal under the flags. -/
def areEqual (flags : Flags) (c d : Char) : Bool :=
  c == d || (flags.ignoreCase && flags.lower c.toNat == flags.lower d.toNat)

end Flags

/-! ### Named classes -/

/-- The named classes. -/
inductive Category where
  | digit
  | blank
  | word
deriving DecidableEq

/-- Whether a character is in a named class; with `ascii`, only ASCII characters are. -/
def Category.holds (category : Category) (ascii : Bool) (c : Char) : Bool :=
  (!ascii || c.toNat < 128) &&
    match category with
    | .digit => Text.isDigit c
    | .blank => if ascii then Text.isSpace c else Text.isBlank c
    | .word => Text.isWord c

/-! ### Classes -/

/-- A part of a class: a code point, a range of them, or a named class or its complement. -/
inductive ClassItem where
  | single (n : Nat)
  | range (first last : Nat)
  | category (category : Category) (negated : Bool)
deriving DecidableEq

/-- The first code point beyond the basic plane. -/
def beyondBasic : Nat := 0x10000

/-- Whether a code point lies in a range. -/
def isBetween (first last n : Nat) : Bool := first ≤ n && n ≤ last

namespace ClassItem

/-- Whether a character belongs to a part of a class. -/
def holds (flags : Flags) (c : Char) : ClassItem → Bool
  | .single n => c.toNat == n
  | .range first last => isBetween first last c.toNat
  | .category named negated => named.holds flags.ascii c != negated

/-- Whether a part of a class has characters with another form, or goes beyond the basic plane. -/
def isCased (flags : Flags) : ClassItem → Bool
  | .single n => beyondBasic ≤ n || flags.isCased n
  | .range first last => beyondBasic ≤ last || flags.hasCased first last
  | .category .. => false

/-- Whether a lower-case form belongs to a part of a class whose case is disregarded. -/
def holdsForm (flags : Flags) (form : Nat) : ClassItem → Bool
  | .single n =>
    if beyondBasic ≤ n then form == n else (flags.family (flags.lower n)).contains form
  | .range first last =>
    ((flags.family form).flatMap flags.origins).any
        (fun n => isBetween first last n && n < beyondBasic) ||
      (beyondBasic ≤ last &&
        (isBetween first last form || isBetween first last (Text.upperCase form)))
  | .category named negated => named.holds flags.ascii (Char.ofNat form) != negated

end ClassItem

/-- A class of characters, given by its parts or by those that it leaves out. -/
structure Class where
  negated : Bool
  items : List ClassItem
deriving DecidableEq

namespace Class

/-- Whether a character belongs to one of the parts. -/
def isAmong (flags : Flags) (items : List ClassItem) (c : Char) : Bool :=
  if flags.ignoreCase && items.any (·.isCased flags) then
    let form := flags.lower c.toNat
    match items with
    | [.single n] => (flags.family (flags.lower n)).contains form
    | _ => items.any (·.holdsForm flags form)
  else items.any (·.holds flags c)

/-- Whether a character belongs to a class. -/
def holds (flags : Flags) (k : Class) (c : Char) : Bool := isAmong flags k.items c != k.negated

end Class

end PatchScript
