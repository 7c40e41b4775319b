import PatchScript.Pattern.Class

/-!
# Patterns

A pattern describes texts. Its smallest parts are classes of characters and anchors; larger ones are
made by sequence, choice, repetition, groups and conditions on what stands before or behind. Each
part carries the flags in force where it was written.

## Main definitions

* `Pattern`: the patterns.
* `PatternMishap`: why a text cannot even be tried as a pattern.
* `Pattern.width`: the least and greatest length of what a pattern matches.
-/

namespace PatchScript

/-! ### Patterns -/

/-- The places that a pattern can insist on. -/
inductive Anchor where
  | lineStart
  | lineEnd
  | textStart
  | textEnd
  | boundary
  | noBoundary
deriving DecidableEq

/-- How a repetition chooses its length: as long as possible, as short as possible, or as long as
possible without ever giving anything back. -/
inductive Greed where
  | greedy
  | lazy
  | possessive
deriving DecidableEq

/-- A pattern. -/
inductive Pattern where
  | empty
  | one (flags : Flags) (k : Class)
  | any (flags : Flags)
  | anchor (flags : Flags) (a : Anchor)
  | sequence (first second : Pattern)
  | either (first second : Pattern)
  | repeated (greed : Greed) (least : Nat) (most : Option Nat) (body : Pattern)
  | group (number : Nat) (body : Pattern)
  | again (flags : Flags) (number : Nat)
  | ahead (negated : Bool) (body : Pattern)
  | behind (negated : Bool) (distance : Nat) (body : Pattern)
  | atomic (body : Pattern)
  /-- A part with flags of its own, which stays one part. -/
  | enclosed (body : Pattern)
  | ifGroup (number : Nat) (yes no : Pattern)

/-! ### Mishaps -/

/-- What goes wrong with a text that is not simply no pattern. -/
inductive PatternMishap where
  /-- A count that is too large. -/
  | hugeCount
  /-- A count with more digits than are read. -/
  | endlessCount (digits : Nat)
  /-- Two flags that exclude each other are given for the whole pattern. -/
  | contraryFlags
deriving DecidableEq

/-- The wording of a mishap. -/
def PatternMishap.message : PatternMishap → String
  | .hugeCount => "the repetition number is too large"
  | .endlessCount digits =>
    "Exceeds the limit (4300 digits) for integer string conversion: value has " ++
      toString digits ++ " digits; use sys.set_int_max_str_digits() to increase the limit"
  | .contraryFlags => "ASCII and UNICODE flags are incompatible"

/-! ### Widths -/

/-- The least and greatest length of a match; `none` when there is no greatest. -/
structure Width where
  least : Nat
  greatest : Option Nat
deriving DecidableEq

namespace Width

/-- The width of one part followed by another. -/
def add (a b : Width) : Width :=
  ⟨a.least + b.least, do return (← a.greatest) + (← b.greatest)⟩

/-- The width of a choice. -/
def join (a b : Width) : Width :=
  ⟨min a.least b.least, do return max (← a.greatest) (← b.greatest)⟩

/-- The width of a repetition. What matches nothing, or nothing but the empty text, has no width
however often it is repeated. -/
def times (w : Width) (least : Nat) (most : Option Nat) : Width :=
  ⟨w.least * least,
    if w.greatest = some 0 ∨ most = some 0 then some 0
    else do return (← w.greatest) * (← most)⟩

end Width

namespace Pattern

/-- The width of a pattern, given the widths of its groups. -/
def width (groups : List (Nat × Width)) : Pattern → Width
  | .empty | .anchor .. | .ahead .. | .behind .. => ⟨0, some 0⟩
  | .one .. | .any .. => ⟨1, some 1⟩
  | .sequence a b => (width groups a).add (width groups b)
  | .either a b => (width groups a).join (width groups b)
  | .repeated _ least most body => (width groups body).times least most
  | .group _ body => width groups body
  | .again _ number => (groups.lookup number).getD ⟨0, none⟩
  | .atomic body | .enclosed body => width groups body
  | .ifGroup _ yes no => (width groups yes).join (width groups no)

end Pattern

end PatchScript
