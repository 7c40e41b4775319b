import PatchScript.Pattern.Basic

/-!
# Choices

A choice is simplified while it is read. What all alternatives begin with stands before the choice,
as far as it consists of single characters, anchors and references. If every alternative is then a
class, the choice is one class with the items of all. That matters where letter case is disregarded,
because a class does so in another way than a single character.

## Main definitions

* `Pattern.ofParts`: a sequence.
* `Pattern.commonParts`: what all alternatives begin with.
* `Pattern.choiceOf`: the parts that a choice amounts to.
-/

namespace PatchScript.Pattern

/-- The sequence of some parts. -/
def ofParts : List Pattern → Pattern
  | [] => .empty
  | [p] => p
  | p :: rest => .sequence p (ofParts rest)

/-- Whether two parts are the same class, anchor or reference. -/
def isSamePart : Pattern → Pattern → Bool
  | .one flags k, .one flags' k' => flags = flags' ∧ k = k'
  | .any flags, .any flags' => flags = flags'
  | .anchor flags a, .anchor flags' a' => flags = flags' ∧ a = a'
  | .again flags n, .again flags' n' => flags = flags' ∧ n = n'
  | _, _ => false

/-- What follows a part at the beginning of a sequence. -/
def afterPart? (p : Pattern) : List Pattern → Option (List Pattern)
  | q :: rest => if p.isSamePart q then some rest else none
  | [] => none

/-- The parts with which all of several sequences begin, and what follows them in each. -/
def commonParts : List Pattern → List (List Pattern) → List Pattern × List (List Pattern)
  | [], others => ([], [] :: others)
  | p :: rest, others =>
    match others.mapM (afterPart? p) with
    | some others =>
      let (common, remainders) := commonParts rest others
      (p :: common, remainders)
    | none => ([], (p :: rest) :: others)

/-- The class that a sequence consists of, with its flags; a complement is none. -/
def asClass? : List Pattern → Option (Flags × List ClassItem)
  | [.one flags k] => if k.negated then none else some (flags, k.items)
  | _ => none

/-- The choice between sequences. -/
def eitherOf : List (List Pattern) → Pattern
  | [] => .empty
  | [parts] => ofParts parts
  | parts :: rest => .either (ofParts parts) (eitherOf rest)

/-- The parts that a choice between sequences amounts to. -/
def choiceOf (alternatives : List (List Pattern)) : List Pattern :=
  match alternatives with
  | [] => []
  | [parts] => parts
  | first :: others =>
    let (common, remainders) := commonParts first others
    match remainders.mapM asClass? with
    | some ((flags, items) :: classes) =>
      common ++ [.one flags ⟨false, (items ++ classes.flatMap Prod.snd).eraseDups⟩]
    | _ => common ++ [eitherOf remainders]

end PatchScript.Pattern
