import PatchScript.Pattern.Basic

/-!
# Matching

A pattern is matched at a place of a text by trying its alternatives in order until the whole
succeeds. What remains to be matched is passed along as a function, so giving back a choice is
nothing but trying the next one. A repetition stops when a round has not moved the place, and for
that reason makes at most as many further rounds as there are characters left.

## Main definitions

* `Place`: a place in a text.
* `Pattern.run`: matching at a place.
* `Pattern.occursIn`: whether a pattern matches anywhere in a text.
-/

namespace PatchScript

/-- A place in a text: what stands before it, the nearest first, and what follows. The number of
characters before it is kept along. -/
structure Place where
  before : List Char
  after : List Char
  position : Nat := before.length
  position_eq : position = before.length := by rfl

namespace Place

/-- The place at the front of a text. -/
def start (text : List Char) : Place := { before := [], after := text }

/-- The place after the next character, given what follows it. -/
def step (p : Place) (c : Char) (rest : List Char) : Place where
  before := c :: p.before
  after := rest
  position := p.position + 1
  position_eq := by simp [p.position_eq]

/-- The place after the next character. -/
def next? (p : Place) : Option (Char × Place) :=
  match p.after with
  | [] => none
  | c :: rest => some (c, p.step c rest)

/-- The place a number of characters earlier. -/
def back? : Nat → Place → Option Place
  | 0, p => some p
  | n + 1, p =>
    match h : p.before with
    | [] => none
    | c :: rest =>
      back? n
        { before := rest, after := c :: p.after, position := p.position - 1
          position_eq := by simp [p.position_eq, h] }

/-- The place after a given text, whose characters need only be the same up to `eq`. -/
def skip? (eq : Char → Char → Bool) : List Char → Place → Option Place
  | [], p => some p
  | c :: rest, p =>
    match p.after with
    | [] => none
    | d :: after => if eq c d then skip? eq rest (p.step d after) else none

end Place

/-- The texts that groups have matched, the latest first. -/
abbrev Captures := List (Nat × List Char)

/-- Where a match ends, and what its groups have matched. -/
abbrev MatchResult := Option (Place × Captures)

/-- Matching something from a place onward. -/
abbrev Matching := Place → Captures → MatchResult

namespace Anchor

/-- Whether the place has a word character on exactly one side. -/
def atBoundary (ascii : Bool) (p : Place) : Bool :=
  let isWord (c : Option Char) : Bool := c.any (Category.word.holds ascii)
  isWord p.before.head? != isWord p.after.head?

/-- Whether an anchor holds at a place. In an empty text a place is neither a boundary nor none. -/
def holds (flags : Flags) (p : Place) : Anchor → Bool
  | .lineStart => p.before.isEmpty || (flags.multiline && p.before.head? == some '\n')
  | .lineEnd =>
    p.after.isEmpty || p.after == ['\n'] || (flags.multiline && p.after.head? == some '\n')
  | .textStart => p.before.isEmpty
  | .textEnd => p.after.isEmpty
  | .boundary => !(p.before.isEmpty && p.after.isEmpty) && atBoundary flags.ascii p
  | .noBoundary => !(p.before.isEmpty && p.after.isEmpty) && !atBoundary flags.ascii p

end Anchor

namespace Pattern

/-- Whether a repetition may start another round: it has not reached its greatest count, and the
last round has moved the place. -/
def mayRepeat (most : Option Nat) (count : Nat) (last : Option Nat) (p : Place) : Bool :=
  (match most with
    | some most => decide (count < most)
    | none => true) && last != some p.position

/-- The rounds of a repetition, with the first number as a bound on those still possible. `count`
rounds are done, and `last` is the place where the last optional one began. -/
def rounds (greedy : Bool) (least : Nat) (most : Option Nat) (body : Matching → Matching)
    (finish : Matching) : (bound : Nat) → (count : Nat) → (last : Option Nat) → Matching
  | 0, _, _ => finish
  | bound + 1, count, last => fun p captures =>
    if count < least then
      body (rounds greedy least most body finish bound (count + 1) last) p captures
    else if greedy then
      let further :=
        if mayRepeat most count last p then
          body (rounds greedy least most body finish bound (count + 1) (some p.position)) p captures
        else none
      match further with
      | some found => some found
      | none => finish p captures
    else
      match finish p captures with
      | some found => some found
      | none =>
        if mayRepeat most count last p then
          body (rounds greedy least most body finish bound (count + 1) (some p.position)) p captures
        else none

/-- The first match of something by itself. -/
def alone : Matching := fun p captures => some (p, captures)

/-- The text between two places. -/
def between (start finish : Place) : List Char :=
  start.after.take (finish.position - start.position)

/-- Matches a pattern at a place, and then what remains to be matched. -/
def run : Pattern → Matching → Matching
  | .empty, k => k
  | .one flags c, k => fun p captures =>
    match p.next? with
    | some (x, q) => if c.holds flags x then k q captures else none
    | none => none
  | .any flags, k => fun p captures =>
    match p.next? with
    | some (x, q) => if flags.dotAll || x != '\n' then k q captures else none
    | none => none
  | .anchor flags a, k => fun p captures => if a.holds flags p then k p captures else none
  | .sequence a b, k => run a (run b k)
  | .either a b, k => fun p captures =>
    match run a k p captures with
    | some found => some found
    | none => run b k p captures
  | .repeated greed least most body, k => fun p captures =>
    let bound := least + p.after.length + 2
    match greed with
    | .greedy => rounds true least most (fun k => run body k) k bound 0 none p captures
    | .lazy => rounds false least most (fun k => run body k) k bound 0 none p captures
    | .possessive =>
      let once (k : Matching) : Matching := fun p captures =>
        match run body alone p captures with
        | some (q, captures) => k q captures
        | none => none
      match rounds true least most once alone bound 0 none p captures with
      | some (q, captures) => k q captures
      | none => none
  | .group number body, k => fun p captures =>
    run body (fun q captures => k q ((number, between p q) :: captures)) p captures
  | .again flags number, k => fun p captures =>
    match captures.lookup number with
    | some text =>
      match p.skip? flags.areEqual text with
      | some q => k q captures
      | none => none
    | none => none
  | .ahead negated body, k => fun p captures =>
    match run body alone p captures with
    | some (_, inner) => if negated then none else k p inner
    | none => if negated then k p captures else none
  | .behind negated distance body, k => fun p captures =>
    match (p.back? distance).bind fun start => run body alone start captures with
    | some (_, inner) => if negated then none else k p inner
    | none => if negated then k p captures else none
  | .atomic body, k => fun p captures =>
    match run body alone p captures with
    | some (q, captures) => k q captures
    | none => none
  | .enclosed body, k => run body k
  | .ifGroup number yes no, k => fun p captures =>
    if (captures.lookup number).isSome then run yes k p captures else run no k p captures

/-- Whether a pattern matches at a place or within a number of characters further on. -/
def occursFrom (pattern : Pattern) : Nat → Place → Bool
  | 0, p => (run pattern alone p []).isSome
  | n + 1, p =>
    (run pattern alone p []).isSome ||
      match p.next? with
      | some (_, q) => occursFrom pattern n q
      | none => false

/-- Whether a pattern matches anywhere in a text. -/
def occursIn (pattern : Pattern) (text : List Char) : Bool :=
  occursFrom pattern text.length (.start text)

end Pattern

end PatchScript
