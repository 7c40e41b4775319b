import PatchScript.Pattern.Choice
import PatchScript.Pattern.Escape
import PatchScript.Pattern.Matcher
import PatchScript.Text.Identifier

/-!
# Reading patterns

The written form of a pattern uses `.`, classes in brackets, groups, `|`, quantifiers and escapes
by a backslash. A text that is not a written pattern has no pattern. The form `/body/flags` gives
flags behind the body.

## Main definitions

* `Pattern.Item`: a part of a sequence while it is read.
* `Pattern.read`: the pattern of a text under given flags.
* `Pattern.ofText`: the pattern of a text that may have the form `/body/flags`.
-/

namespace PatchScript.Pattern

/-! ### Quantifiers -/

/-- The least count that is too large. -/
def countLimit : Nat := 4294967295

/-- The number of digits up to which a count is read. -/
def countDigits : Nat := 4300

/-- The count that digits denote. -/
def readCount (digits : List Char) : Reader Nat := do
  if countDigits < digits.length then mishap (.endlessCount digits.length)
  else
    let n := Text.naturalOf (digits.map fun c => c.toNat - '0'.toNat)
    if n < countLimit then return n else mishap .hugeCount

/-- The counts of a quantifier in braces, after its opening brace; `none` when the brace is an
ordinary character. Counts in the wrong order are refused. -/
def readCounts : Reader (Option (Nat × Option Nat)) := do
  let start ← get
  if start.rest.head? = some (.bare '\x7d') then return none
  else
    let length := start.rest.length
    let low ← takeBare Char.isDigit length
    let high ← if ← accept ',' then takeBare Char.isDigit length else pure low
    if ← accept '\x7d' then
      let least ← if low.isEmpty then pure 0 else readCount low
      if high.isEmpty then return some (least, none)
      else
        let most ← readCount high
        if least ≤ most then return some (least, some most) else refuse
    else
      set start
      return none

/-- How the item before a quantifier limits it: an anchor and a quantified item have none. -/
inductive ItemKind where
  | plain
  | anchor
  | quantified
deriving DecidableEq

/-- A part of a sequence while it is read. A group without a meaning of its own gives way to its
parts when the sequence is complete. -/
structure Item where
  kind : ItemKind
  parts : List Pattern

/-- Puts a quantifier on the latest item. -/
def quantify (items : List Item) (least : Nat) (most : Option Nat) : Reader (List Item) := do
  match items with
  | ⟨.plain, parts⟩ :: before =>
    let greed ←
      if ← accept '?' then pure Greed.lazy
      else if ← accept '+' then pure Greed.possessive
      else pure Greed.greedy
    modify fun s => { s with quantified := true }
    return ⟨.quantified, [.repeated greed least most (ofParts parts)]⟩ :: before
  | _ => refuse

/-! ### Flags -/

/-- The flag letters. -/
def isFlagLetter (c : Char) : Bool := "aimsuxt".toList.contains c

/-- Switches the flag of a letter. -/
def Flags.switch (flags : Flags) (on : Bool) : Char → Flags
  | 'i' => { flags with ignoreCase := on }
  | 'm' => { flags with multiline := on }
  | 's' => { flags with dotAll := on }
  | 'x' => { flags with verbose := on }
  | 'a' => { flags with ascii := on }
  | 'u' => { flags with ascii := !on }
  | _ => flags

/-- Switches the flags of several letters. -/
def switchAll (flags : Flags) (on : Bool) (letters : List Char) : Flags :=
  letters.foldl (Flags.switch · on ·) flags

/-- Whether letters can be switched on together: the two that exclude each other do not meet. -/
def areCompatible (letters : List Char) : Bool := !(letters.contains 'a' && letters.contains 'u')

/-- The flags of a group whose first flag letter or hyphen is next: letters to switch on, then a
hyphen and letters to switch off, then a colon. -/
def readScopedFlags (flags : Flags) : Reader Flags := do
  let length := (← get).rest.length
  let on ← takeBare isFlagLetter length
  if !areCompatible on || on.contains 't' then refuse
  else if ← accept ':' then
    if on.isEmpty then refuse else return switchAll flags true on
  else
    expect '-'
    let off ← takeBare isFlagLetter length
    expect ':'
    if off.isEmpty || off.any (fun c => "aut".toList.contains c || on.contains c) then refuse
    else return switchAll (switchAll flags true on) false off

/-- Skips blanks and comments, which a verbose pattern may contain. -/
def skipVerbose : List Token → List Token
  | [] => []
  | .bare c :: rest =>
    if [' ', '\t', '\n', '\r', '\x0b', '\x0c'].contains c then skipVerbose rest
    else if c = '#' then skipComment rest
    else .bare c :: rest
  | tokens => tokens
where
  /-- Skips the rest of a comment, up to and including a line feed. -/
  skipComment : List Token → List Token
    | [] => []
    | .bare '\n' :: rest => skipVerbose rest
    | _ :: rest => skipComment rest

/-- The flags that hold for a whole pattern, which are given at its very beginning, possibly among
comments. The number bounds the parts. -/
def readWholeFlags : Nat → Flags → Reader Flags
  | 0, _ => refuse
  | fuel + 1, flags => do
    if flags.verbose then goOn (skipVerbose (← get).rest)
    match (← get).rest with
    | .bare '(' :: .bare '?' :: .bare '#' :: rest => do
      goOn rest
      let _ ← takeUntil ')'
      readWholeFlags fuel flags
    | .bare '(' :: .bare '?' :: rest =>
      match spanBare isFlagLetter rest.length rest with
      | (c :: letters, .bare ')' :: after) =>
        if areCompatible (c :: letters) then
          goOn after
          modify fun s => { s with wholeFlags := c :: letters ++ s.wholeFlags }
          readWholeFlags fuel (switchAll flags true (c :: letters))
        else refuse
      | _ => return flags
    | _ => return flags

/-! ### Groups -/

/-- The name that tokens spell. -/
def groupName (found : List Token) : Reader String := do
  match bareText? found with
  | some cs => if Text.isIdentifier cs then return String.ofList cs else refuse
  | none => refuse

/-- Opens a group and gives its number. -/
def openGroup (name : Option String) : Reader Nat := do
  let state ← get
  match name with
  | some name =>
    if (state.names.lookup name).isSome then refuse
    else
      set { state with
        groups := state.groups + 1, names := (name, state.groups) :: state.names }
      return state.groups
  | none =>
    set { state with groups := state.groups + 1 }
    return state.groups

/-- Closes a group. -/
def closeGroup (number : Nat) (body : Pattern) : Reader Unit :=
  modify fun s => { s with widths := (number, body.width s.widths) :: s.widths }

/-- The least number that no group can have. -/
def groupLimit : Nat := 1073741823

/-- The number of a group in a condition: white space around it, a plus sign and single underscores
between its digits are allowed. -/
def groupNumber? (text : List Char) : Option Nat := do
  let trimmed := Text.trimSpace text
  let digits ← Text.separatedDigits? Text.digitValue? (trimmed.dropWhile (· == '+'))
  let n := Text.naturalOf digits
  if (trimmed.takeWhile (· == '+')).length ≤ 1 ∧ digits.length ≤ countDigits ∧ 0 < n ∧
      n < groupLimit then
    some n
  else none

/-- The group that a condition names, by name or by number. Only the number may be that of a group
that comes later. -/
def conditionGroup (found : List Token) : Reader Nat := do
  match bareText? found with
  | none => refuse
  | some cs =>
    let state ← get
    let number? :=
      if Text.isIdentifier cs then state.names.lookup (String.ofList cs) else groupNumber? cs
    match number? with
    | none => refuse
    | some number =>
      if state.behindGroups.isSome ∧ !mayReferTo state number then refuse
      else
        set { state with conditions := number :: state.conditions }
        return number

/-! ### Patterns -/

mutual

/-- Reads a choice: sequences separated by bars. The number bounds the depth of the reading. -/
def readChoice : Nat → Flags → Reader (List Pattern)
  | 0, _ => refuse
  | fuel + 1, flags => do return choiceOf (← readAlternatives fuel flags)

/-- Reads the alternatives of a choice. -/
def readAlternatives : Nat → Flags → Reader (List (List Pattern))
  | 0, _ => refuse
  | fuel + 1, flags => do
    let first ← readSequence fuel flags []
    if ← accept '|' then return first :: (← readAlternatives fuel flags)
    else return [first]

/-- Reads a sequence up to a bar, a closing parenthesis or the end. -/
def readSequence : Nat → Flags → List Item → Reader (List Pattern)
  | 0, _, _ => refuse
  | fuel + 1, flags, items => do
    if flags.verbose then goOn (skipVerbose (← get).rest)
    match ← peek with
    | none | some (.bare '|') | some (.bare ')') => return items.reverse.flatMap Item.parts
    | some token => do
      let _ ← next
      let push (kind : ItemKind) (p : Pattern) := readSequence fuel flags (⟨kind, [p]⟩ :: items)
      match token with
      | .dangling => refuse
      | .escaped c =>
        match ← escape flags c with
        | .anchor f a => push .anchor (.anchor f a)
        | p => push .plain p
      | .bare '.' => push .plain (.any flags)
      | .bare '^' => push .anchor (.anchor flags .lineStart)
      | .bare '$' => push .anchor (.anchor flags .lineEnd)
      | .bare '[' => push .plain (.one flags (← readClass))
      | .bare '?' => readSequence fuel flags (← quantify items 0 (some 1))
      | .bare '*' => readSequence fuel flags (← quantify items 0 none)
      | .bare '+' => readSequence fuel flags (← quantify items 1 none)
      | .bare '\x7b' =>
        match ← readCounts with
        | some (least, most) => readSequence fuel flags (← quantify items least most)
        | none => push .plain (single flags '\x7b'.toNat)
      | .bare '(' =>
        match ← readGroup fuel flags with
        | some parts => readSequence fuel flags (⟨.plain, parts⟩ :: items)
        | none => readSequence fuel flags items
      | .bare c => push .plain (single flags c.toNat)

/-- Reads what follows an opening parenthesis; a comment is no item. -/
def readGroup : Nat → Flags → Reader (Option (List Pattern))
  | 0, _ => refuse
  | fuel + 1, flags => do
    let inside (flags : Flags) : Reader (List Pattern) := do
      let parts ← readChoice fuel flags
      expect ')'
      return parts
    let insideAs (f : Pattern → Pattern) (flags : Flags) : Reader (Option (List Pattern)) := do
      return some [f (ofParts (← inside flags))]
    let capture (name : Option String) : Reader (Option (List Pattern)) := do
      let number ← openGroup name
      let body := ofParts (← inside flags)
      closeGroup number body
      return some [.group number body]
    if ← accept '?' then
      match ← peek with
      | some (.bare 'P') => do
        let _ ← next
        if ← accept '<' then capture (some (← groupName (← takeUntil '>')))
        else
          expect '='
          let name ← groupName (← takeUntil ')')
          match (← get).names.lookup name with
          | some number => return some [← reference flags number]
          | none => refuse
      | some (.bare ':') => do
        let _ ← next
        return some (← inside flags)
      | some (.bare '#') => do
        let _ ← takeUntil ')'
        return none
      | some (.bare '=') => do
        let _ ← next
        insideAs (.ahead false) flags
      | some (.bare '!') => do
        let _ ← next
        insideAs (.ahead true) flags
      | some (.bare '<') => do
        let _ ← next
        let negated ← accept '!'
        if !negated then expect '='
        let outer := (← get).behindGroups
        modify fun s => { s with behindGroups := some (outer.getD s.groups) }
        let body := ofParts (← readChoice fuel flags)
        modify fun s => { s with behindGroups := outer }
        expect ')'
        let width := body.width (← get).widths
        if width.greatest ≠ some width.least ∨ countLimit < width.least then
          modify fun s => { s with stretching := true }
        return some [.behind negated width.least body]
      | some (.bare '(') => do
        let _ ← next
        let number ← conditionGroup (← takeUntil ')')
        let yes := ofParts (← readSequence fuel flags [])
        let no ← if ← accept '|' then readSequence fuel flags [] else pure []
        expect ')'
        return some [.ifGroup number yes (ofParts no)]
      | some (.bare '>') => do
        let _ ← next
        insideAs .atomic flags
      | _ => insideAs .enclosed (← readScopedFlags flags)
    else capture none

end

/-- Whether what has been read to the end is a pattern: nothing is left, conditions refer to groups
that there are, every look-behind has a width, and the flag `t` comes without quantifiers. -/
def isComplete (s : ReadState) : Bool :=
  s.rest.isEmpty && s.conditions.all (· < s.groups) && !s.stretching &&
    !(s.quantified && s.wholeFlags.contains 't')

/-- Reads a whole pattern. -/
def readAll (flags : Flags) (found : List Token) : Reader Pattern := do
  let bound := 5 * found.length + 8
  goOn found
  let parts ← readChoice bound (← readWholeFlags bound flags)
  let state ← get
  if !areCompatible state.wholeFlags then mishap .contraryFlags
  else if isComplete state then return ofParts parts
  else refuse

/-- The pattern of a text under given flags. -/
def read (flags : Flags) (text : List Char) : Except PatternMishap (Option Pattern) :=
  ((readAll flags (tokens text)).run' {}).run

/-! ### Flags behind the pattern -/

/-- The flags of the letters `i`, `m`, `s` and `x`, and of no others. -/
def flagsOf? (letters : List Char) : Option Flags :=
  if letters.all "imsx".toList.contains then some (switchAll {} true letters) else none

/-- The body and the flags of a text of the form `/body/flags`, which may end with a line feed. -/
def slashed? (text : List Char) : Option (List Char × Flags) :=
  match text with
  | '/' :: rest =>
    let letters := (rest.reverse.takeWhile (· != '/')).reverse
    if letters.length < rest.length then
      let body := rest.take (rest.length - letters.length - 1)
      let letters := if letters.getLast? = some '\n' then letters.dropLast else letters
      (flagsOf? letters).map (body, ·)
    else none
  | _ => none

/-- The pattern of a text; `none` where it is not a written pattern. -/
def ofText (text : List Char) : Except PatternMishap (Option Pattern) :=
  match slashed? text with
  | some (body, flags) => read flags body
  | none => read {} text

end PatchScript.Pattern
