import PatchScript.Text.Blank

/-!
# Bare characters

In the text of a command, quotes hide what they enclose and brackets group it. A character is
*bare* when it stands outside quotes and brackets and is neither; only bare characters separate.
Inside quotes a backslash hides the next character. Brackets are counted without regard to their
kind, and a closing bracket too many is ignored.

## Main definitions

* `Nesting`: where a reader stands with respect to quotes and brackets.
* `Nesting.step`: the position after a character.
* `Nesting.cut`: the pieces of a text between bare separators.
-/

namespace PatchScript

/-- Whether the character opens and closes quoted text. -/
def isQuote (c : Char) : Bool := c == '"' || c == '\''

/-- Whether the character opens a bracket. -/
def isOpener (c : Char) : Bool := c == '(' || c == '[' || c == '\x7b'

/-- Whether the character closes a bracket. -/
def isCloser (c : Char) : Bool := c == ')' || c == ']' || c == '\x7d'

/-- The quote that is open, if any, whether the next character is hidden by a backslash, and the
number of open brackets. -/
structure Nesting where
  quote : Option Char := none
  escaped : Bool := false
  depth : Nat := 0
deriving DecidableEq

namespace Nesting

/-- Outside of everything. -/
def outside : Nesting := {}

/-- The position after a character. -/
def step (s : Nesting) (c : Char) : Nesting :=
  match s.quote with
  | some q =>
    if s.escaped then { s with escaped := false }
    else if c = '\\' then { s with escaped := true }
    else if c = q then { s with quote := none }
    else s
  | none =>
    if isQuote c then { s with quote := some c }
    else if isOpener c then { s with depth := s.depth + 1 }
    else if isCloser c then { s with depth := s.depth - 1 }
    else s

/-- The position after a text. -/
def run (s : Nesting) (text : List Char) : Nesting := text.foldl step s

/-- Whether a character at this position is bare. -/
def isBare (s : Nesting) (c : Char) : Bool :=
  s.quote.isNone && s.depth == 0 && !isQuote c && !isOpener c && !isCloser c

/-- Adds a character to the front of the first piece. -/
def consPiece (c : Char) : List (List Char) → List (List Char)
  | [] => [[c]]
  | piece :: others => (c :: piece) :: others

/-- The pieces of a text between the bare characters that separate. -/
def cut (separates : Char → Bool) (s : Nesting) : List Char → List (List Char)
  | [] => [[]]
  | c :: rest =>
    if s.isBare c && separates c then [] :: cut separates s rest
    else consPiece c (cut separates (s.step c) rest)

/-- The text up to the first bare number sign that begins the text or follows a blank, and the text
after that sign. -/
def cutComment (s : Nesting) (afterBlank : Bool) : List Char → List Char × Option (List Char)
  | [] => ([], none)
  | c :: rest =>
    if s.isBare c && c == '#' && afterBlank then ([], some rest)
    else
      let (before, comment) := cutComment (s.step c) (Text.isBlank c) rest
      (c :: before, comment)

end Nesting

end PatchScript
