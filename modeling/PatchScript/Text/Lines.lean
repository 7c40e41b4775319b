/-!
# Lines

A line ends at a line feed, a carriage return, both together, or one of the other characters that
Unicode or ASCII treat as a line boundary. The boundary belongs to no line, and a boundary at the
end of the text opens no further line.

## Main definitions

* `isLineBreak`: the boundaries.
* `lines`: the lines of a text.
-/

namespace PatchScript.Text

/-- Whether the character ends a line. -/
def isLineBreak (c : Char) : Bool :=
  let n := c.toNat
  (10 ≤ n && n ≤ 13) || (28 ≤ n && n ≤ 30) || n == 133 || n == 8232 || n == 8233

/-- Adds a character to the front of the first line. -/
def consLine (c : Char) : List (List Char) → List (List Char)
  | [] => [[c]]
  | line :: others => (c :: line) :: others

/-- The lines of a text, without their boundaries. -/
def lines : List Char → List (List Char)
  | [] => []
  | '\r' :: '\n' :: rest => [] :: lines rest
  | c :: rest => if isLineBreak c then [] :: lines rest else consLine c (lines rest)

/-- The first line of a text, empty when there is none. -/
def firstLine (text : List Char) : List Char := (lines text).headD []

end PatchScript.Text
