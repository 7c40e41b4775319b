import PatchScript.Path.Segment
import PatchScript.Text.Blank

/-!
# Spellings of paths

A path is spelled with slashes, as in `/a/b/0`, or with dots and brackets, as in `a.b[0]`. Slashes
separate where the text begins with one, or holds one and neither a dot nor a bracket. A part that
looks like an integer is an index, a lone hyphen is the append marker, and all else is a key; a
quoted part in brackets is a key whatever it looks like. Every text is the spelling of some path.

The canonical spelling uses dots and brackets, and quotes a key that would be read otherwise.

## Main definitions

* `Path.parse`: the path of a spelling.
* `Path.canonical`: the canonical spelling of a path.
* `Address.path`: the path of an address.
-/

namespace PatchScript

namespace Path

/-! ### Parts -/

/-- The integer that a text of digits with an optional minus sign denotes. -/
def integer? : List Char → Option Int
  | '-' :: rest => (Text.natural? Text.digitValue? rest).map fun n => -(n : Int)
  | text => (Text.natural? Text.digitValue? text).map fun n => (n : Int)

/-- The mark put in front of a part that was quoted. A part that begins with this character is a
key, quoted or not. -/
def quotedMark : Char := '\x00'

/-- The segment that a part without blanks around it denotes. -/
def segmentOf (part : List Char) : Segment :=
  match part with
  | ['-'] => .append
  | c :: rest =>
    if c = quotedMark then .key (String.ofList rest)
    else
      match integer? part with
      | some i => .index i
      | none => .key (String.ofList part)
  | [] => .key ""

/-- The segments of the parts, those that are blank left out. -/
def segmentsOf (parts : List (List Char)) : Path :=
  ((parts.map Text.trim).filter (!·.isEmpty)).map segmentOf

/-! ### Brackets -/

/-- The content of a quoted part: the quotes are equal, and no line feed stands between them. -/
def unquoted? (part : List Char) : Option (List Char) :=
  match part with
  | quote :: rest =>
    if (quote == '"' || quote == '\'') && rest.getLast? == some quote &&
        !rest.dropLast.contains '\n' then
      some rest.dropLast
    else none
  | [] => none

/-- The part between brackets: without the blanks around it, and marked when it is quoted. -/
def bracketPart (content : List Char) : List Char :=
  let inner := Text.trim content
  match unquoted? inner with
  | some body => quotedMark :: body
  | none => inner

mutual

/-- The parts of a text with dots and brackets; `current` holds, reversed, the part being read. A
bracket that is not closed is an ordinary character. -/
def dottedParts : List Char → List Char → List (List Char)
  | [], current => [current.reverse]
  | c :: rest, current =>
    if c = '.' then current.reverse :: dottedParts rest []
    else if c = '[' && rest.contains ']' then current.reverse :: bracketParts rest []
    else dottedParts rest (c :: current)

/-- The parts of a text that begins inside a bracket. -/
def bracketParts : List Char → List Char → List (List Char)
  | [], current => [current.reverse]
  | c :: rest, current =>
    if c = ']' then bracketPart current.reverse :: dottedParts rest []
    else bracketParts rest (c :: current)

end

/-! ### Reading -/

/-- Whether a spelling uses slashes. -/
def usesSlashes (text : List Char) : Bool :=
  text.head? == some '/' || (text.contains '/' && !text.contains '.' && !text.contains '[')

/-- The parts of a spelling. -/
def parts (text : List Char) : List (List Char) :=
  if usesSlashes text then text.splitOn '/' else dottedParts text []

/-- The path of a spelling given as characters. -/
def parseChars (text : List Char) : Path := segmentsOf (parts (Text.trim text))

/-- The path of a spelling. -/
def parse (text : String) : Path := parseChars text.toList

/-! ### Canonical spelling -/

/-- Whether a key would be read as an index: an integer, possibly with a line feed after it. -/
def looksLikeIndex (k : List Char) : Bool :=
  (integer? k).isSome || (k.getLast? == some '\n' && (integer? k.dropLast).isSome)

/-- Adds the spelling of a segment to the spelling of the segments before it. -/
def spell (before : List Char) : Segment → List Char
  | .append => before ++ ['[', '-', ']']
  | .key k =>
    let text := k.toList
    if looksLikeIndex text || text = ['-'] then before ++ '[' :: '"' :: text ++ ['"', ']']
    else if before.isEmpty then text
    else before ++ '.' :: text
  | s => before ++ '[' :: s.label.toList ++ [']']

/-- The canonical spelling as characters. -/
def canonicalChars (path : Path) : List Char := path.foldl spell []

/-- The canonical spelling of a path. -/
def canonical (path : Path) : String := String.ofList (canonicalChars path)

/-- Whether the segment has a spelling: a value in place of a segment has one only when it is a
truth value. -/
def isSpellable : Segment → Bool
  | .other (.bool _) => true
  | .other _ => false
  | _ => true

/-- The canonical spelling, if every segment has one. -/
def canonical? (path : Path) : Option String :=
  if path.all isSpellable then some (canonical path) else none

/-- The canonical spelling of a path with more segments after it. -/
def extend (text : String) (more : Path) : String := canonical (parse text ++ more)

end Path

namespace Address

/-- The path of an address. -/
def path : Address → Path
  | .root => []
  | .text s => Path.parse s
  | .steps segments => segments

end Address

end PatchScript
