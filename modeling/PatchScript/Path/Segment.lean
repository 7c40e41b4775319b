import PatchScript.Value.Literal

/-!
# Path segments

A path is a list of segments. A segment names an entry of a mapping, an item of a list, or the
place after the last item. A path given as a list may also hold any other value; such a segment
addresses the entry whose key is the value's text, and a truth value also counts as the index 0
or 1.

## Main definitions

* `Segment`, `Path`: the parts of an address.
* `Segment.label`: the key under which a segment is looked up in a mapping.
* `Segment.position?`: the index for which a segment stands in a list.
* `Address`: a path as it is handed over, with the spelling that messages show.
-/

namespace PatchScript

/-- One step of a path. -/
inductive Segment where
  | key (k : String)
  | index (i : Int)
  | append
  /-- A value that is neither a text nor an integer. -/
  | other (v : Value)
deriving DecidableEq

/-- A location in a document. -/
abbrev Path := List Segment

namespace Segment

/-- The segment that a value in a list of segments is. -/
def ofValue : Value → Segment
  | .text s => .key s
  | .number (.int i) => .index i
  | v => .other v

/-- The decimal text of an index. -/
def indexText (i : Int) : String := String.ofList (Number.intText i)

/-- The text of a segment, which is also its key in a mapping. -/
def label : Segment → String
  | .key k => k
  | .index i => indexText i
  | .append => "APPEND"
  | .other v => v.shown

/-- The index for which a segment stands in a list. -/
def position? : Segment → Option Int
  | .index i => some i
  | .other (.bool b) => some (if b then 1 else 0)
  | _ => none

/-- Whether the segment is a key. -/
def isKey : Segment → Bool
  | .key _ => true
  | _ => false

/-- Whether the segment can only lead into a list: an index or the append marker. -/
def isIndexed (s : Segment) : Bool := s == .append || s.position?.isSome

/-- The segment inside the literal form of a list of segments. -/
def literal : Segment → List Char
  | .key k => quoteLiteral k.toList
  | .other v => v.literal
  | s => s.label.toList

end Segment

/-! ### Addresses -/

/-- A path as it is handed over. -/
inductive Address where
  | root
  | text (s : String)
  | steps (path : Path)

namespace Address

/-- The address that a value is: null is the root, and whatever is neither a text nor a list is
read from its text. -/
def ofValue : Value → Address
  | .null => .root
  | .list items => .steps (items.map Segment.ofValue)
  | v => .text v.shown

/-- The literal forms of the segments, separated by commas. -/
def literalSteps : Path → List Char
  | [] => []
  | [s] => s.literal
  | s :: rest => s.literal ++ ',' :: ' ' :: literalSteps rest

/-- The spelling of the address in messages. -/
def label : Address → String
  | .root => "None"
  | .text s => s
  | .steps path => String.ofList ('[' :: literalSteps path ++ [']'])

end Address

end PatchScript
