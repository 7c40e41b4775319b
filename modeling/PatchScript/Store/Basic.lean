import PatchScript.Document.Basic
import PatchScript.Path.Spelling
import PatchScript.Store.Change
import PatchScript.Value.Entries

/-!
# The variable store

A store holds the live document and two projections of annotations: one with every change so far,
and one with the changes since it was last cleared. All three are mappings at the root. Operations
that can fail return the store they leave, because a failed write keeps the containers it made.

## Main definitions

* `Store`, `Source`: the three projections.
* `Store.lookup`, `get`, `exists`: reading.
* `Store.set`, `assign`, `update`, `delete`: changing one projection.
* `Store.annotate`, `record`: annotating both projections with a change.
-/

namespace PatchScript

/-- The live document and the two projections of annotations. -/
structure Store where
  stat : Mapping
  display : Mapping
  delta : Mapping
deriving DecidableEq

/-- The projections of a store. -/
inductive Source where
  | stat
  | display
  | delta
deriving DecidableEq

namespace Source

/-- The projection of a name. -/
def ofName? : String → Option Source
  | "stat" => some .stat
  | "display" => some .display
  | "delta" => some .delta
  | _ => none

/-- The complaint about a value that names no projection. -/
def invalidMessage (name : Value) : String := name.literalText ++ " is not a valid Source"

end Source

namespace Store

/-- A store with a live document and no annotations. -/
def ofData (data : Mapping) : Store := ⟨data, [], []⟩

/-- One projection. -/
def projection (s : Store) : Source → Mapping
  | .stat => s.stat
  | .display => s.display
  | .delta => s.delta

/-- Replaces one projection. -/
def withProjection (s : Store) (source : Source) (m : Mapping) : Store :=
  match source with
  | .stat => { s with stat := m }
  | .display => { s with display := m }
  | .delta => { s with delta := m }

/-! ### Reading -/

/-- The value at a path, as it is stored. -/
def lookup (s : Store) (path : Path) (source : Source := .stat) : Option Value :=
  (Value.mapping (s.projection source)).resolve path

/-- The value at a path without its description; `fallback` where there is none. -/
def get (s : Store) (path : Path) (source : Source := .stat) (fallback : Value := .null) : Value :=
  match s.lookup path source with
  | some v => v.plain
  | none => fallback

/-- Whether there is a value at a path. -/
def exists? (s : Store) (path : Path) (source : Source := .stat) : Bool :=
  (s.lookup path source).isSome

/-! ### Changing -/

/-- Writes into one projection. -/
def write (s : Store) (source : Source) (force : Bool) (path : Path) (value : Value) :
    Store × Option WriteFault :=
  let (document, fault) := (Value.mapping (s.projection source)).write force path value
  (s.withProjection source document.entries, fault)

/-- Writes a value. -/
def set (s : Store) (path : Path) (value : Value) (source : Source := .stat) :
    Store × Option WriteFault :=
  s.write source false path value

/-- The value to store where `current` stands, so that a description is kept. A list replaces its
description too. -/
def described (current : Option Value) (value : Value) : Value :=
  match value, current.bind Value.description? with
  | .list items, _ => .list items
  | v, some description => .list [v, .text description]
  | v, none => v

/-- Writes a live value, keeping the description of a described leaf. -/
def assign (s : Store) (path : Path) (value : Value) : Store × Option WriteFault :=
  s.set path (described (s.lookup path) value)

/-- Changes the live value at a path in place. -/
def update (s : Store) (path : Path) (f : Value → Value) : Store :=
  { s with stat := ((Value.mapping s.stat).update f path).entries }

/-- Removes the value at a path; the flag says whether there was one. -/
def delete (s : Store) (path : Path) (source : Source := .stat) : Store × Bool :=
  match (Value.mapping (s.projection source)).remove? path with
  | some document => (s.withProjection source document.entries, true)
  | none => (s, false)

/-- Writes a text into both projections of annotations, replacing whatever stands in the way. -/
def annotate (s : Store) (path : Path) (text : String) : Store × Option WriteFault :=
  match s.write .display true path (.text text) with
  | (s, some fault) => (s, some fault)
  | (s, none) => s.write .delta true path (.text text)

/-- Annotates both projections with a change. -/
def record (s : Store) (change : Change) : Store × Option WriteFault :=
  s.annotate (Path.parse change.path) change.displayText

/-- Forgets the annotations since the last clearing. -/
def clearDelta (s : Store) : Store := { s with delta := [] }

/-! ### Snapshots -/

/-- The name of each projection in a snapshot given as a mapping. -/
def snapshotNames : List (String × Source) :=
  [("stat_data", .stat), ("display_data", .display), ("delta_data", .delta)]

/-- The projections that a snapshot replaces, each with the value that gives its entries. -/
def replacements (snapshot : Mapping) : List (Source × Value) :=
  snapshotNames.filterMap fun (name, source) =>
    match snapshot.get? name with
    | none | some .null => none
    | some v => some (source, v)

/-- Replaces projections one after the other. A value that does not give entries ends this, and
leaves in its projection the entries that it gave before its fault. -/
def replaceAll (s : Store) : List (Source × Value) → Store × Option EntriesFault
  | [] => (s, none)
  | (source, v) :: rest =>
    match Mapping.putAll [] v with
    | (m, none) => replaceAll (s.withProjection source m) rest
    | (m, some fault) => (s.withProjection source m, some fault)

/-- The projections that are replaced, up to and including the first fault. -/
def replaced : List (Source × Value) → List Source
  | [] => []
  | (source, v) :: rest => source :: if (Mapping.putAll [] v).2.isNone then replaced rest else []

/-- Replaces every projection that a snapshot holds. -/
def load (s : Store) (snapshot : Mapping) : Store × Option EntriesFault :=
  s.replaceAll (replacements snapshot)

end Store

end PatchScript
