import PatchScript.Path.Segment

/-!
# Documents

A document is a value that paths lead into. Reading never changes anything and never counts from
the end of a list. Writing makes the containers that are missing on the way: a list where an index
or the append marker follows, a mapping elsewhere. A write that fails keeps the containers made
before the failure, so its result is a document in either case.

## Main definitions

* `Value.child?`, `Value.resolve`: reading.
* `AddressCause`, `WriteFault`: why a location cannot be written.
* `Value.put`, `Value.write`, `Value.update`: writing.
* `Value.remove?`: removal.
-/

namespace PatchScript

/-! ### Faults -/

/-- Why a path cannot be used as it was. -/
inductive AddressCause where
  | documentRoot
  | appendOnMapping
  | notAnIndex (label : String)
  | outOfRange (label : String)
  | notContainer (label typeName : String)
  | scalarParent (typeName : String)
  | notSequence
  | noSource
  | ownChild
  | nothingToRemove
  | nothingToModify
  | noElement (literal : String)
  /-- A reason given in words. -/
  | stated (reason : String)
deriving DecidableEq

/-- The wording of a cause. -/
def AddressCause.message : AddressCause → String
  | .documentRoot => "cannot replace the document root"
  | .appendOnMapping => "append marker used on a mapping"
  | .notAnIndex label => "sequence index must be an integer, got '" ++ label ++ "'"
  | .outOfRange label => "index " ++ label ++ " is out of range"
  | .notContainer label typeName => "'" ++ label ++ "' holds a " ++ typeName ++ ", not a container"
  | .scalarParent typeName => "parent holds a " ++ typeName ++ ", not a container"
  | .notSequence => "indexed add requires a sequence parent"
  | .noSource => "source does not exist"
  | .ownChild => "cannot move a value into its own child"
  | .nothingToRemove => "nothing to remove"
  | .nothingToModify => "nothing to modify"
  | .noElement literal => "no element equal to " ++ literal
  | .stated reason => reason

/-- Why a write fails. -/
inductive WriteFault where
  | address (cause : AddressCause)
  /-- The gap before an index cannot be counted. -/
  | indexTooLarge
  /-- The gap before an index cannot be stored. -/
  | outOfMemory
deriving DecidableEq

namespace Value

/-! ### Reading -/

/-- The value one step into a container. -/
def child? (container : Value) (segment : Segment) : Option Value :=
  match container, segment with
  | _, .append => none
  | .mapping m, s => Mapping.get? m s.label
  | .list items, s =>
    match s.position? with
    | some i => if 0 ≤ i then items[i.toNat]? else none
    | none => none
  | _, _ => none

/-- The value at a path. -/
def resolve : Value → Path → Option Value
  | v, [] => some v
  | v, s :: rest =>
    match v.child? s with
    | some child => resolve child rest
    | none => none

/-! ### Writing -/

/-- The least gap before an index that cannot be counted. -/
def uncountableGap : Int := Nat.pow 2 63

/-- The least gap before an index that cannot be stored. -/
def unstorableGap : Int := Nat.pow 2 31

/-- Puts a value into a list: after its last item at the append marker, in place of an item at the
index of one, and beyond the end with nulls in between. -/
def putItem (items : List Value) (segment : Segment) (value : Value) :
    Except WriteFault (List Value) :=
  match segment, segment.position? with
  | .append, _ => .ok (items ++ [value])
  | s, none => .error (.address (.notAnIndex s.label))
  | s, some i =>
    let gap := i - items.length
    if i < 0 then .error (.address (.outOfRange s.label))
    else if gap < 0 then .ok (items.set i.toNat value)
    else if uncountableGap ≤ gap then .error .indexTooLarge
    else if unstorableGap ≤ gap then .error .outOfMemory
    else .ok (items ++ List.replicate gap.toNat .null ++ [value])

/-- Puts a value into a container. -/
def put (container : Value) (segment : Segment) (value : Value) : Except WriteFault Value :=
  match container with
  | .mapping m =>
    if segment = .append then .error (.address .appendOnMapping)
    else .ok (.mapping (Mapping.put m segment.label value))
  | .list items => (putItem items segment value).map .list
  | v => .error (.address (.scalarParent v.typeName))

/-- Puts a value in place of a child that is there. -/
def replaceChild (container : Value) (segment : Segment) (value : Value) : Value :=
  match container, segment.position? with
  | .mapping m, _ => .mapping (Mapping.put m segment.label value)
  | .list items, some i => .list (items.set i.toNat value)
  | v, _ => v

/-- The empty container into which a segment leads. -/
def emptyFor (segment : Segment) : Value := if segment.isIndexed then .list [] else .mapping []

/-- Whether a segment cannot lead into a value: into a scalar none can, a key not into a list, and
the append marker not into a mapping. -/
def isWrongKind (segment : Segment) : Value → Bool
  | .list _ => segment.isKey
  | .mapping _ => segment == .append
  | _ => true

/-- Where a write goes on after a step. -/
inductive Way where
  | into (child : Value)
  | anew
  | blocked (fault : WriteFault)

/-- Where a write goes on after the step `segment`, when `following` is the next one. A missing
child or null gives way to a new container, and with `force` so does a child of the wrong kind. -/
def way (force : Bool) (container : Value) (segment following : Segment) : Way :=
  match container.child? segment with
  | none => .anew
  | some .null => .anew
  | some child =>
    if force && isWrongKind following child then .anew
    else if child.isContainer then .into child
    else .blocked (.address (.notContainer segment.label child.typeName))

/-- Writes a value at a path. The result is the document afterwards, and what went wrong. -/
def write (force : Bool) : Value → Path → Value → Value × Option WriteFault
  | document, [], _ => (document, some (.address .documentRoot))
  | document, [s], value =>
    match document.put s value with
    | .ok written => (written, none)
    | .error fault => (document, some fault)
  | document, s :: t :: rest, value =>
    match document.way force s t with
    | .blocked fault => (document, some fault)
    | .into child =>
      let (child', fault) := write force child (t :: rest) value
      (document.replaceChild s child', fault)
    | .anew =>
      let (child', fault) := write force (emptyFor t) (t :: rest) value
      match document.put s child' with
      | .ok written => (written, fault)
      | .error fault => (document, some fault)

/-- Changes the value at a path in place. Without a value there, nothing changes. -/
def update (f : Value → Value) : Value → Path → Value
  | v, [] => f v
  | v, s :: rest =>
    match v.child? s with
    | some child => v.replaceChild s (update f child rest)
    | none => v

/-! ### Removal -/

/-- Removes one child of a container. -/
def removeChild? (container : Value) (segment : Segment) : Option Value :=
  match container, segment.position? with
  | .mapping m, _ =>
    if Mapping.hasKey m segment.label then some (.mapping (Mapping.erase m segment.label)) else none
  | .list items, some i =>
    if 0 ≤ i ∧ i < items.length then some (.list (items.eraseIdx i.toNat)) else none
  | _, _ => none

/-- Removes the value at a path, if there is one. -/
def remove? : Value → Path → Option Value
  | _, [] => none
  | document, [s] => document.removeChild? s
  | document, s :: t :: rest =>
    match document.child? s with
    | some child => (remove? child (t :: rest)).map (document.replaceChild s)
    | none => none

end Value

end PatchScript
