import PatchScript.Expression.Names
import PatchScript.Operation.Failure
import PatchScript.Value.Equality

/-!
# Effects of operations

Each kind of operation has an effect on the live document and, unless it is a test, a change to
report. Where an effect fails, the store that it leaves is part of the result: a write that fails
keeps the containers that it made on the way.

Two ways of writing are shared. *Inserting* puts a value at a location as a new one, an index or the
append marker making room for it in a list. *Overwriting* puts a value in place of another one and
keeps its description.

## Main definitions

* `Effect`: the store and what came of it.
* `Store.insert`, `Store.overwrite`: the two ways of writing.
* `Operation.effect`: the effect of an operation, by its kind.
-/

namespace PatchScript

/-- The store after something was tried, and what came of it. -/
abbrev Effect (α : Type) := Store × Except Failure α

namespace Effect

/-- Goes on where nothing failed. -/
def andThen {α β : Type} (e : Effect α) (f : Store → α → Effect β) : Effect β :=
  match e with
  | (s, .ok a) => f s a
  | (s, .error failure) => (s, .error failure)

end Effect

/-- What governs the operations of a session besides the document. -/
structure Regime where
  /-- Whether the constraints in the document are enforced. -/
  constrained : Bool
  limits : ExpressionLimits
deriving DecidableEq

/-- A value as it stands in a change: without its description, and null where there is none. -/
def recorded (v : Option Value) : Value := (v.map Value.plain).getD .null

namespace Store

/-! ### Inserting -/

/-- The place of an index in a list for an insertion that always finds one: a negative index counts
from the end, and one beyond an end is that end. -/
def clamped (i : Int) (length : Nat) : Nat :=
  if 0 ≤ i then min i.toNat length else (length + i).toNat

/-- The index at which a list takes a new item, for an index within it or the append marker. -/
def roomIn? (items : List Value) (segment : Segment) : Option Nat :=
  match segment.position? with
  | none => some items.length
  | some i => if 0 ≤ i ∧ i ≤ items.length then some i.toNat else none

/-- The items with a new one at an index. -/
def withItem (i : Nat) (value : Value) : Value → Value
  | .list items => .list (items.insertIdx i value)
  | v => v

/-- Puts a value at a location as a new one. The result is the canonical path where it stands. -/
def insert (s : Store) (label : String) (path : Path) (value : Value) : Effect String :=
  match path.getLast? with
  | none => (s, .error (.address label .documentRoot))
  | some last =>
    let parent := path.dropLast
    if last.isIndexed then
      match s.lookup parent with
      | some (.list items) =>
        match roomIn? items last with
        | some i =>
          (s.update parent (withItem i value), .ok (Path.canonical (parent ++ [.index i])))
        | none => (s, .error (.address label (.outOfRange last.label)))
      | _ => (s, .error (.address label .notSequence))
    else
      match s.set path value with
      | (s, none) => (s, .ok (Path.canonical path))
      | (s, some fault) => (s, .error (.ofWrite label fault))

/-- The value that inserting at a location overwrites; in a list it overwrites none. -/
def displaced (s : Store) (path : Path) : Option Value :=
  match path.getLast? with
  | none => none
  | some last => if last.isIndexed then none else s.lookup path

/-! ### Overwriting -/

/-- The canonical path of a location that was written; the append marker stands for the last item
of its list. -/
def writtenPath (s : Store) (path : Path) : Except Failure String :=
  if path.getLast? = some .append then
    match s.lookup path.dropLast with
    | some (.list items) => .ok (Path.canonical (path.dropLast ++ [.index (items.length - 1)]))
    | _ => .error (.mishap .lostList)
  else .ok (Path.canonical path)

/-- Puts a value in place of another one and keeps its description. The result is the canonical
path where it stands. -/
def overwrite (s : Store) (label : String) (path : Path) (value : Value) : Effect String :=
  match s.assign path value with
  | (s, none) => (s, s.writtenPath path)
  | (s, some fault) => (s, .error (.ofWrite label fault))

/-! ### Putting back -/

/-- Puts a removed value back where it was, after `failure`. -/
def reinsert (s : Store) (path : Path) (value : Value) (failure : Failure) : Effect String :=
  match path.getLast? with
  | none => (s, .error (.mishap .noLastSegment))
  | some last =>
    match s.lookup path.dropLast, last with
    | some (.list items), .index i =>
      (s.update path.dropLast (withItem (clamped i items.length) value), .error failure)
    | _, _ =>
      match s.set path value with
      | (s, none) => (s, .error failure)
      | (s, some fault) => (s, .error (.ofWrite (Address.label (.steps path)) fault))

end Store

/-! ### Kinds of operations -/

namespace Operation

/-- The change that an operation reports, under its reason or the usual one of its kind. -/
def changeAt (o : Operation) (usual : String) (old new : Value) (path : String) : Change :=
  ⟨path, old, new, o.reason?.getD usual⟩

/-- The end of an effect that wrote a value: the change at its path. -/
def report (o : Operation) (usual : String) (old new : Value) (e : Effect String) :
    Effect Change :=
  e.andThen fun s path => (s, .ok (o.changeAt usual old new path))

/-- Adds a value. -/
def add (o : Operation) (regime : Regime) (s : Store) (value : Value) : Effect Change :=
  let path := Path.parse o.path
  let value := if regime.constrained then (Value.mapping s.stat).withTemplate path value else value
  o.report "add" (recorded (s.displaced path)) value.plain (s.insert o.path path value)

/-- The position of the first item that is the same as a value. -/
def positionOf? (items : List Value) (value : Value) : Option Nat :=
  items.findIdx? (·.same value)

/-- The location that a removal deletes. A child that is named apart is a key of a mapping, an
index of a list, or an item of a list that is the same as the name. -/
def removedAt (o : Operation) (s : Store) (child : Option ChildName) : Except Failure Path :=
  let path := Path.parse o.path
  match child with
  | none => .ok path
  | some child =>
    match s.lookup path, child with
    | some (.mapping _), c => .ok (path ++ [.key c.label])
    | some (.list _), .index i => .ok (path ++ [.index i])
    | some (.list items), .key k =>
      match positionOf? items (.text k) with
      | some i => .ok (path ++ [.index i])
      | none => .error (.address o.path (.noElement child.value.literalText))
    | none, _ => .error (.address o.path .nothingToRemove)
    | some _, _ => .error (.misfit "remove" o.path .notContainer)

/-- Removes a value. -/
def remove (o : Operation) (s : Store) (child : Option ChildName) : Effect Change :=
  match o.removedAt s child with
  | .error failure => (s, .error failure)
  | .ok path =>
    let canonical := Path.canonical path
    match path, s.lookup path with
    | [], _ | _, none => (s, .error (.address canonical .nothingToRemove))
    | _, some old =>
      ((s.delete path).1, .ok (o.changeAt "remove" old.plain .null canonical))

/-- Overwrites a value. -/
def replace (o : Operation) (s : Store) (value : Value) : Effect Change :=
  let path := Path.parse o.path
  o.report "replace" (recorded (s.lookup path)) value.plain (s.overwrite o.path path value)

/-- Whether the second location lies inside the first. -/
def isInside (outer inner : Path) : Bool :=
  outer.isPrefixOf inner && decide (outer.length < inner.length)

/-- Moves a value. It is put back when it cannot be inserted. -/
def move (o : Operation) (s : Store) (source : String) : Effect Change :=
  let start := Path.parse source
  let target := Path.parse o.path
  match s.lookup start with
  | none => (s, .error (.address source .noSource))
  | some value =>
    if isInside start target then (s, .error (.address o.path .ownChild))
    else
      let s := (s.delete start).1
      let old := recorded (s.displaced target)
      match s.insert o.path target value with
      | (s, .ok path) => (s, .ok (o.changeAt "move" old value.plain path))
      | (s, .error failure) =>
        if failure.isMishap then (s, .error failure)
        else (s.reinsert start value failure).andThen fun s _ => (s, .error failure)

/-- Copies a value. -/
def copy (o : Operation) (s : Store) (source : String) : Effect Change :=
  let path := Path.parse o.path
  match s.lookup (Path.parse source) with
  | none => (s, .error (.address source .noSource))
  | some value =>
    o.report "copy" (recorded (s.displaced path)) value.plain (s.insert o.path path value)

/-- What a test expects, for its message. -/
def expectation (comparisons : List Comparison) : Value :=
  if comparisons.isEmpty then .text "a truthy value"
  else .mapping (comparisons.map fun (c, operand) => (c.name, operand))

/-- Tests a value: against the expected one, or by the comparisons, which are checked as a leaf of a
condition. -/
def test (o : Operation) (s : Store) (expected : Option Value) (comparisons : List Comparison) :
    Except Failure Unit :=
  let stored := s.lookup (Path.parse o.path)
  let actual := recorded stored
  match expected with
  | some value =>
    if stored.isSome && actual.same value then .ok ()
    else .error (.test o.path value actual)
  | none =>
    match Condition.valueHolds s (.mapping o.leaf) with
    | .ok true => .ok ()
    | .ok false => .error (.test o.path (expectation comparisons) actual)
    | .error m => .error (.mishap (.pattern m))

/-- The number to which an increment adds: the one there, or zero where there is none. -/
def addend? : Value → Option Number
  | .null => some (.int 0)
  | .number n => some (if n.isZero then .int 0 else n)
  | _ => none

/-- Adds a number to the one there. -/
def increment (o : Operation) (s : Store) (delta : Number) : Effect Change :=
  let path := Path.parse o.path
  let current := recorded (s.lookup path)
  match addend? current with
  | none => (s, .error (.misfit "increment" o.path (.notNumber current.literalText)))
  | some n =>
    match n.add delta with
    | .error overflow => (s, .error (.mishap (.overflow overflow)))
    | .ok sum =>
      let value := Value.number sum.normalize
      o.report delta.signedDisplay current value (s.overwrite o.path path value)

/-- Overwrites a value with that of an expression. -/
def evaluate (o : Operation) (regime : Regime) (s : Store) (expression : String) : Effect Change :=
  match calculate regime.limits (numberAt s) expression.toList with
  | none => (s, .error (.expression expression .rejected))
  | some n =>
    let path := Path.parse o.path
    let value := Value.number n
    o.report ("calc: " ++ expression) (recorded (s.lookup path)) value
      (s.overwrite o.path path value)

/-- A container after an edit in place. -/
def edited (o : Operation) (action : EditAction) (value : Value) (index : Option Int)
    (target : Value) : Except Failure Value :=
  let misfit (cause : Misfit) : Except Failure Value := .error (.misfit "modify" o.path cause)
  match target with
  | .list items =>
    match action with
    | .append => .ok (.list (items ++ [value]))
    | .prepend => .ok (.list (value :: items))
    | .insert =>
      match index with
      | none => misfit .noIndex
      | some i =>
        if Number.isInt64 i then
          .ok (.list (items.insertIdx (Store.clamped i items.length) value))
        else .error (.mishap .indexTooLarge)
    | .merge =>
      match value with
      | .list more => .ok (.list (items ++ more))
      | _ => misfit .mergeWithoutList
  | .mapping m =>
    if action = .merge then
      match value with
      | .mapping more => .ok (.mapping (Mapping.merge m more))
      | _ => misfit .mergeWithoutMapping
    else misfit (.notOnMapping action)
  | _ => misfit .notContainer

/-- Edits a container in place. -/
def modify (o : Operation) (s : Store) (action : EditAction) (value : Value)
    (index : Option Int) : Effect Change :=
  let path := Path.parse o.path
  match s.lookup path with
  | none => (s, .error (.address o.path .nothingToModify))
  | some target =>
    match o.edited action value index target with
    | .error failure => (s, .error failure)
    | .ok after =>
      (s.update path fun _ => after,
        .ok (o.changeAt ("modify:" ++ action.name) target after (Path.canonical path)))

/-- The effect of an operation, with the change that it reports. -/
def effect (o : Operation) (regime : Regime) (s : Store) : Effect (Option Change) :=
  let changed (e : Effect Change) : Effect (Option Change) :=
    e.andThen fun s change => (s, .ok (some change))
  match o.body with
  | .add value => changed (o.add regime s (value.getD .null))
  | .remove child => changed (o.remove s child.join)
  | .replace value => changed (o.replace s (value.getD .null))
  | .move source => changed (o.move s source)
  | .copy source => changed (o.copy s source)
  | .test expected comparisons => (s, (o.test s expected comparisons).map fun _ => none)
  | .increment delta => changed (o.increment s delta)
  | .evaluate expression => changed (o.evaluate regime s expression)
  | .modify action value index => changed (o.modify s action (value.getD .null) index.join)

end Operation

end PatchScript
