import PatchScript.Condition
import PatchScript.Json.Printer

/-!
# Operations

An operation is one step of a patch: it names a location, what is to happen there, and possibly a
condition under which it happens and a reason for the record. Its *wire form* is the mapping by
which it is sent. The wire form shows the fields that were given, and a field that was given as null
differs there from one that was left out.

## Main definitions

* `OperationKind`, `EditAction`, `ChildName`: the parts of operations.
* `Operation`, `OperationBody`: the operations.
* `Operation.wire`, `Operation.wireText`: the wire form.
-/

namespace PatchScript

/-! ### Kinds -/

/-- The kinds of operations. -/
inductive OperationKind where
  | add
  | remove
  | replace
  | move
  | copy
  | test
  | increment
  | evaluate
  | modify
deriving DecidableEq

namespace OperationKind

/-- The name by which a kind is selected. -/
def name : OperationKind → String
  | .add => "add"
  | .remove => "remove"
  | .replace => "replace"
  | .move => "move"
  | .copy => "copy"
  | .test => "test"
  | .increment => "increment"
  | .evaluate => "calc"
  | .modify => "modify"

/-- All kinds. -/
def all : List OperationKind :=
  [.add, .remove, .replace, .move, .copy, .test, .increment, .evaluate, .modify]

/-- The kind of a name. -/
def ofName? (name : String) : Option OperationKind := all.find? (·.name == name)

end OperationKind

/-- The ways to modify a container in place. -/
inductive EditAction where
  | append
  | prepend
  | insert
  | merge
deriving DecidableEq

namespace EditAction

/-- The name of an action. -/
def name : EditAction → String
  | .append => "append"
  | .prepend => "prepend"
  | .insert => "insert"
  | .merge => "merge"

/-- All actions under their names. -/
def named : List (String × EditAction) :=
  [EditAction.append, .prepend, .insert, .merge].map fun a => (a.name, a)

end EditAction

/-- The name of a child of a container that is known only when the operation runs. -/
inductive ChildName where
  | key (k : String)
  | index (i : Int)
deriving DecidableEq

namespace ChildName

/-- The name as a value. -/
def value : ChildName → Value
  | .key k => .text k
  | .index i => .int i

/-- The key that the name is in a mapping. -/
def label (c : ChildName) : String := c.value.shown

end ChildName

/-! ### Operations -/

/-- What happens at the location of an operation. The outer `Option` of a field tells whether it was
given, an inner one whether it is null. -/
inductive OperationBody where
  | add (value : Option Value)
  | remove (child : Option (Option ChildName))
  | replace (value : Option Value)
  | move (source : String)
  | copy (source : String)
  | test (expected : Option Value) (comparisons : List Comparison)
  | increment (delta : Number)
  | evaluate (expression : String)
  | modify (action : EditAction) (value : Option Value) (index : Option (Option Int))
deriving DecidableEq

/-- An operation. -/
structure Operation where
  path : String
  guard : Option (Option Mapping) := none
  reason : Option (Option String) := none
  /-- Whether the kind was among the fields given. It only decides where the wire form shows it. -/
  tagged : Bool := false
  body : OperationBody
deriving DecidableEq

namespace OperationBody

/-- The kind of operation. -/
def kind : OperationBody → OperationKind
  | .add _ => .add
  | .remove _ => .remove
  | .replace _ => .replace
  | .move _ => .move
  | .copy _ => .copy
  | .test _ _ => .test
  | .increment _ => .increment
  | .evaluate _ => .evaluate
  | .modify _ _ _ => .modify

end OperationBody

/-! ### Wire form -/

/-- The entry of a field that may be left out. -/
def givenField {α : Type} (name : String) (value : α → Value) (field : Option α) : Mapping :=
  (field.map fun a => (name, value a)).toList

/-- A value that may be null. -/
def nullOr {α : Type} (value : α → Value) : Option α → Value
  | none => .null
  | some a => value a

namespace OperationBody

/-- The fields of the wire form that belong to the kind. -/
def fields : OperationBody → Mapping
  | .add value => givenField "value" id value
  | .remove child => givenField "key" (nullOr ChildName.value) child
  | .replace value => givenField "value" id value
  | .move source => [("from", .text source)]
  | .copy source => [("from", .text source)]
  | .test expected comparisons =>
    givenField "value" id expected ++ comparisons.map fun (c, operand) => (c.name, operand)
  | .increment delta => [("delta", .number delta)]
  | .evaluate expression => [("expr", .text expression)]
  | .modify action value index =>
    ("action", .text action.name) :: givenField "value" id value ++
      givenField "index" (nullOr Value.int) index

end OperationBody

namespace Operation

/-- The kind of an operation. -/
def kind (o : Operation) : OperationKind := o.body.kind

/-- The wire form: the fields shared by all kinds, the kind, and the fields of the kind. A kind that
was not among the fields given comes last. -/
def wire (o : Operation) : Mapping :=
  let op : String × Value := ("op", .text o.kind.name)
  let shared : Mapping :=
    ("path", .text o.path) :: givenField "if" (nullOr Value.mapping) o.guard ++
      givenField "reason" (nullOr Value.text) o.reason
  if o.tagged then shared ++ op :: o.body.fields else shared ++ o.body.fields ++ [op]

/-- The wire form as JSON text. -/
def wireText (o : Operation) : String := Json.text (.mapping o.wire)

/-- The condition under which the operation happens, if there is one. -/
def guard? (o : Operation) : Option Mapping := o.guard.join

/-- The reason for the record; an empty one is none. -/
def reason? (o : Operation) : Option String := o.reason.join.filter (· != "")

/-- The comparisons that a test makes. -/
def comparisons (o : Operation) : List Comparison :=
  match o.body with
  | .test _ comparisons => comparisons
  | _ => []

/-- Whether a test compares with a given value. -/
def hasExpected (o : Operation) : Bool :=
  match o.body with
  | .test (some _) _ => true
  | _ => false

/-- The comparisons of a test as a leaf of a condition. -/
def leaf (o : Operation) : Mapping :=
  ("path", .text o.path) :: o.comparisons.map fun (c, operand) => (c.name, operand)

end Operation

end PatchScript
