import PatchScript.Command.Basic
import PatchScript.Command.Fault
import PatchScript.Operation.Form

/-!
# Shorthands

Lines and calls write operations in a short form. Some of them stand for different operations
depending on the value, and a replacement that names the old value is two operations, a test and
the replacement proper.

## Main definitions

* `Shorthand.add`, `push`, `checkedReplace`, …: the operations of the short forms.
* `Shorthand.ofForm`: an operation whose fields are still to be checked.
-/

namespace PatchScript.Shorthand

/-- The path of the place after the last item of a list. -/
def endOf (path : String) : String := Path.extend path [.append]

/-- Whether a path ends with an index or the append marker. -/
def endsInList (path : String) : Bool :=
  match (Path.parse path).getLast? with
  | some s => s.isIndexed
  | none => false

/-- Adds a value. A number is added to the one that a key holds. -/
def add (path : String) (value : Value) (reason : Option String) : Operation :=
  let body : OperationBody :=
    match value, endsInList path with
    | .number n, false => .increment n
    | v, _ => .add (some v)
  { path, reason := some reason, body }

/-- Adds a value as it is. -/
def addValue (path : String) (value : Value) : Operation := { path, body := .add (some value) }

/-- Replaces a value. -/
def replace (path : String) (value : Value) (reason : Option (Option String)) : Operation :=
  { path, reason, body := .replace (some value) }

/-- Replaces a value that must be the expected one. -/
def checkedReplace (path : String) (expected value : Value) (reason : Option String) :
    List Operation :=
  [{ path, body := .test (some expected) [] }, replace path value (some reason)]

/-- The operation of a kind with fields that are still to be checked. -/
def ofForm (kind : OperationKind) (form : Mapping) : Except CommandFault Operation :=
  match Operation.ofForm kind false form with
  | .ok o => .ok o
  | .error problems => .error (.invalid problems.length kind.formName)

/-- The operation that a value describes. -/
def ofValue (v : Value) : Except CommandFault Operation :=
  match Operation.ofValue v with
  | .ok o => .ok o
  | .error problems => .error (.invalid problems.length OperationKind.anyFormName)

/-- Modifies a container. -/
def modify (path : String) (action value : Value) (index : Option Value)
    (reason : Option (Option String)) : Except CommandFault Operation :=
  ofForm .modify <|
    [("path", .text path), ("action", action), ("value", value)] ++
      givenField "index" id index ++ givenField "reason" (nullOr .text) reason

end PatchScript.Shorthand
