import PatchScript.Document.Constraints
import PatchScript.Operation.Basic
import PatchScript.Store.Basic

/-!
# Admission

Before an operation runs, the constraints in the document may rule it out. Writing is ruled out
where it would add a key to a closed container, and removing where the key is required. A move is a
removal and a writing, a copy is a writing, and a merge of mappings is one writing for every key.

## Main definitions

* `Refusal`: a violation at a path.
* `Operation.refusal?`: why an operation is not admitted.
-/

namespace PatchScript

/-- A violation at a path. -/
structure Refusal where
  path : String
  violation : Violation
deriving DecidableEq

/-- The wording of a refusal. -/
def Refusal.message (r : Refusal) : String :=
  "Schema violation at '" ++ r.path ++ "': " ++ r.violation.message

namespace Store

/-- The refusal of a writing. -/
def closed? (s : Store) (path : String) : Option Refusal :=
  ((Value.mapping s.stat).closedAt? (Path.parse path)).map (⟨path, ·⟩)

/-- The refusal of a removal. -/
def required? (s : Store) (path : String) : Option Refusal :=
  ((Value.mapping s.stat).requiredAt? (Path.parse path)).map (⟨path, ·⟩)

/-- The path of what a removal deletes: the entry of a child that is named apart, where the path
leads to a mapping. -/
def removedPath (s : Store) (path : String) (child : Option ChildName) : String :=
  match child, s.lookup (Path.parse path) with
  | some c, some (.mapping _) => Path.extend path [.key c.label]
  | _, _ => path

/-- The refusal of a merge. -/
def mergeRefusal? (s : Store) (path : String) (value : Value) : Option Refusal :=
  match value, s.lookup (Path.parse path) with
  | .mapping added, some (.mapping _) =>
    added.findSome? fun (key, _) => s.closed? (Path.extend path [.key key])
  | _, _ => none

end Store

/-- Why the constraints rule an operation out. -/
def Operation.refusal? (s : Store) (o : Operation) : Option Refusal :=
  match o.body with
  | .add _ | .replace _ | .increment _ | .evaluate _ | .copy _ => s.closed? o.path
  | .remove child => s.required? (s.removedPath o.path child.join)
  | .move source => s.required? source <|> s.closed? o.path
  | .modify .merge value _ => s.mergeRefusal? o.path (value.getD .null)
  | .modify _ _ _ | .test _ _ => none

end PatchScript
