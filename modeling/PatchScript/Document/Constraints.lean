import PatchScript.Document.Basic
import PatchScript.Form.Field
import PatchScript.Path.Spelling

/-!
# Constraints

A mapping may hold constraints on itself under a reserved key. They say whether new keys may be
added, which keys may not be removed, and what a mapping that is added to it has by default.
Constraints that are not well formed are ignored. What lies below a mapping is governed by the
nearest constraints on the way down to it, and by those alone.

## Main definitions

* `Constraints`, `Constraints.of?`: the constraints that a mapping holds.
* `Governing`, `Value.governing?`: the constraints that govern a container.
* `Violation`: a change that constraints rule out.
* `Value.closedAt?`, `requiredAt?`, `withTemplate`: what the governing constraints say.
-/

namespace PatchScript

/-- The constraints of a mapping. -/
structure Constraints where
  /-- Whether keys may be added to the mapping. -/
  extensible : Bool
  /-- The keys that may not be removed. -/
  required : List String
  /-- The defaults of a mapping that is added. -/
  template : Option Mapping
  /-- Whether keys may be added below, where these constraints are the nearest. -/
  recursiveExtensible : Bool
deriving DecidableEq

namespace Constraints

/-- The key under which a mapping holds its constraints. -/
def reservedKey : String := "$meta"

/-- The constraints that a form describes. -/
def ofForm (form : Mapping) : Checked Constraints :=
  (((Checked.ap
    (.ok fun extensible required template recursive =>
      ⟨extensible.getD true, required.getD [], template.join, recursive.getD false⟩)
    (optional form ["extensible"] FieldReader.flag)).ap
    (optional form ["required"] (FieldReader.listOf FieldReader.text))).ap
    (optional form ["template"] (FieldReader.nullable FieldReader.mapping))).ap
    (optional form ["recursiveExtensible", "recursive_extensible"] FieldReader.flag)

/-- The constraints that a value holds on itself. -/
def of? : Value → Option Constraints
  | .mapping m =>
    match Mapping.get? m reservedKey with
    | some (.mapping form) => (ofForm form).toOption
    | _ => none
  | _ => none

end Constraints

/-! ### Governing constraints -/

/-- The constraints that govern a container, the location of their owner, and whether the container
is that owner. -/
structure Governing where
  constraints : Constraints
  owner : Path
  direct : Bool
deriving DecidableEq

/-- Whether keys may be added to the container. -/
def Governing.allowsNewKeys (g : Governing) : Bool :=
  g.constraints.extensible || (!g.direct && g.constraints.recursiveExtensible)

namespace Value

/-- The governing constraints, when those of the way so far are given. -/
def governingFrom (walked : Path) (found : Option Governing) : Value → Path → Option Governing
  | v, [] =>
    match Constraints.of? v with
    | some c => some ⟨c, walked, true⟩
    | none => found
  | v, s :: rest =>
    let found :=
      match Constraints.of? v with
      | some c => some ⟨c, walked, false⟩
      | none => found
    match v.child? s with
    | none => found
    | some .null => found
    | some child => governingFrom (walked ++ [s]) found child rest

/-- The constraints that govern a container. The way to it ends early where a step is missing or
null. -/
def governing? (document : Value) (container : Path) : Option Governing :=
  governingFrom [] none document container

end Value

/-! ### Violations -/

/-- A change that constraints rule out. -/
inductive Violation where
  | closed
  | required (label : String)
  /-- A reason given in words. -/
  | stated (reason : String)
deriving DecidableEq

/-- The wording of a violation. -/
def Violation.message : Violation → String
  | .closed => "container is not extensible"
  | .required label => "'" ++ label ++ "' is required"
  | .stated reason => reason

namespace Value

/-- The violation in writing to a location: the key is new and its container is closed. -/
def closedAt? (document : Value) (path : Path) : Option Violation :=
  match path with
  | [] => none
  | _ :: _ =>
    match document.governing? path.dropLast with
    | none => none
    | some g =>
      if g.allowsNewKeys || (document.resolve path).isSome then none else some .closed

/-- The violation in removing a location: its key is required. -/
def requiredAt? (document : Value) (path : Path) : Option Violation :=
  match path.getLast? with
  | none => none
  | some s =>
    match document.governing? path.dropLast with
    | none => none
    | some g => if g.constraints.required.contains s.label then some (.required s.label) else none

/-- A mapping with the defaults of the governing template; other values stay as they are. -/
def withTemplate (document : Value) (path : Path) (value : Value) : Value :=
  match value with
  | .mapping m =>
    match (document.governing? path.dropLast).bind (·.constraints.template) with
    | none | some [] => .mapping m
    | some template => .mapping (Mapping.merge template m)
  | v => v

end Value

end PatchScript
