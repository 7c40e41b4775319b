import PatchScript.Form.Field
import PatchScript.Operation.Basic

/-!
# Operations from forms

An operation is read from a form: its field `op` selects the kind, and the kind decides which other
fields there are. Fields that the kind does not have are ignored, and every field that does not pass
is reported.

## Main definitions

* `Operation.ofForm`: the operation of a known kind that a form describes.
* `Operation.ofValue`: the operation that a value describes.
-/

namespace PatchScript

namespace OperationKind

/-- The name that messages give to the form of a kind. -/
def formName : OperationKind → String
  | .add => "AddOperation"
  | .remove => "RemoveOperation"
  | .replace => "ReplaceOperation"
  | .move => "MoveOperation"
  | .copy => "CopyOperation"
  | .test => "TestOperation"
  | .increment => "IncrementOperation"
  | .evaluate => "CalcOperation"
  | .modify => "ModifyOperation"

/-- The name that messages give to a form whose kind is not known beforehand. -/
def anyFormName : String :=
  "tagged-union[" ++ String.intercalate "," (all.map formName) ++ "]"

end OperationKind

open FieldReader

/-! ### Fields -/

/-- The name of a child: a text or an integer. -/
def childName : FieldReader ChildName := fun v =>
  (either "str" text "int" integer v).map (Sum.elim .key .index)

/-- The comparators of a test, in the order of its fields. -/
def testComparators : List Comparator :=
  [.equal, .unequal, .above, .atLeast, .below, .atMost, .oneOf, .noneOf, .pattern, .present]

/-- The names of the field of a comparator. -/
def comparatorNames (c : Comparator) : List String :=
  if c = .oneOf then [c.name, "in_"] else [c.name]

/-- The operand of a comparator: a text for a pattern, a truth value for presence, both possibly
null, and any value otherwise. -/
def operand : Comparator → FieldReader Value
  | .pattern => fun v => (nullable text v).map (nullOr .text)
  | .present => fun v => (nullable flag v).map (nullOr .bool)
  | _ => any

/-- The comparisons of a test. -/
def comparisonFields (form : Mapping) : Checked (List Comparison) :=
  testComparators.foldr
    (fun c rest =>
      (Checked.ap
        (.ok fun (given : Option Value) (others : List Comparison) =>
          (given.map fun v => (c, v)).toList ++ others)
        (optional form (comparatorNames c) (operand c))).ap rest)
    (.ok [])

/-- The names of the field that gives the source of a move or copy. -/
def sourceNames : List String := ["from", "from_"]

/-- The fields that belong to a kind. -/
def OperationBody.ofForm (form : Mapping) : OperationKind → Checked OperationBody
  | .add => (optional form ["value"] any).map .add
  | .remove => (optional form ["key"] (nullable childName)).map .remove
  | .replace => (optional form ["value"] any).map .replace
  | .move => (required form sourceNames text).map .move
  | .copy => (required form sourceNames text).map .copy
  | .test =>
    (Checked.ap (.ok .test) (optional form ["value"] any)).ap (comparisonFields form)
  | .increment => (required form ["delta"] number).map .increment
  | .evaluate => (required form ["expr"] text).map .evaluate
  | .modify =>
    ((Checked.ap (.ok .modify) (required form ["action"] (choice EditAction.named))).ap
      (optional form ["value"] any)).ap (optional form ["index"] (nullable integer))

namespace Operation

/-- The operation of a given kind that a form describes. -/
def ofForm (kind : OperationKind) (tagged : Bool) (form : Mapping) : Checked Operation :=
  (((Checked.ap
    (.ok fun path guard reason body => ⟨path, guard, reason, tagged, body⟩)
    (required form ["path"] text)).ap
    (optional form ["if", "if_"] (nullable mapping))).ap
    (optional form ["reason"] (nullable text))).ap
    (OperationBody.ofForm form kind)

/-- The kind that a tag selects. -/
def kindOf (tag : Value) : Checked OperationKind :=
  match tag with
  | .text name =>
    match OperationKind.ofName? name with
    | some kind => .ok kind
    | none => fault (.unknownTag name (OperationKind.all.map OperationKind.name))
  | v => fault (.unknownTag v.shown (OperationKind.all.map OperationKind.name))

/-- The operation that a value describes. -/
def ofValue : Value → Checked Operation
  | .mapping form =>
    match Mapping.get? form "op" with
    | none => fault .untagged
    | some tag =>
      match kindOf tag with
      | .ok kind => Checked.within kind.name (ofForm kind true form)
      | .error problems => .error problems
  | _ => fault .notAForm

end Operation

end PatchScript
