import PatchScript.Value.Literal

/-!
# Problems of a form

A form is a mapping whose fields are checked one by one. Every field that does not pass is reported
with its place and its fault, so a form can have several problems, and one field can have two where
it allows two types.

## Main definitions

* `FieldFault`, `FieldFault.message`: what is wrong with a field.
* `FormProblem`, `FormProblem.describe`: the faults of a form with their places.
* `Checked`, `Checked.ap`: results that keep every problem.
-/

namespace PatchScript

/-- What is wrong with a field, or with the form as a whole. -/
inductive FieldFault where
  | missing
  | notText
  | emptyText
  | notMapping
  | notList
  | notInteger
  | fractional
  | unreadableInteger
  | hugeInteger
  | notFinite
  | notPositive
  | notNumber
  | unreadableNumber
  | notFlag
  | unreadableFlag
  | notOneOf (options : List String)
  | notAForm
  | untagged
  | unknownTag (tag : String) (known : List String)
  | notSettings
  | equalMarkers
  | unknownName (name : String)
deriving DecidableEq

/-- A name between single quotes. -/
def singleQuoted (name : String) : String := "'" ++ name ++ "'"

/-- The options of a choice, the last one after an `or`. -/
def alternatives : List String → String
  | [] => ""
  | [a] => singleQuoted a
  | [a, b] => singleQuoted a ++ " or " ++ singleQuoted b
  | a :: rest => singleQuoted a ++ ", " ++ alternatives rest

/-- The wording of a fault. -/
def FieldFault.message : FieldFault → String
  | .missing => "Field required"
  | .notText => "Input should be a valid string"
  | .emptyText => "String should have at least 1 character"
  | .notMapping => "Input should be a valid dictionary"
  | .notList => "Input should be a valid list"
  | .notInteger => "Input should be a valid integer"
  | .fractional => "Input should be a valid integer, got a number with a fractional part"
  | .unreadableInteger =>
    "Input should be a valid integer, unable to parse string as an integer"
  | .hugeInteger => "Unable to parse input string as an integer, exceeded maximum size"
  | .notFinite => "Input should be a finite number"
  | .notPositive => "Input should be greater than 0"
  | .notNumber => "Input should be a valid number"
  | .unreadableNumber => "Input should be a valid number, unable to parse string as a number"
  | .notFlag => "Input should be a valid boolean"
  | .unreadableFlag => "Input should be a valid boolean, unable to interpret input"
  | .notOneOf options => "Input should be " ++ alternatives options
  | .notAForm => "Input should be a valid dictionary or object to extract fields from"
  | .untagged => "Unable to extract tag using discriminator 'op'"
  | .unknownTag tag known =>
    "Input tag " ++ singleQuoted tag ++
      " found using 'op' does not match any of the expected tags: " ++
      String.intercalate ", " (known.map singleQuoted)
  | .notSettings => "Input should be a valid dictionary or instance of EngineSettings"
  | .equalMarkers => "Value error, block_start and block_end must differ"
  | .unknownName name => "Object has no attribute " ++ singleQuoted name

/-- A fault and its place: the names that lead to the field, none for the form as a whole. -/
structure FormProblem where
  place : List String
  fault : FieldFault
deriving DecidableEq

namespace FormProblem

/-- The name of the place of a problem; a place without a name is the operation as a whole. -/
def placeName (p : FormProblem) : String :=
  let name := String.intercalate "." p.place
  if name = "" then "operation" else name

/-- The text of one problem. -/
def text (p : FormProblem) : String := p.placeName ++ ": " ++ p.fault.message

/-- The texts of all problems in one line. -/
def describe (problems : List FormProblem) : String :=
  String.intercalate "; " (problems.map text)

/-- Puts the form into which a field belongs in front of its place. -/
def within (name : String) (p : FormProblem) : FormProblem := { p with place := name :: p.place }

end FormProblem

/-! ### Results with problems -/

/-- A result, or every problem that stands in its way. -/
abbrev Checked (α : Type) := Except (List FormProblem) α

namespace Checked

/-- Applies a checked function to a checked argument; the problems of the function come first. -/
def ap {α β : Type} (f : Checked (α → β)) (a : Checked α) : Checked β :=
  match f, a with
  | .ok f, .ok a => .ok (f a)
  | .error p, .error q => .error (p ++ q)
  | .error p, .ok _ => .error p
  | .ok _, .error q => .error q

/-- Puts the name of a form in front of the places of all problems. -/
def within {α : Type} (name : String) (a : Checked α) : Checked α :=
  a.mapError (List.map (FormProblem.within name))

end Checked

end PatchScript
