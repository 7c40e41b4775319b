import PatchScript.Json.Printer

/-!
# Changes

A change says which location got which value and why. Its display text is what the annotation
projections hold.

## Main definitions

* `Value.display`: a value as it appears in a display text.
* `Number.signedDisplay`: a number as a difference.
* `Change`, `Change.displayText`: the record of a change.
-/

namespace PatchScript

/-- A value as it appears in a display text: a text as it is, a whole number without a point, and
any other value as JSON text. -/
def Value.display : Value → String
  | .text s => s
  | .number (.float x) =>
    match x.toInt? with
    | some n => String.ofList (Number.intText n)
    | none => Json.text (.float x)
  | v => Json.text v

/-- A number as a difference: its sign, also when it is positive, and its display text. -/
def Number.signedDisplay (n : Number) : String :=
  (if n.lt (.int 0) then "-" else "+") ++ (Value.number n.abs).display

/-- The record of one change. -/
structure Change where
  path : String
  old : Value
  new : Value
  reason : String
deriving DecidableEq

/-- The annotation of a change: the old value, the new one, and the reason in parentheses. -/
def Change.displayText (c : Change) : String :=
  c.old.display ++ " → " ++ c.new.display ++
    (if c.reason = "" then "" else " (" ++ c.reason ++ ")")

end PatchScript
