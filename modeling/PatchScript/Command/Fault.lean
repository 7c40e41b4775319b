import PatchScript.Json.Reader
import PatchScript.Value.Literal

/-!
# Faults of commands

## Main definitions

* `CommandFault`: why a recognized command is dropped, with its wording.
-/

namespace PatchScript

/-- Why a command that was recognized cannot be used. -/
inductive CommandFault where
  | unterminatedString (text : String)
  | emptyArgument (text : String)
  | emptyLiteral
  | badJson (literal : String) (error : Json.Error)
  | missingPath (verb : String)
  | wrongCount (verb : String) (expected actual : Nat)
  | wrongForm (usage : String)
  | modifyTakesOne (action : String)
  /-- The number of problems of an invalid operation and the name of what it should have been. -/
  | invalid (count : Nat) (form : String)
  /-- A fault given in words. -/
  | stated (message : String)
deriving DecidableEq

/-- The wording of a fault. -/
def CommandFault.message : CommandFault → String
  | .unterminatedString text => "Unterminated string in: " ++ text
  | .emptyArgument text => "Empty argument in: " ++ text
  | .emptyLiteral => "Empty argument in command"
  | .badJson literal error =>
    "Invalid JSON literal " ++ String.ofList (quoteLiteral literal.toList) ++ ": " ++ error.message
  | .missingPath verb => verb ++ " needs a path"
  | .wrongCount verb expected actual =>
    verb ++ " takes " ++ toString expected ++ " argument(s) after the path, got " ++
      toString actual
  | .wrongForm usage => usage
  | .modifyTakesOne action => "modify " ++ action ++ " takes one value"
  | .invalid count form =>
    toString count ++ " validation error" ++ (if count = 1 then "" else "s") ++ " for " ++ form
  | .stated message => message

end PatchScript
