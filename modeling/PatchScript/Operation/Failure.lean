import PatchScript.Form.Problem
import PatchScript.Operation.Admission

/-!
# Failures

An operation fails for one of several causes. Most of them are faults of the operation with respect
to the document, and a move that meets one of these puts back what it has taken away. The others are
*mishaps*, which no operation is meant to run into and after which nothing is put back.

## Main definitions

* `Misfit`: why a value does not fit an operation.
* `Mishap`: what no operation is meant to run into.
* `Failure`, `Failure.message`: why an operation fails.
-/

namespace PatchScript

/-- Why a value does not fit an operation. -/
inductive Misfit where
  | notNumber (literal : String)
  | noIndex
  | mergeWithoutList
  | mergeWithoutMapping
  | notOnMapping (action : EditAction)
  | notContainer
  /-- A reason given in words. -/
  | stated (reason : String)
deriving DecidableEq

/-- The wording of a misfit. -/
def Misfit.message : Misfit → String
  | .notNumber literal => literal ++ " is not a number"
  | .noIndex => "insert requires a numeric index"
  | .mergeWithoutList => "merge into a sequence requires an array value"
  | .mergeWithoutMapping => "merge into a mapping requires an object value"
  | .notOnMapping action => "'" ++ action.name ++ "' is not valid on a mapping"
  | .notContainer => "target is neither a sequence nor a mapping"
  | .stated reason => reason

/-- What no operation is meant to run into. -/
inductive Mishap where
  /-- The root of the document cannot be put back. -/
  | noLastSegment
  /-- The list to which a value was appended cannot be found again. -/
  | lostList
  | overflow (o : Overflow)
  /-- The gap before an index cannot be counted. -/
  | gapTooLarge
  /-- An index cannot be counted. -/
  | indexTooLarge
  | outOfMemory
  /-- A text in a condition cannot even be tried as a pattern. -/
  | pattern (m : PatternMishap)
deriving DecidableEq

/-- The wording of a mishap. -/
def Mishap.message : Mishap → String
  | .noLastSegment => "list index out of range"
  | .lostList => "object of type '_Missing' has no len()"
  | .overflow o => o.message
  | .gapTooLarge => "cannot fit 'int' into an index-sized integer"
  | .indexTooLarge => "Python int too large to convert to C ssize_t"
  | .outOfMemory => ""
  | .pattern m => m.message

/-- Why an expression gives no number to store. -/
inductive NoNumber where
  | rejected
  | failed
  /-- A reason given in words. -/
  | stated (reason : String)
deriving DecidableEq

/-- The wording of the reason. -/
def NoNumber.message : NoNumber → String
  | .rejected => "rejected or not evaluable"
  | .failed => "evaluation failed"
  | .stated reason => reason

/-- Why an operation fails. -/
inductive Failure where
  | invalid (problems : List FormProblem)
  | refused (refusal : Refusal)
  | address (path : String) (cause : AddressCause)
  | misfit (operation path : String) (cause : Misfit)
  | test (path : String) (expected actual : Value)
  | expression (text : String) (cause : NoNumber)
  | mishap (m : Mishap)
deriving DecidableEq

namespace Failure

/-- The wording of a failure. -/
def message : Failure → String
  | .invalid problems => "Invalid operation: " ++ FormProblem.describe problems
  | .refused refusal => refusal.message
  | .address path cause => "Cannot address '" ++ path ++ "': " ++ cause.message
  | .misfit operation path cause => operation ++ " on '" ++ path ++ "': " ++ cause.message
  | .test path expected actual =>
    "Test failed at '" ++ path ++ "': expected " ++ expected.literalText ++ ", found " ++
      actual.literalText
  | .expression text cause => "Expression '" ++ text ++ "': " ++ cause.message
  | .mishap m => "Unexpected error: " ++ m.message

/-- The failure of an operation whose write failed. -/
def ofWrite (path : String) : WriteFault → Failure
  | .address cause => .address path cause
  | .indexTooLarge => .mishap .gapTooLarge
  | .outOfMemory => .mishap .outOfMemory

/-- Whether the failure is a mishap. -/
def isMishap : Failure → Bool
  | .mishap _ => true
  | _ => false

end Failure

end PatchScript
