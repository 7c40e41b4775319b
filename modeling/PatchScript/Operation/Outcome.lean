import PatchScript.Operation.Effect
import PatchScript.Operation.Form

/-!
# Outcomes

Running an operation takes three steps. Its condition is checked first: where it does not hold, the
operation is skipped, and that is no failure. Then the constraints of the document may refuse it.
At last its effect takes place, and the change that it reports is recorded in the annotations.

## Main definitions

* `Outcome`: what became of an operation.
* `Operation.run`: one operation run.
* `Checked.run`: the same for an operation that may be invalid.
-/

namespace PatchScript

/-- What became of an operation. -/
inductive Outcome where
  | done (change : Option Change)
  | skipped
  | failed (failure : Failure)
deriving DecidableEq

namespace Outcome

/-- Why the operation failed, if it did. -/
def failure? : Outcome → Option Failure
  | .failed failure => some failure
  | _ => none

/-- Whether the operation did not fail. -/
def isSuccess (o : Outcome) : Bool := o.failure?.isNone

/-- The change that was recorded. -/
def change? : Outcome → Option Change
  | .done change => change
  | _ => none

end Outcome

namespace Operation

/-- Whether the condition of an operation lets it happen. -/
def isDue (o : Operation) (s : Store) : Except PatternMishap Bool :=
  match o.guard? with
  | some condition => Condition.valueHolds s (.mapping condition)
  | none => .ok true

/-- Records the change of an effect. -/
def recordEffect : Effect (Option Change) → Store × Outcome
  | (s, .error failure) => (s, .failed failure)
  | (s, .ok none) => (s, .done none)
  | (s, .ok (some change)) =>
    match s.record change with
    | (s, none) => (s, .done (some change))
    | (s, some fault) => (s, .failed (.ofWrite change.path fault))

/-- Runs an operation. -/
def run (regime : Regime) (s : Store) (o : Operation) : Store × Outcome :=
  match o.isDue s with
  | .error m => (s, .failed (.mishap (.pattern m)))
  | .ok false => (s, .skipped)
  | .ok true =>
    match if regime.constrained then o.refusal? s else none with
    | some refusal => (s, .failed (.refused refusal))
    | none => recordEffect (o.effect regime s)

end Operation

/-- Runs an operation that may be invalid. -/
def Checked.run (regime : Regime) (s : Store) (o : Checked Operation) : Store × Outcome :=
  match o with
  | .ok o => o.run regime s
  | .error problems => (s, .failed (.invalid problems))

end PatchScript
