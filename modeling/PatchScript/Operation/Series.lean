import PatchScript.Operation.Outcome

/-!
# Series of operations

A series is run in order. Run independently, every operation takes effect or fails by itself. Run
as a whole, the series stops at the first failure, and the store is what it was before.

## Main definitions

* `Series.runAll`: the outcomes of operations run independently.
* `Series.runWhile`: the outcomes up to the first failure.
* `SeriesReport`, `Series.run`: a series run in either way.
-/

namespace PatchScript

/-- Operations to be run in order, some of which may be invalid. -/
abbrev Series := List (Checked Operation)

/-- The failure of an operation in a series. -/
structure SeriesError where
  index : Nat
  operation : Option Operation
  failure : Failure
deriving DecidableEq

/-- What became of a series. -/
structure SeriesReport where
  outcomes : List Outcome
  errors : List SeriesError
  /-- Whether the store was put back to what it was before. -/
  rollback : Bool
deriving DecidableEq

namespace SeriesReport

/-- Whether nothing failed. -/
def isSuccess (r : SeriesReport) : Bool := r.errors.isEmpty

/-- The changes that were recorded, even if they were taken back. -/
def changes (r : SeriesReport) : List Change := r.outcomes.filterMap Outcome.change?

end SeriesReport

namespace Series

/-- Runs every operation, each on the store that the one before leaves. -/
def runAll (regime : Regime) : Store → Series → Store × List Outcome
  | s, [] => (s, [])
  | s, o :: rest =>
    let (s, outcome) := o.run regime s
    let (s, outcomes) := runAll regime s rest
    (s, outcome :: outcomes)

/-- Runs the operations up to the first one that fails. -/
def runWhile (regime : Regime) : Store → Series → Store × List Outcome
  | s, [] => (s, [])
  | s, o :: rest =>
    let (s, outcome) := o.run regime s
    if outcome.isSuccess then
      let (s, outcomes) := runWhile regime s rest
      (s, outcome :: outcomes)
    else (s, [outcome])

/-- The failures among outcomes; `index` is the position of the first of them. -/
def errorsFrom : (index : Nat) → Series → List Outcome → List SeriesError
  | index, o :: rest, outcome :: outcomes =>
    (outcome.failure?.map fun failure => ⟨index, o.toOption, failure⟩).toList ++
      errorsFrom (index + 1) rest outcomes
  | _, _, _ => []

/-- Runs a series, as a whole when it is atomic. -/
def run (regime : Regime) (atomic : Bool) (s : Store) (series : Series) :
    Store × SeriesReport :=
  if atomic then
    let (s', outcomes) := runWhile regime s series
    let errors := errorsFrom 0 series outcomes
    if errors.isEmpty then (s', ⟨outcomes, [], false⟩) else (s, ⟨outcomes, errors, true⟩)
  else
    let (s', outcomes) := runAll regime s series
    (s', ⟨outcomes, errorsFrom 0 series outcomes, false⟩)

end Series

end PatchScript
