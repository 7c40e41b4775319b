import PatchScript.Operation.Series
import Mathlib.Data.List.Basic

/-!
# Series and single runs

What a series does is said here by its operations run one after the other, each on the store that
the ones before it leave. No report and no mode of running enters into that: `storeAfter` and
`outcomeAt?` only use the run of a single operation.

## Main definitions

* `Series.storeAfter`, `outcomeAt?`, `errorAt?` — the single runs, by index
* `Series.firstError?` — the first of them that fails

## Main results

* `Series.runAll_eq` — every operation run, as single runs
* `Series.runWhile_of_firstError?_eq_none`, `runWhile_of_firstError?_eq_some` — the operations run
  up to the first failure, as single runs
* `Series.run_eq_single_runs` — the headline: a series run independently reports exactly the single
  runs, and as a whole it reports those up to the first failure and leaves the store as it was
-/

namespace PatchScript

/-- An error of the operations after the first one, at its place in the whole series. -/
def SeriesError.later (e : SeriesError) : SeriesError := { e with index := e.index + 1 }

namespace Series

variable (regime : Regime)

/-! ### Single runs -/

/-- The store after the first `i` operations, run one after the other. -/
def storeAfter (s : Store) (series : Series) (i : Nat) : Store :=
  (series.take i).foldl (fun s o => (o.run regime s).1) s

/-- The outcome of the operation at an index, run on the store that the ones before it leave. -/
def outcomeAt? (s : Store) (series : Series) (i : Nat) : Option Outcome :=
  series[i]?.map fun o => (o.run regime (storeAfter regime s series i)).2

/-- The error to report for an index: there is one where the operation fails. -/
def errorAt? (s : Store) (series : Series) (i : Nat) : Option SeriesError :=
  series[i]?.bind fun o =>
    (o.run regime (storeAfter regime s series i)).2.failure?.map fun failure =>
      ⟨i, o.toOption, failure⟩

/-- The error of the first operation that fails. -/
def firstError? (s : Store) (series : Series) : Option SeriesError :=
  (List.range series.length).findSome? (errorAt? regime s series)

/-- The outcomes at the indices below `n`, in order. -/
def outcomesBelow (s : Store) (series : Series) (n : Nat) : List Outcome :=
  (List.range n).filterMap (outcomeAt? regime s series)

/-- The errors at the indices below `n`, in order. -/
def errorsBelow (s : Store) (series : Series) (n : Nat) : List SeriesError :=
  (List.range n).filterMap (errorAt? regime s series)

variable {regime} {s : Store} {o : Checked Operation} {rest : Series}

/-! ### The first operation of a series -/

@[simp] theorem storeAfter_zero (series : Series) : storeAfter regime s series 0 = s := by
  simp [storeAfter]

@[simp] theorem storeAfter_cons_succ (i : Nat) :
    storeAfter regime s (o :: rest) (i + 1) = storeAfter regime (o.run regime s).1 rest i := by
  simp [storeAfter]

@[simp] theorem outcomeAt?_cons_zero :
    outcomeAt? regime s (o :: rest) 0 = some (o.run regime s).2 := by
  simp [outcomeAt?]

@[simp] theorem outcomeAt?_cons_succ (i : Nat) :
    outcomeAt? regime s (o :: rest) (i + 1) = outcomeAt? regime (o.run regime s).1 rest i := by
  simp [outcomeAt?]

theorem outcomesBelow_cons_succ (n : Nat) :
    outcomesBelow regime s (o :: rest) (n + 1) =
      (o.run regime s).2 :: outcomesBelow regime (o.run regime s).1 rest n := by
  simp [outcomesBelow, List.range_succ_eq_map, List.filterMap_map]

theorem errorAt?_cons_zero :
    errorAt? regime s (o :: rest) 0 =
      (o.run regime s).2.failure?.map fun failure => ⟨0, o.toOption, failure⟩ := by
  simp [errorAt?]

theorem errorAt?_cons_succ (i : Nat) :
    errorAt? regime s (o :: rest) (i + 1) =
      (errorAt? regime (o.run regime s).1 rest i).map SeriesError.later := by
  simp only [errorAt?, List.getElem?_cons_succ, storeAfter_cons_succ, Option.map_bind,
    Function.comp_def, Option.map_map]
  rfl

theorem errorsBelow_cons_succ (n : Nat) :
    errorsBelow regime s (o :: rest) (n + 1) =
      (errorAt? regime s (o :: rest) 0).toList ++
        (errorsBelow regime (o.run regime s).1 rest n).map SeriesError.later := by
  simp only [errorsBelow, List.range_succ_eq_map, List.filterMap_cons, List.filterMap_map,
    Function.comp_def, errorAt?_cons_succ, List.map_filterMap]
  cases errorAt? regime s (o :: rest) 0 <;> simp

theorem firstError?_cons :
    firstError? regime s (o :: rest) =
      (errorAt? regime s (o :: rest) 0).or
        ((firstError? regime (o.run regime s).1 rest).map SeriesError.later) := by
  simp only [firstError?, List.length_cons, List.range_succ_eq_map, List.findSome?_cons,
    List.findSome?_map, Function.comp_def, errorAt?_cons_succ]
  cases errorAt? regime s (o :: rest) 0 with
  | some e => simp
  | none => simp [List.map_findSome?, Function.comp_def]

/-! ### Going through a series -/

theorem runAll_eq (s : Store) (series : Series) :
    runAll regime s series =
      (storeAfter regime s series series.length,
        outcomesBelow regime s series series.length) := by
  induction series generalizing s with
  | nil => simp [runAll, outcomesBelow]
  | cons o rest ih => simp [runAll, ih, outcomesBelow_cons_succ]

theorem errorsFrom_succ (i : Nat) (series : Series) (outcomes : List Outcome) :
    errorsFrom (i + 1) series outcomes = (errorsFrom i series outcomes).map SeriesError.later := by
  induction series generalizing i outcomes with
  | nil => simp [errorsFrom]
  | cons o rest ih =>
    cases outcomes with
    | nil => simp [errorsFrom]
    | cons outcome outcomes =>
      simp only [errorsFrom, List.map_append, ih (i + 1)]
      cases outcome.failure? <;> simp [SeriesError.later]

/-- The errors of a series whose first outcome is that of its first operation. -/
theorem errorsFrom_cons (outcomes : List Outcome) :
    errorsFrom 0 (o :: rest) ((o.run regime s).2 :: outcomes) =
      (errorAt? regime s (o :: rest) 0).toList ++
        (errorsFrom 0 rest outcomes).map SeriesError.later := by
  rw [errorsFrom, errorsFrom_succ, errorAt?_cons_zero]

theorem errorsFrom_runAll (s : Store) (series : Series) :
    errorsFrom 0 series (runAll regime s series).2 =
      errorsBelow regime s series series.length := by
  induction series generalizing s with
  | nil => simp [errorsFrom, errorsBelow]
  | cons o rest ih => rw [runAll, errorsFrom_cons, ih, List.length_cons, errorsBelow_cons_succ]

/-- There is an error for the first operation exactly when it fails. -/
theorem errorAt?_cons_zero_eq_none_iff :
    errorAt? regime s (o :: rest) 0 = none ↔ (o.run regime s).2.isSuccess = true := by
  rw [errorAt?_cons_zero, Option.map_eq_none_iff, Outcome.isSuccess, Option.isNone_iff_eq_none]

theorem runWhile_cons_of_success (h : (o.run regime s).2.isSuccess = true) :
    runWhile regime s (o :: rest) =
      ((runWhile regime (o.run regime s).1 rest).1,
        (o.run regime s).2 :: (runWhile regime (o.run regime s).1 rest).2) := by
  simp [runWhile, h]

theorem runWhile_cons_of_failure (h : ¬ (o.run regime s).2.isSuccess = true) :
    runWhile regime s (o :: rest) = ((o.run regime s).1, [(o.run regime s).2]) := by
  simp [runWhile, h]

theorem runWhile_of_firstError?_eq_none {series : Series}
    (h : firstError? regime s series = none) :
    runWhile regime s series = runAll regime s series := by
  induction series generalizing s with
  | nil => rfl
  | cons o rest ih =>
    rw [firstError?_cons, Option.or_eq_none_iff, Option.map_eq_none_iff] at h
    have first := errorAt?_cons_zero_eq_none_iff.1 h.1
    rw [runWhile_cons_of_success first, ih h.2, runAll]

theorem runWhile_of_firstError?_eq_some {series : Series} {e : SeriesError}
    (h : firstError? regime s series = some e) :
    (runWhile regime s series).2 = outcomesBelow regime s series (e.index + 1) ∧
      errorsFrom 0 series (runWhile regime s series).2 = [e] := by
  induction series generalizing s e with
  | nil => simp [firstError?] at h
  | cons o rest ih =>
    rw [firstError?_cons] at h
    cases first : errorAt? regime s (o :: rest) 0 with
    | some e' =>
      -- the first operation fails, and nothing after it is run
      obtain rfl : e' = e := by simpa [first] using h
      have stops : ¬ (o.run regime s).2.isSuccess = true := by
        rw [← errorAt?_cons_zero_eq_none_iff, first]
        simp
      have index : e'.index = 0 := by
        rw [errorAt?_cons_zero, Option.map_eq_some_iff] at first
        obtain ⟨failure, -, rfl⟩ := first
        rfl
      rw [runWhile_cons_of_failure stops, index, outcomesBelow_cons_succ, errorsFrom_cons, first]
      exact ⟨rfl, by simp [errorsFrom]⟩
    | none =>
      obtain ⟨e', found, rfl⟩ : ∃ e', firstError? regime (o.run regime s).1 rest = some e' ∧
          SeriesError.later e' = e := by simpa [first] using h
      have goesOn := errorAt?_cons_zero_eq_none_iff.1 first
      obtain ⟨outcomes, errors⟩ := ih found
      rw [runWhile_cons_of_success goesOn, SeriesError.later, outcomesBelow_cons_succ]
      refine ⟨by rw [outcomes], ?_⟩
      rw [errorsFrom_cons, first, errors]
      rfl

theorem errorsBelow_length_eq_nil_iff (s : Store) (series : Series) :
    errorsBelow regime s series series.length = [] ↔ firstError? regime s series = none := by
  simp [errorsBelow, firstError?, List.filterMap_eq_nil_iff, List.findSome?_eq_none_iff]

/-! ### Both ways of running a series -/

/-- **A series is its single runs.** Run independently, it reports the outcome of every operation
and an error for exactly those that fail, and leaves the store that the last one leaves. Run as a
whole, it does the same when none fails. Otherwise it reports the outcomes up to the first failure
and that failure alone, and the store is exactly the one before the series. -/
theorem run_eq_single_runs (regime : Regime) (s : Store) (series : Series) :
    run regime false s series =
        (storeAfter regime s series series.length,
          ⟨outcomesBelow regime s series series.length,
            errorsBelow regime s series series.length, false⟩) ∧
      run regime true s series =
        (match firstError? regime s series with
        | none => run regime false s series
        | some e => (s, ⟨outcomesBelow regime s series (e.index + 1), [e], true⟩)) ∧
      ∀ atomic, (run regime atomic s series).2.isSuccess =
        (firstError? regime s series).isNone := by
  have independent : run regime false s series =
      (storeAfter regime s series series.length,
        ⟨outcomesBelow regime s series series.length,
          errorsBelow regime s series series.length, false⟩) := by
    have errors : errorsFrom 0 series (runAll regime s series).2 =
        errorsBelow regime s series series.length := errorsFrom_runAll s series
    rw [runAll_eq] at errors
    simp [run, runAll_eq, errors]
  have whole : run regime true s series =
      (match firstError? regime s series with
      | none => run regime false s series
      | some e => (s, ⟨outcomesBelow regime s series (e.index + 1), [e], true⟩)) := by
    cases first : firstError? regime s series with
    | none =>
      have noErrors := (errorsBelow_length_eq_nil_iff s series).2 first
      rw [← errorsFrom_runAll] at noErrors
      simp [run, runWhile_of_firstError?_eq_none first, noErrors]
    | some e =>
      obtain ⟨outcomes, errors⟩ := runWhile_of_firstError?_eq_some first
      rw [outcomes] at errors
      simp [run, outcomes, errors]
  refine ⟨independent, whole, fun atomic => ?_⟩
  have success : (run regime false s series).2.isSuccess =
      (firstError? regime s series).isNone := by
    rw [independent, Bool.eq_iff_iff, SeriesReport.isSuccess, List.isEmpty_iff,
      errorsBelow_length_eq_nil_iff, Option.isNone_iff_eq_none]
  cases atomic with
  | false => exact success
  | true =>
    rw [whole]
    cases first : firstError? regime s series with
    | none => rw [success, first]
    | some e => rfl

end Series

end PatchScript
