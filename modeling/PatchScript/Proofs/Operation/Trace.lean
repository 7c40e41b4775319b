import PatchScript.Proofs.Operation.Effect
import PatchScript.Proofs.Store.PutBack

/-!
# Failures that leave a trace

An operation that fails should leave the store as it was. It does, but for the following. A write
that fails after it made a container leaves the container. A move that fails puts its value back,
but an entry of a mapping comes back at the end of the mapping, and a mishap leaves it away. And a
change that cannot be recorded stays in the live document, and where the second projection of
annotations cannot be written, the first one stays written.

These are all, and each of them is told from the store before and the operation.

## Main definitions

* `Operation.effectTrace` — an effect that fails and leaves a trace, by the kind of operation
* `Operation.LeavesTrace` — an operation that leaves a trace when it fails

## Main results

* `Operation.effect_eq_self_iff` — effects that fail
* `Operation.run_failed_eq_self_iff` — operations that fail
-/

namespace PatchScript

variable {s : Store} {o : Operation} {regime : Regime}

namespace Effect

variable {α β : Type} {e : Effect α} {f : Store → α → Effect β} {failure : Failure}

/-- Where the continuation never fails, the failure is that of the effect before. -/
theorem snd_of_andThen_eq_error (h : ∀ s a, ∃ b, (f s a).2 = .ok b)
    (failed : (e.andThen f).2 = .error failure) : e.2 = .error failure := by
  obtain ⟨s, failure' | a⟩ := e
  · simpa [andThen] using failed
  · obtain ⟨b, ok⟩ := h s a
    simp [andThen, ok] at failed

theorem snd_of_changed_eq_error {e : Effect Change} (failed : e.changed.2 = .error failure) :
    e.2 = .error failure :=
  snd_of_andThen_eq_error (fun _ a => ⟨some a, rfl⟩) failed

end Effect

namespace Operation

theorem snd_of_report_eq_error {usual : String} {old new : Value} {e : Effect String}
    {failure : Failure} (failed : (o.report usual old new e).2 = .error failure) :
    e.2 = .error failure :=
  Effect.snd_of_andThen_eq_error (fun _ path => ⟨o.changeAt usual old new path, rfl⟩) failed

/-! ### The traces of effects -/

/-- Whether a move that fails leaves a trace. After a mishap nothing is put back, so the store is
what it was only where the failed insertion made up for the value. -/
def moveTrace (o : Operation) (s : Store) (source : String) : Prop :=
  let start := Path.parse source
  let target := Path.parse o.path
  let taken := (s.delete start).1
  match s.lookup start with
  | none => False
  | some value =>
    let tried := (taken.insert o.path target value).1
    start ≠ [] ∧ isInside start target = false ∧
      match (taken.insert o.path target value).2 with
      | .ok _ => False
      | .error failure =>
        if failure.isMishap then tried.lookup start.dropLast ≠ s.lookup start.dropLast
        else s.losesPlace start ∨ taken.insertTrace target = true ∧ ¬ tried.covers start

/-- Whether an effect that fails leaves a trace. -/
def effectTrace (o : Operation) (regime : Regime) (s : Store) : Prop :=
  let path := Path.parse o.path
  match o.body with
  | .add _ => s.insertTrace path = true
  | .copy source => (s.lookup (Path.parse source)).isSome = true ∧ s.insertTrace path = true
  | .replace _ | .increment _ => s.overwriteTrace path = true
  | .evaluate expression =>
    (calculate regime.limits (numberAt s) expression.toList).isSome = true ∧
      s.overwriteTrace path = true
  | .move source => o.moveTrace s source
  | .remove _ | .test _ _ | .modify _ _ _ => False

theorem copy_eq_self_iff {source : String} {failure : Failure}
    (failed : (o.copy s source).2 = .error failure) :
    (o.copy s source).1 = s ↔ ¬ ((s.lookup (Path.parse source)).isSome = true ∧
      s.insertTrace (Path.parse o.path) = true) := by
  cases hsource : s.lookup (Path.parse source) with
  | none => simp [copy, hsource]
  | some value =>
    simp only [copy, hsource] at failed ⊢
    rw [fst_report, Store.insert_eq_self_iff (snd_of_report_eq_error failed)]
    simp

theorem evaluate_eq_self_iff {expression : String} {failure : Failure}
    (failed : (o.evaluate regime s expression).2 = .error failure) :
    (o.evaluate regime s expression).1 = s ↔
      ¬ ((calculate regime.limits (numberAt s) expression.toList).isSome = true ∧
        s.overwriteTrace (Path.parse o.path) = true) := by
  cases hn : calculate regime.limits (numberAt s) expression.toList with
  | none => simp [evaluate, hn]
  | some n =>
    simp only [evaluate, hn] at failed ⊢
    rw [fst_report, Store.overwrite_eq_self_iff (snd_of_report_eq_error failed)]
    simp

/-- Nothing overflows when a number is added to zero. -/
theorem add_zero_isOk (n : Number) : ∃ sum, (Number.int 0).add n = .ok sum := by
  cases n with
  | int n => exact ⟨_, rfl⟩
  | float x => exact ⟨_, rfl⟩

theorem overwriteTrace_of_lookup {path : Path} {v : Value} (h : s.lookup path = some v) :
    s.overwriteTrace path = false :=
  Value.makesContainer_of_resolve false h

/-- Where a number cannot be added, something stands in the way. -/
theorem lookup_of_addend? (s : Store) (path : Path) (delta : Number)
    (h : ∀ n, addend? (recorded (s.lookup path)) = some n → ∀ sum, n.add delta ≠ .ok sum) :
    ∃ v, s.lookup path = some v := by
  cases hpath : s.lookup path with
  | none =>
    obtain ⟨sum, ok⟩ := add_zero_isOk delta
    exact absurd ok (h (.int 0) (by simp [hpath, recorded, addend?]) sum)
  | some v => exact ⟨v, rfl⟩

theorem increment_eq_self_iff {delta : Number} {failure : Failure}
    (failed : (o.increment s delta).2 = .error failure) :
    (o.increment s delta).1 = s ↔ s.overwriteTrace (Path.parse o.path) = false := by
  cases hn : addend? (recorded (s.lookup (Path.parse o.path))) with
  | none =>
    obtain ⟨v, hv⟩ := lookup_of_addend? s (Path.parse o.path) delta (by simp [hn])
    exact iff_of_true (by simp [increment, hn]) (overwriteTrace_of_lookup hv)
  | some n =>
    cases hsum : n.add delta with
    | error overflow =>
      obtain ⟨v, hv⟩ := lookup_of_addend? s (Path.parse o.path) delta (by simp [hn, hsum])
      exact iff_of_true (by simp [increment, hn, hsum]) (overwriteTrace_of_lookup hv)
    | ok sum =>
      simp only [increment, hn, hsum] at failed ⊢
      rw [fst_report, Store.overwrite_eq_self_iff (snd_of_report_eq_error failed)]

/-- The root is not moved, and a move of it to the root fails without a trace. -/
theorem move_root_eq_self {source : String} {value : Value} (root : Path.parse source = [])
    (hstart : s.lookup (Path.parse source) = some value)
    (hinside : isInside (Path.parse source) (Path.parse o.path) = false) :
    (o.move s source).1 = s := by
  rw [root] at hstart hinside
  have target : Path.parse o.path = [] := by
    cases h : Path.parse o.path with
    | nil => rfl
    | cons t rest => simp [isInside, h] at hinside
  rw [target] at hinside
  have stays : s.delete [] = (s, false) := rfl
  simp [move, root, target, hstart, hinside, stays, Store.insert_nil, Failure.isMishap,
    Store.reinsert, Effect.andThen]

theorem move_eq_self_iff {source : String} {failure : Failure}
    (failed : (o.move s source).2 = .error failure) :
    (o.move s source).1 = s ↔ ¬ o.moveTrace s source := by
  cases hstart : s.lookup (Path.parse source) with
  | none => simp [move, moveTrace, hstart]
  | some value =>
    cases hinside : isInside (Path.parse source) (Path.parse o.path) with
    | true => simp [move, moveTrace, hstart, hinside]
    | false =>
      rcases htried : (s.delete (Path.parse source)).1.insert o.path (Path.parse o.path) value with
        ⟨tried, failure' | path⟩
      · by_cases root : Path.parse source = []
        · refine iff_of_true (move_root_eq_self root hstart hinside) ?_
          rw [root] at hstart
          simp [moveTrace, hstart, root]
        · have error :
              ((s.delete (Path.parse source)).1.insert o.path (Path.parse o.path) value).2 =
                .error failure' := by rw [htried]
          cases mishap : failure'.isMishap with
          | true =>
            have left : (o.move s source).1 = tried := by
              simp [move, hstart, hinside, htried, mishap]
            have whole := Store.insert_delete_eq_self_iff hstart root error
            rw [htried] at whole
            rw [left, whole]
            simp [moveTrace, hstart, hinside, htried, mishap, root]
          | false =>
            have left : (o.move s source).1 =
                (tried.reinsert (Path.parse source) value failure').1 := by
              simp only [move, hstart, hinside, htried, mishap]
              exact Effect.fst_andThen_of_fst_eq fun _ _ => rfl
            have whole := Store.reinsert_eq_self_iff hstart root
              (Path.other_notMem_parse source) error failure'
            rw [htried] at whole
            rw [left, whole]
            simp [moveTrace, hstart, hinside, htried, mishap, root]
      · simp [move, hstart, hinside, htried] at failed

theorem remove_eq_self {child : Option ChildName} {failure : Failure}
    (failed : (o.remove s child).2 = .error failure) : (o.remove s child).1 = s := by
  simp only [remove] at failed ⊢
  split at failed
  · rfl
  · split at failed
    · rfl
    · rfl
    · cases failed

theorem modify_eq_self {action : EditAction} {value : Value} {index : Option Int}
    {failure : Failure} (failed : (o.modify s action value index).2 = .error failure) :
    (o.modify s action value index).1 = s := by
  simp only [modify] at failed ⊢
  split at failed
  · rfl
  · split at failed
    · rfl
    · cases failed

/-- **An effect that fails** leaves the store as it was, or it leaves one of the traces. -/
theorem effect_eq_self_iff {failure : Failure}
    (failed : (o.effect regime s).2 = .error failure) :
    (o.effect regime s).1 = s ↔ ¬ o.effectTrace regime s := by
  rw [effect_eq] at failed ⊢
  rw [effectTrace]
  cases hb : o.body with
  | add value =>
    simp only [hb] at failed ⊢
    have failed := Effect.snd_of_changed_eq_error failed
    rw [Effect.fst_changed, add, fst_report,
      Store.insert_eq_self_iff (snd_of_report_eq_error failed)]
    simp
  | remove child =>
    simp only [hb] at failed ⊢
    rw [Effect.fst_changed, remove_eq_self (Effect.snd_of_changed_eq_error failed)]
    simp
  | replace value =>
    simp only [hb] at failed ⊢
    have failed := Effect.snd_of_changed_eq_error failed
    rw [Effect.fst_changed, replace, fst_report,
      Store.overwrite_eq_self_iff (snd_of_report_eq_error failed)]
    simp
  | move source =>
    simp only [hb] at failed ⊢
    rw [Effect.fst_changed, move_eq_self_iff (Effect.snd_of_changed_eq_error failed)]
  | copy source =>
    simp only [hb] at failed ⊢
    rw [Effect.fst_changed, copy_eq_self_iff (Effect.snd_of_changed_eq_error failed)]
  | test expected comparisons => simp
  | increment delta =>
    simp only [hb] at failed ⊢
    rw [Effect.fst_changed, increment_eq_self_iff (Effect.snd_of_changed_eq_error failed)]
    simp
  | evaluate expression =>
    simp only [hb] at failed ⊢
    rw [Effect.fst_changed, evaluate_eq_self_iff (Effect.snd_of_changed_eq_error failed)]
  | modify action value index =>
    simp only [hb] at failed ⊢
    rw [Effect.fst_changed, modify_eq_self (Effect.snd_of_changed_eq_error failed)]
    simp

/-! ### The traces of operations -/

/-- Whether an operation that fails leaves a trace. It must have been carried out for that, and
either its effect fails, or its change cannot be recorded. -/
def LeavesTrace (o : Operation) (regime : Regime) (s : Store) : Prop :=
  o.isDue s = .ok true ∧ (regime.constrained = true → o.refusal? s = none) ∧
    match (o.effect regime s).2 with
    | .error _ => o.effectTrace regime s
    | .ok none => False
    | .ok (some change) => (o.effect regime s).1.stat ≠ s.stat ∨
        s.annotationTrace (Path.parse change.path) change.displayText

/-- A change that cannot be recorded leaves the store as it was only where it was none, and neither
did the record leave a trace. -/
theorem record_eq_self_iff {s' : Store} {change : Change} (annotations : s.SameAnnotations s')
    (failed : (s'.record change).2.isSome = true) :
    (s'.record change).1 = s ↔
      ¬ (s'.stat ≠ s.stat ∨ s.annotationTrace (Path.parse change.path) change.displayText) := by
  have same (h : s'.stat = s.stat) : s' = s := annotations.eq_iff.2 h
  rw [not_or, not_not]
  constructor
  · intro back
    have stat : s'.stat = s.stat := by
      rw [← back]
      exact (s'.stat_annotate (Path.parse change.path) change.displayText).symm
    rw [same stat] at back failed
    exact ⟨stat, (Store.annotate_eq_self_iff failed).1 back⟩
  · rintro ⟨stat, none⟩
    rw [same stat] at failed ⊢
    exact (Store.annotate_eq_self_iff failed).2 none

theorem recordEffect_eq_self_iff {failure : Failure}
    (failed : (recordEffect (o.effect regime s)).2 = .failed failure) :
    (recordEffect (o.effect regime s)).1 = s ↔
      ¬ match (o.effect regime s).2 with
        | .error _ => o.effectTrace regime s
        | .ok none => False
        | .ok (some change) => (o.effect regime s).1.stat ≠ s.stat ∨
            s.annotationTrace (Path.parse change.path) change.displayText := by
  have annotations := sameAnnotations_effect o regime s
  rcases heffect : o.effect regime s with ⟨s', failure' | _ | change⟩
  · have error : (o.effect regime s).2 = .error failure' := by rw [heffect]
    have unchanged := effect_eq_self_iff error
    rw [heffect] at unchanged
    exact unchanged
  · rw [heffect] at failed
    cases failed
  · rw [heffect] at failed annotations
    rcases hrecord : s'.record change with ⟨s'', _ | fault⟩
    · simp [recordEffect, hrecord] at failed
    · have unchanged := record_eq_self_iff annotations (by rw [hrecord]; rfl)
      rw [hrecord] at unchanged
      simpa [recordEffect, hrecord] using unchanged

theorem run_eq_self_iff {failure : Failure} (failed : (o.run regime s).2 = .failed failure) :
    (o.run regime s).1 = s ↔ ¬ o.LeavesTrace regime s := by
  cases due : o.isDue s with
  | error m => simp [run, LeavesTrace, due]
  | ok carriedOut =>
    cases carriedOut with
    | false => simp [run, due] at failed
    | true =>
      cases admitted : if regime.constrained then o.refusal? s else none with
      | some refusal =>
        have refused : ¬ (regime.constrained = true → o.refusal? s = none) := by
          intro none
          split at admitted
          · next constrained => simp [none constrained] at admitted
          · cases admitted
        simp [run, LeavesTrace, due, admitted, refused]
      | none =>
        have passed : regime.constrained = true → o.refusal? s = none := by
          intro constrained
          simpa [constrained] using admitted
        have carriedOut : o.run regime s = recordEffect (o.effect regime s) := by
          simp only [run, due, admitted]
        rw [carriedOut] at failed ⊢
        rw [recordEffect_eq_self_iff failed]
        refine not_congr ⟨?_, ?_⟩
        · intro trace
          exact ⟨due, passed, trace⟩
        · rintro ⟨-, -, trace⟩
          exact trace

/-- **An operation that fails**, valid or not, leaves the store as it was exactly when it leaves
none of the traces. -/
theorem run_failed_eq_self_iff {o : Checked Operation} {failure : Failure}
    (failed : (o.run regime s).2 = .failed failure) :
    (o.run regime s).1 = s ↔ ∀ op, o = .ok op → ¬ op.LeavesTrace regime s := by
  cases o with
  | error problems => exact iff_of_true rfl fun op valid => by cases valid
  | ok op =>
    have unchanged : (op.run regime s).1 = s ↔ ¬ op.LeavesTrace regime s := run_eq_self_iff failed
    refine unchanged.trans ?_
    constructor
    · intro leavesNone op' valid
      cases valid
      exact leavesNone
    · intro leavesNone
      exact leavesNone op rfl

/-- A move that fails brings its entry back behind the other one. -/
theorem failed_move_reorders_entries :
    (Checked.run ⟨false, ⟨512, 64⟩⟩ (.ofData [("a", .null), ("b", .bool true)])
        (.ok { path := "b.c", body := .move "a" })).2 =
        .failed (.address "b.c" (.notContainer "b" "bool")) ∧
      ((Checked.run ⟨false, ⟨512, 64⟩⟩ (.ofData [("a", .null), ("b", .bool true)])
          (.ok { path := "b.c", body := .move "a" })).1 =
          .ofData [("a", .null), ("b", .bool true)] ↔
        ∀ op : Operation, (.ok { path := "b.c", body := .move "a" } : Checked Operation) = .ok op →
          ¬ op.LeavesTrace ⟨false, ⟨512, 64⟩⟩ (.ofData [("a", .null), ("b", .bool true)])) := by
  have failed : (Checked.run ⟨false, ⟨512, 64⟩⟩ (.ofData [("a", .null), ("b", .bool true)])
      (.ok { path := "b.c", body := .move "a" })).2 =
      .failed (.address "b.c" (.notContainer "b" "bool")) := by decide
  exact ⟨failed, run_failed_eq_self_iff failed⟩

/-- Failures do change the store: a list that was made on the way stays. -/
theorem failed_operation_changes_store :
    ¬ ∀ (regime : Regime) (s : Store) (o : Checked Operation) (failure : Failure),
      (o.run regime s).2 = .failed failure → (o.run regime s).1 = s := by
  intro unchanged
  have same := unchanged ⟨false, ⟨512, 64⟩⟩ (.ofData [])
    (.ok { path := "a[-1]", body := .replace (some .null) })
    (.address "a[-1]" (.outOfRange "-1")) (by decide)
  revert same
  decide

end Operation

end PatchScript
