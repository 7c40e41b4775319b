import PatchScript.Operation.Outcome
import PatchScript.Proofs.Store.Annotations
import PatchScript.Proofs.Store.Rewriting
import PatchScript.Proofs.Store.Writing

/-!
# Effects and what becomes of them

The store that an operation leaves is that of its effect, but for the annotations. An operation that
writes has the effect of one writing.

## Main definitions

* `OperationBody.writes` — the kinds that write a value at their path

## Main results

* `Operation.wrote_of_effect_eq_ok` — the effect of an operation that writes
* `Operation.run_of_isSuccess` — what a run without failure comes from
-/

namespace PatchScript

variable {s s' : Store} {o : Operation} {regime : Regime}

namespace Effect

variable {α β : Type} {e : Effect α} {f : Store → α → Effect β}

/-- Going on with a result alone leaves the store and whether something failed. -/
theorem andThen_result_eq_ok_iff {g : α → β} {b : β} :
    (e.andThen fun s a => (s, .ok (g a))) = (s', .ok b) ↔ ∃ a, e = (s', .ok a) ∧ g a = b := by
  obtain ⟨s, failure | a⟩ := e
  · simp [andThen]
  · simp [andThen]

theorem fst_andThen_of_fst_eq (h : ∀ s a, (f s a).1 = s) : (e.andThen f).1 = e.1 := by
  obtain ⟨s, failure | a⟩ := e
  · rfl
  · exact h s a

/-- An effect that reports a change, as that of an operation. -/
def changed (e : Effect Change) : Effect (Option Change) :=
  e.andThen fun s change => (s, .ok (some change))

theorem changed_eq_ok_iff {e : Effect Change} {change? : Option Change} :
    e.changed = (s', .ok change?) ↔ ∃ change, e = (s', .ok change) ∧ some change = change? :=
  andThen_result_eq_ok_iff

theorem fst_changed (e : Effect Change) : e.changed.1 = e.1 :=
  fst_andThen_of_fst_eq fun _ _ => rfl

end Effect

/-! ### Annotations -/

theorem Operation.stat_recordEffect (e : Effect (Option Change)) :
    (recordEffect e).1.stat = e.1.stat := by
  obtain ⟨s, failure | _ | change⟩ := e
  · rfl
  · rfl
  · have := s.stat_annotate (Path.parse change.path) change.displayText
    simp only [recordEffect, Store.record]
    split <;> simp_all

/-! ### Operations that write -/

/-- Whether operations of this kind write a value at their path. -/
def OperationBody.writes : OperationBody → Bool
  | .add _ | .replace _ | .copy _ | .increment _ | .evaluate _ => true
  | .remove _ | .move _ | .test _ _ | .modify _ _ _ => false

namespace Operation

theorem report_eq_ok_iff {usual : String} {old new : Value} {e : Effect String} {change : Change} :
    o.report usual old new e = (s', .ok change) ↔
      ∃ spelled, e = (s', .ok spelled) ∧ o.changeAt usual old new spelled = change :=
  Effect.andThen_result_eq_ok_iff

theorem fst_report (usual : String) (old new : Value) (e : Effect String) :
    (o.report usual old new e).1 = e.1 :=
  Effect.fst_andThen_of_fst_eq fun _ _ => rfl

/-- What an operation does, kind by kind. -/
theorem effect_eq (o : Operation) (regime : Regime) (s : Store) :
    o.effect regime s =
      match o.body with
      | .add value => (o.add regime s (value.getD .null)).changed
      | .remove child => (o.remove s child.join).changed
      | .replace value => (o.replace s (value.getD .null)).changed
      | .move source => (o.move s source).changed
      | .copy source => (o.copy s source).changed
      | .test expected comparisons => (s, (o.test s expected comparisons).map fun _ => none)
      | .increment delta => (o.increment s delta).changed
      | .evaluate expression => (o.evaluate regime s expression).changed
      | .modify action value index =>
        (o.modify s action (value.getD .null) index.join).changed := by
  rw [effect]
  rfl

/-! ### Removals -/

/-- Where a removal names a child apart, it deletes an entry of a mapping or an item of a list. -/
theorem removedAt_some_eq_ok {name : ChildName} {path : Path}
    (h : o.removedAt s (some name) = .ok path) :
    (∃ m, s.lookup (Path.parse o.path) = some (.mapping m) ∧
        path = Path.parse o.path ++ [.key name.label]) ∨
      ∃ items i, s.lookup (Path.parse o.path) = some (.list items) ∧
        path = Path.parse o.path ++ [.index i] := by
  unfold removedAt at h
  dsimp only at h
  split at h
  · next m hm => exact .inl ⟨m, hm, (Except.ok.inj h).symm⟩
  · next items i hitems => exact .inr ⟨items, i, hitems, (Except.ok.inj h).symm⟩
  · next items k hitems =>
    split at h
    · next i _ => exact .inr ⟨items, i, hitems, (Except.ok.inj h).symm⟩
    · cases h
  · cases h
  · cases h

/-! ### Writings -/

/-- An operation that writes has the effect of one writing. -/
theorem wrote_of_effect_eq_ok (hw : o.body.writes = true) {change? : Option Change}
    (h : o.effect regime s = (s', .ok change?)) : s.Wrote (Path.parse o.path) s' := by
  rw [effect_eq] at h
  cases hb : o.body with
  | add value =>
    simp only [hb] at h
    obtain ⟨change, h, -⟩ := Effect.changed_eq_ok_iff.1 h
    obtain ⟨spelled, h, -⟩ := report_eq_ok_iff.1 h
    exact .inserted _ _ _ h
  | replace value =>
    simp only [hb] at h
    obtain ⟨change, h, -⟩ := Effect.changed_eq_ok_iff.1 h
    obtain ⟨spelled, h, -⟩ := report_eq_ok_iff.1 h
    exact .overwritten _ _ _ h
  | copy source =>
    simp only [hb] at h
    obtain ⟨change, h, -⟩ := Effect.changed_eq_ok_iff.1 h
    simp only [copy] at h
    split at h
    · cases h
    · obtain ⟨spelled, h, -⟩ := report_eq_ok_iff.1 h
      exact .inserted _ _ _ h
  | increment delta =>
    simp only [hb] at h
    obtain ⟨change, h, -⟩ := Effect.changed_eq_ok_iff.1 h
    simp only [increment] at h
    split at h
    · cases h
    · split at h
      · cases h
      · obtain ⟨spelled, h, -⟩ := report_eq_ok_iff.1 h
        exact .overwritten _ _ _ h
  | evaluate expression =>
    simp only [hb] at h
    obtain ⟨change, h, -⟩ := Effect.changed_eq_ok_iff.1 h
    simp only [evaluate] at h
    split at h
    · cases h
    · obtain ⟨spelled, h, -⟩ := report_eq_ok_iff.1 h
      exact .overwritten _ _ _ h
  | remove _ | move _ | test _ _ | modify _ _ _ => simp [hb, OperationBody.writes] at hw

/-! ### Effects and annotations -/

theorem sameAnnotations_move (o : Operation) (s : Store) (source : String) :
    s.SameAnnotations (o.move s source).1 := by
  simp only [move]
  split
  · exact .refl s
  · next value _ =>
    split
    · exact .refl s
    · have taken := Store.SameAnnotations.delete s (Path.parse source)
      have tried := taken.trans (.insert _ o.path (Path.parse o.path) value)
      split
      · next h =>
        rw [h] at tried
        exact tried
      · next failure h =>
        rw [h] at tried
        split
        · exact tried
        · rw [Effect.fst_andThen_of_fst_eq fun _ _ => rfl]
          exact tried.trans (.reinsert _ (Path.parse source) value failure)

/-- Effects leave the annotations alone. -/
theorem sameAnnotations_effect (o : Operation) (regime : Regime) (s : Store) :
    s.SameAnnotations (o.effect regime s).1 := by
  rw [effect_eq]
  cases o.body with
  | add value =>
    simp only [Effect.fst_changed, add, fst_report]
    exact .insert ..
  | remove child =>
    simp only [Effect.fst_changed, remove]
    split
    · exact .refl s
    · split
      · exact .refl s
      · exact .refl s
      · exact .delete ..
  | replace value =>
    simp only [Effect.fst_changed, replace, fst_report]
    exact .overwrite ..
  | move source =>
    rw [Effect.fst_changed]
    exact sameAnnotations_move o s source
  | copy source =>
    simp only [Effect.fst_changed, copy]
    split
    · exact .refl s
    · rw [fst_report]
      exact .insert ..
  | test expected comparisons => exact .refl s
  | increment delta =>
    simp only [Effect.fst_changed, increment]
    split
    · exact .refl s
    · split
      · exact .refl s
      · rw [fst_report]
        exact .overwrite ..
  | evaluate expression =>
    simp only [Effect.fst_changed, evaluate]
    split
    · exact .refl s
    · rw [fst_report]
      exact .overwrite ..
  | modify action value index =>
    simp only [Effect.fst_changed, modify]
    split
    · exact .refl s
    · split
      · exact .refl s
      · exact .update ..

/-! ### Runs -/

theorem run_of_refused (due : o.isDue s = .ok true) (constrained : regime.constrained = true)
    {refusal : Refusal} (refused : o.refusal? s = some refusal) :
    o.run regime s = (s, .failed (.refused refusal)) := by
  simp [run, due, constrained, refused]

theorem run_of_due (due : o.isDue s = .ok true)
    (admitted : regime.constrained = true → o.refusal? s = none) :
    o.run regime s = recordEffect (o.effect regime s) := by
  by_cases constrained : regime.constrained = true <;> simp_all [run]

theorem run_of_unconstrained (unconstrained : regime.constrained = false)
    (due : o.isDue s = .ok true) : o.run regime s = recordEffect (o.effect regime s) := by
  refine run_of_due due fun constrained => ?_
  rw [unconstrained] at constrained
  cases constrained

theorem run_of_admitted (due : o.isDue s = .ok true) (admitted : o.refusal? s = none) :
    o.run regime s = recordEffect (o.effect regime s) :=
  run_of_due due fun _ => admitted

/-- A change goes through exactly where its path takes annotations. -/
theorem isSuccess_recordEffect_iff (same : s.SameAnnotations s') (c : Change) :
    (recordEffect (s', .ok (some c))).2.isSuccess = true ↔ s.Annotates (Path.parse c.path) := by
  rw [← same.annotates_iff, ← Store.annotate_fault_iff _ _ c.displayText]
  simp only [recordEffect, Store.record]
  rcases s'.annotate (Path.parse c.path) c.displayText with ⟨s'', _ | fault⟩ <;>
    simp [Outcome.isSuccess, Outcome.failure?]

theorem recordEffect_of_isSuccess {e : Effect (Option Change)}
    (h : (recordEffect e).2.isSuccess = true) :
    ∃ change?, e.2 = .ok change? ∧ (recordEffect e).2 = .done change? := by
  obtain ⟨s, failure | _ | change⟩ := e
  · cases h
  · exact ⟨none, rfl, rfl⟩
  · simp only [recordEffect] at h ⊢
    split at h
    · exact ⟨some change, rfl, rfl⟩
    · cases h

/-- An operation that does not fail is skipped, or it is admitted and has its effect. -/
theorem run_of_isSuccess (h : (o.run regime s).2.isSuccess = true) :
    o.run regime s = (s, .skipped) ∨
      (o.run regime s).2 ≠ .skipped ∧ (regime.constrained = true → o.refusal? s = none) ∧
        ∃ s' change?, o.effect regime s = (s', .ok change?) ∧
          (o.run regime s).1.stat = s'.stat := by
  have stat := stat_recordEffect (o.effect regime s)
  unfold run at h ⊢
  split at h
  · cases h
  · exact .inl rfl
  · split at h
    · cases h
    · next admitted =>
      obtain ⟨change?, ok, done⟩ := recordEffect_of_isSuccess h
      refine .inr ⟨by simp [done], fun constrained => by simpa [constrained] using admitted,
        (o.effect regime s).1, change?, by rw [← ok], stat⟩

end Operation

end PatchScript
