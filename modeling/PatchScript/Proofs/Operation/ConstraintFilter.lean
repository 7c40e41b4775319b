import PatchScript.Proofs.Document.Governing
import PatchScript.Proofs.Operation.Effect

/-!
# Constraints as a filter

Constraints either refuse an operation, and then nothing happens, or they let it run as it would run
without them. Only the addition of a mapping is changed by them: the mapping is added with the
defaults of its container.

## Main definitions

* `Operation.completed` — the operation that runs without constraints in place of one with them

## Main results

* `Operation.run_constrained_eq` — a run under constraints is refused, or it is the run of the
  completed operation without them
* `Checked.run_constrained` — the same with the completed operation spelled out
-/

namespace PatchScript

namespace Operation

variable {o : Operation} {m : Mapping}

/-- The operation that adds what the constraints complete, if it adds a mapping. -/
def completed (s : Store) (o : Operation) : Operation :=
  match o.body with
  | .add (some value) =>
    { o with body := .add (some ((Value.mapping s.stat).withTemplate (Path.parse o.path) value)) }
  | _ => o

theorem completed_of_add_mapping (hb : o.body = .add (some (.mapping m))) (s : Store) :
    ∃ defaults, (Value.mapping s.stat).Defaults (Path.parse o.path).dropLast defaults ∧
      o.completed s = { o with body := .add (some (.mapping (defaults.overlay m))) } := by
  obtain ⟨defaults, stands, filled⟩ :=
    (Value.mapping s.stat).withTemplate_mapping (Path.parse o.path) m
  exact ⟨defaults, stands, by simp only [completed, hb, filled]⟩

theorem completed_eq_self (h : ∀ m, o.body ≠ .add (some (.mapping m))) (s : Store) :
    o.completed s = o := by
  obtain ⟨path, guard, reason, tagged, body⟩ := o
  cases body with
  | add value =>
    cases value with
    | none => rfl
    | some value =>
      have other : ∀ m, value ≠ .mapping m := by
        rintro m rfl
        exact h m rfl
      simp only [completed, Value.withTemplate_of_not_mapping other]
  | _ => rfl

/-- Constraints change what is added, and no other effect. -/
theorem effect_constrained (limits : ExpressionLimits) (s : Store) (o : Operation) :
    o.effect ⟨true, limits⟩ s = (o.completed s).effect ⟨false, limits⟩ s := by
  obtain ⟨path, guard, reason, tagged, body⟩ := o
  cases body with
  | add value => cases value <;> rfl
  | _ => rfl

theorem isDue_completed (s : Store) (o : Operation) : (o.completed s).isDue s = o.isDue s := by
  unfold completed
  split <;> rfl

/-- **A run under constraints** is refused, or it is the run of the completed operation without
them. -/
theorem run_constrained_eq (limits : ExpressionLimits) (s : Store) (o : Operation) :
    (∃ refusal, o.isDue s = .ok true ∧ o.refusal? s = some refusal ∧
        o.run ⟨true, limits⟩ s = (s, .failed (.refused refusal))) ∨
      o.run ⟨true, limits⟩ s = (o.completed s).run ⟨false, limits⟩ s := by
  cases due : o.isDue s with
  | error mishap => exact .inr (by simp [run, isDue_completed, due])
  | ok holds =>
    cases holds with
    | false => exact .inr (by simp [run, isDue_completed, due])
    | true =>
      cases refused : o.refusal? s with
      | some refusal => exact .inl ⟨refusal, rfl, rfl, by simp [run, due, refused]⟩
      | none =>
        exact .inr (by simp [run, isDue_completed, due, refused, effect_constrained])

end Operation

/-- **Constraints are a filter.** Under constraints an operation is refused, and the store stays as
it was; or it adds a mapping, and what becomes of it is what becomes of the addition of that mapping
over the defaults of its container; or what becomes of it is the same as without constraints. -/
theorem Checked.run_constrained (limits : ExpressionLimits) (s : Store) (o : Checked Operation) :
    (∃ op refusal, o = .ok op ∧ op.isDue s = .ok true ∧ op.refusal? s = some refusal ∧
        o.run ⟨true, limits⟩ s = (s, .failed (.refused refusal))) ∨
      (∃ (op : Operation) (m defaults : Mapping), o = .ok op ∧ op.body = .add (some (.mapping m)) ∧
        (Value.mapping s.stat).Defaults (Path.parse op.path).dropLast defaults ∧
        (m.keys.Nodup → ∀ key,
          (defaults.overlay m).get? key = (m.get? key).or (defaults.get? key)) ∧
        o.run ⟨true, limits⟩ s =
          Operation.run ⟨false, limits⟩ s
            { op with body := .add (some (.mapping (defaults.overlay m))) }) ∨
      (∀ op m, o = .ok op → op.body ≠ .add (some (.mapping m))) ∧
        o.run ⟨true, limits⟩ s = o.run ⟨false, limits⟩ s := by
  cases o with
  | error problems => exact .inr (.inr ⟨(fun _ _ valid => by cases valid), rfl⟩)
  | ok op =>
    obtain ⟨refusal, due, refused, equal⟩ | equal := op.run_constrained_eq limits s
    · exact .inl ⟨op, refusal, rfl, due, refused, equal⟩
    · by_cases adds : ∃ m, op.body = .add (some (.mapping m))
      · obtain ⟨m, hb⟩ := adds
        obtain ⟨defaults, stands, completed⟩ := Operation.completed_of_add_mapping hb s
        refine .inr (.inl ⟨op, m, defaults, rfl, hb, stands, ?_, ?_⟩)
        · exact fun distinct key => Mapping.get?_overlay distinct defaults key
        · rw [← completed]
          exact equal
      · have other : ∀ m, op.body ≠ .add (some (.mapping m)) := fun m hb => adds ⟨m, hb⟩
        refine .inr (.inr ⟨?_, ?_⟩)
        · rintro op' m ⟨⟩
          exact other m
        · rw [Operation.completed_eq_self other] at equal
          exact equal

end PatchScript
