import PatchScript.Proofs.Operation.Effect

/-!
# Moves and copies in steps

A move is a removal followed by an addition of what was removed, and a copy is an addition of what
stands at its source. Whatever the removal does to the indices on the way to the target, the move
does the same, for it inserts into the document that the removal leaves. It only refuses to put a
value inside itself, and it reports one change, that of the addition, under a reason of its own.

## Main definitions

* `Operation.removing`, `Operation.adding` — the operations that a move is made of

## Main results

* `Operation.move_eq_ok_iff`, `copy_eq_ok_iff` — the effects of moves and copies
* `Operation.stat_run_move_copy` — the live document after a move, and after a copy
-/

namespace PatchScript

/-- What an insertion makes of the live document depends on the live document alone. -/
theorem Store.stat_insert_congr {s t : Store} (h : s.stat = t.stat) (label : String) (path : Path)
    (value : Value) : (s.insert label path value).1.stat = (t.insert label path value).1.stat := by
  have lookup : s.lookup path.dropLast = t.lookup path.dropLast := by rw [lookup_eq, lookup_eq, h]
  cases hlast : path.getLast? with
  | none => simpa [insert, hlast] using h
  | some last =>
    cases indexed : last.isIndexed with
    | true =>
      simp only [insert, hlast, indexed, if_true, lookup]
      split
      · split
        · simp only [update, h]
        · exact h
      · exact h
    | false =>
      rw [insert_of_not_isIndexed hlast indexed, insert_of_not_isIndexed hlast indexed, set_eq,
        set_eq, h]
      cases ((Value.mapping t.stat).write false path value).2 <;> rfl

namespace Operation

variable {s s' s₁ t : Store} {o : Operation} {regime : Regime} {path source : String}
  {value : Value} {change : Change} {change? : Option Change}

/-- The removal of what stands at a path. -/
def removing (path : String) : Operation := { path, body := .remove none }

/-- The addition of a value at a path. -/
def adding (path : String) (value : Value) : Operation := { path, body := .add (some value) }

/-- The change that an addition reports, under a reason of one's own. -/
theorem changeAt_adding (o : Operation) (usual spelled : String) (old new added : Value) :
    { (adding o.path added).changeAt "add" old new spelled with
        reason := o.reason?.getD usual } = o.changeAt usual old new spelled := rfl

/-! ### Effects -/

/-- Without constraints an addition is an insertion. -/
theorem add_eq_report (unconstrained : regime.constrained = false) (o : Operation) (s : Store)
    (value : Value) :
    o.add regime s value = o.report "add" (recorded (s.displaced (Path.parse o.path))) value.plain
      (s.insert o.path (Path.parse o.path) value) := by
  simp [add, unconstrained]

/-- A removal takes away what its path leads to, but not the root. -/
theorem remove_removing_eq_ok_iff {removed : Change} :
    (removing source).remove s none = (s₁, .ok removed) ↔
      Path.parse source ≠ [] ∧ ∃ value, s.lookup (Path.parse source) = some value ∧
        s₁ = (s.delete (Path.parse source)).1 ∧
        removed = ⟨Path.canonical (Path.parse source), value.plain, .null, "remove"⟩ := by
  have here : (removing source).removedAt s none = .ok (Path.parse source) := rfl
  simp only [remove, here]
  cases Path.parse source with
  | nil => simp
  | cons step rest =>
    cases s.lookup (step :: rest) with
    | none => simp
    | some old =>
      constructor
      · intro h
        obtain ⟨rfl, equal⟩ := Prod.mk.inj h
        exact ⟨by simp, old, rfl, rfl, (Except.ok.inj equal).symm⟩
      · rintro ⟨-, value, ⟨⟩, rfl, rfl⟩
        rfl

/-- A move that is not refused inserts into the document from which its value is deleted. -/
theorem move_eq_ok_iff_inserted (found : s.lookup (Path.parse source) = some value)
    (outside : isInside (Path.parse source) (Path.parse o.path) = false) :
    o.move s source = (s', .ok change) ↔
      ∃ spelled, (s.delete (Path.parse source)).1.insert o.path (Path.parse o.path) value =
          (s', .ok spelled) ∧
        o.changeAt "move"
          (recorded ((s.delete (Path.parse source)).1.displaced (Path.parse o.path))) value.plain
          spelled = change := by
  simp only [move, found, outside, Bool.false_eq_true, if_false]
  rcases (s.delete (Path.parse source)).1.insert o.path (Path.parse o.path) value with
    ⟨tried, failure | spelled⟩
  · -- what is put back is put back after a failure
    refine iff_of_false (fun h => ?_) (by simp)
    dsimp only at h
    split at h
    · cases h
    · revert h
      obtain ⟨s₁, _ | _⟩ := tried.reinsert (Path.parse source) value failure <;> rintro ⟨⟩
  · simp

/-- The root is moved nowhere: every other location is inside it, and it cannot be put in place of
itself. -/
theorem ne_nil_of_inserted {start target : Path} {label spelled : String}
    (outside : isInside start target = false)
    (inserted : t.insert label target value = (s', .ok spelled)) : start ≠ [] := by
  rintro rfl
  have root : target = [] := by simpa [isInside] using outside
  rw [root, Store.insert_nil] at inserted
  cases inserted

/-- **A move** whose target is not inside its source is the removal of a value and its addition. -/
theorem move_eq_ok_iff (unconstrained : regime.constrained = false) :
    o.move s source = (s', .ok change) ↔
      isInside (Path.parse source) (Path.parse o.path) = false ∧
        ∃ value s₁ removed added, s.lookup (Path.parse source) = some value ∧
          (removing source).remove s none = (s₁, .ok removed) ∧
          (adding o.path value).add regime s₁ value = (s', .ok added) ∧
          change = { added with reason := o.reason?.getD "move" } := by
  cases found : s.lookup (Path.parse source) with
  | none => simp [move, found]
  | some value =>
    cases inside : isInside (Path.parse source) (Path.parse o.path) with
    | true => simp [move, found, inside]
    | false =>
      rw [move_eq_ok_iff_inserted found inside]
      simp only [add_eq_report unconstrained, report_eq_ok_iff, remove_removing_eq_ok_iff]
      constructor
      · rintro ⟨spelled, inserted, rfl⟩
        exact ⟨trivial, value, _, _, _, rfl,
          ⟨ne_nil_of_inserted inside inserted, value, found, rfl, rfl⟩, ⟨spelled, inserted, rfl⟩,
          (changeAt_adding ..).symm⟩
      · rintro ⟨-, _, _, _, _, ⟨⟩, ⟨-, _, -, rfl, -⟩, ⟨spelled, inserted, rfl⟩, rfl⟩
        exact ⟨spelled, inserted, (changeAt_adding ..).symm⟩

/-- **A copy** is the addition of what stands at its source. -/
theorem copy_eq_ok_iff (unconstrained : regime.constrained = false) :
    o.copy s source = (s', .ok change) ↔
      ∃ value added, s.lookup (Path.parse source) = some value ∧
        (adding o.path value).add regime s value = (s', .ok added) ∧
        change = { added with reason := o.reason?.getD "copy" } := by
  cases found : s.lookup (Path.parse source) with
  | none => simp [copy, found]
  | some value =>
    simp only [copy, found, report_eq_ok_iff, add_eq_report unconstrained]
    constructor
    · rintro ⟨spelled, inserted, rfl⟩
      exact ⟨value, _, rfl, ⟨spelled, inserted, rfl⟩, (changeAt_adding ..).symm⟩
    · rintro ⟨_, _, ⟨⟩, ⟨spelled, inserted, rfl⟩, rfl⟩
      exact ⟨spelled, inserted, (changeAt_adding ..).symm⟩

/-! ### Runs -/

/-- Without a condition and without constraints, an operation leaves what its effect leaves, but for
the annotations. -/
theorem stat_run_of_free (unconstrained : regime.constrained = false) (free : o.guard? = none)
    (s : Store) : (o.run regime s).1.stat = (o.effect regime s).1.stat := by
  have due : o.isDue s = .ok true := by simp only [isDue, free]
  rw [← stat_recordEffect]
  simp [run, due, unconstrained]

theorem stat_run_removing (unconstrained : regime.constrained = false) (source : String)
    (s : Store) :
    ((removing source).run regime s).1.stat = ((removing source).remove s none).1.stat := by
  rw [stat_run_of_free unconstrained rfl, effect_eq]
  simp only [removing, Option.join_none, Effect.fst_changed]

theorem stat_run_adding (unconstrained : regime.constrained = false) (path : String)
    (value : Value) (s : Store) :
    ((adding path value).run regime s).1.stat =
      ((adding path value).add regime s value).1.stat := by
  rw [stat_run_of_free unconstrained rfl, effect_eq]
  simp only [adding, Option.getD_some, Effect.fst_changed]

/-- What an addition makes of the live document depends on the live document alone. -/
theorem stat_run_adding_congr (unconstrained : regime.constrained = false) (h : s.stat = t.stat)
    (path : String) (value : Value) :
    ((adding path value).run regime s).1.stat = ((adding path value).run regime t).1.stat := by
  simp only [stat_run_adding unconstrained, add_eq_report unconstrained, fst_report]
  exact Store.stat_insert_congr h ..

/-- **Moves and copies in steps.** A move leaves the live document that the removal of what stands
at its source and then the addition of it leave, and a copy the one that the addition leaves. -/
theorem stat_run_move_copy (unconstrained : regime.constrained = false)
    (h : o.run regime s = (s', .done change?)) :
    (o.body = .move source → ∃ value, s.lookup (Path.parse source) = some value ∧
        s'.stat = ((adding o.path value).run regime ((removing source).run regime s).1).1.stat) ∧
      (o.body = .copy source → ∃ value, s.lookup (Path.parse source) = some value ∧
        s'.stat = ((adding o.path value).run regime s).1.stat) := by
  have success : (o.run regime s).2.isSuccess = true := by rw [h]; rfl
  obtain skipped | ⟨-, -, s₂, change₂?, effect, stat⟩ := run_of_isSuccess success
  · rw [h] at skipped
    cases skipped
  rw [h] at stat
  rw [effect_eq] at effect
  refine ⟨fun hb => ?_, fun hb => ?_⟩
  · simp only [hb] at effect
    obtain ⟨change, moved, -⟩ := Effect.changed_eq_ok_iff.1 effect
    obtain ⟨-, value, s₁, removed, added, found, remove, add, -⟩ :=
      (move_eq_ok_iff unconstrained).1 moved
    refine ⟨value, found, ?_⟩
    -- the annotation of the removal is not seen by the addition
    have left : ((removing source).run regime s).1.stat = s₁.stat := by
      rw [stat_run_removing unconstrained, remove]
    rw [stat_run_adding_congr unconstrained left, stat_run_adding unconstrained, add]
    exact stat
  · simp only [hb] at effect
    obtain ⟨change, copied, -⟩ := Effect.changed_eq_ok_iff.1 effect
    obtain ⟨value, added, found, add, -⟩ := (copy_eq_ok_iff unconstrained).1 copied
    refine ⟨value, found, ?_⟩
    rw [stat_run_adding unconstrained, add]
    exact stat

/-- A list of two numbers and a mapping. -/
def crowded : Store := .ofData [("a", .list [.int 1, .int 2, .mapping []])]

/-- The removal of the first item makes the mapping the second one, and so the target of the move
goes through it. The copy puts it between items that stay. -/
theorem stat_run_move_copy_crowded :
    let regime : Regime := ⟨false, ⟨512, 64⟩⟩
    let move : Operation := { path := "a[1].x", body := .move "a[0]" }
    let copy : Operation := { path := "a[1]", body := .copy "a[2]" }
    (∃ s' change? value, move.run regime crowded = (s', .done change?) ∧
        crowded.lookup (Path.parse "a[0]") = some value ∧
        s'.stat = [("a", .list [.int 2, .mapping [("x", .int 1)]])] ∧
        s'.stat =
          ((adding move.path value).run regime ((removing "a[0]").run regime crowded).1).1.stat) ∧
      ∃ s' change? value, copy.run regime crowded = (s', .done change?) ∧
        crowded.lookup (Path.parse "a[2]") = some value ∧
        s'.stat = [("a", .list [.int 1, .mapping [], .int 2, .mapping []])] ∧
        s'.stat = ((adding copy.path value).run regime crowded).1.stat := by
  intro regime move copy
  constructor
  · have moved : move.run regime crowded =
        ((move.run regime crowded).1,
          .done (some ⟨"a[1].x", .null, .int 1, "move"⟩)) := by decide +kernel
    obtain ⟨value, found, equal⟩ := (stat_run_move_copy rfl moved).1 rfl
    exact ⟨_, _, value, moved, found, by decide +kernel, equal⟩
  · have copied : copy.run regime crowded =
        ((copy.run regime crowded).1,
          .done (some ⟨"a[1]", .null, .mapping [], "copy"⟩)) := by decide +kernel
    obtain ⟨value, found, equal⟩ := (stat_run_move_copy rfl copied).2 rfl
    exact ⟨_, _, value, copied, found, by decide +kernel, equal⟩

end Operation

end PatchScript
