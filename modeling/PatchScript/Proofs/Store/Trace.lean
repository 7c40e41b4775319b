import PatchScript.Proofs.Document.FailedWrite
import PatchScript.Proofs.Store.Writing

/-!
# Traces of what failed

Inserting, overwriting and annotating may fail after they have changed the store. Each of them
leaves a trace exactly where its write made a container first. Annotating writes twice, so it also
leaves one where the first write changed something and the second fails.

## Main definitions

* `Store.insertTrace`, `Store.overwriteTrace`, `Store.annotationTrace` — what leaves a trace

## Main results

* `Store.insert_eq_self_iff`, `Store.overwrite_eq_self_iff`, `Store.annotate_eq_self_iff`
-/

namespace PatchScript.Store

variable {s : Store} {path : Path} {label : String} {value : Value}

/-- Whether an insertion that fails leaves a trace. -/
def insertTrace (s : Store) (path : Path) : Bool :=
  match path.getLast? with
  | none => false
  | some last => !last.isIndexed && (Value.mapping s.stat).makesContainer false path

/-- Whether overwriting that fails leaves a trace. -/
def overwriteTrace (s : Store) (path : Path) : Bool :=
  (Value.mapping s.stat).makesContainer false path

/-- Whether annotating that fails leaves a trace. -/
def annotationTrace (s : Store) (path : Path) (text : String) : Prop :=
  match ((Value.mapping s.display).write true path (.text text)).2 with
  | some _ => (Value.mapping s.display).makesContainer true path = true
  | none => (Value.mapping s.display).resolve path ≠ some (.text text) ∨
      (Value.mapping s.delta).makesContainer true path = true

/-! ### One write -/

/-- A write into a projection leaves the store as it was when it leaves the projection so. -/
theorem write_eq_self_iff (s : Store) (source : Source) (force : Bool) (path : Path)
    (value : Value) :
    (s.write source force path value).1 = s ↔
      ((Value.mapping (s.projection source)).write force path value).1 =
        .mapping (s.projection source) := by
  rw [← Value.mapping_entries_write, Value.mapping.injEq]
  obtain ⟨stat, display, delta⟩ := s
  cases source <;> simp [write, withProjection, projection]

/-- A value that cannot be set leaves a container, or nothing. -/
theorem set_eq_self_iff (failed : (s.set path value).2.isSome = true) :
    (s.set path value).1 = s ↔ (Value.mapping s.stat).makesContainer false path = false := by
  rw [set, write_eq_self_iff]
  exact Value.write_eq_self_iff_of_failure failed

/-! ### Inserting and overwriting -/

/-- An insertion that fails leaves the store as a write that fails leaves it. -/
theorem insert_failed {failure : Failure}
    (failed : (s.insert label path value).2 = .error failure) :
    ∃ path', (s.insert label path value).1 = (s.set path' value).1 ∧
      (s.set path' value).2.isSome = true ∧
      (Value.mapping s.stat).makesContainer false path' = s.insertTrace path := by
  cases hlast : path.getLast? with
  | none =>
    obtain rfl : path = [] := List.getLast?_eq_none_iff.1 hlast
    exact ⟨[], rfl, rfl, rfl⟩
  | some last =>
    cases hi : last.isIndexed with
    | true =>
      refine ⟨[], ?_, rfl, by simp [insertTrace, hlast, hi, Value.makesContainer]⟩
      obtain ⟨_, _, _, -, inserted⟩ | ⟨failure', unchanged⟩ :=
        insert_of_isIndexed (s := s) hlast hi label value
      · simp [inserted] at failed
      · rw [unchanged]
        rfl
    | false =>
      refine ⟨path, ?_, ?_, by simp [insertTrace, hlast, hi]⟩
      · rw [insert_of_not_isIndexed hlast hi]
        rcases s.set path value with ⟨s', _ | fault⟩ <;> rfl
      · rw [insert_of_not_isIndexed hlast hi] at failed
        rcases hset : s.set path value with ⟨s', _ | fault⟩
        · simp [hset] at failed
        · rfl

theorem insert_eq_self_iff {failure : Failure}
    (failed : (s.insert label path value).2 = .error failure) :
    (s.insert label path value).1 = s ↔ s.insertTrace path = false := by
  obtain ⟨path', left, fault, trace⟩ := insert_failed failed
  rw [left, set_eq_self_iff fault, trace]

/-- Only a list that was made on the way cannot be found again after a value was set in it. -/
theorem makesContainer_of_writtenPath_eq_error {failure : Failure}
    (fault : (s.set path value).2 = none)
    (lost : (s.set path value).1.writtenPath path = .error failure) :
    (Value.mapping s.stat).makesContainer false path = true := by
  by_contra makes
  rw [set_eq] at fault
  rw [writtenPath] at lost
  split at lost
  · next hlast =>
    obtain ⟨items, found⟩ := Value.resolve_dropLast_write fault (by simpa using makes) hlast
    rw [← mapping_stat_set, ← lookup_eq] at found
    simp [found] at lost
  · cases lost

theorem overwrite_eq_self_iff {failure : Failure}
    (failed : (s.overwrite label path value).2 = .error failure) :
    (s.overwrite label path value).1 = s ↔ s.overwriteTrace path = false := by
  rw [overwriteTrace]
  rcases hset : s.assign path value with ⟨s', _ | fault⟩
  · have left : (s.overwrite label path value).1 = s' := by simp [overwrite, hset]
    have written : (s.set path (described (s.lookup path) value)).1 = s' := congrArg Prod.fst hset
    have lost : s'.writtenPath path = .error failure := by simpa [overwrite, hset] using failed
    rw [← written] at left lost
    have makes := makesContainer_of_writtenPath_eq_error (congrArg Prod.snd hset) lost
    rw [left]
    refine iff_of_false ?_ (by simp [makes])
    intro same
    have stat := mapping_stat_set s path (described (s.lookup path) value)
    rw [same] at stat
    exact Value.write_ne_self makes _ stat.symm
  · have left : (s.overwrite label path value).1 = s' := by simp [overwrite, hset]
    rw [left, ← show (s.set path (described (s.lookup path) value)).1 = s' from
      congrArg Prod.fst hset]
    exact set_eq_self_iff (congrArg (·.2.isSome) hset)

/-! ### Annotating -/

/-- Writing first into one projection of annotations and then into the other leaves the store as it
was when each of them does. -/
theorem write_write_eq_self_iff (s : Store) (path : Path) (value : Value) :
    ((s.write .display true path value).1.write .delta true path value).1 = s ↔
      (s.write .display true path value).1 = s ∧ (s.write .delta true path value).1 = s := by
  constructor
  · intro same
    have display := congrArg Store.display same
    have first : (s.write .display true path value).1 = s := by
      obtain ⟨stat, display', delta⟩ := s
      exact congrArg (Store.mk stat · delta) display
    rw [first] at same
    exact ⟨first, same⟩
  · rintro ⟨first, second⟩
    rw [first, second]

theorem annotate_eq_self_iff {text : String} (failed : (s.annotate path text).2.isSome = true) :
    (s.annotate path text).1 = s ↔ ¬ s.annotationTrace path text := by
  rcases hdisplay : s.write .display true path (.text text) with ⟨s', _ | fault⟩
  · have first : ((Value.mapping s.display).write true path (.text text)).2 = none :=
      congrArg Prod.snd hdisplay
    have both : s.annotate path text =
        (s.write .display true path (.text text)).1.write .delta true path (.text text) := by
      simp only [annotate, hdisplay]
    have second : ((Value.mapping s.delta).write true path (.text text)).2.isSome = true := by
      rw [both] at failed
      exact failed
    rw [both, write_write_eq_self_iff, write_eq_self_iff, write_eq_self_iff,
      projection, Value.write_eq_self_iff_of_success first,
      projection, Value.write_eq_self_iff_of_failure second]
    simp [annotationTrace, first]
  · have first : ((Value.mapping s.display).write true path (.text text)).2 = some fault :=
      congrArg Prod.snd hdisplay
    have left : (s.annotate path text).1 = (s.write .display true path (.text text)).1 := by
      simp only [annotate, hdisplay]
    rw [left, write_eq_self_iff, projection,
      Value.write_eq_self_iff_of_failure (by rw [first]; rfl)]
    simp [annotationTrace, first]

end PatchScript.Store
