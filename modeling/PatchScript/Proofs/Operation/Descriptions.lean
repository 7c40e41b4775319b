import PatchScript.Operation.Series
import PatchScript.Proofs.Document.Standing
import PatchScript.Proofs.Operation.Increments
import PatchScript.Proofs.Operation.Truth
import PatchScript.Proofs.Store.Mirror

/-!
# Descriptions under updates

A replacement by a value that is no list, an increment and a calculation give a value to what their
path leads to. Where a described leaf stands there, the value goes into it and the description
stays, and operations at paths apart from it leave both alone. So a description outlasts every run
of such operations, whether they succeed or not.

The value is another matter. It is that of the last operation which wrote one. An operation writes
first and records its change after that, so it fails with its value written when the annotations do
not take the change. That can only happen where an index in the path is too large for a list: in the
live document it is the key of a mapping, but a new annotation makes a list for it.

## Main definitions

* `Operation.UpdatesValue`, `Operation.given?` — operations that give a value, and the value
* `Operation.takesPlace` — whether the effect of an operation takes place
* `Series.writesAt` — the values that a series writes at a path, each with whether it is recorded
* `Series.Updates` — a series of operations that give values, at a path or apart from it

## Main results

* `Operation.lookup_run_of_apart`, `Operation.lookup_run_of_sameText` — one operation
* `Series.lookup_runAll` — what stands at the path after a series
* `Series.description_survives` — the headline, with the exact condition on the value
-/

namespace PatchScript

/-- A value that was written at a path, and whether the change was recorded, too. -/
structure WrittenValue where
  value : Value
  recorded : Bool

namespace Operation

/-- The operation gives a value to what its path leads to, and the value is no list. -/
def UpdatesValue (o : Operation) : Prop :=
  match o.body with
  | .replace value => ∀ items, value.getD .null ≠ .list items
  | .increment _ | .evaluate _ => True
  | _ => False

/-- The value that the operation gives to what its path leads to. -/
def given? (regime : Regime) (s : Store) (o : Operation) : Option Value :=
  match o.body with
  | .replace value => some (value.getD .null)
  | .increment delta =>
    (addend? (s.get (Path.parse o.path))).bind fun n =>
      (n.add delta).toOption.map fun sum => .number sum.normalize
  | .evaluate expression =>
    (calculate regime.limits (numberAt s) expression.toList).map .number
  | _ => none

/-- Whether the effect of the operation takes place: it is due and admitted, and nothing goes wrong
until its change is recorded. -/
def takesPlace (regime : Regime) (s : Store) (o : Operation) : Bool :=
  match o.isDue s with
  | .ok true =>
    !(regime.constrained && (o.refusal? s).isSome) && (o.effect regime s).2.isOk
  | _ => false

end Operation

/-- What an operation writes at a path. An invalid one writes nothing. -/
def Checked.writeAt? (regime : Regime) (p : Path) (s : Store) :
    Checked Operation → Option WrittenValue
  | .ok o =>
    if p.SameText (Path.parse o.path) ∧ o.takesPlace regime s = true then
      (o.given? regime s).map fun value => ⟨value, (o.run regime s).2.isSuccess⟩
    else none
  | .error _ => none

namespace Series

/-- The values that operations of a series write at a path, in order. -/
def writesAt (regime : Regime) (p : Path) : Store → Series → List WrittenValue
  | _, [] => []
  | s, o :: rest => (o.writeAt? regime p s).toList ++ writesAt regime p (o.run regime s).1 rest

/-- The last of the values, and `v` where there is none. -/
def lastValue (v : Value) (writes : List WrittenValue) : Value :=
  (writes.map (·.value)).getLastD v

/-- The last of the recorded values, and `v` where there is none. -/
def lastRecorded (v : Value) (writes : List WrittenValue) : Value :=
  lastValue v (writes.filter (·.recorded))

end Series

variable {s : Store} {regime : Regime} {o : Operation} {p : Path} {v w x : Value} {d : String}

/-! ### Assigning -/

namespace Store

theorem described_leaf (hw : ∀ items, w ≠ .list items) (v : Value) (d : String) :
    described (some (.list [v, .text d])) w = .list [w, .text d] := by
  cases w with
  | list items => exact absurd rfl (hw items)
  | _ => rfl

/-- What is assigned to a described leaf, or to a path with the same text, goes into the leaf, or
the assignment does nothing but fail. -/
theorem assign_of_sameText {q : Path} (hp : ∀ u ∈ p, u.IsConcrete) (hq : ∀ seg ∈ q, seg.IsStep)
    (same : p.SameText q) (found : s.lookup p = some (.list [v, .text d]))
    (hw : ∀ items, w ≠ .list items) :
    (Segment.append ∉ q ∧ (s.assign q w).2 = none ∧
        (s.assign q w).1.lookup p = some (.list [w, .text d])) ∨
      (s.assign q w).2.isSome = true ∧ (s.assign q w).1.stat = s.stat := by
  rw [lookup_eq] at found
  have proper : p ≠ [] := by
    rintro rfl
    cases found
  obtain ⟨stands, updated⟩ | ⟨nothing, fails⟩ := Value.sameText_cases hp hq same found
  · have proper' : q ≠ [] := fun none => proper (by simpa [Path.SameText, none] using same)
    have leaf : described (s.lookup q) w = .list [w, .text d] := by
      rw [lookup_eq, stands, described_leaf hw]
    have written := Value.write_of_resolve stands proper' (.list [w, .text d])
    refine .inl ⟨Value.append_notMem_of_resolve stands, ?_, ?_⟩
    · rw [assign, leaf, set_eq, written]
    · rw [assign, leaf, lookup_eq, mapping_stat_set, written, updated]
      exact Value.resolve_update found _
  · obtain ⟨fault, failed⟩ := fails (described (s.lookup q) w)
    rw [assign, set_eq, failed]
    exact .inr ⟨rfl, rfl⟩

theorem annotates_of_storable {q : Path} (storable : ∀ seg ∈ q, seg.IsStorable) (proper : q ≠ []) :
    s.Annotates q := by
  have kind (m : Mapping) :
      ∀ seg, q.head? = some seg → Value.isWrongKind seg (.mapping m) = false := by
    intro seg first
    have step := storable seg (List.mem_of_head? first)
    cases seg with
    | key _ | index _ => rfl
    | append | other _ => exact step.elim
  exact ⟨Value.write_forced_of_storable storable proper (kind _) _,
    Value.write_forced_of_storable storable proper (kind _) _⟩

end Store

namespace Operation

/-! ### One operation -/

/-- An operation leaves the store alone, or it leaves what its effect leaves and the record. -/
theorem takesPlace_cases (regime : Regime) (s : Store) (o : Operation) :
    ((o.run regime s).1 = s ∧ o.takesPlace regime s = false) ∨
      o.run regime s = recordEffect (o.effect regime s) ∧
        o.takesPlace regime s = (o.effect regime s).2.isOk := by
  cases due : o.isDue s with
  | error m => exact .inl (by simp [run, takesPlace, due])
  | ok holds =>
    cases holds with
    | false => exact .inl (by simp [run, takesPlace, due])
    | true =>
      by_cases admitted : regime.constrained = true → o.refusal? s = none
      · refine .inr ⟨run_of_due due admitted, ?_⟩
        cases constrained : regime.constrained with
        | false => simp [takesPlace, due, constrained]
        | true => simp [takesPlace, due, admitted constrained]
      · obtain ⟨constrained, refused⟩ := Classical.not_imp.1 admitted
        obtain ⟨refusal, refused⟩ := Option.ne_none_iff_exists'.1 refused
        rw [run_of_refused due constrained refused]
        exact .inl ⟨rfl, by simp [takesPlace, due, constrained, refused]⟩

/-- The effect of an operation that gives a value is to put it in place of another one. -/
theorem effect_of_updatesValue (updates : o.UpdatesValue) (regime : Regime) (s : Store) :
    (∃ failure, o.effect regime s = (s, .error failure)) ∨
      ∃ w usual old new, o.given? regime s = some w ∧ (∀ items, w ≠ .list items) ∧
        o.effect regime s =
          (o.report usual old new (s.overwrite o.path (Path.parse o.path) w)).changed := by
  rw [effect_eq]
  unfold UpdatesValue at updates
  cases hb : o.body with
  | replace value =>
    simp only [hb] at updates
    exact .inr ⟨_, _, _, _, by simp only [given?, hb], updates, rfl⟩
  | increment delta =>
    simp only [increment, Store.recorded_lookup, given?, hb]
    cases addend? (s.get (Path.parse o.path)) with
    | none => exact .inl ⟨_, rfl⟩
    | some n =>
      dsimp only [Option.bind_some]
      cases n.add delta with
      | error overflow => exact .inl ⟨_, rfl⟩
      | ok sum => exact .inr ⟨_, _, _, _, rfl, Value.number_ne_list _, rfl⟩
  | evaluate expression =>
    simp only [evaluate, given?, hb]
    cases calculate regime.limits (numberAt s) expression.toList with
    | none => exact .inl ⟨_, rfl⟩
    | some n => exact .inr ⟨_, _, _, _, rfl, Value.number_ne_list _, rfl⟩
  | _ => simp only [hb] at updates

theorem stat_overwrite (s : Store) (label : String) (path : Path) (value : Value) :
    (s.overwrite label path value).1.stat = (s.assign path value).1.stat := by
  unfold Store.overwrite
  split
  · next h => rw [h]
  · next h => rw [h]

/-- What cannot be assigned is reported as a failure. -/
theorem overwrite_of_fault {label : String} {path : Path} {fault : WriteFault}
    (h : (s.assign path w).2 = some fault) :
    s.overwrite label path w = ((s.assign path w).1, .error (.ofWrite label fault)) := by
  have assigned : s.assign path w = ((s.assign path w).1, some fault) := Prod.ext rfl h
  rw [Store.overwrite, assigned]

/-- **An operation apart** from a path leaves what stands there. -/
theorem lookup_run_of_apart (hp : ∀ u ∈ p, u.IsConcrete) (updates : o.UpdatesValue)
    (apart : p.Apart (Path.parse o.path)) (found : s.lookup p = some x) :
    (o.run regime s).1.lookup p = some x := by
  obtain ⟨same, -⟩ | ⟨ran, -⟩ := o.takesPlace_cases regime s
  · rw [same]
    exact found
  · rw [ran, Store.lookup_eq, stat_recordEffect]
    obtain ⟨failure, failed⟩ | ⟨w, usual, old, new, -, -, effect⟩ :=
      effect_of_updatesValue updates regime s
    · rw [failed]
      exact found
    · have steps : ∀ seg ∈ Path.parse o.path, seg.IsStep := fun _ => Path.isStep_of_mem_parse
      rw [effect, Effect.fst_changed, fst_report, stat_overwrite, Store.assign,
        Store.mapping_stat_set]
      exact Value.resolve_write_of_apart hp steps apart found _

/-- **An operation at a path** writes its value into the described leaf that stands there, if its
effect takes place. -/
theorem lookup_run_of_sameText (hp : ∀ u ∈ p, u.IsConcrete) (updates : o.UpdatesValue)
    (same : p.SameText (Path.parse o.path)) (found : s.lookup p = some (.list [v, .text d])) :
    (o.run regime s).1.lookup p = some (.list
      [if o.takesPlace regime s then (o.given? regime s).getD v else v, .text d]) := by
  obtain ⟨unchanged, never⟩ | ⟨ran, place⟩ := o.takesPlace_cases regime s
  · rw [unchanged, never]
    exact found
  · rw [ran, Store.lookup_eq, stat_recordEffect, place]
    obtain ⟨failure, failed⟩ | ⟨w, usual, old, new, given, nonlist, effect⟩ :=
      effect_of_updatesValue updates regime s
    · rw [failed]
      exact found
    · have steps : ∀ seg ∈ Path.parse o.path, seg.IsStep := fun _ => Path.isStep_of_mem_parse
      rw [effect, Effect.fst_changed, fst_report, stat_overwrite]
      obtain ⟨concrete, success, there⟩ | ⟨fault, left⟩ :=
        Store.assign_of_sameText hp steps same found nonlist
      · rw [overwrite_of_assign concrete success, given]
        exact there
      · obtain ⟨fault, failed⟩ := Option.isSome_iff_exists.1 fault
        rw [overwrite_of_fault failed, left]
        exact found

/-- **An effect at storable steps** that takes place is recorded. -/
theorem isSuccess_run_of_takesPlace (updates : o.UpdatesValue)
    (storable : ∀ seg ∈ Path.parse o.path, seg.IsStorable) (proper : Path.parse o.path ≠ [])
    (place : o.takesPlace regime s = true) : (o.run regime s).2.isSuccess = true := by
  obtain ⟨-, never⟩ | ⟨ran, isOk⟩ := o.takesPlace_cases regime s
  · rw [never] at place
    cases place
  rw [isOk] at place
  obtain ⟨failure, failed⟩ | ⟨w, usual, old, new, -, -, effect⟩ :=
    effect_of_updatesValue updates regime s
  · rw [failed] at place
    cases place
  rw [effect] at place
  cases assigned : (s.assign (Path.parse o.path) w).2 with
  | some fault =>
    rw [overwrite_of_fault assigned] at place
    cases place
  | none =>
    have concrete : Segment.append ∉ Path.parse o.path := fun marker => storable _ marker
    have plain : ∀ seg ∈ Path.parse o.path, seg.IsPlain := fun seg mem => (storable seg mem).isPlain
    have same := Store.SameAnnotations.assign s (Path.parse o.path) w
    rw [ran, effect, overwrite_of_assign concrete assigned]
    refine (isSuccess_recordEffect_iff same (o.changeAt usual old new _)).2 ?_
    rw [changeAt, Path.parse_canonical plain]
    exact Store.annotates_of_storable storable proper

end Operation

namespace Series

variable {series : Series} {writes : List WrittenValue}

/-! ### Values -/

theorem lastValue_append (v : Value) (before writes : List WrittenValue) :
    lastValue v (before ++ writes) = lastValue (lastValue v before) writes := by
  simp [lastValue]

/-- The last value is the last recorded one, unless another value comes after all the others and is
not recorded. -/
theorem lastValue_eq_lastRecorded_iff :
    lastValue v writes = lastRecorded v writes ↔
      ∀ last, writes.getLast? = some last → last.recorded = false →
        last.value = lastRecorded v writes := by
  obtain rfl | ⟨before, last, rfl⟩ := List.eq_nil_or_concat writes
  · simp [lastRecorded, lastValue]
  · have value : lastValue v (before.concat last) = last.value := by
      simp [lastValue]
    rw [value, List.concat_eq_append, List.getLast?_concat]
    cases recorded : last.recorded with
    | false => simp [recorded]
    | true => simp [lastRecorded, lastValue, recorded]

/-! ### Runs -/

/-- The operations give values, each at a path with the same text as `p` or at one apart. -/
def Updates (p : Path) (series : Series) : Prop :=
  ∀ o : Operation, .ok o ∈ series →
    o.UpdatesValue ∧ (p.SameText (Path.parse o.path) ∨ p.Apart (Path.parse o.path))

theorem Updates.cons {o : Checked Operation} (updates : Updates p (o :: series)) :
    Updates p [o] ∧ Updates p series :=
  ⟨fun o' mem => updates o' (List.mem_cons.2 (.inl (List.mem_singleton.1 mem))),
    fun o' mem => updates o' (List.mem_cons_of_mem _ mem)⟩

/-- One operation of a series, valid or not. -/
theorem lookup_run {o : Checked Operation} (hp : ∀ u ∈ p, u.IsConcrete) (updates : Updates p [o])
    (found : s.lookup p = some (.list [v, .text d])) :
    (o.run regime s).1.lookup p =
      some (.list [lastValue v (o.writeAt? regime p s).toList, .text d]) := by
  cases o with
  | error problems => exact found
  | ok o =>
    obtain ⟨gives, same | apart⟩ := updates o (by simp)
    · have left := @Operation.lookup_run_of_sameText s regime o p v d hp gives same found
      rw [Checked.run, left, Checked.writeAt?]
      cases o.takesPlace regime s <;> cases o.given? regime s <;> simp [same, lastValue]
    · have elsewhere : ¬ p.SameText (Path.parse o.path) := apart.not_sameText
      rw [Checked.run, Checked.writeAt?, if_neg fun both => elsewhere both.1]
      exact Operation.lookup_run_of_apart hp gives apart found

/-- **A series** leaves the description, and the last value that an operation wrote. -/
theorem lookup_runAll (hp : ∀ u ∈ p, u.IsConcrete) (updates : Updates p series)
    (found : s.lookup p = some (.list [v, .text d])) :
    (runAll regime s series).1.lookup p =
      some (.list [lastValue v (writesAt regime p s series), .text d]) := by
  induction series generalizing s v with
  | nil => exact found
  | cons o rest ih =>
    obtain ⟨first, later⟩ := updates.cons
    rw [writesAt, lastValue_append]
    exact ih later (lookup_run hp first found)

theorem writeAt?_ok_eq_some_iff {w : WrittenValue} :
    Checked.writeAt? regime p s (.ok o) = some w ↔
      p.SameText (Path.parse o.path) ∧ o.takesPlace regime s = true ∧
        o.given? regime s = some w.value ∧ (o.run regime s).2.isSuccess = w.recorded := by
  obtain ⟨value, recorded⟩ := w
  simp only [Checked.writeAt?]
  split_ifs with here
  · simp [here.1, here.2]
  · simp only [false_iff]
    exact fun written => here ⟨written.1, written.2.1⟩

/-- At storable steps every value that is written is recorded. -/
theorem recorded_of_mem_writesAt (proper : p ≠ []) (updates : Updates p series)
    (storable : ∀ o : Operation, .ok o ∈ series → p.SameText (Path.parse o.path) →
      ∀ seg ∈ Path.parse o.path, seg.IsStorable) :
    ∀ w ∈ writesAt regime p s series, w.recorded = true := by
  induction series generalizing s with
  | nil => nofun
  | cons o rest ih =>
    intro w hw
    obtain first | later := List.mem_append.1 hw
    · rw [Option.mem_toList] at first
      cases o with
      | error problems => cases first
      | ok o =>
        have mem : Except.ok o ∈ Except.ok o :: rest := List.mem_cons_self ..
        obtain ⟨same, place, -, recorded⟩ := writeAt?_ok_eq_some_iff.1 first
        have proper' : Path.parse o.path ≠ [] := fun none =>
          proper (by simpa [Path.SameText, none] using same)
        rw [← recorded]
        exact Operation.isSuccess_run_of_takesPlace (updates o mem).1 (storable o mem same) proper'
          place
    · exact ih updates.cons.2 (fun o' mem => storable o' (List.mem_cons_of_mem _ mem)) w later

/-- **Descriptions survive updates.** After any series of operations that give values, each at the
path of a described leaf or at one apart from it, the leaf has the same description. Its value is
the one of the last operation at the path that succeeded, unless an operation after that one wrote
another value and failed to record it; and every value is recorded that is written at a path of
storable steps. -/
theorem description_survives (hp : ∀ u ∈ p, u.IsConcrete) (updates : Updates p series)
    (found : s.lookup p = some (.list [v, .text d])) :
    (∃ w, (runAll regime s series).1.lookup p = some (.list [w, .text d])) ∧
      ((runAll regime s series).1.lookup p =
          some (.list [lastRecorded v (writesAt regime p s series), .text d]) ↔
        ∀ last, (writesAt regime p s series).getLast? = some last → last.recorded = false →
          last.value = lastRecorded v (writesAt regime p s series)) ∧
      ((∀ o : Operation, .ok o ∈ series → p.SameText (Path.parse o.path) →
          ∀ seg ∈ Path.parse o.path, seg.IsStorable) →
        (runAll regime s series).1.lookup p =
          some (.list [lastRecorded v (writesAt regime p s series), .text d])) := by
  have left := @lookup_runAll s regime p v d series hp updates found
  have exact_condition : (runAll regime s series).1.lookup p =
      some (.list [lastRecorded v (writesAt regime p s series), .text d]) ↔
        lastValue v (writesAt regime p s series) =
          lastRecorded v (writesAt regime p s series) := by
    rw [left]
    simp
  have proper : p ≠ [] := by
    rintro rfl
    cases found
  refine ⟨⟨_, left⟩, exact_condition.trans lastValue_eq_lastRecorded_iff, fun storable => ?_⟩
  refine exact_condition.2 (lastValue_eq_lastRecorded_iff.2 fun last latest unrecorded => ?_)
  have recorded := recorded_of_mem_writesAt proper updates storable last
    (List.mem_of_getLast? latest)
  rw [recorded] at unrecorded
  cases unrecorded

/-- A described number, given three values, the last of them in vain. The operation apart from it
fails with its list made. -/
theorem description_survives_failures :
    let regime : Regime := ⟨true, ⟨512, 64⟩⟩
    let s : Store := .ofData [("hero", .mapping [("hp", .list [.int 10, .text "health"])])]
    let p : Path := [.key "hero", .key "hp"]
    let replace : Operation := { path := "hero.hp", body := .replace (some (.int 7)) }
    let apart : Operation := { path := "hero.mp[-1]", body := .replace (some (.int 1)) }
    let increment : Operation := { path := "hero.hp", body := .increment (.int 5) }
    let evaluate : Operation := { path := "hero/hp", body := .evaluate "1 +" }
    let series : Series := [.ok replace, .ok apart, .ok increment, .ok evaluate]
    (∀ u ∈ p, u.IsConcrete) ∧ Updates p series ∧
      s.lookup p = some (.list [.int 10, .text "health"]) ∧
      (∀ o : Operation, .ok o ∈ series → p.SameText (Path.parse o.path) →
        ∀ seg ∈ Path.parse o.path, seg.IsStorable) ∧
      (runAll regime s series).1.lookup p = some (.list [.int 12, .text "health"]) := by
  intro regime s p replace apart increment evaluate series
  have concrete : ∀ u ∈ p, u.IsConcrete := by simp [p, Segment.IsConcrete]
  have updates : Updates p series := by
    intro o mem
    simp only [series, List.mem_cons, Except.ok.injEq, List.not_mem_nil, or_false] at mem
    obtain rfl | rfl | rfl | rfl := mem
    · exact ⟨Value.int_ne_list 7, by decide⟩
    · exact ⟨Value.int_ne_list 1, by decide⟩
    · exact ⟨trivial, by decide⟩
    · exact ⟨trivial, by decide⟩
  have found : s.lookup p = some (.list [.int 10, .text "health"]) := rfl
  have storable : ∀ o : Operation, .ok o ∈ series → p.SameText (Path.parse o.path) →
      ∀ seg ∈ Path.parse o.path, seg.IsStorable := by
    intro o mem
    simp only [series, List.mem_cons, Except.ok.injEq, List.not_mem_nil, or_false] at mem
    obtain rfl | rfl | rfl | rfl := mem <;> decide
  have recorded : lastRecorded (.int 10) (writesAt regime p s series) = .int 12 := by
    decide +kernel
  obtain ⟨-, -, survives⟩ := @description_survives s regime p (.int 10) "health" series concrete
    updates found
  exact ⟨concrete, updates, found, storable, recorded ▸ survives storable⟩

/-- A value can be written and the change not be recorded: the key of a mapping is too large an
index for the list that the annotations would make. The operation fails, and its value stays. -/
theorem unrecorded_value_stays :
    ¬ ∀ (regime : Regime) (s : Store) (p : Path) (v : Value) (d : String) (series : Series),
      (∀ seg ∈ p, seg.IsPlain ∧ seg ≠ .append ∧ ∀ i, seg = .index i → 0 ≤ i) →
      Updates p series → s.lookup p = some (.list [v, .text d]) →
      (runAll regime s series).1.lookup p =
        some (.list [lastRecorded v (writesAt regime p s series), .text d]) := by
  intro always
  let s : Store :=
    .ofData [("a", .mapping [("9223372036854775808", .list [.int 5, .text "hp"])])]
  let p : Path := [.key "a", .index 9223372036854775808]
  let replace : Operation :=
    { path := "a[9223372036854775808]", body := .replace (some (.int 7)) }
  have plain : ∀ seg ∈ p, seg.IsPlain ∧ seg ≠ .append ∧ ∀ i, seg = .index i → 0 ≤ i := by
    simp only [p, List.forall_mem_cons]
    refine ⟨⟨by decide, nofun, nofun⟩, ⟨trivial, nofun, ?_⟩, List.forall_mem_nil _⟩
    rintro i ⟨⟩
    decide
  have updates : Updates p [.ok replace] := by
    intro o mem
    obtain rfl : o = replace := by simpa using mem
    exact ⟨Value.int_ne_list 7, by decide⟩
  have kept := always ⟨false, ⟨512, 64⟩⟩ s p (.int 5) "hp" [.ok replace] plain updates (by decide)
  exact absurd kept (by decide +kernel)

end Series

end PatchScript
