import PatchScript.Proofs.Condition.Leaf
import PatchScript.Proofs.Operation.Truth
import PatchScript.Proofs.Path.FirstSegment
import PatchScript.Proofs.Store.Restriction

/-!
# What an operation sees and changes

An operation has its own path, and it may have one from which it takes its value, those that its
condition reads, and those of the names in its expression. It sees the root entries below which
these paths lead and the constraints of the root, and it changes entries of the first two alone. The
change that it reports names its own root entry, so this holds of the annotations as well.

## Main definitions

* `Operation.paths` — the paths of an operation
* `Operation.Within` — operations whose paths lead below root entries that are kept

## Main results

* `Operation.run_only` — without other root entries, the same happens
* `Operation.only_run` — other root entries stay as they are
-/

namespace PatchScript

variable {keep : String → Bool} {path : Path}

open Constraints (reservedKey)

/-! ### Paths that lead on -/

theorem Path.Within.append (within : path.Within keep) (more : Path) :
    Path.Within keep (path ++ more) := by
  cases path with
  | nil => exact absurd rfl within.ne_nil
  | cons q rest => exact Path.within_cons_iff.2 (Path.within_cons_iff.1 within)

/-- The root entry of a path is read back from its spelling. -/
theorem Path.Within.canonical (within : path.Within keep)
    (plain : ∀ q ∈ path.head?, q.IsPlain) : (Path.parse (Path.canonical path)).Within keep := by
  cases path with
  | nil => exact absurd rfl within.ne_nil
  | cons q rest =>
    obtain ⟨rest', read⟩ := Path.parse_canonical_cons (plain q rfl) rest
    rw [read]
    exact Path.within_cons_iff.2 (Path.within_cons_iff.1 within)

theorem Path.Within.extend {text : String} (within : (Path.parse text).Within keep)
    (plain : ∀ q ∈ (Path.parse text).head?, q.IsPlain) (more : Path) :
    (Path.parse (Path.extend text more)).Within keep := by
  refine (within.append more).canonical ?_
  rwa [List.head?_append_of_ne_nil _ within.ne_nil]

/-! ### Constraints -/

namespace Constraints

theorem of?_mapping_only (kept : keep reservedKey = true) (m : Mapping) :
    of? (.mapping (m.only keep)) = of? (.mapping m) := by
  rw [of?, of?, Mapping.get?_only kept]

end Constraints

namespace Value

theorem governing?_mapping_only (kept : keep reservedKey = true)
    (within : path = [] ∨ path.Within keep) (m : Mapping) :
    (mapping (m.only keep)).governing? path = (mapping m).governing? path := by
  cases path with
  | nil =>
    rw [governing?, governing?, governingFrom, governingFrom, Constraints.of?_mapping_only kept]
  | cons s rest =>
    have step := child?_mapping_only (Path.within_cons_iff.1 (within.resolve_left (by simp))) m
    rw [governing?, governing?, governingFrom, governingFrom, Constraints.of?_mapping_only kept,
      step]

theorem closedAt?_mapping_only (kept : keep reservedKey = true) (within : path.Within keep)
    (m : Mapping) : (mapping (m.only keep)).closedAt? path = (mapping m).closedAt? path := by
  cases path with
  | nil => rfl
  | cons s rest =>
    rw [closedAt?, closedAt?, governing?_mapping_only kept within.dropLast,
      resolve_mapping_only within]

theorem requiredAt?_mapping_only (kept : keep reservedKey = true) (within : path.Within keep)
    (m : Mapping) : (mapping (m.only keep)).requiredAt? path = (mapping m).requiredAt? path := by
  rw [requiredAt?, requiredAt?, governing?_mapping_only kept within.dropLast]

theorem withTemplate_mapping_only (kept : keep reservedKey = true) (within : path.Within keep)
    (m : Mapping) (value : Value) :
    (mapping (m.only keep)).withTemplate path value = (mapping m).withTemplate path value := by
  cases value with
  | mapping entries => rw [withTemplate, withTemplate, governing?_mapping_only kept within.dropLast]
  | _ => rfl

end Value

/-! ### Conditions and expressions -/

namespace Condition

mutual

/-- The paths that the leaves of a condition read, at any depth. -/
def leafPaths : Condition → List Path
  | .always | .never => []
  | .all conditions | .any conditions => leafPathsOf conditions
  | .negation condition => leafPaths condition
  | .leaf address _ => [address.path]

/-- The paths that the leaves of conditions read. -/
def leafPathsOf : List Condition → List Path
  | [] => []
  | c :: rest => leafPaths c ++ leafPathsOf rest

end

mutual

/-- A condition holds of what is left of a store where it holds of the store. -/
theorem holds_only (s : Store) : ∀ c : Condition, (∀ p ∈ c.leafPaths, p.Within keep) →
    c.holds (s.only keep) = c.holds s
  | .always, _ | .never, _ => rfl
  | .all conditions, within => allHold_only s conditions within
  | .any conditions, within => anyHolds_only s conditions within
  | .negation condition, within => by rw [holds, holds, holds_only s condition within]
  | .leaf address _, within => by rw [holds, holds, Store.get_only (within _ (by simp [leafPaths]))]

theorem allHold_only (s : Store) : ∀ cs : List Condition, (∀ p ∈ leafPathsOf cs, p.Within keep) →
    allHold (s.only keep) cs = allHold s cs
  | [], _ => rfl
  | c :: rest, within => by
    simp only [leafPathsOf, List.forall_mem_append] at within
    rw [allHold, allHold, holds_only s c within.1, allHold_only s rest within.2]

theorem anyHolds_only (s : Store) : ∀ cs : List Condition, (∀ p ∈ leafPathsOf cs, p.Within keep) →
    anyHolds (s.only keep) cs = anyHolds s cs
  | [], _ => rfl
  | c :: rest, within => by
    simp only [leafPathsOf, List.forall_mem_append] at within
    rw [anyHolds, anyHolds, holds_only s c within.1, anyHolds_only s rest within.2]

end

end Condition

/-- The names in an expression. -/
def expressionNames (text : List Char) : List String :=
  (expressionParts text).filterMap fun
    | .name name => some (String.ofList name)
    | _ => none

/-- The value of an expression depends on the numbers under its names alone. -/
theorem calculate_congr {valueOf valueOf' : String → Number} {text : List Char}
    (h : ∀ name ∈ expressionNames text, valueOf' name = valueOf name) (limits : ExpressionLimits) :
    calculate limits valueOf' text = calculate limits valueOf text := by
  have same : substitute valueOf' text = substitute valueOf text := by
    refine List.flatMap_congr fun part hpart => ?_
    cases part with
    | name name =>
      rw [substitutePart, substitutePart, h _ (List.mem_filterMap.2 ⟨_, hpart, rfl⟩)]
    | _ => rfl
  rw [calculate, calculate, same]

theorem calculate_only {text : List Char}
    (within : ∀ name ∈ expressionNames text, (Path.parse name).Within keep)
    (limits : ExpressionLimits) (s : Store) :
    calculate limits (numberAt (s.only keep)) text = calculate limits (numberAt s) text :=
  calculate_congr (fun name hname => by
    rw [numberAt, numberAt, Store.get_only (within name hname)]) limits

/-! ### The paths of an operation -/

/-- The paths that operations of a kind read besides their own: the one from which a value is moved
or copied, and those of the names in an expression. -/
def OperationBody.sources : OperationBody → List Path
  | .move source | .copy source => [Path.parse source]
  | .evaluate expression => (expressionNames expression.toList).map Path.parse
  | _ => []

namespace Operation

/-- The paths that the leaves of the condition of an operation read. -/
def guardPaths (o : Operation) : List Path :=
  match o.guard? with
  | some condition => (Condition.ofValue (.mapping condition)).leafPaths
  | none => []

/-- All paths of an operation. -/
def paths (o : Operation) : List Path := Path.parse o.path :: (o.body.sources ++ o.guardPaths)

/-- Whether an operation stays below root entries of certain keys. -/
def Within (keep : String → Bool) (o : Operation) : Prop := ∀ p ∈ o.paths, p.Within keep

namespace Within

variable {o : Operation}

theorem own (within : o.Within keep) : (Path.parse o.path).Within keep :=
  within _ (List.mem_cons_self ..)

theorem source (within : o.Within keep) {source : String}
    (hb : o.body = .move source ∨ o.body = .copy source) : (Path.parse source).Within keep := by
  refine within _ (List.mem_cons_of_mem _ (List.mem_append_left _ ?_))
  rcases hb with hb | hb <;> exact hb ▸ List.mem_singleton.2 rfl

theorem names (within : o.Within keep) {expression : String} (hb : o.body = .evaluate expression) :
    ∀ name ∈ expressionNames expression.toList, (Path.parse name).Within keep := by
  intro name hname
  refine within _ (List.mem_cons_of_mem _ (List.mem_append_left _ ?_))
  exact hb ▸ List.mem_map_of_mem hname

end Within

end Operation

/-! ### Effects -/

namespace Effect

variable {α β : Type}

theorem andThen_only {f : Store → α → Effect β}
    (h : ∀ s a, f (s.only keep) a = (f s a).only keep) (e : Effect α) :
    (e.only keep).andThen f = (e.andThen f).only keep := by
  obtain ⟨s, failure | a⟩ := e
  · rfl
  · exact h s a

theorem changed_only (e : Effect Change) : (e.only keep).changed = e.changed.only keep :=
  andThen_only (fun _ _ => rfl) e

end Effect

namespace Operation

variable {o : Operation} {regime : Regime} {value : Value}

theorem report_only (o : Operation) (usual : String) (old new : Value) (e : Effect String) :
    o.report usual old new (e.only keep) = (o.report usual old new e).only keep :=
  Effect.andThen_only (fun _ _ => rfl) e

theorem add_only (kept : keep reservedKey = true) (within : (Path.parse o.path).Within keep)
    (regime : Regime) (s : Store) (value : Value) :
    o.add regime (s.only keep) value = (o.add regime s value).only keep := by
  simp only [add, Store.stat_only, Value.withTemplate_mapping_only kept within,
    Store.displaced_only within, Store.insert_only within, report_only]

theorem replace_only (within : (Path.parse o.path).Within keep) (s : Store) (value : Value) :
    o.replace (s.only keep) value = (o.replace s value).only keep := by
  simp only [replace, Store.lookup_only within, Store.overwrite_only within, report_only]

theorem removedAt_only (within : (Path.parse o.path).Within keep) (s : Store)
    (child : Option ChildName) : o.removedAt (s.only keep) child = o.removedAt s child := by
  unfold removedAt
  simp only [Store.lookup_only within]

theorem remove_only (within : (Path.parse o.path).Within keep) (s : Store)
    (child : Option ChildName) :
    o.remove (s.only keep) child = (o.remove s child).only keep := by
  rw [remove, remove, removedAt_only within]
  cases removed : o.removedAt s child with
  | error failure => rfl
  | ok path =>
    have below : path.Within keep := by
      obtain rfl | ⟨i, rfl⟩ | ⟨name, m, -, -, rfl⟩ := removedAt_eq_ok removed
      · exact within
      · exact within.append _
      · exact within.append _
    simp only [Store.lookup_only below]
    split
    · rfl
    · rfl
    · next found => rw [Store.delete_only below found]; rfl

theorem move_only {source : String} (within : (Path.parse o.path).Within keep)
    (start : (Path.parse source).Within keep) (s : Store) :
    o.move (s.only keep) source = (o.move s source).only keep := by
  simp only [move, Store.lookup_only start]
  cases found : s.lookup (Path.parse source) with
  | none => rfl
  | some value =>
    simp only [Store.delete_only start found, Store.insert_only within, Store.displaced_only within]
    split
    · rfl
    · rcases (s.delete (Path.parse source)).1.insert o.path (Path.parse o.path) value with
        ⟨s', failure | path⟩
      · simp only [Effect.only, Store.reinsert_only start]
        split
        · rfl
        · exact Effect.andThen_only (fun _ _ => rfl) _
      · rfl

theorem copy_only {source : String} (within : (Path.parse o.path).Within keep)
    (start : (Path.parse source).Within keep) (s : Store) :
    o.copy (s.only keep) source = (o.copy s source).only keep := by
  simp only [copy, Store.lookup_only start, Store.displaced_only within, Store.insert_only within,
    report_only]
  split <;> rfl

theorem test_only (within : (Path.parse o.path).Within keep) (s : Store) (expected : Option Value)
    (comparisons : List Comparison) :
    o.test (s.only keep) expected comparisons = o.test s expected comparisons := by
  have read : Condition.valueHolds (s.only keep) (.mapping o.leaf) =
      Condition.valueHolds s (.mapping o.leaf) := by
    have compares := comparesOnly_comparisonEntries o.comparisons
    rw [leaf_eq, Condition.valueHolds_leafWith compares, Condition.valueHolds_leafWith compares,
      Store.get_only within]
  simp only [test, Store.lookup_only within, read]

theorem increment_only (within : (Path.parse o.path).Within keep) (s : Store) (delta : Number) :
    o.increment (s.only keep) delta = (o.increment s delta).only keep := by
  simp only [increment, Store.lookup_only within, Store.overwrite_only within, report_only]
  split
  · rfl
  · split <;> rfl

theorem evaluate_only {expression : String} (within : (Path.parse o.path).Within keep)
    (names : ∀ name ∈ expressionNames expression.toList, (Path.parse name).Within keep)
    (regime : Regime) (s : Store) :
    o.evaluate regime (s.only keep) expression = (o.evaluate regime s expression).only keep := by
  simp only [evaluate, calculate_only names, Store.lookup_only within, Store.overwrite_only within,
    report_only]
  split <;> rfl

theorem modify_only (within : (Path.parse o.path).Within keep) (s : Store) (action : EditAction)
    (value : Value) (index : Option Int) :
    o.modify (s.only keep) action value index = (o.modify s action value index).only keep := by
  simp only [modify, Store.lookup_only within, Store.update_only within]
  split
  · rfl
  · split <;> rfl

theorem effect_only (kept : keep reservedKey = true) (within : o.Within keep) (regime : Regime)
    (s : Store) : o.effect regime (s.only keep) = (o.effect regime s).only keep := by
  have own := within.own
  rw [effect_eq, effect_eq]
  cases hb : o.body with
  | add value => simp only [add_only kept own, Effect.changed_only]
  | remove child => simp only [remove_only own, Effect.changed_only]
  | replace value => simp only [replace_only own, Effect.changed_only]
  | move source =>
    have start := within.source (.inl hb)
    simp only [move_only own start, Effect.changed_only]
  | copy source =>
    have start := within.source (.inr hb)
    simp only [copy_only own start, Effect.changed_only]
  | test expected comparisons =>
    simp only [test_only own]
    rfl
  | increment delta => simp only [increment_only own, Effect.changed_only]
  | evaluate expression =>
    simp only [evaluate_only own (within.names hb), Effect.changed_only]
  | modify action value index => simp only [modify_only own, Effect.changed_only]

end Operation

/-! ### Admission -/

namespace Store

variable {text : String}

theorem closed?_only (kept : keep reservedKey = true) (within : (Path.parse text).Within keep)
    (s : Store) : (s.only keep).closed? text = s.closed? text := by
  rw [closed?, closed?, stat_only, Value.closedAt?_mapping_only kept within]

theorem required?_only (kept : keep reservedKey = true) (within : (Path.parse text).Within keep)
    (s : Store) : (s.only keep).required? text = s.required? text := by
  rw [required?, required?, stat_only, Value.requiredAt?_mapping_only kept within]

theorem removedPath_only (within : (Path.parse text).Within keep) (s : Store)
    (child : Option ChildName) :
    (s.only keep).removedPath text child = s.removedPath text child := by
  unfold removedPath
  rw [lookup_only within]

theorem within_removedPath (within : (Path.parse text).Within keep)
    (plain : ∀ q ∈ (Path.parse text).head?, q.IsPlain) (s : Store) (child : Option ChildName) :
    (Path.parse (s.removedPath text child)).Within keep := by
  unfold removedPath
  split
  · exact within.extend plain _
  · exact within

theorem mergeRefusal?_only (kept : keep reservedKey = true)
    (within : (Path.parse text).Within keep)
    (plain : ∀ q ∈ (Path.parse text).head?, q.IsPlain) (s : Store) (value : Value) :
    (s.only keep).mergeRefusal? text value = s.mergeRefusal? text value := by
  simp only [mergeRefusal?, lookup_only within, closed?_only kept (within.extend plain _)]

end Store

namespace Operation

variable {o : Operation}

theorem refusal?_only (kept : keep reservedKey = true) (within : o.Within keep)
    (plain : ∀ q ∈ (Path.parse o.path).head?, q.IsPlain) (s : Store) :
    o.refusal? (s.only keep) = o.refusal? s := by
  have own := within.own
  have closed := Store.closed?_only kept own s
  unfold refusal?
  cases hb : o.body with
  | remove child =>
    simp only [Store.removedPath_only own]
    exact Store.required?_only kept (Store.within_removedPath own plain s child.join) s
  | move source =>
    have start := within.source (.inl hb)
    simp only [closed, Store.required?_only kept start]
  | modify action value index =>
    cases action with
    | merge => exact Store.mergeRefusal?_only kept own plain s _
    | _ => rfl
  | test expected comparisons => rfl
  | _ => exact closed

theorem isDue_only (within : o.Within keep) (s : Store) : o.isDue (s.only keep) = o.isDue s := by
  rw [isDue, isDue]
  cases guarded : o.guard? with
  | none => rfl
  | some condition =>
    refine Condition.holds_only s _ fun p hp => within p ?_
    have guardPath : p ∈ o.guardPaths := by rwa [guardPaths, guarded]
    exact List.mem_cons_of_mem _ (List.mem_append_right _ guardPath)

end Operation

/-! ### Records -/

namespace Store

variable {s : Store} {label spelled : String} {value : Value} {q : Segment} {rest : Path}

theorem spelled_of_insert (h : (s.insert label (q :: rest) value).2 = .ok spelled) :
    ∃ rest', spelled = Path.canonical (q :: rest') := by
  obtain ⟨last, hlast⟩ : ∃ last, (q :: rest).getLast? = some last := by
    simp [List.getLast?_eq_some_getLast]
  cases hi : last.isIndexed with
  | false =>
    rw [insert_of_not_isIndexed hlast hi] at h
    generalize s.set (q :: rest) value = written at h
    rcases written with ⟨s', _ | fault⟩
    · exact ⟨rest, (Except.ok.inj h).symm⟩
    · cases h
  | true =>
    simp only [insert, hlast, hi, if_true] at h
    cases rest with
    | nil => cases h
    | cons t rest =>
      split at h
      · split at h
        · exact ⟨_, (Except.ok.inj h).symm⟩
        · cases h
      · cases h

theorem spelled_of_writtenPath (h : s.writtenPath (q :: rest) = .ok spelled) :
    ∃ rest', spelled = Path.canonical (q :: rest') := by
  rw [writtenPath] at h
  split at h
  · cases rest with
    | nil => cases h
    | cons t rest =>
      split at h
      · exact ⟨_, (Except.ok.inj h).symm⟩
      · cases h
  · exact ⟨rest, (Except.ok.inj h).symm⟩

theorem spelled_of_overwrite (h : (s.overwrite label (q :: rest) value).2 = .ok spelled) :
    ∃ rest', spelled = Path.canonical (q :: rest') := by
  rw [overwrite] at h
  generalize s.assign (q :: rest) value = written at h
  rcases written with ⟨s', _ | fault⟩
  · exact spelled_of_writtenPath h
  · cases h

end Store

namespace Operation

variable {o : Operation} {s : Store} {regime : Regime} {c : Change} {q : Segment} {rest : Path}

theorem path_of_report {usual : String} {old new : Value} {e : Effect String}
    (h : (o.report usual old new e).2 = .ok c) : e.2 = .ok c.path := by
  obtain ⟨s, failure | path⟩ := e
  · cases h
  · obtain rfl := Except.ok.inj h
    rfl

theorem snd_of_changed {e : Effect Change} (h : e.changed.2 = .ok (some c)) : e.2 = .ok c := by
  obtain ⟨s, failure | change⟩ := e
  · cases h
  · exact congrArg Except.ok (Option.some.inj (Except.ok.inj h))

/-- The path that an operation reports lies below the same root entry as its own. -/
theorem spelled_of_effect (hq : Path.parse o.path = q :: rest)
    (h : (o.effect regime s).2 = .ok (some c)) : ∃ rest', c.path = Path.canonical (q :: rest') := by
  rw [effect_eq] at h
  cases hb : o.body with
  | add value =>
    simp only [hb, add, hq] at h
    exact Store.spelled_of_insert (path_of_report (snd_of_changed h))
  | replace value =>
    simp only [hb, replace, hq] at h
    exact Store.spelled_of_overwrite (path_of_report (snd_of_changed h))
  | copy source =>
    simp only [hb, copy, hq] at h
    have h := snd_of_changed h
    split at h
    · cases h
    · exact Store.spelled_of_insert (path_of_report h)
  | increment delta =>
    simp only [hb, increment, hq] at h
    have h := snd_of_changed h
    split at h
    · cases h
    · split at h
      · cases h
      · exact Store.spelled_of_overwrite (path_of_report h)
  | evaluate expression =>
    simp only [hb, evaluate, hq] at h
    have h := snd_of_changed h
    split at h
    · cases h
    · exact Store.spelled_of_overwrite (path_of_report h)
  | test expected comparisons =>
    simp only [hb] at h
    cases tested : o.test s expected comparisons <;> simp [tested, Except.map] at h
  | move source =>
    simp only [hb] at h
    have h : o.move s source = ((o.move s source).1, .ok c) := Prod.ext rfl (snd_of_changed h)
    obtain ⟨s₀, value, old, spelled, inserted, rfl⟩ := inserted_of_move_eq_ok h
    rw [hq] at inserted
    exact Store.spelled_of_insert (congrArg Prod.snd inserted)
  | remove child =>
    rw [← effect_eq] at h
    have h : o.effect regime s = ((o.effect regime s).1, .ok (some c)) := Prod.ext rfl h
    obtain ⟨path, old, removed, -, spelled, -⟩ := removed_of_effect_eq_ok hb h
    rw [spelled]
    obtain rfl | ⟨i, rfl⟩ | ⟨name, m, -, -, rfl⟩ := removedAt_eq_ok removed
    · exact ⟨_, by rw [hq]⟩
    · exact ⟨_, by rw [hq]; rfl⟩
    · exact ⟨_, by rw [hq]; rfl⟩
  | modify action value index =>
    rw [← effect_eq] at h
    have h : o.effect regime s = ((o.effect regime s).1, .ok (some c)) := Prod.ext rfl h
    obtain ⟨target, -, spelled, -⟩ := modified_of_effect_eq_ok (by rw [kind, hb]; rfl) h
    exact ⟨rest, by rw [spelled, hq]⟩

theorem within_of_effect (own : (Path.parse o.path).Within keep)
    (plain : ∀ q ∈ (Path.parse o.path).head?, q.IsPlain)
    (h : (o.effect regime s).2 = .ok (some c)) : (Path.parse c.path).Within keep := by
  obtain ⟨q, rest, hq⟩ := List.exists_cons_of_ne_nil own.ne_nil
  obtain ⟨rest', spelled⟩ := spelled_of_effect hq h
  rw [hq] at own plain
  have own' : Path.Within keep (q :: rest') := Path.within_cons_iff.2 (Path.within_cons_iff.1 own)
  rw [spelled]
  exact own'.canonical (by simpa using plain)

theorem recordEffect_only {e : Effect (Option Change)}
    (within : ∀ c, e.2 = .ok (some c) → (Path.parse c.path).Within keep) :
    recordEffect (e.only keep) = ((recordEffect e).1.only keep, (recordEffect e).2) := by
  obtain ⟨s, failure | _ | c⟩ := e
  · rfl
  · rfl
  · have recorded := Store.annotate_only (within c rfl) s c.displayText
    simp only [Effect.only, recordEffect, Store.record, recorded]
    rcases s.annotate (Path.parse c.path) c.displayText with ⟨s', _ | fault⟩ <;> rfl

theorem only_recordEffect {e : Effect (Option Change)}
    (outside : ∀ c, e.2 = .ok (some c) → (Path.parse c.path).Outside keep) :
    (recordEffect e).1.only keep = e.1.only keep := by
  obtain ⟨s, failure | _ | c⟩ := e
  · rfl
  · rfl
  · have unseen := Store.only_annotate (outside c rfl) s c.displayText
    simp only [recordEffect, Store.record]
    generalize s.annotate (Path.parse c.path) c.displayText = written at unseen
    rcases written with ⟨s', _ | fault⟩ <;> exact unseen

/-! ### Runs -/

/-- **An operation sees and changes only what lies below its own root entries** and the constraints
of the root: without the other entries it does the same. -/
theorem run_only (kept : keep reservedKey = true) (within : o.Within keep)
    (plain : ∀ q ∈ (Path.parse o.path).head?, q.IsPlain) (regime : Regime) (s : Store) :
    o.run regime (s.only keep) = ((o.run regime s).1.only keep, (o.run regime s).2) := by
  have own := within.own
  simp only [run, isDue_only within, refusal?_only kept within plain,
    effect_only kept within]
  split
  · rfl
  · rfl
  · generalize (if regime.constrained = true then o.refusal? s else none) = refused
    cases refused with
    | some refusal => rfl
    | none => exact recordEffect_only fun c h => within_of_effect own plain h

theorem only_effect (outside : o.Within fun k => !keep k) (regime : Regime) (s : Store) :
    (o.effect regime s).1.only keep = s.only keep := by
  have own : (Path.parse o.path).Outside keep := outside.own
  rw [effect_eq]
  cases hb : o.body with
  | add value => simp only [Effect.fst_changed, add, fst_report, Store.only_insert own]
  | remove child =>
    simp only [Effect.fst_changed, remove]
    split
    · rfl
    · next path removed =>
      have below : path.Outside keep := by
        obtain rfl | ⟨i, rfl⟩ | ⟨name, m, -, -, rfl⟩ := removedAt_eq_ok removed
        · exact own
        · exact own.append _
        · exact own.append _
      split
      · rfl
      · rfl
      · next found => exact Store.only_delete below found
  | replace value => simp only [Effect.fst_changed, replace, fst_report, Store.only_overwrite own]
  | move source =>
    have start : (Path.parse source).Outside keep := outside.source (.inl hb)
    simp only [Effect.fst_changed, move]
    split
    · rfl
    · next value found =>
      split
      · rfl
      · have taken := Store.only_delete start found
        have tried := (Store.only_insert own (s.delete (Path.parse source)).1 o.path value).trans
          taken
        split
        · next h => exact (congrArg (·.1.only keep) h).symm.trans tried
        · next s' failure h =>
          have left : s'.only keep = s.only keep :=
            (congrArg (·.1.only keep) h).symm.trans tried
          split
          · exact left
          · rw [Effect.fst_andThen_of_fst_eq fun _ _ => rfl]
            exact (Store.only_reinsert start s' value failure).trans left
  | copy source =>
    simp only [Effect.fst_changed, copy]
    split
    · rfl
    · simp only [fst_report, Store.only_insert own]
  | test expected comparisons => rfl
  | increment delta =>
    simp only [Effect.fst_changed, increment]
    split
    · rfl
    · split
      · rfl
      · simp only [fst_report, Store.only_overwrite own]
  | evaluate expression =>
    simp only [Effect.fst_changed, evaluate]
    split
    · rfl
    · simp only [fst_report, Store.only_overwrite own]
  | modify action value index =>
    simp only [Effect.fst_changed, modify]
    split
    · rfl
    · split
      · rfl
      · exact Store.only_update own s _

/-- **An operation leaves everything but its own root entries as it was**, also where it fails. -/
theorem only_run (outside : o.Within fun k => !keep k)
    (plain : ∀ q ∈ (Path.parse o.path).head?, q.IsPlain) (regime : Regime) (s : Store) :
    (o.run regime s).1.only keep = s.only keep := by
  have own : (Path.parse o.path).Outside keep := outside.own
  rw [run]
  split
  · rfl
  · rfl
  · split
    · rfl
    · rw [only_recordEffect fun c h => within_of_effect own plain h]
      exact only_effect outside regime s

end Operation

end PatchScript
