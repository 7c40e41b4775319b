import PatchScript.Proofs.Document.Governing
import PatchScript.Proofs.Operation.Effect

/-!
# Closed mappings

A mapping that constrains itself not to be extended should gain no key. The check before an
operation keeps this up, but for two ways around it. It asks about the last step of a path only:
where a longer path leads through an entry that is missing, the write makes the entry, and nothing
but the constraints for what lies *below* the mapping was asked. And a merge is checked key by key
through spelled paths: a key whose spelling is read as another path is checked at that other path.

These two ways are all. An operation that is carried out adds a key to a closed mapping exactly when
it takes one of them.

## Main definitions

* `Operation.AimsInto` — an operation that may add keys to the mapping at a location
* `Operation.Bypasses` — the two ways around the check

## Main results

* `Operation.gains_key_iff_bypasses` — a closed mapping gains a key exactly by them
-/

namespace PatchScript.Operation

variable {s s' : Store} {o : Operation} {regime : Regime} {P : Path} {m : Mapping}
  {c : Constraints}

/-- An operation that may add keys to the mapping at a location: it writes at a location below, or
it merges into the mapping. -/
def AimsInto (o : Operation) (P : Path) : Prop :=
  (o.body.writes = true ∧ ∃ k rest, Path.parse o.path = P ++ k :: rest) ∨
    ((∃ value index, o.body = .modify .merge value index) ∧ Path.parse o.path = P)

/-- The ways around the check of a mapping that is closed. -/
inductive Bypasses (o : Operation) (P : Path) (m : Mapping) (c : Constraints) : Prop
  /-- A write further down makes the entry that is missing on its way. -/
  | below {k t : Segment} {rest : Path} (writes : o.body.writes = true)
      (path : Path.parse o.path = P ++ k :: t :: rest) (isNew : k.label ∉ m.keys)
      (recursive : c.recursiveExtensible = true)
  /-- A key of a merge, spelled after the path of the mapping, is read as another path. -/
  | respelled {added : Mapping} {index : Option (Option Int)} {key : String}
      (merge : o.body = .modify .merge (some (.mapping added)) index) (mem : key ∈ added.keys)
      (isNew : key ∉ m.keys) (path : Path.parse (Path.extend o.path [.key key]) ≠ P ++ [.key key])

/-- A point in a key separates two steps of the path that is checked. -/
example : Path.parse (Path.extend "a" [.key "x.y"]) = [.key "a", .key "x", .key "y"] := by decide

/-! ### Writing -/

theorem refusal?_of_writes (hw : o.body.writes = true) : o.refusal? s = s.closed? o.path := by
  unfold refusal?
  cases hb : o.body <;> simp_all [OperationBody.writes]

theorem closedAt?_of_admitted {path : String} (h : s.closed? path = none) :
    (Value.mapping s.stat).closedAt? (Path.parse path) = none := by
  simpa [Store.closed?] using h

/-- What the check of a write lets through. -/
theorem isNew_admitted (hm : s.lookup P = some (.mapping m))
    (hc : Constraints.of? (.mapping m) = some c) (closed : c.extensible = false)
    (hw : o.body.writes = true) {k : Segment} {rest : Path}
    (path : Path.parse o.path = P ++ k :: rest) (isNew : k.label ∉ m.keys)
    (admitted : o.refusal? s = none) : o.Bypasses P m c := by
  have hk : (Value.mapping m).child? k = none := by
    by_cases h : k = .append
    · subst h
      rfl
    · rw [Value.child?_mapping h, Mapping.get?_eq_none_iff.2 isNew]
  rw [refusal?_of_writes hw] at admitted
  have check := closedAt?_of_admitted admitted
  rw [path] at check
  rw [Store.lookup_eq] at hm
  cases rest with
  | nil =>
    rw [Value.closedAt?_concat_eq_none_iff hm hc closed, hk] at check
    cases check
  | cons t rest =>
    exact .below hw path isNew ((Value.closedAt?_below_eq_none_iff hm hc closed hk).1 check)

/-- A write that is carried out adds a key exactly when it bypasses the check. -/
theorem gains_key_of_writes (hm : s.lookup P = some (.mapping m))
    (hc : Constraints.of? (.mapping m) = some c) (closed : c.extensible = false)
    (hw : o.body.writes = true) {k : Segment} {rest : Path}
    (path : Path.parse o.path = P ++ k :: rest) (admitted : o.refusal? s = none)
    {change? : Option Change} (h : o.effect regime s = (s', .ok change?)) :
    ∃ m' : Mapping, s'.lookup P = some (.mapping m') ∧
      ((∃ key ∈ m'.keys, key ∉ m.keys) ↔ o.Bypasses P m c) := by
  have wrote := wrote_of_effect_eq_ok hw h
  rw [path] at wrote
  obtain ⟨-, x, written⟩ := Store.lookup_of_wrote hm wrote
  refine ⟨m.put k.label x, written, ?_⟩
  constructor
  · rintro ⟨key, mem, isNew⟩
    obtain rfl : key = k.label := ((Mapping.mem_keys_put m _ x).1 mem).resolve_right isNew
    exact isNew_admitted hm hc closed hw path isNew admitted
  · intro bypass
    cases bypass with
    | below _ path' isNew _ =>
      obtain ⟨rfl, -⟩ : k = _ ∧ rest = _ := by simpa [path] using path'
      exact ⟨k.label, (Mapping.mem_keys_put m _ x).2 (.inl rfl), isNew⟩
    | respelled merge => simp [merge, OperationBody.writes] at hw

/-! ### Merging -/

theorem mergeRefusal?_eq_none_iff {path : String} (added : Mapping)
    (hm : s.lookup (Path.parse path) = some (.mapping m)) :
    s.mergeRefusal? path (.mapping added) = none ↔
      ∀ key ∈ added.keys, s.closed? (Path.extend path [.key key]) = none := by
  simp [Store.mergeRefusal?, hm, Mapping.keys]

/-- A merge into a mapping that is there merges another mapping. -/
theorem modify_merge_eq_ok {value : Value} {index : Option Int} {change : Change}
    (hm : s.lookup (Path.parse o.path) = some (.mapping m))
    (h : o.modify s .merge value index = (s', .ok change)) :
    ∃ added, value = .mapping added ∧
      s' = s.update (Path.parse o.path) fun _ => .mapping (m.merge added) := by
  simp only [modify, hm, edited, if_true] at h
  cases value with
  | mapping added =>
    refine ⟨added, rfl, ?_⟩
    exact (congrArg Prod.fst h).symm
  | _ => cases h

/-- A merge that is carried out adds a key exactly when it bypasses the check. -/
theorem gains_key_of_merge (hm : s.lookup P = some (.mapping m))
    (hc : Constraints.of? (.mapping m) = some c) (closed : c.extensible = false)
    {value : Option Value} {index : Option (Option Int)} (hb : o.body = .modify .merge value index)
    (path : Path.parse o.path = P) (admitted : o.refusal? s = none)
    {change? : Option Change} (h : o.effect regime s = (s', .ok change?)) :
    ∃ m' : Mapping, s'.lookup P = some (.mapping m') ∧
      ((∃ key ∈ m'.keys, key ∉ m.keys) ↔ o.Bypasses P m c) := by
  subst path
  rw [effect_eq] at h
  simp only [hb] at h
  obtain ⟨change, h, -⟩ := Effect.changed_eq_ok_iff.1 h
  obtain ⟨added, given, rfl⟩ := modify_merge_eq_ok hm h
  obtain rfl : value = some (.mapping added) := by
    cases value with
    | none => cases given
    | some value => exact congrArg some given
  have checks := (mergeRefusal?_eq_none_iff added hm).1 (by
    simpa [refusal?, hb] using admitted)
  refine ⟨m.merge added, ?_, ?_⟩
  · rw [Store.lookup_eq] at hm ⊢
    rw [Store.mapping_stat_update s _ _ fun _ => ⟨_, rfl⟩, Value.resolve_update hm]
  constructor
  · rintro ⟨key, mem, isNew⟩
    have mem := ((Mapping.mem_keys_merge m added).1 mem).resolve_left isNew
    refine .respelled hb mem isNew fun path => ?_
    -- the check of this key would have been that of a new entry of the mapping
    have check := closedAt?_of_admitted (checks key mem)
    rw [Store.lookup_eq] at hm
    rw [path, Value.closedAt?_concat_eq_none_iff hm hc closed,
      Value.child?_mapping (by simp), Option.isSome_iff_exists] at check
    obtain ⟨x, found⟩ := check
    exact isNew (Mapping.mem_keys_of_get? found)
  · intro bypass
    cases bypass with
    | below writes => simp [hb, OperationBody.writes] at writes
    | respelled merge mem isNew _ =>
      obtain ⟨rfl, -⟩ : added = _ ∧ index = _ := by simpa [hb] using merge
      exact ⟨_, (Mapping.mem_keys_merge m added).2 (.inr mem), isNew⟩

/-! ### Both -/

/-- **A closed mapping gains a key** from an operation that does not fail exactly when the operation
is carried out and bypasses the check. -/
theorem gains_key_iff_bypasses (constrained : regime.constrained = true)
    (hm : s.lookup P = some (.mapping m)) (hc : Constraints.of? (.mapping m) = some c)
    (closed : c.extensible = false) (aims : o.AimsInto P)
    (success : (o.run regime s).2.isSuccess = true) :
    ∃ m' : Mapping, (o.run regime s).1.lookup P = some (.mapping m') ∧
      ((∃ key ∈ m'.keys, key ∉ m.keys) ↔
        (o.run regime s).2 ≠ .skipped ∧ o.Bypasses P m c) := by
  obtain skipped | ⟨carriedOut, admitted, s', change?, effect, stat⟩ := run_of_isSuccess success
  · refine ⟨m, by rw [skipped]; exact hm, ?_⟩
    simp [skipped]
  · have gains : ∃ m' : Mapping, s'.lookup P = some (.mapping m') ∧
        ((∃ key ∈ m'.keys, key ∉ m.keys) ↔ o.Bypasses P m c) := by
      obtain ⟨hw, k, rest, path⟩ | ⟨⟨value, index, hb⟩, path⟩ := aims
      · exact gains_key_of_writes hm hc closed hw path (admitted constrained) effect
      · exact gains_key_of_merge hm hc closed hb path (admitted constrained) effect
    obtain ⟨m', found, iff⟩ := gains
    refine ⟨m', ?_, ?_⟩
    · rw [Store.lookup_eq] at found ⊢
      rw [stat, found]
    · rw [iff]
      constructor
      · intro bypass
        exact ⟨carriedOut, bypass⟩
      · rintro ⟨-, bypass⟩
        exact bypass

/-- A mapping that is closed and leaves open what is below it. -/
def closedAbove : Mapping :=
  [(Constraints.reservedKey,
    .mapping [("extensible", .bool false), ("recursiveExtensible", .bool true)])]

/-- An addition two steps below a mapping. -/
def addition : Operation := { path := "a.b.c", body := .add (some (.bool true)) }

/-- A store whose mapping is closed. -/
def closedStore : Store := .ofData [("a", .mapping closedAbove)]

/-- An addition makes the entry that is missing on its way. -/
theorem gains_key_below_missing_entry :
    (addition.run ⟨true, ⟨512, 64⟩⟩ closedStore).2.isSuccess = true ∧
      ∃ m' : Mapping,
        (addition.run ⟨true, ⟨512, 64⟩⟩ closedStore).1.lookup [.key "a"] = some (.mapping m') ∧
        ((∃ key ∈ m'.keys, key ∉ closedAbove.keys) ↔
          (addition.run ⟨true, ⟨512, 64⟩⟩ closedStore).2 ≠ .skipped ∧
            addition.Bypasses [.key "a"] closedAbove ⟨false, [], none, true⟩) := by
  have success : (addition.run ⟨true, ⟨512, 64⟩⟩ closedStore).2.isSuccess = true := by decide
  exact ⟨success, gains_key_iff_bypasses rfl rfl (by decide) rfl
    (.inl ⟨rfl, .key "b", [.key "c"], by decide⟩) success⟩

/-- Closed mappings do gain keys. -/
theorem closed_mapping_gains_key :
    ¬ ∀ (regime : Regime) (s : Store) (o : Operation) (P : Path) (m m' : Mapping)
        (c : Constraints), regime.constrained = true → s.lookup P = some (.mapping m) →
      Constraints.of? (.mapping m) = some c → c.extensible = false → o.AimsInto P →
      (o.run regime s).2.isSuccess = true →
      (o.run regime s).1.lookup P = some (.mapping m') → ∀ key ∈ m'.keys, key ∈ m.keys := by
  intro closedStays
  have stays := closedStays ⟨true, ⟨512, 64⟩⟩ closedStore addition [.key "a"] closedAbove
    (closedAbove ++ [("b", .mapping [("c", .bool true)])]) ⟨false, [], none, true⟩ rfl rfl
    (by decide) rfl (.inl ⟨rfl, .key "b", [.key "c"], by decide⟩) (by decide) (by decide) "b"
    (by decide)
  revert stays
  decide

end PatchScript.Operation
