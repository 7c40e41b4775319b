import PatchScript.Operation.Outcome
import PatchScript.Proofs.Operation.Effect
import PatchScript.Proofs.Store.Reported

/-!
# What the record of a change says

A record names a location and the value that an operation put there or took from there, and its text
stands at that location in both projections of annotations. Paths are recorded as spellings. So the
record of an operation with a plain path says what happened, but for two ways of naming another
location: an append marker further up in the path is not replaced by the index of the item that it
made, and the key of a removed entry is not quoted where the characters of its name need quotes.

## Main definitions

* `Change.TellsTruth` — what a record says is so
* `Operation.Misreports` — the operation names another location

## Main results

* `Operation.tellsTruth_iff` — the record of an operation says what happened, unless the operation
  misreports
-/

namespace PatchScript

/-- A record names the location to which a value went that was put at a path. -/
def Change.Locates (c : Change) (path : Path) (s : Store) : Prop :=
  ∃ concrete value, c.path = Path.canonical concrete ∧ s.WentTo path value concrete ∧
    value.plain = c.new

/-- A value is found where a record says: the removed value before the operation, any other new
value after it. An edit in place is recorded with the description that a container may have. -/
def Change.FindsValue (c : Change) (kind : OperationKind) (s s' : Store) : Prop :=
  match kind with
  | .remove => (s.lookup (Path.parse c.path)).map Value.plain = some c.old
  | .modify => s'.lookup (Path.parse c.path) = some c.new
  | _ => (s'.lookup (Path.parse c.path)).map Value.plain = some c.new

/-- What a record of a change says is so: its path has no append marker, its value is found there,
and so is its text in both projections of annotations. -/
structure Change.TellsTruth (c : Change) (kind : OperationKind) (s s' : Store) : Prop where
  concrete : Segment.append ∉ Path.parse c.path
  value : c.FindsValue kind s s'
  display : s'.lookup (Path.parse c.path) .display = some (.text c.displayText)
  delta : s'.lookup (Path.parse c.path) .delta = some (.text c.displayText)

namespace Operation

variable {s s' s'' : Store} {o : Operation} {regime : Regime} {c : Change} {change? : Option Change}

/-- The record of an operation names another location than that of its value: an append marker
stands in its path before the last segment, or the value of another location, if there is one, is
found under the recorded spelling of a key that the operation removes. -/
inductive Misreports (o : Operation) (s : Store) : Prop
  | within (h : Segment.append ∈ (Path.parse o.path).dropLast)
  | respelled (k : String) (m : Mapping) (named : o.body = .remove (some (some (.key k))))
      (odd : ¬ Path.PlainKey k.toList) (hm : s.lookup (Path.parse o.path) = some (.mapping m))
      (h : (s.lookup (Path.parse (Path.extend o.path [.key k]))).map Value.plain ≠
        (m.get? k).map Value.plain)

/-- A dot in the key of a removed entry leads away from the entry. -/
example : Misreports { path := "a", body := .remove (some (some (.key "x.y"))) }
    (.ofData [("a", .mapping [("x.y", .int 1)])]) :=
  .respelled "x.y" [("x.y", .int 1)] rfl (by decide) (by decide) (by decide)

/-! ### Where the value went -/

variable {usual label spelled : String} {old value : Value} {path : Path}

/-- The record of a value that was inserted tells where it went. -/
theorem locates_of_insert (h : s.insert label path value = (s', .ok spelled))
    (hc : o.changeAt usual old value.plain spelled = c) : c.Locates path s' := by
  obtain ⟨concrete, equal, went⟩ := Store.wentTo_of_insert_eq_ok h
  rw [← hc]
  exact ⟨concrete, value, equal, went, rfl⟩

/-- The record of a value that was put in place of another one tells where it went. -/
theorem locates_of_overwrite (h : s.overwrite label path value = (s', .ok spelled))
    (hc : o.changeAt usual old value.plain spelled = c) : c.Locates path s' := by
  obtain ⟨concrete, equal, went⟩ := Store.wentTo_of_overwrite_eq_ok h
  rw [← hc]
  exact ⟨concrete, _, equal, went, Store.plain_described ..⟩

/-- A move ends with an insertion. -/
theorem inserted_of_move_eq_ok {source : String} (h : o.move s source = (s', .ok c)) :
    ∃ (s₀ : Store) (value old : Value) (spelled : String),
      s₀.insert o.path (Path.parse o.path) value = (s', .ok spelled) ∧
        o.changeAt "move" old value.plain spelled = c := by
  simp only [move] at h
  split at h
  · cases h
  · next value _ =>
    split at h
    · cases h
    · split at h
      · next s₁ spelled hinsert =>
        obtain ⟨rfl, hc⟩ := Prod.mk.inj h
        exact ⟨_, value, _, spelled, hinsert, Except.ok.inj hc⟩
      · split at h
        · cases h
        · next failure _ _ =>
          revert h
          obtain ⟨s₁, _ | _⟩ := Store.reinsert _ (Path.parse source) value failure <;> rintro ⟨⟩

/-- Operations that put a value at their path report where it went. -/
theorem locates_of_effect_eq_ok (put : o.kind ≠ .remove ∧ o.kind ≠ .modify)
    (h : o.effect regime s = (s', .ok (some c))) : c.Locates (Path.parse o.path) s' := by
  rw [effect_eq] at h
  cases hb : o.body with
  | add value =>
    simp only [hb] at h
    obtain ⟨_, h, ⟨⟩⟩ := Effect.changed_eq_ok_iff.1 h
    obtain ⟨spelled, h, hc⟩ := report_eq_ok_iff.1 h
    exact locates_of_insert h hc
  | replace value =>
    simp only [hb] at h
    obtain ⟨_, h, ⟨⟩⟩ := Effect.changed_eq_ok_iff.1 h
    obtain ⟨spelled, h, hc⟩ := report_eq_ok_iff.1 h
    exact locates_of_overwrite h hc
  | move source =>
    simp only [hb] at h
    obtain ⟨_, h, ⟨⟩⟩ := Effect.changed_eq_ok_iff.1 h
    obtain ⟨_, _, _, _, h, hc⟩ := inserted_of_move_eq_ok h
    exact locates_of_insert h hc
  | copy source =>
    simp only [hb] at h
    obtain ⟨_, h, ⟨⟩⟩ := Effect.changed_eq_ok_iff.1 h
    simp only [copy] at h
    split at h
    · cases h
    · obtain ⟨spelled, h, hc⟩ := report_eq_ok_iff.1 h
      exact locates_of_insert h hc
  | test expected comparisons =>
    simp only [hb] at h
    cases htest : o.test s expected comparisons <;> simp [htest, Except.map] at h
  | increment delta =>
    simp only [hb] at h
    obtain ⟨_, h, ⟨⟩⟩ := Effect.changed_eq_ok_iff.1 h
    simp only [increment] at h
    split at h
    · cases h
    · split at h
      · cases h
      · obtain ⟨spelled, h, hc⟩ := report_eq_ok_iff.1 h
        exact locates_of_overwrite h hc
  | evaluate expression =>
    simp only [hb] at h
    obtain ⟨_, h, ⟨⟩⟩ := Effect.changed_eq_ok_iff.1 h
    simp only [evaluate] at h
    split at h
    · cases h
    · obtain ⟨spelled, h, hc⟩ := report_eq_ok_iff.1 h
      exact locates_of_overwrite h hc
  | remove child => exact absurd (by rw [kind, hb]; rfl) put.1
  | modify action value index => exact absurd (by rw [kind, hb]; rfl) put.2

/-! ### Removals and edits in place -/

/-- The location that a removal deletes is its path, a child of a list, or the entry of a key. -/
theorem removedAt_eq_ok {child : Option ChildName} (h : o.removedAt s child = .ok path) :
    path = Path.parse o.path ∨ (∃ i, path = Path.parse o.path ++ [.index i]) ∨
      ∃ name m, child = some name ∧ s.lookup (Path.parse o.path) = some (.mapping m) ∧
        path = Path.parse o.path ++ [.key name.label] := by
  cases child with
  | none => exact .inl (Except.ok.inj h).symm
  | some name =>
    rcases removedAt_some_eq_ok h with ⟨m, hm, equal⟩ | ⟨items, i, -, equal⟩
    · exact .inr (.inr ⟨name, m, rfl, hm, equal⟩)
    · exact .inr (.inl ⟨i, equal⟩)

theorem removed_of_effect_eq_ok {child : Option (Option ChildName)} (hb : o.body = .remove child)
    (h : o.effect regime s = (s', .ok (some c))) :
    ∃ path old, o.removedAt s child.join = .ok path ∧ s.lookup path = some old ∧
      c.path = Path.canonical path ∧ c.old = old.plain := by
  rw [effect_eq] at h
  simp only [hb] at h
  obtain ⟨_, h, ⟨⟩⟩ := Effect.changed_eq_ok_iff.1 h
  simp only [remove] at h
  split at h
  · cases h
  · next hremoved =>
    split at h
    · cases h
    · cases h
    · next old _ hold =>
      obtain rfl := Except.ok.inj (Prod.mk.inj h).2
      exact ⟨_, old, hremoved, hold, rfl, rfl⟩

theorem modified_of_effect_eq_ok (hk : o.kind = .modify)
    (h : o.effect regime s = (s', .ok (some c))) :
    ∃ target, s.lookup (Path.parse o.path) = some target ∧
      c.path = Path.canonical (Path.parse o.path) ∧
      s' = s.update (Path.parse o.path) fun _ => c.new := by
  rw [effect_eq] at h
  cases hb : o.body with
  | modify action value index =>
    simp only [hb] at h
    obtain ⟨_, h, ⟨⟩⟩ := Effect.changed_eq_ok_iff.1 h
    simp only [modify] at h
    split at h
    · cases h
    · next target htarget =>
      split at h
      · cases h
      · next after _ =>
        obtain ⟨rfl, hc⟩ := Prod.mk.inj h
        obtain rfl := Except.ok.inj hc
        exact ⟨target, htarget, rfl, rfl⟩
  | _ => simp [kind, hb, OperationBody.kind] at hk

/-! ### Runs -/

theorem recordEffect_eq_done {e : Effect (Option Change)}
    (h : recordEffect e = (s', .done change?)) :
    ∃ s₁, e = (s₁, .ok change?) ∧ ∀ c, change? = some c → s₁.record c = (s', none) := by
  obtain ⟨s₁, failure | _ | c⟩ := e
  · cases h
  · obtain ⟨rfl, ⟨⟩⟩ := Prod.mk.inj h
    exact ⟨s₁, rfl, by simp⟩
  · simp only [recordEffect] at h
    split at h
    · next s₂ hrecord =>
      obtain ⟨rfl, ⟨⟩⟩ := Prod.mk.inj h
      exact ⟨s₁, rfl, by simpa using hrecord⟩
    · cases h

/-- What a run that was carried out comes from. -/
theorem effect_of_run_eq_done (h : o.run regime s = (s', .done change?)) :
    ∃ s₁, o.effect regime s = (s₁, .ok change?) ∧
      ∀ c, change? = some c → s₁.record c = (s', none) := by
  simp only [run] at h
  split at h
  · cases h
  · cases h
  · split at h
    · cases h
    · exact recordEffect_eq_done h

/-- Only a test has no change to record. -/
theorem isSome_of_effect_eq_ok (notTest : o.kind ≠ .test)
    (h : o.effect regime s = (s', .ok change?)) : ∃ c, change? = some c := by
  rw [effect_eq] at h
  cases hb : o.body with
  | test expected comparisons => exact absurd (by rw [kind, hb]; rfl) notTest
  | _ =>
    simp only [hb] at h
    obtain ⟨c, -, rfl⟩ := Effect.changed_eq_ok_iff.1 h
    exact ⟨c, rfl⟩

/-! ### Records -/

theorem parse_ne_nil_of_record (h : s.record c = (s', none)) : Path.parse c.path ≠ [] := by
  intro root
  simp [Store.record, Store.annotate, root, Store.write, Value.write] at h

theorem concrete_of_findsValue {kind : OperationKind} (h : c.FindsValue kind s s') :
    Segment.append ∉ Path.parse c.path := by
  have lookup {s : Store} {v : Value}
      (h : (s.lookup (Path.parse c.path)).map Value.plain = some v) :
      Segment.append ∉ Path.parse c.path := by
    obtain ⟨_, found, -⟩ := Option.map_eq_some_iff.1 h
    exact Value.append_notMem_of_resolve found
  cases kind with
  | modify => exact Value.append_notMem_of_resolve h
  | _ => exact lookup h

/-- The text of a record that could be made stands where the record says, so it is left to find its
value there. -/
theorem tellsTruth_iff_findsValue {kind : OperationKind} (h : s''.record c = (s', none)) :
    c.TellsTruth kind s s' ↔ c.FindsValue kind s s'' := by
  have same (concrete : Segment.append ∉ Path.parse c.path) :
      c.FindsValue kind s s' ↔ c.FindsValue kind s s'' := by
    have stat := (Store.lookup_of_record_eq_none h concrete).1
    have lookup : s'.lookup (Path.parse c.path) = s''.lookup (Path.parse c.path) := by
      rw [Store.lookup_eq, stat, ← Store.lookup_eq]
    simp only [Change.FindsValue, lookup]
  constructor
  · intro truth
    exact (same truth.concrete).1 truth.value
  · intro found
    have concrete := concrete_of_findsValue found
    obtain ⟨-, display, delta⟩ := Store.lookup_of_record_eq_none h concrete
    exact ⟨concrete, (same concrete).2 found, display, delta⟩

/-! ### Truth, kind by kind -/

/-- A value that was put at a plain path is found where its record says, unless an append marker
stands further up in the path. -/
theorem findsValue_iff_of_locates {kind : OperationKind} (plain : ∀ seg ∈ path, seg.IsPlain)
    (put : kind ≠ .remove ∧ kind ≠ .modify) (h : c.Locates path s') :
    c.FindsValue kind s s' ↔ Segment.append ∉ path.dropLast := by
  obtain ⟨concrete, value, hc, went, new⟩ := h
  have read : Path.parse c.path = concrete := by
    rw [hc, Path.parse_canonical (went.isPlain plain)]
  rw [← went.marked, ← read]
  constructor
  · exact concrete_of_findsValue
  · intro unmarked
    have found := went.found (read ▸ unmarked)
    rw [← read] at found
    have : (s'.lookup (Path.parse c.path)).map Value.plain = some c.new := by
      rw [found, Option.map_some, new]
    cases kind with
    | remove => exact absurd rfl put.1
    | modify => exact absurd rfl put.2
    | _ => exact this

theorem findsValue_of_modify (plain : ∀ seg ∈ Path.parse o.path, seg.IsPlain)
    (hk : o.kind = .modify) (h : o.effect regime s = (s'', .ok (some c)))
    (hrecord : s''.record c = (s', none)) : c.FindsValue .modify s s'' := by
  obtain ⟨target, found, hc, rfl⟩ := modified_of_effect_eq_ok hk h
  have read : Path.parse c.path = Path.parse o.path := by rw [hc, Path.parse_canonical plain]
  have below := parse_ne_nil_of_record hrecord
  rw [read] at below
  have stat := Store.mapping_stat_update s (fun _ => c.new) (Path.parse o.path)
    fun root => absurd root below
  rw [Change.FindsValue, read, Store.lookup_eq, stat]
  exact Value.resolve_update found _

theorem lookup_concat_key {m : Mapping} (hm : s.lookup path = some (.mapping m)) (k : String) :
    s.lookup (path ++ [.key k]) = m.get? k := by
  have step : (Value.mapping m).child? (.key k) = m.get? k := Value.child?_mapping (by simp) m
  rw [Store.lookup_eq] at hm ⊢
  rw [Value.resolve_append, hm, Option.bind_some, Value.resolve, step]
  cases m.get? k <;> rfl

/-- The name of a removed entry is a plain key, unless it is given as a text that is none. -/
theorem plainKey_label (name : ChildName) :
    Path.PlainKey name.label.toList ∨ ∃ k, name = .key k := by
  cases name with
  | key k => exact .inr ⟨k, rfl⟩
  | index i =>
    have label : (ChildName.index i).label.toList = Number.intText i := by
      simp [ChildName.label, ChildName.value, Value.int, Value.shown, Value.literalText,
        Value.literal, Number.text]
    exact .inl (label ▸ Path.plainKey_intText i)

/-- A removal misreports where the spelling of its path leads to another value. -/
theorem misreports_iff_of_removedAt {child : Option (Option ChildName)}
    (plain : ∀ seg ∈ Path.parse o.path, seg.IsPlain) (hb : o.body = .remove child)
    (hpath : o.removedAt s child.join = .ok path) (hold : s.lookup path = some old) :
    o.Misreports s ↔
      (s.lookup (Path.parse (Path.canonical path))).map Value.plain ≠ some old.plain := by
  constructor
  · rintro (within | ⟨k, m, named, odd, hm, respelled⟩)
    · -- the value that was removed has a path without append markers
      have free := Value.append_notMem_of_resolve hold
      have before := List.dropLast_subset _ within
      obtain rfl | ⟨i, rfl⟩ | ⟨name, m, -, -, rfl⟩ := removedAt_eq_ok hpath
      · exact absurd before free
      · exact absurd (List.mem_append_left _ before) free
      · exact absurd (List.mem_append_left _ before) free
    · rw [hb, OperationBody.remove.injEq] at named
      obtain rfl : Path.parse o.path ++ [.key k] = path := by
        rw [named] at hpath
        unfold removedAt at hpath
        simp only [Option.join_some, hm] at hpath
        exact Except.ok.inj hpath
      rwa [← lookup_concat_key hm, hold] at respelled
  · intro elsewhere
    have odd : ¬ ∀ seg ∈ path, seg.IsPlain := by
      intro all
      rw [Path.parse_canonical all, hold] at elsewhere
      exact elsewhere rfl
    obtain rfl | ⟨i, rfl⟩ | ⟨name, m, hchild, hm, rfl⟩ := removedAt_eq_ok hpath
    · exact absurd plain odd
    · have last : (Segment.index i).IsPlain := trivial
      exact absurd (List.forall_mem_append.2 ⟨plain, List.forall_mem_singleton.2 last⟩) odd
    · have odd : ¬ Path.PlainKey name.label.toList := fun key =>
        odd (List.forall_mem_append.2 ⟨plain, List.forall_mem_singleton.2 key⟩)
      obtain ⟨k, rfl⟩ := (plainKey_label name).resolve_left odd
      obtain ⟨rfl⟩ := Option.join_eq_some_iff.1 hchild
      have there : Mapping.get? m k = some old := (lookup_concat_key hm k).symm.trans hold
      exact .respelled k m hb odd hm (by rw [there]; exact elsewhere)

/-! ### What is said of a run -/

/-- Operations with other kinds than removal misreport by their path alone. -/
theorem misreports_iff_within (hk : o.kind ≠ .remove) :
    o.Misreports s ↔ Segment.append ∈ (Path.parse o.path).dropLast := by
  refine ⟨?_, .within⟩
  rintro (within | ⟨k, m, named, -, -, -⟩)
  · exact within
  · exact absurd (by rw [kind, named]; rfl) hk

/-- **The record of an operation** with a plain path says what happened, unless the operation
misreports. -/
theorem tellsTruth_iff (plain : ∀ seg ∈ Path.parse o.path, seg.IsPlain) (notTest : o.kind ≠ .test)
    (h : o.run regime s = (s', .done change?)) :
    ∃ c, change? = some c ∧ (c.TellsTruth o.kind s s' ↔ ¬ o.Misreports s) := by
  obtain ⟨s'', effect, recorded⟩ := effect_of_run_eq_done h
  obtain ⟨c, rfl⟩ := isSome_of_effect_eq_ok notTest effect
  have hrecord := recorded c rfl
  refine ⟨c, rfl, (tellsTruth_iff_findsValue hrecord).trans ?_⟩
  by_cases remove : o.kind = .remove
  · cases hb : o.body with
    | remove child =>
      obtain ⟨path, old, hpath, hold, hc, hcold⟩ := removed_of_effect_eq_ok hb effect
      rw [misreports_iff_of_removedAt plain hb hpath hold, remove, Change.FindsValue, hc, hcold,
        not_not]
    | _ => simp [kind, hb, OperationBody.kind] at remove
  rw [misreports_iff_within remove]
  by_cases modify : o.kind = .modify
  · obtain ⟨target, found, -⟩ := modified_of_effect_eq_ok modify effect
    have free := Value.append_notMem_of_resolve found
    rw [modify]
    exact iff_of_true (findsValue_of_modify plain modify effect hrecord)
      fun within => free (List.dropLast_subset _ within)
  · exact findsValue_iff_of_locates plain ⟨remove, modify⟩
      (locates_of_effect_eq_ok ⟨remove, modify⟩ effect)

/-- A new value in place of a described one is recorded as it is found, without the description. -/
theorem replaced_described_tellsTruth :
    let s : Store := .ofData [("a", .list [.mapping [("hp", .list [.int 5, .text "health"])]])]
    let o : Operation := { path := "a[0].hp", body := .replace (some (.int 7)) }
    let c : Change := ⟨"a[0].hp", .int 5, .int 7, "replace"⟩
    let run := o.run ⟨false, ⟨512, 64⟩⟩ s
    (∀ seg ∈ Path.parse o.path, seg.IsPlain) ∧ o.kind ≠ .test ∧ run.2 = .done (some c) ∧
      c.TellsTruth o.kind s run.1 := by
  intro s o c run
  have plain : ∀ seg ∈ Path.parse o.path, seg.IsPlain := by decide
  have notTest : o.kind ≠ .test := by decide
  have done : run.2 = .done (some c) := by decide
  have ran : run = (run.1, .done (some c)) := by rw [← done]
  obtain ⟨c', hc, truth⟩ := tellsTruth_iff plain notTest ran
  obtain rfl : c = c' := Option.some.inj hc
  have within : Segment.append ∉ (Path.parse o.path).dropLast := by decide
  have truthful : ¬ o.Misreports s := fun misreport =>
    within ((misreports_iff_within (by decide)).1 misreport)
  have told := truth.2 truthful
  exact ⟨plain, notTest, done, told⟩

/-- A value can be put into an item that is made on the way, and then the record does not name the
place of the value. -/
theorem recorded_path_keeps_marker :
    ¬ ∀ (regime : Regime) (s s' : Store) (o : Operation) (change? : Option Change),
      (∀ seg ∈ Path.parse o.path, seg.IsPlain) → o.kind ≠ .test →
      o.run regime s = (s', .done change?) →
      ∃ c, change? = some c ∧ c.TellsTruth o.kind s s' := by
  intro always
  have done : (run ⟨false, ⟨512, 64⟩⟩ (.ofData [])
      { path := "a/-/b", body := .replace (some (.int 1)) }).2 =
      .done (some ⟨"a[-].b", .null, .int 1, "replace"⟩) := by decide
  obtain ⟨c, hc, truth⟩ :=
    always _ _ _ _ _ (by decide) (by decide) (Prod.ext rfl done)
  have marked : Segment.append ∈ Path.parse "a[-].b" := by decide
  exact truth.concrete (Option.some.inj hc ▸ marked)

end Operation

end PatchScript
