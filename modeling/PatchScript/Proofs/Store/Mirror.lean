import PatchScript.Proofs.Document.MirroredWrite
import PatchScript.Proofs.Operation.Effect
import PatchScript.Proofs.Path.Parse
import PatchScript.Proofs.Series

/-!
# The annotations since the last clearing

Every change is annotated twice: among all changes, and among those since the last clearing. So
every annotation of the second kind should be one of the first kind. Both projections take the same
forced writes, but after a clearing in different shapes, and a run keeps the one within the other
exactly as long as no recording *strays*: either the text lands in the two projections at different
places, which only the append marker can bring about, or the first projection cannot be written and
what the attempt took away from it stays in the second one, which is then left alone.

## Main definitions

* `Store.Mirrors` — every annotation since the last clearing is among all annotations
* `Store.Strays` — a recording after which that may fail
* `StoreAction`, `Store.reached`, `Store.recordings` — what runs on a store, the stores on its way,
  and what is recorded

## Main results

* `Store.mirrors_record_iff` — one recording
* `Store.not_strays_of_concrete` — without a marker and a failure nothing strays
* `Store.mirrors_reached_iff` — a whole run
-/

namespace PatchScript

theorem Path.isStep_of_mem_parse {text : String} {s : Segment} (h : s ∈ Path.parse text) :
    s.IsStep := by
  cases s with
  | key | index => exact .inr trivial
  | append => exact .inl rfl
  | other v => exact absurd h (Path.other_notMem_parse text v)

theorem Value.isStep_of_mem_landing {path : Path} {s : Segment} {v : Value}
    (steps : ∀ s ∈ path, s.IsStep) (h : s ∈ v.landing path) : s.IsStep := by
  have placed (v : Value) {s : Segment} (hs : s.IsStep) : (v.placed s).IsStep := by
    unfold Value.placed
    split
    · exact .inr trivial
    · exact hs
  induction path generalizing v with
  | nil => cases h
  | cons t path ih =>
    have first := placed v (steps t (by simp))
    cases path with
    | nil =>
      obtain rfl : s = v.placed t := by simpa [Value.landing] using h
      exact first
    | cons u rest =>
      rw [Value.landing, List.mem_cons] at h
      obtain rfl | later := h
      · exact first
      · exact ih (fun s hs => steps s (by simp [hs])) later

namespace Store

variable {s s' : Store} {change : Change}

/-- Every annotation since the last clearing is among all annotations: a list of keys and indices
that leads to a text there leads to the same text here, and one that leads to a mapping there leads
to a mapping here. -/
structure Mirrors (s : Store) : Prop where
  text : ∀ path : Path, (∀ seg ∈ path, seg.IsConcrete) → ∀ text,
    s.lookup path .delta = some (.text text) → s.lookup path .display = some (.text text)
  mapping : ∀ path : Path, (∀ seg ∈ path, seg.IsConcrete) → ∀ m,
    s.lookup path .delta = some (.mapping m) → ∃ m', s.lookup path .display = some (.mapping m')

theorem mirrors_iff :
    s.Mirrors ↔ (Value.mapping s.delta).MirroredIn (some (.mapping s.display)) :=
  ⟨fun h => ⟨h.text, h.mapping⟩, fun h => ⟨h.text, h.mapping⟩⟩

/-- Whether recording a change lets an annotation since the last clearing stand where it is not
among all annotations. Either its text lands there, or the projection of all annotations cannot be
written and loses what the other one still has. -/
def Strays (s : Store) (change : Change) : Prop :=
  let path := Path.parse change.path
  let text := Value.text change.displayText
  let display := (Value.mapping s.display).write true path text
  let delta := (Value.mapping s.delta).write true path text
  match display.2 with
  | none =>
    delta.2 = none ∧ display.1.resolve ((Value.mapping s.delta).landing path) ≠ some text
  | some _ => ¬ (Value.mapping s.delta).MirroredIn (some display.1)

theorem mirrors_congr (h : s.SameAnnotations s') : s'.Mirrors ↔ s.Mirrors := by
  rw [mirrors_iff, mirrors_iff, h.display, h.delta]

theorem mirrors_of_delta_eq_nil (h : s.delta = []) : s.Mirrors := by
  rw [mirrors_iff, h]
  refine Value.mirroredIn_iff.2 ⟨by simp, fun _ _ => ⟨_, rfl⟩, fun u hu c hc => ?_⟩
  rw [Value.child?_mapping (Value.ne_append_of_isConcrete hu)] at hc
  cases hc

/-! ### One recording -/

/-- **One recording** keeps the annotations since the last clearing among all annotations exactly
where it does not stray. -/
theorem mirrors_record_iff (h : s.Mirrors) (change : Change) :
    (s.record change).1.Mirrors ↔ ¬ s.Strays change := by
  have steps : ∀ seg ∈ Path.parse change.path, seg.IsStep := fun _ => Path.isStep_of_mem_parse
  cases failed : ((Value.mapping s.display).write true (Path.parse change.path)
      (.text change.displayText)).2 with
  | some fault =>
    have left : (s.record change).1 = s.withProjection .display
        ((Value.mapping s.display).write true (Path.parse change.path)
          (.text change.displayText)).1.entries := by
      simp only [record, annotate, write, projection, failed]
    rw [left, mirrors_iff, Strays, failed, not_not]
    simp only [withProjection]
    rw [Value.mapping_entries_write]
  | none =>
    have left : (s.record change).1 = ⟨s.stat,
        ((Value.mapping s.display).write true (Path.parse change.path)
          (.text change.displayText)).1.entries,
        ((Value.mapping s.delta).write true (Path.parse change.path)
          (.text change.displayText)).1.entries⟩ := by
      simp only [record, annotate, write, projection, failed, withProjection]
    rw [left, mirrors_iff, Strays, failed]
    simp only
    rw [Value.mapping_entries_write, Value.mapping_entries_write, not_and, not_not]
    constructor
    · intro kept landed
      have there := Value.resolve_landing landed
      have concrete : ∀ seg ∈ (Value.mapping s.delta).landing (Path.parse change.path),
          seg.IsConcrete := by
        intro seg hseg
        have unmarked := Value.append_notMem_of_resolve there
        refine (Value.isStep_of_mem_landing steps hseg).resolve_left ?_
        rintro rfl
        exact unmarked hseg
      exact kept.text _ concrete _ there
    · intro shown
      refine (mirrors_iff.1 h).write steps ?_ failed shown
      intro seg hseg
      obtain ⟨rest, hpath⟩ := List.head?_eq_some_iff.1 hseg
      have unmarked : seg ≠ .append := by
        rintro rfl
        rw [hpath] at failed
        obtain ⟨items, equal⟩ := Value.exists_list_of_write_append failed
        cases equal
      simpa [Value.isWrongKind] using unmarked

/-- Where the path has no marker and nothing fails, nothing strays. -/
theorem not_strays_of_concrete (concrete : Segment.append ∉ Path.parse change.path)
    (success : ((Value.mapping s.display).write true (Path.parse change.path)
      (.text change.displayText)).2 = none) : ¬ s.Strays change := by
  rw [Strays, success]
  rintro ⟨-, elsewhere⟩
  rw [Value.landing_eq_self concrete] at elsewhere
  exact elsewhere (Value.resolve_write success concrete)

/-- Where what cannot be written makes no container, nothing strays. -/
theorem not_strays_of_unchanged (h : s.Mirrors)
    (failed : ((Value.mapping s.display).write true (Path.parse change.path)
      (.text change.displayText)).2.isSome = true)
    (makes : (Value.mapping s.display).makesContainer true (Path.parse change.path) = false) :
    ¬ s.Strays change := by
  have unchanged := Value.write_eq_self_of_failure failed makes
  obtain ⟨fault, hfault⟩ := Option.isSome_iff_exists.1 failed
  rw [Strays, hfault]
  dsimp only
  rw [unchanged, not_not]
  exact mirrors_iff.1 h

end Store

/-! ### What is recorded -/

/-- The change that an operation records, and the store in which it does. -/
def Operation.recording? (regime : Regime) (s : Store) (o : Operation) : Option (Store × Change) :=
  match o.isDue s, if regime.constrained then o.refusal? s else none, o.effect regime s with
  | .ok true, none, (s, .ok (some change)) => some (s, change)
  | _, _, _ => none

/-- The change that an operation records, if it is valid. -/
def Checked.recording? (regime : Regime) (s : Store) : Checked Operation → Option (Store × Change)
  | .ok o => o.recording? regime s
  | .error _ => none

/-- An operation leaves the annotations alone, but for the change that it records. -/
theorem Operation.run_cases (regime : Regime) (s : Store) (o : Operation) :
    (o.recording? regime s = none ∧ s.SameAnnotations (o.run regime s).1) ∨
      ∃ s' change, o.recording? regime s = some (s', change) ∧ s.SameAnnotations s' ∧
        (o.run regime s).1 = (s'.record change).1 := by
  have effect := o.sameAnnotations_effect regime s
  revert effect
  simp only [Operation.recording?, Operation.run]
  cases o.isDue s with
  | error m => exact fun _ => .inl ⟨rfl, .refl s⟩
  | ok due =>
    cases due with
    | false => exact fun _ => .inl ⟨rfl, .refl s⟩
    | true =>
      cases if regime.constrained then o.refusal? s else none with
      | some refusal => exact fun _ => .inl ⟨rfl, .refl s⟩
      | none =>
        obtain ⟨s', failure | _ | change⟩ := o.effect regime s
        · exact fun effect => .inl ⟨rfl, effect⟩
        · exact fun effect => .inl ⟨rfl, effect⟩
        · refine fun effect => .inr ⟨s', change, rfl, effect, ?_⟩
          simp only [recordEffect]
          split
          · next h => rw [h]
          · next h => rw [h]

/-- **One operation** keeps the annotations since the last clearing among all annotations exactly
where what it records does not stray. -/
theorem Checked.mirrors_run_iff (regime : Regime) {s : Store} (h : s.Mirrors)
    (o : Checked Operation) :
    (o.run regime s).1.Mirrors ↔ ∀ r ∈ o.recording? regime s, ¬ r.1.Strays r.2 := by
  cases o with
  | error problems => exact iff_of_true h nofun
  | ok o =>
    obtain ⟨none, same⟩ | ⟨s', change, recorded, same, left⟩ := o.run_cases regime s
    · exact iff_of_true ((Store.mirrors_congr same).2 h) (by simp [Checked.recording?, none])
    · simp only [Checked.run, Checked.recording?, recorded, left, Option.mem_some_iff, forall_eq']
      exact Store.mirrors_record_iff ((Store.mirrors_congr same).2 h) change

/-! ### Series -/

namespace Series

/-- The stores that the operations of a series leave, each run on the one before. -/
def stores (regime : Regime) : Store → Series → List Store
  | _, [] => []
  | s, o :: rest => (o.run regime s).1 :: stores regime (o.run regime s).1 rest

/-- What the operations of a series record. -/
def recordings (regime : Regime) : Store → Series → List (Store × Change)
  | _, [] => []
  | s, o :: rest =>
    (o.recording? regime s).toList ++ recordings regime (o.run regime s).1 rest

/-- What holds of the first store and of those that the operations leave holds of the last one. -/
theorem storeAfter_of_forall_stores {P : Store → Prop} (regime : Regime) {s : Store}
    {series : Series} (first : P s) (h : ∀ s' ∈ stores regime s series, P s') :
    P (storeAfter regime s series series.length) := by
  induction series generalizing s with
  | nil => exact first
  | cons o rest ih =>
    rw [List.length_cons, storeAfter_cons_succ]
    exact ih (h _ (by simp [stores])) fun s' hs' => h s' (by simp [stores, hs'])

/-- A series keeps the annotations since the last clearing among all annotations exactly where
nothing that its operations record strays. -/
theorem mirrors_stores_iff {regime : Regime} {s : Store} (h : s.Mirrors) (series : Series) :
    (∀ s' ∈ stores regime s series, s'.Mirrors) ↔
      ∀ r ∈ recordings regime s series, ¬ r.1.Strays r.2 := by
  induction series generalizing s with
  | nil => exact iff_of_true nofun nofun
  | cons o rest ih =>
    have head := Checked.mirrors_run_iff regime h o
    simp only [stores, recordings, List.mem_cons, List.mem_append, Option.mem_toList, or_imp,
      forall_and, forall_eq]
    rw [head]
    exact and_congr_right fun kept => ih (head.2 kept)

end Series

/-! ### Runs -/

/-- What runs on a store: an operation, a batch, or a clearing of the annotations. -/
inductive StoreAction where
  | execute (regime : Regime) (operation : Checked Operation)
  | batch (regime : Regime) (atomic : Bool) (series : Series)
  | clear

namespace StoreAction

/-- The store that an action leaves. -/
def run (s : Store) : StoreAction → Store
  | .execute regime operation => (operation.run regime s).1
  | .batch regime atomic series => (series.run regime atomic s).1
  | .clear => s.clearDelta

/-- The stores that the operations of an action leave, unless they are taken back. -/
def stores (s : Store) : StoreAction → List Store
  | .execute regime operation => Series.stores regime s [operation]
  | .batch regime atomic series =>
    if (series.run regime atomic s).2.rollback then [] else Series.stores regime s series
  | .clear => []

/-- What an action records, unless it is taken back. -/
def recordings (s : Store) : StoreAction → List (Store × Change)
  | .execute regime operation => Series.recordings regime s [operation]
  | .batch regime atomic series =>
    if (series.run regime atomic s).2.rollback then [] else Series.recordings regime s series
  | .clear => []

/-- A batch is taken back, or leaves what its operations leave. -/
theorem run_batch_cases (regime : Regime) (atomic : Bool) (s : Store) (series : Series) :
    ((series.run regime atomic s).2.rollback = true ∧ (series.run regime atomic s).1 = s) ∨
      (series.run regime atomic s).2.rollback = false ∧
        (series.run regime atomic s).1 = Series.storeAfter regime s series series.length := by
  obtain ⟨independent, whole, -⟩ := Series.run_eq_single_runs regime s series
  cases atomic with
  | false =>
    rw [independent]
    exact .inr ⟨rfl, rfl⟩
  | true =>
    rw [whole]
    cases Series.firstError? regime s series with
    | none =>
      dsimp only
      rw [independent]
      exact .inr ⟨rfl, rfl⟩
    | some e => exact .inl ⟨rfl, rfl⟩

/-- **One action** keeps the annotations since the last clearing among all annotations exactly where
nothing that it records strays. -/
theorem mirrors_stores_iff {s : Store} (h : s.Mirrors) (action : StoreAction) :
    ((∀ s' ∈ action.stores s, s'.Mirrors) ∧ (action.run s).Mirrors) ↔
      ∀ r ∈ action.recordings s, ¬ r.1.Strays r.2 := by
  have series (regime : Regime) (l : Series) :
      ((∀ s' ∈ Series.stores regime s l, s'.Mirrors) ∧
        (Series.storeAfter regime s l l.length).Mirrors) ↔
          ∀ r ∈ Series.recordings regime s l, ¬ r.1.Strays r.2 := by
    rw [and_iff_left_of_imp (Series.storeAfter_of_forall_stores regime h)]
    exact Series.mirrors_stores_iff h l
  cases action with
  | execute regime operation => exact series regime [operation]
  | batch regime atomic l =>
    obtain ⟨back, left⟩ | ⟨back, left⟩ := run_batch_cases regime atomic s l
    · simp only [stores, recordings, run, back, left, if_pos]
      exact iff_of_true ⟨nofun, h⟩ nofun
    · simp only [stores, recordings, run, back, left, Bool.false_eq_true, if_false]
      exact series regime l
  | clear => exact iff_of_true ⟨nofun, Store.mirrors_of_delta_eq_nil rfl⟩ nofun

end StoreAction

namespace Store

/-- The stores on the way of actions, the first one included. -/
def reached (s : Store) : List StoreAction → List Store
  | [] => [s]
  | action :: rest => s :: (action.stores s ++ reached (action.run s) rest)

/-- What is recorded on the way of actions. -/
def recordings (s : Store) : List StoreAction → List (Store × Change)
  | [] => []
  | action :: rest => action.recordings s ++ recordings (action.run s) rest

theorem mirrors_reached_iff_of_mirrors {s : Store} (h : s.Mirrors) (actions : List StoreAction) :
    (∀ s' ∈ s.reached actions, s'.Mirrors) ↔ ∀ r ∈ s.recordings actions, ¬ r.1.Strays r.2 := by
  induction actions generalizing s with
  | nil => exact iff_of_true (by simpa [reached] using h) nofun
  | cons action rest ih =>
    have first := StoreAction.mirrors_stores_iff h action
    have now : ∀ actions, (∀ s' ∈ (action.run s).reached actions, s'.Mirrors) →
        (action.run s).Mirrors := by
      intro actions later
      cases actions <;> exact later _ (by simp [reached])
    simp only [reached, recordings, List.mem_cons, List.mem_append, or_imp, forall_and, forall_eq]
    rw [← first]
    constructor
    · rintro ⟨-, passed, later⟩
      have kept := now rest later
      exact ⟨⟨passed, kept⟩, (ih kept).1 later⟩
    · rintro ⟨⟨passed, kept⟩, later⟩
      exact ⟨h, passed, (ih kept).2 later⟩

/-- **The annotations since the last clearing are among all annotations**, in every store that a
run reaches from a document without annotations, exactly if none of its recordings strays. -/
theorem mirrors_reached_iff (data : Mapping) (actions : List StoreAction) :
    (∀ s ∈ (ofData data).reached actions, s.Mirrors) ↔
      ∀ r ∈ (ofData data).recordings actions, ¬ r.1.Strays r.2 :=
  mirrors_reached_iff_of_mirrors (mirrors_of_delta_eq_nil rfl) actions

/-- After a clearing, a marker before the end of a path leads to the first item in the one
projection and to the second in the other, and the same place shows two texts. -/
theorem delta_shows_text_of_its_own :
    ¬ ∀ (data : Mapping) (actions : List StoreAction), ∀ s ∈ (ofData data).reached actions,
      ∀ path : Path, (∀ seg ∈ path, (∃ k, seg = .key k) ∨ ∃ i : Nat, seg = .index i) →
        ∀ text, s.lookup path .delta = some (.text text) →
          s.lookup path .display = some (.text text) := by
  intro always
  let replace (n : Int) : StoreAction :=
    .execute ⟨false, ⟨512, 64⟩⟩ (.ok { path := "a/-/b", body := .replace (some (.int n)) })
  let item (text : String) : Value := .mapping [("b", .text text)]
  have passed : (⟨[("a", .list [.mapping [("b", .int 1)], .mapping [("b", .int 2)]])],
      [("a", .list [item "null → 1 (replace)", item "null → 2 (replace)"])],
      [("a", .list [item "null → 2 (replace)"])]⟩ : Store) ∈
      (ofData []).reached [replace 1, .clear, replace 2] := by decide +kernel
  have same := always _ _ _ passed [.key "a", .index 0, .key "b"] (by simpa using ⟨0, rfl⟩)
    "null → 2 (replace)" (by decide +kernel)
  revert same
  decide +kernel

end Store

end PatchScript
