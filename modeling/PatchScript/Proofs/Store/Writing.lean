import PatchScript.Operation.Effect
import PatchScript.Proofs.Document.Update

/-!
# Writing into the live document

Inserting and overwriting both end in one write into the live document, or in an update of a list in
place. Either way a mapping on the way to the location gets at most one new entry, the one of the
next step.

## Main definitions

* `Store.Wrote` — one of the two ways of writing succeeded

## Main results

* `Store.lookup_of_wrote` — what writing makes of a mapping on the way
-/

namespace PatchScript.Store

variable {s s' : Store} {path P rest : Path} {k : Segment} {m : Mapping} {x : Value}

theorem lookup_eq (s : Store) (path : Path) :
    s.lookup path = (Value.mapping s.stat).resolve path := rfl

theorem set_eq (s : Store) (path : Path) (value : Value) :
    s.set path value =
      ({ s with stat := ((Value.mapping s.stat).write false path value).1.entries },
        ((Value.mapping s.stat).write false path value).2) := rfl

/-- The live document after a write, as a value. -/
theorem mapping_stat_set (s : Store) (path : Path) (value : Value) :
    Value.mapping (s.set path value).1.stat =
      ((Value.mapping s.stat).write false path value).1 :=
  Value.mapping_entries_write false s.stat path value

/-- An entry that is set in a mapping changes nothing else. -/
theorem mapping_stat_set_entry (found : s.lookup P = some (.mapping m)) (k : String)
    (value : Value) :
    Value.mapping (s.set (P ++ [.key k]) value).1.stat =
      (Value.mapping s.stat).update (fun _ => .mapping (m.put k value)) P := by
  rw [lookup_eq] at found
  rw [mapping_stat_set, Value.write_append found rfl]
  rfl

/-- An update in place keeps the root a mapping, when what it does to a mapping at the root does. -/
theorem mapping_stat_update (s : Store) (f : Value → Value) (path : Path)
    (hf : path = [] → ∃ m, f (.mapping s.stat) = .mapping m) :
    Value.mapping (s.update path f).stat = (Value.mapping s.stat).update f path := by
  cases path with
  | nil =>
    obtain ⟨m, equal⟩ := hf rfl
    simp [update, Value.update, equal, Value.entries]
  | cons q path =>
    simp only [update, Value.update]
    cases (Value.mapping s.stat).child? q <;> simp [Value.replaceChild, Value.entries]

/-! ### Inserting -/

theorem insert_nil (s : Store) (label : String) (value : Value) :
    s.insert label [] value = (s, .error (.address label .documentRoot)) := rfl

/-- An index and the append marker make room in a list that is there, or nothing happens. -/
theorem insert_of_isIndexed {last : Segment} (hlast : path.getLast? = some last)
    (hi : last.isIndexed = true) (label : String) (value : Value) :
    (∃ items i spelled, s.lookup path.dropLast = some (.list items) ∧
      s.insert label path value = (s.update path.dropLast (withItem i value), .ok spelled)) ∨
      ∃ failure, s.insert label path value = (s, .error failure) := by
  simp only [insert, hlast, if_pos hi]
  split
  · next items hparent =>
    split
    · next i _ => exact .inl ⟨items, i, _, hparent, rfl⟩
    · exact .inr ⟨_, rfl⟩
  · exact .inr ⟨_, rfl⟩

/-- A key is written. -/
theorem insert_of_not_isIndexed {last : Segment} (hlast : path.getLast? = some last)
    (hi : last.isIndexed = false) (label : String) (value : Value) :
    s.insert label path value =
      match s.set path value with
      | (s, none) => (s, .ok (Path.canonical path))
      | (s, some fault) => (s, .error (.ofWrite label fault)) := by
  rcases hset : s.set path value with ⟨s', _ | fault⟩ <;> simp [insert, hlast, hi, hset]

/-! ### Writing below a mapping -/

/-- One of the two ways of writing a value at a location leads from one store to the other. -/
inductive Wrote (s : Store) (path : Path) (s' : Store) : Prop
  | inserted (label : String) (value : Value) (spelled : String)
      (h : s.insert label path value = (s', .ok spelled))
  | overwritten (label : String) (value : Value) (spelled : String)
      (h : s.overwrite label path value = (s', .ok spelled))

theorem lookup_of_set_eq_none (hm : s.lookup P = some (.mapping m)) {value : Value}
    (h : s.set (P ++ k :: rest) value = (s', none)) :
    k ≠ .append ∧ ∃ x, s'.lookup P = some (.mapping (m.put k.label x)) := by
  rw [lookup_eq] at hm
  have below : (Value.mapping s.stat).write false (P ++ k :: rest) value = _ :=
    Value.write_append hm rfl
  have stat := mapping_stat_set s (P ++ k :: rest) value
  have fault : ((Value.mapping m).write false (k :: rest) value).2 = none := by
    rw [set_eq, below] at h
    exact congrArg Prod.snd h
  rw [h, below] at stat
  obtain ⟨-, failed⟩ | ⟨hk, x, written⟩ := Value.write_mapping false m k rest value
  · simp [fault] at failed
  · refine ⟨hk, x, ?_⟩
    rw [lookup_eq, stat, Value.resolve_update hm, written]

theorem lookup_of_update_withItem (hm : s.lookup P = some (.mapping m)) {items : List Value}
    (hparent : s.lookup (P ++ k :: rest).dropLast = some (.list items)) (i : Nat) (value : Value) :
    k ≠ .append ∧ ∃ x, (s.update (P ++ k :: rest).dropLast (withItem i value)).lookup P =
      some (.mapping (m.put k.label x)) := by
  rw [lookup_eq] at hm
  rw [List.dropLast_append_of_ne_nil (by simp), lookup_eq, Value.resolve_append, hm] at hparent
  cases rest with
  | nil => simp [Value.resolve] at hparent
  | cons t rest =>
    obtain ⟨child, hk, -⟩ := Value.resolve_cons_eq_some_iff.1 hparent
    refine ⟨Value.ne_append_of_child? hk, child.update (withItem i value) (t :: rest).dropLast, ?_⟩
    have stat := mapping_stat_update s (withItem i value) (P ++ k :: (t :: rest).dropLast) (by simp)
    rw [List.dropLast_append_of_ne_nil (by simp), lookup_eq, List.dropLast_cons_cons, stat,
      Value.update_append, Value.resolve_update hm]
    simp only [Value.update, hk, Value.replaceChild]

theorem lookup_of_insert_eq_ok (hm : s.lookup P = some (.mapping m)) {label spelled : String}
    {value : Value} (h : s.insert label (P ++ k :: rest) value = (s', .ok spelled)) :
    k ≠ .append ∧ ∃ x, s'.lookup P = some (.mapping (m.put k.label x)) := by
  obtain ⟨last, hlast⟩ : ∃ last, (P ++ k :: rest).getLast? = some last := by
    simp [List.getLast?_eq_some_getLast]
  cases hi : last.isIndexed with
  | true =>
    -- an index or the append marker needs a list, which stands below the entry
    obtain ⟨items, i, _, hparent, inserted⟩ | ⟨failure, failed⟩ :=
      insert_of_isIndexed (s := s) hlast hi label value
    · obtain ⟨rfl, -⟩ : s.update (P ++ k :: rest).dropLast (withItem i value) = s' ∧ _ := by
        simpa [inserted] using h
      exact lookup_of_update_withItem hm hparent i value
    · simp [failed] at h
  | false =>
    rw [insert_of_not_isIndexed hlast hi] at h
    split at h
    · next s'' hset =>
      obtain ⟨rfl, -⟩ : s'' = s' ∧ _ := by simpa using h
      exact lookup_of_set_eq_none hm hset
    · cases h

/-- Writing below a mapping puts a value under the key of the first step below it. -/
theorem lookup_of_wrote (hm : s.lookup P = some (.mapping m)) (h : s.Wrote (P ++ k :: rest) s') :
    k ≠ .append ∧ ∃ x, s'.lookup P = some (.mapping (m.put k.label x)) := by
  cases h with
  | inserted label value spelled h => exact lookup_of_insert_eq_ok hm h
  | overwritten label value spelled h =>
    unfold overwrite at h
    split at h
    · next s'' hset =>
      obtain ⟨rfl, -⟩ : s'' = s' ∧ _ := by simpa using h
      exact lookup_of_set_eq_none hm hset
    · cases h

end PatchScript.Store
