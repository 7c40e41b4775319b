import PatchScript.Proofs.Document.PutBack
import PatchScript.Proofs.Document.Removal
import PatchScript.Proofs.Path.Parse
import PatchScript.Proofs.Store.Annotations
import PatchScript.Proofs.Store.Trace

/-!
# A value taken away and put back

A move takes its value away before it inserts it, and puts it back when the insertion fails. What
comes back is an item of a list or an entry of a mapping, and only an item always comes back to its
place.

## Main definitions

* `Store.losesPlace` — an entry that would come back to another place
* `Store.covers` — an entry that is there already when it comes back

## Main results

* `Store.reinsert_eq_self_iff` — when a store is what it was after a value came back
-/

namespace PatchScript

namespace Store

variable {s : Store} {Q : Path} {q : Segment} {m : Mapping} {items : List Value} {v : Value}

/-! ### Taking away -/

/-- The live document without a value that was taken away. -/
theorem mapping_stat_delete {p p' : Value} (hQ : s.lookup Q = some p)
    (hq : p.removeChild? q = some p') :
    Value.mapping (s.delete (Q ++ [q])).1.stat =
      (Value.mapping s.stat).update (fun _ => p') Q := by
  rw [lookup_eq] at hQ
  have taken : (s.delete (Q ++ [q])).1 = s.update Q fun _ => p' := by
    rw [delete, projection, Value.remove?_concat hQ hq]
    rfl
  rw [taken]
  refine mapping_stat_update s _ Q ?_
  rintro rfl
  obtain rfl : Value.mapping s.stat = p := by simpa [Value.resolve] using hQ
  rw [Value.removeChild?] at hq
  split at hq
  · exact ⟨_, (Option.some.inj hq).symm⟩
  · cases hq

/-- A failed insertion makes up for a value that was taken away exactly when its container is again
what it was. -/
theorem insert_delete_eq_self_iff {start target : Path} {label : String} {failure : Failure}
    (hstart : s.lookup start = some v) (ne : start ≠ [])
    (failed : ((s.delete start).1.insert label target v).2 = .error failure) :
    ((s.delete start).1.insert label target v).1 = s ↔
      ((s.delete start).1.insert label target v).1.lookup start.dropLast =
        s.lookup start.dropLast := by
  obtain ⟨Q, q, rfl⟩ := List.eq_nil_or_concat start |>.resolve_left ne
  obtain ⟨path, left, fault, -⟩ := insert_failed failed
  rw [List.concat_eq_append] at *
  rw [left, List.dropLast_concat]
  rw [lookup_eq, Value.resolve_append, Option.bind_eq_some_iff] at hstart
  obtain ⟨p, hQ, hlast⟩ := hstart
  obtain ⟨child, hq, -⟩ := Value.resolve_cons_eq_some_iff.1 hlast
  obtain ⟨p', removed, hp, different⟩ := Value.removeChild?_of_child? hq
  have taken := mapping_stat_delete hQ removed
  have annotations : s.SameAnnotations ((s.delete (Q ++ [q])).1.set path v).1 :=
    (SameAnnotations.delete s (Q ++ [q])).trans (.of_set rfl)
  rw [annotations.eq_iff, ← Value.mapping.injEq, mapping_stat_set, lookup_eq, mapping_stat_set,
    lookup_eq, hQ]
  exact Value.write_eq_iff_resolve hQ hp different taken.symm fault

/-! ### Putting back -/

/-- An item comes back to its index, or to the end of a list that has become shorter. -/
theorem mapping_stat_reinsert_item (hQ : s.lookup Q = some (.list items)) (i : Nat) (v : Value)
    (failure : Failure) :
    Value.mapping (s.reinsert (Q ++ [.index i]) v failure).1.stat =
      (Value.mapping s.stat).update
        (fun _ => .list (items.insertIdx (min i items.length) v)) Q := by
  have put : s.reinsert (Q ++ [.index i]) v failure =
      (s.update Q (withItem (clamped i items.length) v), .error failure) := by
    simp only [reinsert, List.getLast?_append, List.dropLast_concat, List.getLast?_singleton,
      Option.some_or, hQ]
  rw [put, mapping_stat_update s _ Q fun _ => ⟨_, rfl⟩]
  exact Value.update_congr hQ (by simp [withItem, clamped])

/-- An entry comes back under its key. -/
theorem mapping_stat_reinsert_entry (hQ : s.lookup Q = some (.mapping m)) (hq : q ≠ .append)
    (v : Value) (failure : Failure) :
    Value.mapping (s.reinsert (Q ++ [q]) v failure).1.stat =
      (Value.mapping s.stat).update (fun _ => .mapping (m.put q.label v)) Q := by
  have put : (s.reinsert (Q ++ [q]) v failure).1 = (s.set (Q ++ [q]) v).1 := by
    simp only [reinsert, List.getLast?_append, List.dropLast_concat, List.getLast?_singleton,
      Option.some_or, hQ]
    rcases s.set (Q ++ [q]) v with ⟨s', _ | fault⟩ <;> rfl
  have written : (Value.mapping m).write false [q] v = (.mapping (m.put q.label v), none) := by
    simp [Value.write, Value.put, hq]
  rw [lookup_eq] at hQ
  rw [put, mapping_stat_set, Value.write_append hQ rfl, written]

/-- Whether a value that is taken away would come back to another place: it is an entry of a mapping
and not the last one. -/
def losesPlace (s : Store) (start : Path) : Prop :=
  ∃ (Q : Path) (q : Segment) (m : Mapping), start = Q ++ [q] ∧
    s.lookup Q = some (.mapping m) ∧ m.keys.idxOf q.label + 1 ≠ m.length

/-- Whether an entry of a mapping stands at the location. -/
def covers (s : Store) (start : Path) : Prop :=
  ∃ (Q : Path) (q : Segment) (m : Mapping), start = Q ++ [q] ∧
    s.lookup Q = some (.mapping m) ∧ q.label ∈ m.keys

/-- What is said about the entry at a location is said about the mapping around it. -/
theorem exists_entry_iff {p : Value} (hQ : s.lookup Q = some p)
    (holds : Mapping → Segment → Prop) :
    (∃ (Q' : Path) (q' : Segment) (m : Mapping), Q ++ [q] = Q' ++ [q'] ∧
        s.lookup Q' = some (.mapping m) ∧ holds m q') ↔
      ∃ m, p = .mapping m ∧ holds m q := by
  constructor
  · rintro ⟨Q', q', m, equal, hQ', h⟩
    obtain ⟨rfl, rfl⟩ : Q = Q' ∧ q = q' := by simpa using equal
    rw [hQ] at hQ'
    exact ⟨m, Option.some.inj hQ', h⟩
  · rintro ⟨m, rfl, h⟩
    exact ⟨Q, q, m, rfl, hQ, h⟩

theorem losesPlace_concat_iff (hQ : s.lookup Q = some (.mapping m)) :
    s.losesPlace (Q ++ [q]) ↔ m.keys.idxOf q.label + 1 ≠ m.length := by
  rw [losesPlace, exists_entry_iff hQ fun m q => m.keys.idxOf q.label + 1 ≠ m.length]
  simp

theorem covers_concat_iff (hQ : s.lookup Q = some (.mapping m)) :
    s.covers (Q ++ [q]) ↔ q.label ∈ m.keys := by
  rw [covers, exists_entry_iff hQ fun m q => q.label ∈ m.keys]
  simp

theorem not_losesPlace_of_list (hQ : s.lookup Q = some (.list items)) :
    ¬ s.losesPlace (Q ++ [q]) := by
  rw [losesPlace, exists_entry_iff hQ fun m q => m.keys.idxOf q.label + 1 ≠ m.length]
  simp

theorem not_covers_of_list (hQ : s.lookup Q = some (.list items)) : ¬ s.covers (Q ++ [q]) := by
  rw [covers, exists_entry_iff hQ fun m q => q.label ∈ m.keys]
  simp

theorem sameAnnotations_putBack (s : Store) (start path : Path) (value v : Value)
    (failure : Failure) :
    s.SameAnnotations
      (((s.delete start).1.set path value).1.reinsert start v failure).1 :=
  ((SameAnnotations.delete s start).trans (.of_set rfl)).trans (.reinsert _ start v failure)

/-- An item of a list comes back as it was exactly when the failed write made no container. -/
theorem reinsert_item_eq_self_iff {taken : Store} {path : Path} {value : Value} {i : Nat}
    {failure : Failure} (hQ : s.lookup Q = some (.list items)) (hi : items[i]? = some v)
    (htaken : (s.delete (Q ++ [.index i])).1 = taken)
    (failed : (taken.set path value).2.isSome = true) :
    ((taken.set path value).1.reinsert (Q ++ [.index i]) v failure).1 = s ↔
      ¬ s.losesPlace (Q ++ [.index i]) ∧
        ((Value.mapping taken.stat).makesContainer false path = true →
          (taken.set path value).1.covers (Q ++ [.index i])) := by
  obtain ⟨bound, -⟩ := List.getElem?_eq_some_iff.1 hi
  have removed : (Value.list items).removeChild? (.index i) = some (.list (items.eraseIdx i)) :=
    Value.removeChild?_list rfl bound
  have stat := mapping_stat_delete hQ removed
  rw [htaken] at stat
  have place := not_losesPlace_of_list (q := .index i) hQ
  rw [lookup_eq] at hQ
  have there : (Value.mapping taken.stat).resolve Q = some (.list (items.eraseIdx i)) := by
    rw [stat, Value.resolve_update hQ]
  obtain ⟨left, hleft⟩ := Value.resolve_write_list there failed
  have found : (taken.set path value).1.lookup Q = some (.list left) := by
    rw [lookup_eq, mapping_stat_set]
    exact hleft
  have covers := not_covers_of_list (q := .index i) found
  subst htaken
  rw [(sameAnnotations_putBack ..).eq_iff, ← Value.mapping.injEq,
    mapping_stat_reinsert_item found, mapping_stat_set,
    Value.putBack_list_eq_self_iff hQ hi stat.symm failed hleft]
  simp [place, covers]

/-- An entry of a mapping comes back as it was exactly when it stood last and the failed write made
no container, or made it in the place of the entry. -/
theorem reinsert_entry_eq_self_iff {taken : Store} {path : Path} {value : Value}
    {failure : Failure} (hQ : s.lookup Q = some (.mapping m)) (hq : q ≠ .append)
    (hk : m.get? q.label = some v) (htaken : (s.delete (Q ++ [q])).1 = taken)
    (failed : (taken.set path value).2.isSome = true) :
    ((taken.set path value).1.reinsert (Q ++ [q]) v failure).1 = s ↔
      ¬ s.losesPlace (Q ++ [q]) ∧
        ((Value.mapping taken.stat).makesContainer false path = true →
          (taken.set path value).1.covers (Q ++ [q])) := by
  have stat := mapping_stat_delete hQ (Value.removeChild?_mapping hk)
  rw [htaken] at stat
  rw [losesPlace_concat_iff hQ, not_not]
  rw [lookup_eq] at hQ
  have there : (Value.mapping taken.stat).resolve Q = some (.mapping (m.erase q.label)) := by
    rw [stat, Value.resolve_update hQ]
  obtain ⟨m', hleft⟩ := Value.exists_resolve_write_mapping there failed
  have found : (taken.set path value).1.lookup Q = some (.mapping m') := by
    rw [lookup_eq, mapping_stat_set]
    exact hleft
  subst htaken
  rw [covers_concat_iff found, (sameAnnotations_putBack ..).eq_iff, ← Value.mapping.injEq,
    mapping_stat_reinsert_entry found hq, mapping_stat_set]
  exact Value.putBack_mapping_eq_self_iff hQ hk stat.symm failed hleft

/-- **A value comes back** to a store as it was before exactly when it does not lose its place and
the failed insertion left no trace, or left it where the value comes back. -/
theorem reinsert_eq_self_iff {start target : Path} {label : String} {failure : Failure}
    (hstart : s.lookup start = some v) (ne : start ≠ []) (spelled : ∀ x, .other x ∉ start)
    (failed : ((s.delete start).1.insert label target v).2 = .error failure)
    (failure' : Failure) :
    (((s.delete start).1.insert label target v).1.reinsert start v failure').1 = s ↔
      ¬ s.losesPlace start ∧ ((s.delete start).1.insertTrace target = true →
        ((s.delete start).1.insert label target v).1.covers start) := by
  obtain ⟨Q, q, rfl⟩ := List.eq_nil_or_concat start |>.resolve_left ne
  obtain ⟨path, left, fault, trace⟩ := insert_failed failed
  rw [← trace, left]
  rw [List.concat_eq_append] at *
  rw [lookup_eq, Value.resolve_append, Option.bind_eq_some_iff] at hstart
  obtain ⟨p, hQ, hlast⟩ := hstart
  obtain ⟨child, hq, equal⟩ := Value.resolve_cons_eq_some_iff.1 hlast
  obtain rfl : child = v := by simpa [Value.resolve] using equal
  rw [← lookup_eq] at hQ
  cases p with
  | mapping m =>
    have append := Value.ne_append_of_child? hq
    rw [Value.child?_mapping append] at hq
    exact reinsert_entry_eq_self_iff hQ append hq rfl fault
  | list items =>
    obtain ⟨i, position, hi⟩ := Value.child?_list_eq_some_iff.1 hq
    obtain rfl : q = .index i := by
      cases q with
      | index j => simpa [Segment.position?] using position
      | other x => exact absurd (by simp) (spelled x)
      | _ => cases position
    exact reinsert_item_eq_self_iff hQ hi rfl fault
  | _ => cases Value.isContainer_of_child? hq

end Store

end PatchScript
