import PatchScript.Proofs.Document.Written
import PatchScript.Proofs.Path.Canonical
import PatchScript.Proofs.Store.Annotations
import PatchScript.Proofs.Store.Writing

/-!
# Where a value went

Writing reports the location of its value. That location is the path that was written, with the
append marker at its end replaced by the index of the new item. A marker further up stays in the
report, so that nothing stands at the location reported.

## Main definitions

* `Store.WentTo` — a location reported for a value

## Main results

* `Store.wentTo_of_insert_eq_ok`, `Store.wentTo_of_overwrite_eq_ok` — what the two ways of writing
  report
* `Store.lookup_of_record_eq_none` — where the text of a change stands after it was recorded
-/

namespace PatchScript

namespace Store

variable {s s' : Store} {path concrete : Path} {label spelled : String} {value : Value}

/-- A location reported for a value that was written at a path. -/
structure WentTo (s : Store) (path : Path) (value : Value) (concrete : Path) : Prop where
  spelled : concrete = path ∨ ∃ i : Int, concrete = path.dropLast ++ [.index i]
  marked : Segment.append ∈ concrete ↔ Segment.append ∈ path.dropLast
  found : Segment.append ∉ concrete → s.lookup concrete = some value

theorem WentTo.isPlain (h : s.WentTo path value concrete) (plain : ∀ seg ∈ path, seg.IsPlain) :
    ∀ seg ∈ concrete, seg.IsPlain := by
  obtain rfl | ⟨i, rfl⟩ := h.spelled
  · exact plain
  · intro seg hseg
    rcases List.mem_append.1 hseg with before | last
    · exact plain seg (List.dropLast_subset path before)
    · obtain rfl : seg = .index i := by simpa using last
      trivial

theorem mem_of_ne_getLast {seg : Segment} (h : path.getLast? ≠ some seg) :
    seg ∈ path ↔ seg ∈ path.dropLast := by
  refine ⟨fun hseg => ?_, fun hseg => List.dropLast_subset path hseg⟩
  obtain ⟨last, hlast⟩ : ∃ last, path.getLast? = some last := by
    rw [List.getLast?_eq_some_getLast (List.ne_nil_of_mem hseg)]
    exact ⟨_, rfl⟩
  obtain ⟨before, rfl⟩ := List.getLast?_eq_some_iff.1 hlast
  have other : seg ≠ last := by
    rintro rfl
    exact h hlast
  simpa [other] using hseg

theorem projection_withProjection (s : Store) (source other : Source) (m : Mapping) :
    (s.withProjection source m).projection other =
      if other = source then m else s.projection other := by
  cases source <;> cases other <;> rfl

/-- A write into one projection puts its value there, and leaves the other ones alone. -/
theorem lookup_of_write {source : Source} {force : Bool}
    (h : s.write source force path value = (s', none)) (concrete : Segment.append ∉ path) :
    s'.lookup path source = some value ∧
      ∀ other, other ≠ source → s'.projection other = s.projection other := by
  obtain ⟨rfl, success⟩ := Prod.mk.inj h
  refine ⟨?_, fun other different => by rw [projection_withProjection, if_neg different]⟩
  rw [lookup, projection_withProjection, if_pos rfl, Value.mapping_entries_write]
  exact Value.resolve_write success concrete

theorem lookup_of_set (h : s.set path value = (s', none)) (concrete : Segment.append ∉ path) :
    s'.lookup path = some value :=
  (lookup_of_write h concrete).1

/-! ### Inserting -/

theorem roomIn?_le {items : List Value} {last : Segment} {i : Nat}
    (h : roomIn? items last = some i) : i ≤ items.length := by
  rw [roomIn?] at h
  split at h
  · exact Nat.le_of_eq (Option.some.inj h).symm
  · split at h
    · next j _ range =>
      obtain rfl : j.toNat = i := by simpa using h
      omega
    · cases h

/-- A new item is found at its index. -/
theorem lookup_of_update_item {items : List Value} {parent : Path}
    (h : s.lookup parent = some (.list items)) {i : Nat} (bound : i ≤ items.length) :
    (s.update parent (withItem i value)).lookup (parent ++ [.index i]) = some value := by
  rw [lookup_eq] at h
  have stat := mapping_stat_update s (withItem i value) parent fun _ => ⟨s.stat, rfl⟩
  rw [lookup_eq, stat, Value.resolve_append, Value.resolve_update h]
  have item : (items.insertIdx i value)[i]? = some value := by
    rw [List.getElem?_insertIdx_self, if_pos bound]
  have child : (withItem i value (.list items)).child? (.index i) = some value :=
    Value.child?_list_eq_some_iff.2 ⟨i, rfl, item⟩
  simp [Value.resolve, child]

/-- What inserting reports. -/
theorem wentTo_of_insert_eq_ok (h : s.insert label path value = (s', .ok spelled)) :
    ∃ concrete, spelled = Path.canonical concrete ∧ s'.WentTo path value concrete := by
  cases hlast : path.getLast? with
  | none => simp [insert, hlast] at h
  | some last =>
    cases hi : last.isIndexed with
    | true =>
      simp only [insert, hlast, if_pos hi] at h
      split at h
      · next items hparent =>
        split at h
        · next i room =>
          obtain ⟨rfl, rfl⟩ : s.update path.dropLast (withItem i value) = s' ∧
              Path.canonical (path.dropLast ++ [.index i]) = spelled := by simpa using h
          have unmarked := Value.append_notMem_of_resolve hparent
          exact ⟨_, rfl, .inr ⟨i, rfl⟩, by simp [unmarked],
            fun _ => lookup_of_update_item hparent (roomIn?_le room)⟩
        · cases h
      · cases h
    | false =>
      rw [insert_of_not_isIndexed hlast hi] at h
      have key : path.getLast? ≠ some .append := by
        rw [hlast]
        rintro ⟨⟩
        cases hi
      split at h
      · next s'' hset =>
        obtain ⟨rfl, rfl⟩ : s'' = s' ∧ Path.canonical path = spelled := by simpa using h
        exact ⟨path, rfl, .inl rfl, mem_of_ne_getLast key, lookup_of_set hset⟩
      · cases h

/-! ### Overwriting -/

theorem plain_described (current : Option Value) (value : Value) :
    (described current value).plain = value.plain := by
  cases value with
  | list items => rfl
  | _ => simp only [described]; split <;> simp_all [Value.plain]

/-- A value that was appended is found at the index of the last item. -/
theorem lookup_of_set_append {before : Path} (h : s.set (before ++ [.append]) value = (s', none))
    {items : List Value} (hparent : s'.lookup before = some (.list items)) :
    s'.lookup (before ++ [.index (items.length - 1)]) = some value := by
  have stat := mapping_stat_set s (before ++ [.append]) value
  have success : ((Value.mapping s.stat).write false (before ++ [.append]) value).2 = none := by
    rw [set_eq] at h
    exact congrArg Prod.snd h
  obtain ⟨earlier, there⟩ :=
    Value.resolve_write_append success (Value.append_notMem_of_resolve hparent)
  rw [h] at stat
  rw [lookup_eq, stat, there] at hparent
  obtain rfl : earlier ++ [value] = items := by simpa using hparent
  have last : (Value.list (earlier ++ [value])).child? (.index earlier.length) = some value :=
    Value.child?_list_eq_some_iff.2 ⟨earlier.length, rfl, by simp⟩
  rw [lookup_eq, stat, Value.resolve_append, there]
  simp [Value.resolve, last]

/-- What overwriting reports. -/
theorem wentTo_of_overwrite_eq_ok (h : s.overwrite label path value = (s', .ok spelled)) :
    ∃ concrete, spelled = Path.canonical concrete ∧
      s'.WentTo path (described (s.lookup path) value) concrete := by
  rw [overwrite, assign] at h
  split at h
  · next s'' hset =>
    obtain ⟨rfl, reported⟩ : s'' = s' ∧ s''.writtenPath path = .ok spelled := by simpa using h
    rw [writtenPath] at reported
    split at reported
    · next hlast =>
      obtain ⟨before, rfl⟩ := List.getLast?_eq_some_iff.1 hlast
      rw [List.dropLast_concat] at reported
      split at reported
      · next items hparent =>
        have unmarked := Value.append_notMem_of_resolve hparent
        refine ⟨_, (Except.ok.inj reported).symm, .inr ⟨_, by rw [List.dropLast_concat]⟩,
          by simp [unmarked], fun _ => lookup_of_set_append hset hparent⟩
      · cases reported
    · next hlast =>
      exact ⟨path, (Except.ok.inj reported).symm, .inl rfl, mem_of_ne_getLast hlast,
        lookup_of_set hset⟩
  · cases h

/-! ### Annotations -/

/-- Where the text of a change stands after the change was recorded. -/
theorem lookup_of_record_eq_none {change : Change} (h : s.record change = (s', none))
    (concrete : Segment.append ∉ Path.parse change.path) :
    s'.stat = s.stat ∧
      s'.lookup (Path.parse change.path) .display = some (.text change.displayText) ∧
      s'.lookup (Path.parse change.path) .delta = some (.text change.displayText) := by
  rw [record, annotate] at h
  split at h
  · cases h
  · next shown hshown =>
    obtain ⟨display, others⟩ := lookup_of_write hshown concrete
    obtain ⟨delta, kept⟩ := lookup_of_write h concrete
    refine ⟨(kept .stat (by decide)).trans (others .stat (by decide)), ?_, delta⟩
    rw [lookup, kept .display (by decide)]
    exact display

end Store

end PatchScript
