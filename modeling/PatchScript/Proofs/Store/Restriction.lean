import PatchScript.Proofs.Store.Writing

/-!
# Stores without some of their root entries

A path leads below one entry of the root, and whatever is read or written at it is read or written
below that entry. So each way of changing a store can be made before or after other root entries are
left out, and it is not seen at all where its own entry is left out.

## Main definitions

* `Mapping.only`, `Store.only` — what is left of a mapping and of a store
* `Path.Within`, `Path.Outside` — paths that lead below entries that are kept, or left out
* `Value.ChangesEntry` — a change of one entry of a mapping that depends on that entry alone

## Main results

* `Value.ChangesEntry.only`, `Value.ChangesEntry.only_of_not` — changes of entries that are kept,
  and of entries that are left out
* `Store.insert_only`, `Store.overwrite_only`, `Store.annotate_only` — changes before and after
* `Store.only_insert`, `Store.only_overwrite`, `Store.only_annotate` — changes that are not seen
-/

namespace PatchScript

variable {keep : String → Bool} {m : Mapping} {s : Segment} {path rest : Path} {k : String}
  {value x : Value}

/-! ### Mappings -/

namespace Mapping

/-- The entries of a mapping whose keys are kept. -/
def only (keep : String → Bool) (m : Mapping) : Mapping := m.filter fun e => keep e.1

theorem get?_only (h : keep k = true) (m : Mapping) : (m.only keep).get? k = m.get? k := by
  induction m with
  | nil => rfl
  | cons e rest ih =>
    obtain ⟨l, v⟩ := e
    by_cases hl : l = k
    · subst hl
      simp [only, get?, h]
    · cases kept : keep l <;> simpa [only, get?, kept, hl] using ih

theorem only_put (m : Mapping) (k : String) (v : Value) :
    (m.put k v).only keep = if keep k then (m.only keep).put k v else m.only keep := by
  induction m with
  | nil => cases kept : keep k <;> simp [only, put, kept]
  | cons e rest ih =>
    obtain ⟨l, x⟩ := e
    by_cases hl : l = k
    · subst hl
      cases kept : keep l <;> simp [only, put, kept]
    · cases keptK : keep k <;> cases kept : keep l <;>
        simpa [only, put, kept, keptK, hl] using ih

theorem only_erase (m : Mapping) (k : String) :
    (m.erase k).only keep = if keep k then (m.only keep).erase k else m.only keep := by
  induction m with
  | nil => simp [only, erase]
  | cons e rest ih =>
    obtain ⟨l, x⟩ := e
    by_cases hl : l = k
    · subst hl
      cases kept : keep l <;> simp [only, erase, kept]
    · cases keptK : keep k <;> cases kept : keep l <;>
        simpa [only, erase, kept, keptK, hl] using ih

/-- What a change below an entry of a mapping does to the entry. -/
inductive EntryChange where
  | nothing
  | gets (v : Value)
  | goes

/-- The mapping after a change below one of its entries. -/
def EntryChange.apply (m : Mapping) (k : String) : EntryChange → Mapping
  | .nothing => m
  | .gets v => m.put k v
  | .goes => m.erase k

theorem EntryChange.only_apply (c : EntryChange) (m : Mapping) (k : String) :
    (c.apply m k).only keep = if keep k then c.apply (m.only keep) k else m.only keep := by
  cases c with
  | nothing => simp [apply]
  | gets v => exact only_put m k v
  | goes => exact only_erase m k

end Mapping

open Mapping (EntryChange)

/-! ### Roots -/

/-- The key of the root entry below which a path leads. The append marker leads below none. -/
def Path.root? : Path → Option String
  | [] | .append :: _ => none
  | s :: _ => some s.label

/-- Whether a path leads below root entries of certain keys only. -/
structure Path.Within (keep : String → Bool) (path : Path) : Prop where
  ne_nil : path ≠ []
  keeps : ∀ k ∈ path.root?, keep k = true

/-- Whether a path leads below root entries of other keys only. -/
abbrev Path.Outside (keep : String → Bool) (path : Path) : Prop := path.Within fun k => !keep k

theorem Path.within_cons_iff :
    Path.Within keep (s :: rest) ↔ (s ≠ .append → keep s.label = true) := by
  constructor
  · rintro ⟨-, keeps⟩ hs
    cases s with
    | append => exact absurd rfl hs
    | _ => exact keeps _ rfl
  · intro h
    refine ⟨List.cons_ne_nil _ _, ?_⟩
    cases s with
    | append => simp [Path.root?]
    | _ => simpa [Path.root?] using h

/-- The parent of a location below the root is the root, or it lies below the same entry. -/
theorem Path.Within.dropLast (within : path.Within keep) :
    path.dropLast = [] ∨ Path.Within keep path.dropLast := by
  match path with
  | [] => exact .inl rfl
  | [q] => exact .inl rfl
  | q :: t :: rest => exact .inr (Path.within_cons_iff.2 (Path.within_cons_iff.1 within))

/-! ### Documents -/

namespace Value

theorem child?_mapping_only (h : s ≠ .append → keep s.label = true) (m : Mapping) :
    (mapping (m.only keep)).child? s = (mapping m).child? s := by
  by_cases hs : s = .append
  · subst hs
    rfl
  · rw [child?_mapping hs, child?_mapping hs, Mapping.get?_only (h hs)]

theorem resolve_mapping_only (within : path.Within keep) (m : Mapping) :
    (mapping (m.only keep)).resolve path = (mapping m).resolve path := by
  cases path with
  | nil => exact absurd rfl within.ne_nil
  | cons s rest =>
    rw [resolve, resolve, child?_mapping_only (Path.within_cons_iff.1 within)]

/-- What a change does to a mapping hangs on the child at one segment alone: the same happens to
every mapping that has the same child there, and only the entry of the segment changes. -/
def ChangesEntry {α : Type} (m : Mapping) (s : Segment) (f : Value → Value × α) : Prop :=
  ∃ (c : EntryChange) (a : α), (s = .append → c = .nothing) ∧
    ∀ m' : Mapping, (mapping m').child? s = (mapping m).child? s →
      f (.mapping m') = (.mapping (c.apply m' s.label), a)

theorem way_congr {container container' : Value} (h : container'.child? s = container.child? s)
    (force : Bool) (t : Segment) : container'.way force s t = container.way force s t := by
  rw [way, way, h]

theorem changesEntry_write (force : Bool) (m : Mapping) (s : Segment) (rest : Path)
    (value : Value) : ChangesEntry m s fun v => v.write force (s :: rest) value := by
  by_cases hs : s = .append
  · -- nothing can be appended to a mapping
    subst hs
    refine ⟨.nothing, some (.address .appendOnMapping), fun _ => rfl, fun m' _ => ?_⟩
    cases rest <;> simp [write, way, child?, put, EntryChange.apply]
  cases rest with
  | nil =>
    refine ⟨.gets value, none, fun append => absurd append hs, fun m' _ => ?_⟩
    simp [write, put, hs, EntryChange.apply]
  | cons t rest =>
    cases goes : (mapping m).way force s t with
    | blocked fault =>
      refine ⟨.nothing, some fault, fun _ => rfl, fun m' same => ?_⟩
      simp [write, way_congr same, goes, EntryChange.apply]
    | into child =>
      refine ⟨.gets (child.write force (t :: rest) value).1,
        (child.write force (t :: rest) value).2, fun append => absurd append hs, fun m' same => ?_⟩
      simp [write, way_congr same, goes, replaceChild, EntryChange.apply]
    | anew =>
      refine ⟨.gets ((emptyFor t).write force (t :: rest) value).1,
        ((emptyFor t).write force (t :: rest) value).2, fun append => absurd append hs,
        fun m' same => ?_⟩
      simp [write, way_congr same, goes, put, hs, EntryChange.apply]

theorem changesEntry_update (f : Value → Value) (m : Mapping) (s : Segment) (rest : Path) :
    ChangesEntry m s fun v => (v.update f (s :: rest), ()) := by
  cases found : (mapping m).child? s with
  | none =>
    refine ⟨.nothing, (), fun _ => rfl, fun m' same => ?_⟩
    simp [update, same, found, EntryChange.apply]
  | some child =>
    have hs := ne_append_of_child? found
    refine ⟨.gets (child.update f rest), (), fun append => absurd append hs, fun m' same => ?_⟩
    simp [update, same, found, replaceChild, EntryChange.apply]

/-- The value without what stands at a path, and whether something stood there. -/
def removed (v : Value) (path : Path) : Value × Bool :=
  ((v.remove? path).getD v, (v.remove? path).isSome)

theorem changesEntry_removed (hs : s ≠ .append) (m : Mapping) (rest : Path) :
    ChangesEntry m s fun v => v.removed (s :: rest) := by
  cases rest with
  | nil =>
    cases found : (mapping m).child? s with
    | none =>
      refine ⟨.nothing, false, fun _ => rfl, fun m' same => ?_⟩
      rw [found, child?_mapping hs] at same
      simp [removed, remove?, removeChild?, Mapping.hasKey, same, EntryChange.apply]
    | some child =>
      refine ⟨.goes, true, fun append => absurd append hs, fun m' same => ?_⟩
      rw [found, child?_mapping hs] at same
      simp [removed, remove?, removeChild?, Mapping.hasKey, same, EntryChange.apply]
  | cons t rest =>
    cases found : (mapping m).child? s with
    | none =>
      refine ⟨.nothing, false, fun _ => rfl, fun m' same => ?_⟩
      simp [removed, remove?, same, found, EntryChange.apply]
    | some child =>
      cases left : child.remove? (t :: rest) with
      | none =>
        refine ⟨.nothing, false, fun _ => rfl, fun m' same => ?_⟩
        simp [removed, remove?, same, found, left, EntryChange.apply]
      | some child' =>
        refine ⟨.gets child', true, fun append => absurd append hs, fun m' same => ?_⟩
        simp [removed, remove?, same, found, left, replaceChild, EntryChange.apply]

/-- Where the entry is kept, a change can be made before or after the other entries are left out. -/
theorem ChangesEntry.only {α : Type} {f : Value → Value × α} (h : ChangesEntry m s f)
    (kept : s ≠ .append → keep s.label = true) :
    f (mapping (m.only keep)) =
      (mapping ((f (mapping m)).1.entries.only keep), (f (mapping m)).2) := by
  obtain ⟨c, a, append, all⟩ := h
  rw [all m rfl, all _ (child?_mapping_only kept m), entries, EntryChange.only_apply]
  by_cases hs : s = .append
  · simp [append hs, EntryChange.apply]
  · rw [if_pos (kept hs)]

/-- Where the entry is left out, the change is not seen. -/
theorem ChangesEntry.only_of_not {α : Type} {f : Value → Value × α} (h : ChangesEntry m s f)
    (left : s ≠ .append → keep s.label = false) :
    (f (mapping m)).1.entries.only keep = m.only keep := by
  obtain ⟨c, a, append, all⟩ := h
  rw [all m rfl, entries, EntryChange.only_apply]
  by_cases hs : s = .append
  · simp [append hs, EntryChange.apply]
  · rw [left hs]
    rfl

end Value

/-! ### Stores -/

namespace Store

variable {source : Source} {label : String} {failure : Failure}

/-- The store with the root entries of each projection whose keys are kept. -/
def only (keep : String → Bool) (s : Store) : Store :=
  ⟨s.stat.only keep, s.display.only keep, s.delta.only keep⟩

@[simp] theorem stat_only (s : Store) : (s.only keep).stat = s.stat.only keep := rfl

@[simp] theorem projection_only (s : Store) (source : Source) :
    (s.only keep).projection source = (s.projection source).only keep := by
  cases source <;> rfl

theorem withProjection_only (s : Store) (source : Source) (m : Mapping) :
    (s.only keep).withProjection source (m.only keep) = (s.withProjection source m).only keep := by
  cases source <;> rfl

theorem only_withProjection {s : Store} {m : Mapping}
    (h : m.only keep = (s.projection source).only keep) :
    (s.withProjection source m).only keep = s.only keep := by
  rw [← withProjection_only, h, ← projection_only]
  cases source <;> rfl

theorem lookup_only (within : path.Within keep) (s : Store) (source : Source) :
    (s.only keep).lookup path source = s.lookup path source := by
  rw [lookup, lookup, projection_only, Value.resolve_mapping_only within]

theorem get_only (within : path.Within keep) (s : Store) : (s.only keep).get path = s.get path := by
  rw [get, get, lookup_only within]

/-- At the root there is a mapping, with or without some of its entries. -/
theorem lookup_nil (s : Store) : s.lookup [] = some (.mapping s.stat) := rfl

/-! ### One write -/

theorem write_only (within : path.Within keep) (s : Store) (source : Source) (force : Bool)
    (value : Value) :
    (s.only keep).write source force path value =
      ((s.write source force path value).1.only keep, (s.write source force path value).2) := by
  cases path with
  | nil => exact absurd rfl within.ne_nil
  | cons q rest =>
    have root := (Value.changesEntry_write force (s.projection source) q rest value).only
      (Path.within_cons_iff.1 within)
    simp only [write, projection_only, root, withProjection_only, Value.entries]

theorem only_write (outside : path.Outside keep) (s : Store) (source : Source) (force : Bool)
    (value : Value) : (s.write source force path value).1.only keep = s.only keep := by
  cases path with
  | nil => exact absurd rfl outside.ne_nil
  | cons q rest =>
    have root := (Value.changesEntry_write force (s.projection source) q rest value).only_of_not
      (by simpa using Path.within_cons_iff.1 outside)
    exact only_withProjection root

theorem set_only (within : path.Within keep) (s : Store) (value : Value) :
    (s.only keep).set path value = ((s.set path value).1.only keep, (s.set path value).2) :=
  write_only within s .stat false value

theorem only_set (outside : path.Outside keep) (s : Store) (value : Value) :
    (s.set path value).1.only keep = s.only keep :=
  only_write outside s .stat false value

theorem update_only (within : path.Within keep) (s : Store) (f : Value → Value) :
    (s.only keep).update path f = (s.update path f).only keep := by
  cases path with
  | nil => exact absurd rfl within.ne_nil
  | cons q rest =>
    have root := (Value.changesEntry_update f s.stat q rest).only (Path.within_cons_iff.1 within)
    have root := congrArg Prod.fst root
    simp only at root
    simp only [update, only, root, Value.entries]

theorem only_update (outside : path.Outside keep) (s : Store) (f : Value → Value) :
    (s.update path f).only keep = s.only keep := by
  cases path with
  | nil => exact absurd rfl outside.ne_nil
  | cons q rest =>
    have root := (Value.changesEntry_update f s.stat q rest).only_of_not
      (by simpa using Path.within_cons_iff.1 outside)
    simp only at root
    simp only [update, only, root]

theorem delete_eq (s : Store) (path : Path) :
    s.delete path =
      (s.withProjection .stat ((Value.mapping s.stat).removed path).1.entries,
        ((Value.mapping s.stat).removed path).2) := by
  rw [delete, projection, Value.removed]
  cases (Value.mapping s.stat).remove? path <;> rfl

theorem delete_only (within : path.Within keep) {s : Store} (found : s.lookup path = some value) :
    (s.only keep).delete path = ((s.delete path).1.only keep, (s.delete path).2) := by
  cases path with
  | nil => exact absurd rfl within.ne_nil
  | cons q rest =>
    obtain ⟨child, step, -⟩ := Value.resolve_cons_eq_some_iff.1 found
    have root := (Value.changesEntry_removed (Value.ne_append_of_child? step) s.stat rest).only
      (Path.within_cons_iff.1 within)
    rw [delete_eq, delete_eq]
    simp only [only, root, withProjection, Value.entries]

theorem only_delete (outside : path.Outside keep) {s : Store} (found : s.lookup path = some value) :
    (s.delete path).1.only keep = s.only keep := by
  cases path with
  | nil => exact absurd rfl outside.ne_nil
  | cons q rest =>
    obtain ⟨child, step, -⟩ := Value.resolve_cons_eq_some_iff.1 found
    have changes := Value.changesEntry_removed (Value.ne_append_of_child? step) s.stat rest
    rw [delete_eq]
    exact only_withProjection (changes.only_of_not (by simpa using Path.within_cons_iff.1 outside))

end Store

/-- What came of something, with what is left of the store after it. -/
def Effect.only {α : Type} (keep : String → Bool) (e : Effect α) : Effect α := (e.1.only keep, e.2)

namespace Store

/-! ### Ways of writing -/

theorem insert_only (within : path.Within keep) (s : Store) (label : String) (value : Value) :
    (s.only keep).insert label path value = (s.insert label path value).only keep := by
  cases hlast : path.getLast? with
  | none =>
    simp only [insert, hlast]
    rfl
  | some last =>
    cases hi : last.isIndexed with
    | false =>
      rw [insert_of_not_isIndexed hlast hi, insert_of_not_isIndexed hlast hi, set_only within]
      rcases s.set path value with ⟨s', _ | fault⟩ <;> rfl
    | true =>
      obtain root | within := within.dropLast
      · simp only [insert, hlast, hi, if_true, root, lookup_nil]
        rfl
      · simp only [insert, hlast, hi, if_true, lookup_only within, update_only within]
        split
        · split <;> rfl
        · rfl

theorem only_insert (outside : path.Outside keep) (s : Store) (label : String) (value : Value) :
    (s.insert label path value).1.only keep = s.only keep := by
  cases hlast : path.getLast? with
  | none => simp [insert, hlast]
  | some last =>
    cases hi : last.isIndexed with
    | false =>
      have unseen := only_set outside s value
      rw [insert_of_not_isIndexed hlast hi]
      generalize s.set path value = written at unseen
      rcases written with ⟨s', _ | fault⟩ <;> exact unseen
    | true =>
      obtain ⟨items, i, _, found, inserted⟩ | ⟨failure, failed⟩ :=
        insert_of_isIndexed (s := s) hlast hi label value
      · rw [inserted]
        obtain root | outside := outside.dropLast
        · rw [root, lookup_nil] at found
          cases found
        · exact only_update outside s _
      · rw [failed]

theorem displaced_only (within : path.Within keep) (s : Store) :
    (s.only keep).displaced path = s.displaced path := by
  simp only [displaced, lookup_only within]

theorem writtenPath_only (within : path.Within keep) (s : Store) :
    (s.only keep).writtenPath path = s.writtenPath path := by
  rw [writtenPath, writtenPath]
  obtain root | within := within.dropLast
  · simp [root, lookup_nil]
  · rw [lookup_only within]

theorem overwrite_only (within : path.Within keep) (s : Store) (label : String) (value : Value) :
    (s.only keep).overwrite label path value = (s.overwrite label path value).only keep := by
  simp only [overwrite, assign, lookup_only within, set_only within]
  rcases s.set path _ with ⟨s', _ | fault⟩
  · simp only [writtenPath_only within]
    rfl
  · rfl

theorem only_overwrite (outside : path.Outside keep) (s : Store) (label : String)
    (value : Value) : (s.overwrite label path value).1.only keep = s.only keep := by
  have unseen := only_set outside s (described (s.lookup path) value)
  rw [overwrite, assign]
  generalize s.set path _ = written at unseen
  rcases written with ⟨s', _ | fault⟩ <;> exact unseen

theorem reinsert_only (within : path.Within keep) (s : Store) (value : Value)
    (failure : Failure) :
    (s.only keep).reinsert path value failure = (s.reinsert path value failure).only keep := by
  have set := set_only within s value
  simp only [reinsert, set]
  cases path.getLast? with
  | none => rfl
  | some last =>
    obtain root | within := within.dropLast
    · simp only [root, lookup_nil]
      rcases s.set path value with ⟨s', _ | fault⟩ <;> rfl
    · simp only [lookup_only within, update_only within]
      split
      · rfl
      · rcases s.set path value with ⟨s', _ | fault⟩ <;> rfl

theorem only_reinsert (outside : path.Outside keep) (s : Store) (value : Value)
    (failure : Failure) : (s.reinsert path value failure).1.only keep = s.only keep := by
  have unseen := only_set outside s value
  rw [reinsert]
  split
  · rfl
  · split
    · next items i found _ =>
      obtain root | outside := outside.dropLast
      · rw [root, lookup_nil] at found
        cases found
      · exact only_update outside s _
    · generalize s.set path value = written at unseen
      rcases written with ⟨s', _ | fault⟩ <;> exact unseen

/-! ### Annotating -/

theorem annotate_only (within : path.Within keep) (s : Store) (text : String) :
    (s.only keep).annotate path text =
      ((s.annotate path text).1.only keep, (s.annotate path text).2) := by
  simp only [annotate, write_only within]
  rcases s.write .display true path (.text text) with ⟨s', _ | fault⟩
  · simp only [write_only within]
  · rfl

theorem only_annotate (outside : path.Outside keep) (s : Store) (text : String) :
    (s.annotate path text).1.only keep = s.only keep := by
  have unseen := only_write outside s .display true (.text text)
  rw [annotate]
  generalize s.write .display true path (.text text) = written at unseen
  rcases written with ⟨s', _ | fault⟩
  · exact (only_write outside s' .delta true (.text text)).trans unseen
  · exact unseen

end Store
end PatchScript
