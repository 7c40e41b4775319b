import PatchScript.Proofs.Document.Mirror
import PatchScript.Proofs.Store.PutBack

/-!
# Undoing a deletion

A value that is deleted and put back comes to where it was: an item to its index, with the items
behind it moved up again, and an entry under its key. The entries of a mapping have an order,
though, and the one that comes back comes last. So the document is the same again up to the place of
one entry, and it is the very same exactly when no place was lost.

## Main definitions

* `Value.Returned` — a container before and after one of its children came back

## Main results

* `Mapping.exists_put_erase` — an entry that comes back to a mapping stands last
* `Value.Returned.alike` — a container is as it was, up to the order of its entries
* `Store.reinsert_delete` — putting back undoes a deletion
-/

namespace PatchScript

/-- An entry that comes back to a mapping without its key stands last. -/
theorem Mapping.exists_put_erase {m : Mapping} {k : String} {v : Value} (distinct : m.keys.Nodup)
    (h : m.get? k = some v) :
    ∃ before behind : Mapping, m = before ++ (k, v) :: behind ∧
      (m.erase k).put k v = before ++ behind ++ [(k, v)] := by
  obtain ⟨before, y, behind, rfl, first⟩ := exists_split (mem_keys_of_get? h)
  obtain rfl : y = v := by
    have there := (get?_eq_some_iff distinct).2 (List.mem_append_right before List.mem_cons_self)
    exact Option.some.inj (there.symm.trans h)
  have later : k ∉ keys behind := by
    simp only [keys, List.map_append, List.map_cons, List.nodup_append, List.nodup_cons] at distinct
    exact distinct.2.1.1
  have gone : k ∉ keys (before ++ behind) := by
    rw [keys, List.map_append, List.mem_append]
    exact fun mem => mem.elim first later
  exact ⟨before, behind, rfl, by rw [erase_split first, put_of_not_mem gone]⟩

namespace Value

/-- A change at a location is none exactly if what comes there was there. -/
theorem update_eq_self_iff {v x y : Value} {path : Path} (h : v.resolve path = some x) :
    v.update (fun _ => y) path = v ↔ y = x := by
  refine ⟨fun same => ?_, fun equal => update_eq_self h equal⟩
  have there := resolve_update h fun _ => y
  rw [same, h] at there
  exact (Option.some.inj there).symm

/-- A container before and after one of its children was taken out and came back: an entry of a
mapping stands behind the others, and an item of a list in its place. -/
inductive Returned (s : Segment) : Value → Value → Prop
  | entry {before behind : Mapping} {v : Value} :
    Returned s (.mapping (before ++ (s.label, v) :: behind))
      (.mapping (before ++ behind ++ [(s.label, v)]))
  | item {items : List Value} : Returned s (.list items) (.list items)

/-- The order of its entries apart, such a container is as it was. -/
theorem Returned.alike {s : Segment} {container container' : Value}
    (h : Returned s container container') (wf : container.wellFormed = true) :
    container.Alike Eq container' := by
  cases h with
  | entry =>
    refine .of_perm (wellFormed_mapping.1 wf).1 ?_
    rw [List.append_assoc]
    exact List.Perm.append_left _ (List.perm_append_singleton _ _).symm
  | item => exact .refl _

end Value

namespace Store

variable {s : Store} {Q path : Path} {q : Segment} {m : Mapping} {items : List Value} {v : Value}

/-! ### One container -/

theorem snd_delete_of_removeChild? {container container' : Value}
    (hQ : s.lookup Q = some container) (hq : container.removeChild? q = some container') :
    (s.delete (Q ++ [q])).2 = true := by
  rw [lookup_eq] at hQ
  rw [delete, projection, Value.remove?_concat hQ hq]

/-- An entry that is put back is written under its key, which does not fail. -/
theorem snd_reinsert_entry (hQ : s.lookup Q = some (.mapping m)) (hq : q ≠ .append) (v : Value)
    (failure : Failure) : (s.reinsert (Q ++ [q]) v failure).2 = .error failure := by
  have written : (s.set (Q ++ [q]) v).2 = none := by
    rw [lookup_eq] at hQ
    rw [set_eq, Value.write_append hQ rfl]
    simp [Value.write, Value.put, hq]
  simp only [reinsert, List.getLast?_append, List.dropLast_concat, List.getLast?_singleton,
    Option.some_or, hQ]
  rcases hset : s.set (Q ++ [q]) v with ⟨s', _ | fault⟩
  · rfl
  · simp [hset] at written

/-- An entry that is deleted and put back. -/
theorem reinsert_delete_entry (hQ : s.lookup Q = some (.mapping m)) (hq : q ≠ .append)
    (hk : m.get? q.label = some v) (failure : Failure) :
    ((s.delete (Q ++ [q])).1.reinsert (Q ++ [q]) v failure).2 = .error failure ∧
      Value.mapping ((s.delete (Q ++ [q])).1.reinsert (Q ++ [q]) v failure).1.stat =
        (Value.mapping s.stat).update
          (fun _ => .mapping ((m.erase q.label).put q.label v)) Q := by
  have taken := mapping_stat_delete hQ (Value.removeChild?_mapping hk)
  have left : (s.delete (Q ++ [q])).1.lookup Q = some (.mapping (m.erase q.label)) := by
    rw [lookup_eq] at hQ
    rw [lookup_eq, taken, Value.resolve_update hQ]
  refine ⟨snd_reinsert_entry left hq v failure, ?_⟩
  rw [lookup_eq] at hQ
  rw [mapping_stat_reinsert_entry left hq, taken, Value.update_update hQ]
  rfl

/-- An item that is deleted and put back. -/
theorem reinsert_delete_item {i : Nat} (hQ : s.lookup Q = some (.list items))
    (hi : items[i]? = some v) (failure : Failure) :
    (s.delete (Q ++ [.index i])).1.reinsert (Q ++ [.index i]) v failure =
      (s, .error failure) := by
  obtain ⟨bound, rfl⟩ := List.getElem?_eq_some_iff.1 hi
  have removed : (Value.list items).removeChild? (.index i) = some (.list (items.eraseIdx i)) :=
    Value.removeChild?_list rfl bound
  have taken := mapping_stat_delete hQ removed
  have left : (s.delete (Q ++ [.index i])).1.lookup Q = some (.list (items.eraseIdx i)) := by
    rw [lookup_eq] at hQ
    rw [lookup_eq, taken, Value.resolve_update hQ]
  have returned := mapping_stat_reinsert_item left i items[i] failure
  have place : min i (items.eraseIdx i).length = i := by
    rw [List.length_eraseIdx_of_lt bound]
    omega
  rw [taken, place, List.insertIdx_eraseIdx_getElem bound] at returned
  refine Prod.ext ?_ ?_
  · have annotations := (SameAnnotations.delete s (Q ++ [.index i])).trans
      (.reinsert _ (Q ++ [.index i]) items[i] failure)
    rw [annotations.eq_iff, ← Value.mapping.injEq, returned]
    rw [lookup_eq] at hQ
    rw [Value.update_update hQ]
    exact Value.update_eq_self hQ rfl
  · simp only [reinsert, List.getLast?_append, List.dropLast_concat, List.getLast?_singleton,
      Option.some_or, left]

/-! ### The law -/

/-- **Putting back undoes a deletion.** What stands at a path of keys and indices can be deleted and
put back without a failure of its own. The container is then as it was, except that an entry which
came back to a mapping stands last, and nothing else is different. So the document is the same up to
the order of keys, and the store is the very same exactly when no entry lost its place. -/
theorem reinsert_delete (wf : (Value.mapping s.stat).wellFormed = true)
    (concrete : ∀ u ∈ path, u.IsConcrete) (proper : path ≠ [])
    (found : s.lookup path = some v) (failure : Failure) :
    (s.delete path).2 = true ∧
      ∃ back, (s.delete path).1.reinsert path v failure = (back, .error failure) ∧
        s.SameAnnotations back ∧
        (∃ Q q container container', path = Q ++ [q] ∧ s.lookup Q = some container ∧
          container.Returned q container' ∧
          Value.mapping back.stat = (Value.mapping s.stat).update (fun _ => container') Q) ∧
        (Value.mapping s.stat).Alike Eq (.mapping back.stat) ∧
        (back = s ↔ ¬ s.losesPlace path) := by
  obtain ⟨Q, q, rfl⟩ := List.eq_nil_or_concat path |>.resolve_left proper
  rw [List.concat_eq_append] at *
  rw [lookup_eq, Value.resolve_append, Option.bind_eq_some_iff] at found
  obtain ⟨container, hQ, last⟩ := found
  obtain ⟨child, hq, equal⟩ := Value.resolve_cons_eq_some_iff.1 last
  obtain rfl : child = v := by simpa [Value.resolve] using equal
  obtain ⟨container', removed, -, -⟩ := Value.removeChild?_of_child? hq
  refine ⟨snd_delete_of_removeChild? hQ removed, ?_⟩
  have annotations := (SameAnnotations.delete s (Q ++ [q])).trans
    (.reinsert _ (Q ++ [q]) child failure)
  cases container with
  | mapping m =>
    have marker := Value.ne_append_of_child? hq
    rw [Value.child?_mapping marker] at hq
    obtain ⟨unfailing, stat⟩ := reinsert_delete_entry hQ marker hq failure
    have distinct := (Value.wellFormed_mapping.1 (Value.wellFormed_of_resolve wf hQ)).1
    have returned : (Value.mapping m).Returned q
        (.mapping (Mapping.put (Mapping.erase m q.label) q.label child)) := by
      obtain ⟨before, behind, whole, back⟩ := Mapping.exists_put_erase distinct hq
      rw [back, whole]
      exact .entry
    refine ⟨_, Prod.ext rfl unfailing, annotations, ⟨Q, q, _, _, rfl, hQ, returned, stat⟩, ?_, ?_⟩
    · rw [stat]
      exact Value.alike_update hQ (returned.alike (Value.wellFormed_of_resolve wf hQ))
    · rw [annotations.eq_iff, ← Value.mapping.injEq, stat, Value.update_eq_self_iff hQ,
        Value.mapping.injEq, Mapping.put_erase_eq_self_iff hq, losesPlace_concat_iff hQ, not_not]
  | list items =>
    obtain ⟨i, rfl, hi⟩ := Value.eq_index_of_child?_list (concrete q (by simp)) hq
    refine ⟨s, reinsert_delete_item hQ hi failure, .refl s, ?_, .refl _, ?_⟩
    · exact ⟨Q, .index i, _, _, rfl, hQ, .item, (Value.update_eq_self hQ rfl).symm⟩
    · exact iff_of_true rfl (not_losesPlace_of_list hQ)
  | _ => cases Value.isContainer_of_child? hq

/-- A null under a key that is named by an index stands in front of another entry, and behind it
after it came back. -/
theorem reinsert_delete_null_entry :
    let document : Mapping := [("a", .mapping [("0", .null), ("b", .list [.text "x", .text "y"])])]
    let path : Path := [.key "a", .index 0]
    let failure : Failure := .address "b" .notSequence
    (Value.mapping document).wellFormed = true ∧ (∀ u ∈ path, u.IsConcrete) ∧ path ≠ [] ∧
      (ofData document).lookup path = some .null ∧
      ∃ back, ((ofData document).delete path).1.reinsert path .null failure =
          (back, .error failure) ∧
        back.stat = [("a", .mapping [("b", .list [.text "x", .text "y"]), ("0", .null)])] ∧
        (Value.mapping document).Alike Eq (.mapping back.stat) ∧ back ≠ ofData document := by
  intro document path failure
  have wf : (Value.mapping document).wellFormed = true := by decide
  have concrete : ∀ u ∈ path, u.IsConcrete := by simp [path, Segment.IsConcrete]
  have proper : path ≠ [] := List.cons_ne_nil _ _
  have found : (ofData document).lookup path = some .null := rfl
  obtain ⟨-, back, returned, -, -, alike, -⟩ := reinsert_delete wf concrete proper found failure
  have same : (((ofData document).delete path).1.reinsert path .null failure).1 = back :=
    congrArg Prod.fst returned
  refine ⟨wf, concrete, proper, found, back, returned, ?_, alike, ?_⟩
  · rw [← same]
    rfl
  · rw [← same]
    decide

end Store

end PatchScript
