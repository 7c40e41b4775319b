import PatchScript.Proofs.Document.FailedWrite
import PatchScript.Proofs.Value.Size
import Mathlib.Data.List.InsertIdx

/-!
# Putting back

A value that was taken out of a container is put back after a write failed elsewhere in the
document. Is the document then what it was? In a list the value comes back to its index. In a
mapping its entry comes back at the end. And whatever the failed write made is still there, unless
it stands in the very place of the entry that comes back, which then takes its place.

The size of the document tells that nothing else makes up for what a failed write left.

## Main results

* `Value.sizeOf_lt_write` — a write that makes a container makes the document larger
* `Value.write_within` — a failed write leaves a container as it was, or is a write into it
* `Value.putBack_list_eq_self_iff`, `Value.putBack_mapping_eq_self_iff`
-/

namespace PatchScript.Value

variable {container child c v x written value : Value} {s t : Segment} {path rest Q T : Path}

/-! ### Sizes of documents -/

theorem sizeOf_replaceChild (h : container.child? s = some child) (x : Value) :
    sizeOf (container.replaceChild s x) + sizeOf child = sizeOf container + sizeOf x := by
  cases container with
  | mapping m =>
    rw [child?_mapping (ne_append_of_child? h)] at h
    have := Mapping.sizeOf_put_of_get? h x
    simp only [replaceChild, Value.mapping.sizeOf_spec]
    omega
  | list items =>
    obtain ⟨i, hs, found⟩ := child?_list_eq_some_iff.1 h
    have := sizeOf_set found (x := x)
    simp only [replaceChild, hs, Value.list.sizeOf_spec, Int.toNat_natCast]
    omega
  | _ => cases isContainer_of_child? h

theorem sizeOf_update (h : v.resolve path = some x) (f : Value → Value) :
    sizeOf (v.update f path) + sizeOf x = sizeOf v + sizeOf (f x) := by
  induction path generalizing v with
  | nil =>
    obtain rfl : v = x := by simpa [resolve] using h
    rw [update]
    omega
  | cons s path ih =>
    obtain ⟨child, hs, hpath⟩ := resolve_cons_eq_some_iff.1 h
    have below := ih hpath
    have step := sizeOf_replaceChild hs (child.update f path)
    simp only [update, hs]
    omega

/-- Putting something where there was nothing makes a container larger. -/
theorem sizeOf_lt_put (h : container.put s x = .ok written)
    (nothing : container.child? s = none ∨ container.child? s = some .null)
    (hx : sizeOf Value.null < sizeOf x) : sizeOf container < sizeOf written := by
  have hcontainer := isContainer_of_put_eq_ok h
  cases container with
  | mapping m =>
    obtain ⟨hs, rfl⟩ := put_mapping_eq_ok h
    rw [child?_mapping hs] at nothing
    simp only [Value.mapping.sizeOf_spec]
    rcases nothing with absent | null
    · have := Mapping.sizeOf_put_of_not_mem (Mapping.get?_eq_none_iff.1 absent) x
      omega
    · have := Mapping.sizeOf_put_of_get? null x
      omega
  | list items =>
    obtain ⟨items', hput, rfl⟩ := put_list_eq_ok h
    simp only [Value.list.sizeOf_spec]
    obtain ⟨-, rfl⟩ | ⟨i, hs, ⟨bound, rfl⟩ | ⟨bound, rfl⟩⟩ := putItem_eq_ok hput
    · have := sizeOf_append items [x]
      simp only [List.cons.sizeOf_spec, List.nil.sizeOf_spec] at this
      omega
    · have found : (Value.list items).child? s = some items[i] :=
        child?_list_eq_some_iff.2 ⟨i, hs, by simp [bound]⟩
      obtain null : items[i] = .null := by simpa [found] using nothing
      have := sizeOf_set (x := x) (List.getElem?_eq_getElem bound)
      rw [null] at this
      omega
    · have front := sizeOf_append items (List.replicate (i - items.length) Value.null)
      have back := sizeOf_append (items ++ List.replicate (i - items.length) Value.null) [x]
      have := sizeOf_pos (List.replicate (i - items.length) Value.null)
      simp only [List.cons.sizeOf_spec, List.nil.sizeOf_spec] at back
      omega
  | _ => cases hcontainer

/-- A write that makes a container makes the document larger. -/
theorem sizeOf_lt_write (makes : v.makesContainer false path = true) (value : Value) :
    sizeOf v < sizeOf (v.write false path value).1 := by
  induction v, path using way_induction false with
  | root v => cases makes
  | last v s => cases makes
  | blocked v s t rest fault hway =>
    rw [makesContainer_of_blocked hway] at makes
    cases makes
  | into v s t rest child hway ih =>
    rw [makesContainer_of_into hway] at makes
    rw [write_of_into hway]
    have below := ih makes
    have step := sizeOf_replaceChild (child?_of_way_eq_into hway).1
      (child.write false (t :: rest) value).1
    dsimp only
    omega
  | anew v s t rest hway =>
    obtain ⟨written, hput, -, left⟩ | ⟨fault, nothing, -⟩ := write_anew_cases hway rest value
    · have larger := sizeOf_null_lt (write_emptyFor false t rest value).1
      rw [left]
      exact sizeOf_lt_put hput (child?_of_way_eq_anew hway) larger
    · simp [nothing] at makes

/-! ### A container on or off the way -/

/-- Replacing one child replaces another one too, or leaves it alone. -/
theorem replaceChild_cases (ht : container.child? t = some c)
    (hs : container.child? s = some child) :
    (c = child ∧ ∀ y, container.replaceChild t y = container.replaceChild s y) ∨
      ∀ y, (container.replaceChild t y).child? s = some child := by
  cases container with
  | mapping m =>
    rw [child?_mapping (ne_append_of_child? ht)] at ht
    have append := ne_append_of_child? hs
    rw [child?_mapping append] at hs
    by_cases same : t.label = s.label
    · refine .inl ⟨?_, fun y => by rw [replaceChild, replaceChild, same]⟩
      rw [same, hs] at ht
      exact (Option.some.inj ht).symm
    · refine .inr fun y => ?_
      rw [replaceChild, child?_mapping append, Mapping.get?_put, if_neg same, hs]
  | list items =>
    obtain ⟨i, hi, foundi⟩ := child?_list_eq_some_iff.1 ht
    obtain ⟨j, hj, foundj⟩ := child?_list_eq_some_iff.1 hs
    by_cases same : i = j
    · subst same
      refine .inl ⟨?_, fun y => by simp only [replaceChild, hi, hj]⟩
      rw [foundi] at foundj
      exact Option.some.inj foundj
    · refine .inr fun y => ?_
      simp only [replaceChild, hi]
      exact child?_list_eq_some_iff.2 ⟨j, hj, by simp [same, foundj]⟩
  | _ => cases isContainer_of_child? ht

/-- Putting something where there was nothing leaves the containers there alone. -/
theorem child?_put (h : container.put t x = .ok written)
    (nothing : container.child? t = none ∨ container.child? t = some .null)
    (hs : container.child? s = some child) (hchild : child.isContainer = true) :
    written.child? s = some child := by
  have hcontainer := isContainer_of_put_eq_ok h
  have elsewhere : container.child? t ≠ some child := by
    rintro there
    rcases nothing with absent | null
    · simp [absent] at there
    · obtain rfl : Value.null = child := by simpa [null] using there
      cases hchild
  cases container with
  | mapping m =>
    obtain ⟨ht, rfl⟩ := put_mapping_eq_ok h
    have append := ne_append_of_child? hs
    rw [child?_mapping ht] at elsewhere
    rw [child?_mapping append] at hs ⊢
    have different : t.label ≠ s.label := fun same => elsewhere (same ▸ hs)
    rw [Mapping.get?_put, if_neg different, hs]
  | list items =>
    obtain ⟨items', hput, rfl⟩ := put_list_eq_ok h
    obtain ⟨j, hj, found⟩ := child?_list_eq_some_iff.1 hs
    obtain ⟨inside, -⟩ := List.getElem?_eq_some_iff.1 found
    refine child?_list_eq_some_iff.2 ⟨j, hj, ?_⟩
    obtain ⟨-, rfl⟩ | ⟨i, hi, ⟨bound, rfl⟩ | ⟨bound, rfl⟩⟩ := putItem_eq_ok hput
    · rw [List.getElem?_append_left inside, found]
    · have different : i ≠ j := fun same =>
        elsewhere (child?_list_eq_some_iff.2 ⟨i, hi, same ▸ found⟩)
      rw [List.getElem?_set_ne different, found]
    · rw [List.append_assoc, List.getElem?_append_left inside, found]
  | _ => cases hcontainer

/-- A failed write leaves a container as it was, or it is a failed write into the container. -/
theorem write_within (h : v.resolve Q = some x) (hx : x.isContainer = true)
    (failed : (v.write false T value).2.isSome = true) :
    (v.write false T value).1.resolve Q = some x ∨
      ∃ T', (x.write false T' value).2.isSome = true ∧
        (v.write false T value).1 = v.update (fun _ => (x.write false T' value).1) Q := by
  induction Q generalizing v T with
  | nil =>
    obtain rfl : v = x := by simpa [resolve] using h
    exact .inr ⟨T, failed, rfl⟩
  | cons s Q ih =>
    obtain ⟨child, hs, hQ⟩ := resolve_cons_eq_some_iff.1 h
    have unchanged (same : (v.write false T value).1 = v) :
        (v.write false T value).1.resolve (s :: Q) = some x := by rw [same, h]
    by_cases makes : v.makesContainer false T = true
    · rcases T with _ | ⟨t, _ | ⟨u, rest⟩⟩
      · cases makes
      · cases makes
      · cases hway : v.way false t u with
        | blocked fault => exact .inl (unchanged (by rw [write_of_blocked hway]))
        | into c =>
          obtain ⟨ht, -⟩ := child?_of_way_eq_into hway
          rw [write_of_into hway] at failed ⊢
          obtain ⟨rfl, same⟩ | apart := replaceChild_cases ht hs
          · obtain left | ⟨T', failed', changed⟩ := ih hQ failed
            · refine .inl (resolve_cons_eq_some_iff.2 ⟨_, ?_, left⟩)
              rw [same, child?_replaceChild hs]
            · refine .inr ⟨T', failed', ?_⟩
              simp only [update, hs, same, changed]
          · exact .inl (resolve_cons_eq_some_iff.2 ⟨child, apart _, hQ⟩)
        | anew =>
          obtain ⟨written, hput, -, left⟩ | ⟨fault, nothing, -⟩ := write_anew_cases hway rest value
          · have apart := child?_put hput (child?_of_way_eq_anew hway) hs
              (isContainer_of_resolve hQ hx)
            rw [left]
            exact .inl (resolve_cons_eq_some_iff.2 ⟨child, apart, hQ⟩)
          · simp [nothing] at makes
    · exact .inl (unchanged (write_eq_self_of_failure failed (by simpa using makes)))

/-- A failed write leaves a list a list. -/
theorem resolve_write_list {items : List Value} (h : v.resolve Q = some (.list items))
    (failed : (v.write false T value).2.isSome = true) :
    ∃ left, (v.write false T value).1.resolve Q = some (.list left) := by
  obtain same | ⟨T', -, changed⟩ := write_within h rfl failed
  · exact ⟨items, same⟩
  · obtain ⟨left, written⟩ := write_list false items T' value
    exact ⟨left, by rw [changed, resolve_update h, written]⟩

/-- A failed write leaves a mapping a mapping. -/
theorem exists_resolve_write_mapping {m : Mapping} (h : v.resolve Q = some (.mapping m))
    (failed : (v.write false T value).2.isSome = true) :
    ∃ m', (v.write false T value).1.resolve Q = some (.mapping m') := by
  obtain same | ⟨T', -, changed⟩ := write_within h rfl failed
  · exact ⟨m, same⟩
  · refine ⟨((Value.mapping m).write false T' value).1.entries, ?_⟩
    rw [changed, resolve_update h, mapping_entries_write]

/-! ### Putting back -/

section PutBack

variable {document taken : Value} {items left : List Value} {m m' : Mapping} {i : Nat} {k : String}

/-- A failed write leaves a mapping as it was, or puts one value into it and nothing anywhere
else. -/
theorem resolve_write_mapping (h : taken.resolve Q = some (.mapping m))
    (failed : (taken.write false T value).2.isSome = true)
    (hleft : (taken.write false T value).1.resolve Q = some (.mapping m')) :
    m' = m ∨ ∃ l y, m' = m.put l y ∧
      (taken.write false T value).1 = taken.update (fun _ => .mapping m') Q := by
  obtain same | ⟨T', failed', changed⟩ := write_within h rfl failed
  · rw [hleft] at same
    exact .inl (by simpa using same)
  · have found := resolve_update h fun _ => ((Value.mapping m).write false T' value).1
    rw [← changed, hleft, Option.some.injEq] at found
    rw [← found] at changed
    cases T' with
    | nil => exact .inl (by simpa [write] using found)
    | cons t T' =>
      obtain ⟨unchanged, -⟩ | ⟨-, y, written⟩ := write_mapping false m t T' value
      · rw [unchanged] at found
        exact .inl (by simpa using found)
      · rw [written] at found
        exact .inr ⟨t.label, y, by simpa using found, changed⟩

/-- A failed write makes up for a container that was changed exactly when the container is again
what it was. -/
theorem write_eq_iff_resolve {p p' : Value} (hQ : document.resolve Q = some p)
    (hp : p'.isContainer = true) (different : p' ≠ p)
    (htaken : document.update (fun _ => p') Q = taken)
    (failed : (taken.write false T value).2.isSome = true) :
    (taken.write false T value).1 = document ↔
      (taken.write false T value).1.resolve Q = some p := by
  have there : taken.resolve Q = some p' := by rw [← htaken, resolve_update hQ]
  constructor
  · intro same
    rw [same, hQ]
  · intro again
    obtain left | ⟨T', -, changed⟩ := write_within there hp failed
    · rw [left, Option.some.injEq] at again
      exact absurd again different
    · rw [changed, resolve_update there, Option.some.injEq] at again
      rw [changed, ← htaken, update_update hQ]
      exact update_eq_self hQ again

/-- **A value comes back to its list** as it was exactly when the failed write made no container. -/
theorem putBack_list_eq_self_iff (hQ : document.resolve Q = some (.list items))
    (hi : items[i]? = some v)
    (htaken : document.update (fun _ => .list (items.eraseIdx i)) Q = taken)
    (failed : (taken.write false T value).2.isSome = true)
    (hleft : (taken.write false T value).1.resolve Q = some (.list left)) :
    (taken.write false T value).1.update
        (fun _ => .list (left.insertIdx (min i left.length) v)) Q = document ↔
      taken.makesContainer false T = false := by
  constructor
  · intro back
    by_contra makes
    have larger := sizeOf_lt_write (by simpa using makes) value
    have removed := sizeOf_update hQ fun _ => .list (items.eraseIdx i)
    have inserted := sizeOf_update hleft fun _ => .list (left.insertIdx (min i left.length) v)
    have := sizeOf_eraseIdx hi
    have := sizeOf_insertIdx (Nat.min_le_right i left.length) v
    rw [htaken] at removed
    rw [back] at inserted
    simp only [Value.list.sizeOf_spec] at removed inserted
    omega
  · intro makes
    have unchanged := write_eq_self_of_failure failed makes
    rw [unchanged] at hleft ⊢
    rw [← htaken, resolve_update hQ, Option.some.injEq, Value.list.injEq] at hleft
    obtain ⟨bound, rfl⟩ := List.getElem?_eq_some_iff.1 hi
    have index : min i left.length = i := by
      rw [← hleft, List.length_eraseIdx_of_lt bound]
      omega
    rw [← htaken, update_update hQ]
    refine update_eq_self hQ ?_
    rw [Function.comp_apply, index, ← hleft, List.insertIdx_eraseIdx_getElem bound]

/-- **An entry comes back to its mapping** as it was exactly when it stood last and the failed write
made no container, or made it in the place of the entry. -/
theorem putBack_mapping_eq_self_iff (hQ : document.resolve Q = some (.mapping m))
    (hk : m.get? k = some v)
    (htaken : document.update (fun _ => .mapping (m.erase k)) Q = taken)
    (failed : (taken.write false T value).2.isSome = true)
    (hleft : (taken.write false T value).1.resolve Q = some (.mapping m')) :
    (taken.write false T value).1.update (fun _ => .mapping (m'.put k v)) Q = document ↔
      m.keys.idxOf k + 1 = m.length ∧ (taken.makesContainer false T = true → k ∈ m'.keys) := by
  have there : taken.resolve Q = some (.mapping (m.erase k)) := by
    rw [← htaken, resolve_update hQ]
  have put := resolve_write_mapping there failed hleft
  have gone (back : m'.put k v = m) : k ∉ (m.erase k).keys :=
    Mapping.not_mem_keys_erase (Mapping.mem_keys_of_get? hk)
      (put.imp_right fun ⟨l, y, equal, _⟩ => ⟨l, y, equal⟩) back
  rw [← Mapping.put_erase_eq_self_iff hk]
  constructor
  · intro back
    have entries : m'.put k v = m := by
      have found := resolve_update hleft fun _ => .mapping (m'.put k v)
      rw [back, hQ] at found
      simpa using found.symm
    by_cases covered : k ∈ m'.keys
    · refine ⟨?_, fun _ => covered⟩
      obtain rfl | ⟨l, y, rfl, -⟩ := put
      · exact absurd covered (gone entries)
      · obtain rfl : k = l := ((Mapping.mem_keys_put _ l y).1 covered).resolve_right (gone entries)
        rw [← Mapping.put_put, entries]
    · -- both documents hold the entry in addition to what they held without it
      have makes : taken.makesContainer false T = false := by
        by_contra makes
        have larger := sizeOf_lt_write (by simpa using makes) value
        have removed := sizeOf_update hQ fun _ => .mapping (m.erase k)
        have inserted := sizeOf_update hleft fun _ => .mapping (m'.put k v)
        have := Mapping.sizeOf_erase hk
        have := Mapping.sizeOf_put_of_not_mem covered v
        rw [htaken] at removed
        rw [back] at inserted
        simp only [Value.mapping.sizeOf_spec] at removed inserted
        omega
      have unchanged := write_eq_self_of_failure failed makes
      rw [unchanged, there, Option.some.injEq, Value.mapping.injEq] at hleft
      exact ⟨hleft ▸ entries, by simp [makes]⟩
  · rintro ⟨last, covered⟩
    have absent : k ∉ (m.erase k).keys :=
      Mapping.not_mem_keys_erase (Mapping.mem_keys_of_get? hk) (.inl rfl) last
    obtain ⟨entries, changed⟩ : m'.put k v = m ∧
        (taken.write false T value).1 = taken.update (fun _ => .mapping m') Q := by
      by_cases makes : taken.makesContainer false T = true
      · obtain rfl | ⟨l, y, rfl, changed⟩ := put
        · exact absurd (covered makes) absent
        · obtain rfl : k = l :=
            ((Mapping.mem_keys_put _ l y).1 (covered makes)).resolve_right absent
          exact ⟨by rw [Mapping.put_put, last], changed⟩
      · have unchanged := write_eq_self_of_failure failed (by simpa using makes)
        rw [unchanged, there, Option.some.injEq, Value.mapping.injEq] at hleft
        subst hleft
        exact ⟨last, by rw [unchanged, update_eq_self there rfl]⟩
    rw [changed, ← htaken, update_update hQ, update_update hQ]
    exact update_eq_self hQ (by simp [entries])

end PutBack

end PatchScript.Value
