import PatchScript.Proofs.Document.FailedWrite

/-!
# What a write puts into a document

A write that does not fail puts its value where its path leads. The append marker leads nowhere: at
the end of a path it makes a place behind the last item of a list, and further up it makes an item
into which the rest of the path leads, so that the place of the value has another path.

## Main results

* `Value.resolve_write` — a value that was written stands at its path
* `Value.resolve_write_append` — a value that was appended stands behind the items of a list
-/

namespace PatchScript.Value

variable {force : Bool} {container v x written : Value} {s t : Segment} {path rest : Path}
  {value : Value}

/-- No value has a path with the append marker in it. -/
theorem append_notMem_of_resolve (h : v.resolve path = some x) : Segment.append ∉ path := by
  induction path generalizing v with
  | nil => simp
  | cons s path ih =>
    obtain ⟨child, hs, hpath⟩ := resolve_cons_eq_some_iff.1 h
    simp [(ne_append_of_child? hs).symm, ih hpath]

/-- What was put at a step is found there. -/
theorem child?_of_put (h : container.put s x = .ok written) (hs : s ≠ .append) :
    written.child? s = some x := by
  cases container with
  | mapping m =>
    obtain ⟨-, rfl⟩ := put_mapping_eq_ok h
    rw [child?_mapping hs, Mapping.get?_put, if_pos rfl]
  | list items =>
    obtain ⟨items', hput, rfl⟩ := put_list_eq_ok h
    obtain ⟨append, -⟩ | ⟨i, hi, ⟨bound, rfl⟩ | ⟨bound, rfl⟩⟩ := putItem_eq_ok hput
    · exact absurd append hs
    · exact child?_list_eq_some_iff.2 ⟨i, hi, by simp [bound]⟩
    · have front : (items ++ List.replicate (i - items.length) Value.null).length = i := by
        simp
        omega
      refine child?_list_eq_some_iff.2 ⟨i, hi, ?_⟩
      rw [List.getElem?_append_right (by omega), front]
      simp
  | _ => cases h

theorem put_append_eq_ok (h : container.put .append x = .ok written) :
    ∃ items, container = .list items ∧ written = .list (items ++ [x]) := by
  cases container with
  | mapping m => exact absurd rfl (put_mapping_eq_ok h).1
  | list items => exact ⟨items, rfl, (Except.ok.inj h).symm⟩
  | _ => cases h

/-- A write goes on in some container, which then stands behind the first step. -/
theorem write_cons_of_success
    (h : (container.write force (s :: t :: rest) value).2 = none) :
    ∃ child : Value, (child.write force (t :: rest) value).2 = none ∧
      (s ≠ .append → (container.write force (s :: t :: rest) value).1.child? s =
        some (child.write force (t :: rest) value).1) := by
  cases hway : container.way force s t with
  | blocked fault =>
    rw [write_of_blocked hway] at h
    cases h
  | into child =>
    rw [write_of_into hway] at h ⊢
    exact ⟨child, h, fun _ => child?_replaceChild (child?_of_way_eq_into hway).1 _⟩
  | anew =>
    obtain ⟨written, hput, -, equal⟩ | ⟨fault, -, equal⟩ := write_anew_cases hway rest value
    · rw [equal] at h ⊢
      exact ⟨emptyFor t, h, child?_of_put hput⟩
    · rw [equal] at h
      cases h

/-- **A value that was written** stands at its path. -/
theorem resolve_write (h : (v.write force path value).2 = none)
    (concrete : Segment.append ∉ path) : (v.write force path value).1.resolve path = some value := by
  induction path generalizing v with
  | nil => cases h
  | cons s path ih =>
    have hs : s ≠ .append := fun equal => concrete (by simp [equal])
    cases path with
    | nil =>
      cases hput : v.put s value with
      | error fault => simp [write, hput] at h
      | ok written => simp [write, hput, resolve, child?_of_put hput hs]
    | cons t rest =>
      obtain ⟨child, below, found⟩ := write_cons_of_success h
      exact resolve_cons_eq_some_iff.2 ⟨_, found hs, ih below fun later => concrete (by simp [later])⟩

/-- **A value that was appended** stands behind the items that its list had. -/
theorem resolve_write_append (h : (v.write force (path ++ [.append]) value).2 = none)
    (concrete : Segment.append ∉ path) :
    ∃ items, (v.write force (path ++ [.append]) value).1.resolve path =
      some (.list (items ++ [value])) := by
  induction path generalizing v with
  | nil =>
    cases hput : v.put .append value with
    | error fault => simp [write, hput] at h
    | ok written =>
      obtain ⟨items, -, rfl⟩ := put_append_eq_ok hput
      exact ⟨items, by simp [write, hput, resolve]⟩
  | cons s path ih =>
    have hs : s ≠ .append := fun equal => concrete (by simp [equal])
    obtain ⟨t, rest, step⟩ := List.exists_cons_of_ne_nil (show path ++ [Segment.append] ≠ [] by simp)
    rw [List.cons_append, step] at h ⊢
    obtain ⟨child, below, found⟩ := write_cons_of_success h
    rw [← step] at below
    obtain ⟨items, there⟩ := ih below fun later => concrete (by simp [later])
    exact ⟨items, resolve_cons_eq_some_iff.2 ⟨_, found hs, by rw [← step]; exact there⟩⟩

end PatchScript.Value
