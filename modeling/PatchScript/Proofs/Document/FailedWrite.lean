import PatchScript.Proofs.Document.Update

/-!
# What a write leaves

A write makes the containers that are missing on its way, and they stay when it fails further on.
Whether there are any to make depends on the document and the path alone, not on the value: a write
that makes none and fails changes nothing, and one that makes some changes the document whether it
fails or not.

## Main definitions

* `Value.makesContainer` — whether a write makes a container on its way

## Main results

* `Value.write_eq_self_iff_of_failure` — what a failed write leaves
* `Value.write_eq_self_iff_of_success` — what a write leaves that does not fail
-/

namespace PatchScript.Value

/-- Whether a write makes a container on its way. -/
def makesContainer (force : Bool) : Value → Path → Bool
  | _, [] => false
  | _, [_] => false
  | container, s :: t :: rest =>
    match container.way force s t with
    | .blocked _ => false
    | .into child => makesContainer force child (t :: rest)
    | .anew => (container.put s (emptyFor t)).isOk

variable {force : Bool} {container child v x written : Value} {s t : Segment} {path rest : Path}
  {value : Value}

theorem makesContainer_of_into (h : container.way force s t = .into child) :
    container.makesContainer force (s :: t :: rest) = child.makesContainer force (t :: rest) := by
  simp only [makesContainer, h]

theorem makesContainer_of_blocked {fault : WriteFault}
    (h : container.way force s t = .blocked fault) :
    container.makesContainer force (s :: t :: rest) = false := by
  simp only [makesContainer, h]

theorem makesContainer_of_anew (h : container.way force s t = .anew) :
    container.makesContainer force (s :: t :: rest) = (container.put s (emptyFor t)).isOk := by
  simp only [makesContainer, h]

/-! ### Putting -/

/-- A list takes every value at a step, or none, with one fault for all. -/
theorem putItem_cases (items : List Value) (s : Segment) :
    (∀ x, ∃ items', putItem items s x = .ok items') ∨
      ∃ fault, ∀ x, putItem items s x = .error fault := by
  unfold putItem
  split
  · exact .inl fun x => ⟨_, rfl⟩
  · exact .inr ⟨_, fun x => rfl⟩
  · dsimp only
    split_ifs
    · exact .inr ⟨_, fun x => rfl⟩
    · exact .inl fun x => ⟨_, rfl⟩
    · exact .inr ⟨_, fun x => rfl⟩
    · exact .inr ⟨_, fun x => rfl⟩
    · exact .inl fun x => ⟨_, rfl⟩

/-- So does every value. -/
theorem put_cases (container : Value) (s : Segment) :
    (∀ x, ∃ written, container.put s x = .ok written) ∨
      ∃ fault, ∀ x, container.put s x = .error fault := by
  cases container with
  | mapping m =>
    by_cases hs : s = .append
    · exact .inr ⟨.address .appendOnMapping, fun x => if_pos hs⟩
    · exact .inl fun x => ⟨.mapping (Mapping.put m s.label x), if_neg hs⟩
  | list items =>
    obtain taken | ⟨fault, refused⟩ := putItem_cases items s
    · refine .inl fun x => ?_
      obtain ⟨items', equal⟩ := taken x
      exact ⟨.list items', by simp only [put, equal]; rfl⟩
    · exact .inr ⟨fault, fun x => by simp only [put, refused x]; rfl⟩
  | _ => exact .inr ⟨_, fun x => rfl⟩

/-- Whether a value can be put does not depend on the value. -/
theorem put_isOk (container : Value) (s : Segment) (x y : Value) :
    (container.put s x).isOk = (container.put s y).isOk := by
  obtain taken | ⟨fault, refused⟩ := put_cases container s
  · obtain ⟨written, hx⟩ := taken x
    obtain ⟨written', hy⟩ := taken y
    rw [hx, hy]
    rfl
  · rw [refused x, refused y]

/-- Where a list takes a value: after its last item, in place of an item, or beyond the end. -/
theorem putItem_eq_ok {items items' : List Value} (h : putItem items s x = .ok items') :
    (s = .append ∧ items' = items ++ [x]) ∨
      ∃ i : Nat, s.position? = some (i : Int) ∧
        (i < items.length ∧ items' = items.set i x ∨
          items.length ≤ i ∧
            items' = items ++ List.replicate (i - items.length) .null ++ [x]) := by
  unfold putItem at h
  split at h
  · exact .inl ⟨rfl, by simpa using h.symm⟩
  · cases h
  · next i hs =>
    dsimp only at h
    split_ifs at h with negative inside
    · obtain ⟨n, rfl⟩ := Int.eq_ofNat_of_zero_le (Int.not_lt.1 negative)
      refine .inr ⟨n, hs, .inl ⟨by omega, by simpa using h.symm⟩⟩
    · obtain ⟨n, rfl⟩ := Int.eq_ofNat_of_zero_le (Int.not_lt.1 negative)
      have gap : ((n : Int) - items.length).toNat = n - items.length := by omega
      refine .inr ⟨n, hs, .inr ⟨by omega, ?_⟩⟩
      rw [← gap]
      exact (Except.ok.inj h).symm

theorem put_mapping_eq_ok {m : Mapping} (h : (Value.mapping m).put s x = .ok written) :
    s ≠ .append ∧ written = .mapping (m.put s.label x) := by
  rw [put] at h
  split at h
  · cases h
  · next hs => exact ⟨hs, (Except.ok.inj h).symm⟩

theorem put_list_eq_ok {items : List Value} (h : (Value.list items).put s x = .ok written) :
    ∃ items', putItem items s x = .ok items' ∧ written = .list items' := by
  rw [put] at h
  cases hitems : putItem items s x with
  | error fault => simp [hitems, Except.map] at h
  | ok items' =>
    refine ⟨items', rfl, ?_⟩
    rw [hitems] at h
    exact (Except.ok.inj h).symm

theorem isContainer_of_put_eq_ok (h : container.put s x = .ok written) :
    container.isContainer = true := by
  cases container with
  | list _ | mapping _ => rfl
  | _ => cases h

/-- Putting changes nothing only where the value is there already. -/
theorem child?_of_put_eq_self (h : container.put s x = .ok container) :
    container.child? s = some x := by
  have hcontainer := isContainer_of_put_eq_ok h
  cases container with
  | mapping m =>
    obtain ⟨hs, equal⟩ := put_mapping_eq_ok h
    rw [child?_mapping hs]
    exact Mapping.put_eq_self_iff.1 (Value.mapping.inj equal).symm
  | list items =>
    obtain ⟨items', hput, equal⟩ := put_list_eq_ok h
    obtain rfl : items = items' := Value.list.inj equal
    obtain ⟨-, longer⟩ | ⟨i, hs, ⟨bound, same⟩ | ⟨bound, longer⟩⟩ := putItem_eq_ok hput
    · simp at longer
    · refine child?_list_eq_some_iff.2 ⟨i, hs, ?_⟩
      rw [same]
      simp [bound]
    · have := congrArg List.length longer
      simp at this
  | _ => cases hcontainer

theorem put_of_child? (h : container.child? s = some child) (x : Value) :
    container.put s x = .ok (container.replaceChild s x) := by
  cases container with
  | mapping m => rw [put, if_neg (ne_append_of_child? h), replaceChild]
  | list items =>
    obtain ⟨i, hs, found⟩ := child?_list_eq_some_iff.1 h
    obtain ⟨bound, -⟩ := List.getElem?_eq_some_iff.1 found
    have inside : (i : Int) - items.length < 0 := by omega
    have hput : putItem items s x = .ok (items.set i x) := by
      unfold putItem
      split
      · cases hs
      · simp_all
      · next j _ hj =>
        obtain rfl : (i : Int) = j := by simpa [hs] using hj
        simp [inside]
    simp [put, hput, replaceChild, hs, Except.map]
  | _ => cases isContainer_of_child? h

/-! ### Kinds of containers -/

/-- A step that finds something leads into a container of the right kind. -/
theorem isWrongKind_of_child? (h : container.child? s = some child) :
    isWrongKind s container = false := by
  cases container with
  | mapping m => simpa [isWrongKind] using ne_append_of_child? h
  | list items =>
    obtain ⟨i, hs, -⟩ := child?_list_eq_some_iff.1 h
    cases s <;> simp_all [isWrongKind, Segment.isKey, Segment.position?]
  | _ => cases isContainer_of_child? h

/-- A write keeps a list a list. -/
theorem write_list (force : Bool) (items : List Value) (path : Path) (value : Value) :
    ∃ items', ((Value.list items).write force path value).1 = .list items' := by
  have put_list {s : Segment} {x written : Value} (h : (Value.list items).put s x = .ok written) :
      ∃ items', written = .list items' :=
    let ⟨items', _, equal⟩ := put_list_eq_ok h
    ⟨items', equal⟩
  match path with
  | [] => exact ⟨items, rfl⟩
  | [s] =>
    simp only [write]
    split
    · next h => exact put_list h
    · exact ⟨items, rfl⟩
  | s :: t :: rest =>
    cases hway : (Value.list items).way force s t with
    | blocked fault => exact ⟨items, by rw [write_of_blocked hway]⟩
    | into child =>
      rw [write_of_into hway]
      cases hs : s.position? with
      | none => exact ⟨items, by simp [replaceChild, hs]⟩
      | some i =>
        exact ⟨items.set i.toNat (child.write force (t :: rest) value).1,
          by simp only [replaceChild, hs]⟩
    | anew =>
      rw [write_of_anew hway]
      split
      · next h => exact put_list h
      · exact ⟨items, rfl⟩

/-- What a write makes anew is put into the container, and that makes a container; or it cannot be
put, and nothing is made. -/
theorem write_anew_cases (h : container.way force s t = .anew) (rest : Path) (value : Value) :
    (∃ written, container.put s ((emptyFor t).write force (t :: rest) value).1 = .ok written ∧
        container.makesContainer force (s :: t :: rest) = true ∧
        container.write force (s :: t :: rest) value =
          (written, ((emptyFor t).write force (t :: rest) value).2)) ∨
      ∃ fault, container.makesContainer force (s :: t :: rest) = false ∧
        container.write force (s :: t :: rest) value = (container, some fault) := by
  rw [makesContainer_of_anew h, write_of_anew h,
    put_isOk container s _ ((emptyFor t).write force (t :: rest) value).1]
  cases hput : container.put s ((emptyFor t).write force (t :: rest) value).1 with
  | ok written => exact .inl ⟨written, rfl, rfl, rfl⟩
  | error fault => exact .inr ⟨fault, rfl, rfl⟩

/-- What is made for a step is a container into which the step leads, and remains one. -/
theorem write_emptyFor (force : Bool) (t : Segment) (rest : Path) (value : Value) :
    ((emptyFor t).write force (t :: rest) value).1.isContainer = true ∧
      isWrongKind t ((emptyFor t).write force (t :: rest) value).1 = false := by
  rw [emptyFor]
  split
  · next indexed =>
    obtain ⟨items, equal⟩ := write_list force [] (t :: rest) value
    rw [equal]
    refine ⟨rfl, ?_⟩
    cases t <;> simp_all [isWrongKind, Segment.isKey, Segment.isIndexed, Segment.position?]
  · next notIndexed =>
    have equal := mapping_entries_write force [] (t :: rest) value
    rw [← equal]
    refine ⟨rfl, ?_⟩
    cases t <;> simp_all [isWrongKind, Segment.isIndexed]

/-! ### What is left -/

/-- Induction along the way of a write. -/
@[elab_as_elim]
theorem way_induction (force : Bool) {motive : Value → Path → Prop}
    (root : ∀ v, motive v [])
    (last : ∀ v s, motive v [s])
    (blocked : ∀ v s t rest fault, v.way force s t = .blocked fault → motive v (s :: t :: rest))
    (into : ∀ v s t rest child, v.way force s t = .into child → motive child (t :: rest) →
      motive v (s :: t :: rest))
    (anew : ∀ v s t rest, v.way force s t = .anew → motive v (s :: t :: rest))
    (v : Value) (path : Path) : motive v path := by
  induction path generalizing v with
  | nil => exact root v
  | cons s path ih =>
    cases path with
    | nil => exact last v s
    | cons t rest =>
      cases hway : v.way force s t with
      | blocked fault => exact blocked v s t rest fault hway
      | into child => exact into v s t rest child hway (ih child)
      | anew => exact anew v s t rest hway

/-- A write that fails and makes no container changes nothing. -/
theorem write_eq_self_of_failure (h : (v.write force path value).2.isSome = true)
    (makes : v.makesContainer force path = false) : (v.write force path value).1 = v := by
  induction v, path using way_induction force with
  | root v => rfl
  | last v s =>
    cases hput : v.put s value with
    | ok written => simp [write, hput] at h
    | error fault => simp [write, hput]
  | blocked v s t rest fault hway => rw [write_of_blocked hway]
  | into v s t rest child hway ih =>
    rw [makesContainer_of_into hway] at makes
    rw [write_of_into hway] at h ⊢
    exact (replaceChild_eq_self_iff (child?_of_way_eq_into hway).1).2 (ih h makes)
  | anew v s t rest hway =>
    obtain ⟨written, -, made, -⟩ | ⟨fault, -, left⟩ := write_anew_cases hway rest value
    · simp [made] at makes
    · rw [left]

/-- A write that makes a container changes the document. -/
theorem write_ne_self (makes : v.makesContainer force path = true) (value : Value) :
    (v.write force path value).1 ≠ v := by
  induction v, path using way_induction force with
  | root v => cases makes
  | last v s => cases makes
  | blocked v s t rest fault hway =>
    rw [makesContainer_of_blocked hway] at makes
    cases makes
  | into v s t rest child hway ih =>
    intro same
    rw [makesContainer_of_into hway] at makes
    rw [write_of_into hway] at same
    exact ih makes ((replaceChild_eq_self_iff (child?_of_way_eq_into hway).1).1 same)
  | anew v s t rest hway =>
    intro same
    obtain ⟨written, hput, -, left⟩ | ⟨fault, nothing, -⟩ := write_anew_cases hway rest value
    · obtain rfl : written = v := by simpa [left] using same
      -- a container of the right kind would not have been made anew
      obtain ⟨isContainer, kind⟩ := write_emptyFor force t rest value
      rw [way_eq_into (child?_of_put_eq_self hput) isContainer (by simp [kind])] at hway
      cases hway
    · simp [nothing] at makes

/-- **A failed write** leaves the document as it was, unless it made a container on its way. -/
theorem write_eq_self_iff_of_failure (h : (v.write force path value).2.isSome = true) :
    (v.write force path value).1 = v ↔ v.makesContainer force path = false := by
  constructor
  · intro same
    by_contra makes
    exact write_ne_self (by simpa using makes) value same
  · exact write_eq_self_of_failure h

/-! ### Success -/

/-- The way to a value that is there leads into containers that are there. -/
theorem way_of_resolve (force : Bool) (h : v.resolve (s :: t :: rest) = some x) :
    ∃ child, v.way force s t = .into child ∧ child.resolve (t :: rest) = some x := by
  obtain ⟨child, hs, hrest⟩ := resolve_cons_eq_some_iff.1 h
  obtain ⟨_, ht, -⟩ := resolve_cons_eq_some_iff.1 hrest
  exact ⟨child, way_eq_into hs (isContainer_of_child? ht) (by simp [isWrongKind_of_child? ht]),
    hrest⟩

theorem makesContainer_of_resolve (force : Bool) (h : v.resolve path = some x) :
    v.makesContainer force path = false := by
  induction v, path using way_induction force with
  | root v => rfl
  | last v s => rfl
  | blocked v s t rest fault hway => exact makesContainer_of_blocked hway
  | into v s t rest child hway ih =>
    obtain ⟨child', hway', hrest⟩ := way_of_resolve force h
    obtain rfl : child = child' := by simpa [hway] using hway'
    rw [makesContainer_of_into hway, ih hrest]
  | anew v s t rest hway =>
    obtain ⟨child', hway', -⟩ := way_of_resolve force h
    rw [hway] at hway'
    cases hway'

/-- **A write that does not fail** leaves the document as it was only where the value is there
already. -/
theorem write_eq_self_iff_of_success (h : (v.write force path value).2 = none) :
    (v.write force path value).1 = v ↔ v.resolve path = some value := by
  induction v, path using way_induction force with
  | root v => cases h
  | last v s =>
    have resolve_last : v.resolve [s] = v.child? s := by
      rw [resolve]
      cases v.child? s <;> rfl
    rw [resolve_last]
    constructor
    · intro same
      cases hput : v.put s value with
      | ok written =>
        obtain rfl : written = v := by simpa [write, hput] using same
        exact child?_of_put_eq_self hput
      | error fault => simp [write, hput] at h
    · intro there
      simp only [write, put_of_child? there, replaceChild_eq_self there]
  | blocked v s t rest fault hway =>
    rw [write_of_blocked hway] at h
    cases h
  | into v s t rest child hway ih =>
    obtain ⟨hs, -⟩ := child?_of_way_eq_into hway
    rw [write_of_into hway] at h ⊢
    have below : v.resolve (s :: t :: rest) = child.resolve (t :: rest) := by
      rw [resolve, hs]
    rw [below, ← ih h]
    exact replaceChild_eq_self_iff hs
  | anew v s t rest hway =>
    obtain ⟨written, -, makes, -⟩ | ⟨fault, -, left⟩ := write_anew_cases hway rest value
    · refine iff_of_false (write_ne_self makes value) ?_
      intro there
      rw [makesContainer_of_resolve force there] at makes
      cases makes
    · simp [left] at h

/-- After a write at the append marker that makes no container, its list is found again. -/
theorem resolve_dropLast_write (h : (v.write force path value).2 = none)
    (makes : v.makesContainer force path = false) (hlast : path.getLast? = some .append) :
    ∃ items, (v.write force path value).1.resolve path.dropLast = some (.list items) := by
  induction v, path using way_induction force with
  | root v => cases h
  | last v s =>
    obtain rfl : s = .append := by simpa using hlast
    cases hput : v.put .append value with
    | error fault => simp [write, hput] at h
    | ok written =>
      cases v with
      | mapping m => exact absurd rfl (put_mapping_eq_ok hput).1
      | list items =>
        obtain ⟨items', -, rfl⟩ := put_list_eq_ok hput
        exact ⟨items', by simp [write, hput, resolve]⟩
      | _ => cases hput
  | blocked v s t rest fault hway =>
    rw [write_of_blocked hway] at h
    cases h
  | into v s t rest child hway ih =>
    rw [makesContainer_of_into hway] at makes
    rw [write_of_into hway] at h ⊢
    obtain ⟨items, found⟩ := ih h makes (by simpa using hlast)
    refine ⟨items, ?_⟩
    rw [List.dropLast_cons_cons, resolve_cons_eq_some_iff]
    exact ⟨_, child?_replaceChild (child?_of_way_eq_into hway).1 _, found⟩
  | anew v s t rest hway =>
    obtain ⟨written, -, made, -⟩ | ⟨fault, -, left⟩ := write_anew_cases hway rest value
    · simp [made] at makes
    · simp [left] at h

end PatchScript.Value
