import PatchScript.Proofs.Document.Landing

/-!
# Writing again

Whether a write goes through is decided by the document and the path, and not by the value. So what
was written once can be written again. At a location without append markers the second write leaves
nothing of the first: it makes of the document what it would have made of it in the first place.

A forced write stops only where a value cannot be put at a step. So it goes through to an item of a
list exactly when it goes through to the list, if the item is not too far behind the others.

## Main results

* `Value.write_fault_eq` — the fault of a write does not depend on the value
* `Value.write_write` — the second of two writes wins
* `Value.write_forced_again` — a forced write can be repeated
* `Value.write_forced_item_iff` — forced writes to a list and to an item of it
-/

namespace PatchScript.Value

variable {force : Bool} {container v x written : Value} {s t : Segment} {path : Path}

/-! ### Putting -/

/-- What was put at a step gives way to what is put there later. -/
theorem put_put (h : container.put s x = .ok written) (hs : s ≠ .append) (y : Value) :
    container.put s y = .ok (written.replaceChild s y) := by
  obtain ⟨written', hy⟩ | ⟨fault, refused⟩ := (put_cases container s).imp_left fun taken => taken y
  swap
  · rw [refused x] at h
    cases h
  rw [hy]
  cases container with
  | mapping m =>
    obtain ⟨-, rfl⟩ := put_mapping_eq_ok h
    obtain ⟨-, rfl⟩ := put_mapping_eq_ok hy
    rw [replaceChild, Mapping.put_put]
  | list items =>
    obtain ⟨left, hleft, rfl⟩ := put_list_eq_ok h
    obtain ⟨left', hleft', rfl⟩ := put_list_eq_ok hy
    obtain ⟨marker, -⟩ | ⟨i, hi, left⟩ := putItem_eq_ok hleft
    · exact absurd marker hs
    obtain ⟨marker, -⟩ | ⟨j, hj, left'⟩ := putItem_eq_ok hleft'
    · exact absurd marker hs
    obtain rfl : i = j := by exact_mod_cast Option.some.inj (hi.symm.trans hj)
    have replaced (items : List Value) :
        (Value.list items).replaceChild s y = .list (items.set i y) := by
      simp only [replaceChild, hi, Int.toNat_natCast]
    rw [replaced]
    rcases left with ⟨inside, rfl⟩ | ⟨beyond, rfl⟩ <;> rcases left' with ⟨_, rfl⟩ | ⟨_, rfl⟩
    · rw [List.set_set]
    · omega
    · omega
    · -- the item stands behind the nulls that fill the gap
      have front : (items ++ List.replicate (i - items.length) Value.null).length = i := by
        simp only [List.length_append, List.length_replicate]
        omega
      rw [List.set_append_right _ _ (by omega), front]
      simp
  | _ => cases h

/-- Where a value was put, another one can be put. -/
theorem put_again (h : container.put s x = .ok written) (y : Value) :
    ∃ written', written.put s y = .ok written' := by
  by_cases hs : s = .append
  · subst hs
    obtain ⟨items, -, rfl⟩ := put_append_eq_ok h
    exact ⟨.list (items ++ [x] ++ [y]), rfl⟩
  · exact ⟨_, put_of_child? (child?_of_put h hs) y⟩

/-! ### Faults -/

/-- **The fault of a write** does not depend on the value. -/
theorem write_fault_eq (force : Bool) (v : Value) (path : Path) (x y : Value) :
    (v.write force path x).2 = (v.write force path y).2 := by
  induction path generalizing v with
  | nil => rfl
  | cons s path ih =>
    cases path with
    | nil =>
      rw [write, write]
      obtain taken | ⟨fault, refused⟩ := put_cases v s
      · obtain ⟨written, hx⟩ := taken x
        obtain ⟨written', hy⟩ := taken y
        rw [hx, hy]
      · rw [refused x, refused y]
    | cons t rest =>
      cases hway : v.way force s t with
      | blocked fault => rw [write_of_blocked hway, write_of_blocked hway]
      | into child =>
        rw [write_of_into hway, write_of_into hway]
        exact ih child
      | anew =>
        rw [write_of_anew hway, write_of_anew hway]
        obtain taken | ⟨fault, refused⟩ := put_cases v s
        · obtain ⟨written, hx⟩ := taken ((emptyFor t).write force (t :: rest) x).1
          obtain ⟨written', hy⟩ := taken ((emptyFor t).write force (t :: rest) y).1
          rw [hx, hy]
          exact ih (emptyFor t)
        · rw [refused, refused]

/-- What was written without a fault can be written in another value. -/
theorem write_fault_eq_none (h : (v.write force path x).2 = none) (y : Value) :
    (v.write force path y).2 = none :=
  (write_fault_eq force v path y x).trans h

/-! ### The second write -/

/-- **The second of two writes** to a location without append markers makes of the document what it
would have made of it without the first one. -/
theorem write_write (concrete : Segment.append ∉ path) (h : (v.write false path x).2 = none)
    (y : Value) : (v.write false path x).1.write false path y = v.write false path y := by
  induction path generalizing v with
  | nil => cases h
  | cons s path ih =>
    have hs : s ≠ .append := fun equal => concrete (by simp [equal])
    have later : Segment.append ∉ path := fun below => concrete (by simp [below])
    cases path with
    | nil =>
      have hput := put_of_write_last h
      generalize (v.write false [s] x).1 = written at hput ⊢
      simp only [write, put_of_child? (child?_of_put hput hs), put_put hput hs]
    | cons t rest =>
      have ht : t ≠ .append := fun equal => later (by simp [equal])
      -- what the first write leaves behind the step is a container, into which the second one goes
      have goes {v' child : Value} (there : v'.child? s = some (child.write false (t :: rest) x).1)
          (success : (child.write false (t :: rest) x).2 = none) :
          v'.write false (s :: t :: rest) y =
            (v'.replaceChild s (child.write false (t :: rest) y).1,
              (child.write false (t :: rest) y).2) := by
        have found : ∃ z, (child.write false (t :: rest) x).1.resolve (t :: rest) = some z :=
          ⟨x, resolve_write success later⟩
        obtain ⟨z, hz⟩ := found
        obtain ⟨_, hc, -⟩ := resolve_cons_eq_some_iff.1 hz
        have hway : v'.way false s t = .into _ := way_eq_into there (isContainer_of_child? hc) rfl
        rw [write_of_into hway, ih later success]
      cases hway : v.way false s t with
      | blocked fault =>
        rw [write_of_blocked hway] at h
        cases h
      | into child =>
        rw [write_of_into hway] at h ⊢
        have there := child?_replaceChild (child?_of_way_eq_into hway).1
          (child.write false (t :: rest) x).1
        rw [goes there h, replaceChild_replaceChild, write_of_into hway]
      | anew =>
        obtain ⟨written, hput, -, equal⟩ | ⟨fault, -, equal⟩ := write_anew_cases hway rest x
        · rw [equal] at h ⊢
          rw [goes (child?_of_put hput hs) h, write_of_anew hway, put_put hput hs]
        · rw [equal] at h
          cases h

/-! ### Forced writes -/

/-- A write leaves a container of the kind that it found. -/
theorem isWrongKind_write (h : isWrongKind t v = false) (path : Path) (x : Value) :
    isWrongKind t (v.write force path x).1 = false := by
  cases v with
  | list items =>
    obtain ⟨items', equal⟩ := write_list force items path x
    rw [equal]
    exact h
  | mapping m =>
    rw [← mapping_entries_write force m path x]
    exact h
  | _ => cases h

/-- A forced write fails where a value cannot be put, at the step or further down. -/
theorem write_forced_fault_iff (v : Value) (s t : Segment) (rest : Path) (x : Value) :
    (v.write true (s :: t :: rest) x).2 = none ↔
      (∃ written, v.put s x = .ok written) ∧ ((v.inner s t).write true (t :: rest) x).2 = none := by
  rw [write_forced]
  obtain taken | ⟨fault, refused⟩ := put_cases v s
  · obtain ⟨w, hw⟩ := taken ((v.inner s t).write true (t :: rest) x).1
    rw [hw]
    exact ⟨fun h => ⟨taken x, h⟩, fun h => h.2⟩
  · rw [refused, refused x]
    simp

theorem write_last_fault_iff (v : Value) (s : Segment) (x : Value) :
    (v.write force [s] x).2 = none ↔ ∃ written, v.put s x = .ok written := by
  rw [write]
  cases v.put s x <;> simp

/-- **A forced write** that went through can be repeated with any value. -/
theorem write_forced_again (h : (v.write true path x).2 = none) (y : Value) :
    ((v.write true path x).1.write true path y).2 = none := by
  induction path generalizing v with
  | nil => cases h
  | cons s path ih =>
    cases path with
    | nil => exact (write_last_fault_iff _ s y).2 (put_again (put_of_write_last h) y)
    | cons t rest =>
      obtain ⟨hput, success⟩ := put_of_write_forced h
      refine (write_forced_fault_iff _ s t rest y).2 ⟨put_again hput y, ?_⟩
      by_cases hs : s = .append
      · -- behind the marker both writes make a container of their own
        subst hs
        have fresh (u : Value) : u.inner .append t = emptyFor t := by
          have nothing : u.child? .append = none := by cases u <;> rfl
          simp only [inner, way, nothing]
        rw [fresh] at success ⊢
        exact write_fault_eq_none success y
      · have there := child?_of_put hput hs
        have kind : isWrongKind t ((v.inner s t).write true (t :: rest) x).1 = false :=
          isWrongKind_write (isWrongKind_inner v s t) ..
        have same : (v.write true (s :: t :: rest) x).1.inner s t =
            ((v.inner s t).write true (t :: rest) x).1 := by
          obtain ⟨found, -⟩ | ⟨wrong, -⟩ := inner_cases (v.write true (s :: t :: rest) x).1 s t
          · exact Option.some.inj (found.symm.trans there)
          · rw [wrong _ there] at kind
            cases kind
        rw [same]
        exact ih success

/-- An index that is not too large can be put into every container that it leads into. -/
theorem put_index {i : Int} (kind : isWrongKind (.index i) v = false) (counted : 0 ≤ i)
    (stored : i < unstorableGap) (x : Value) : ∃ written, v.put (.index i) x = .ok written := by
  cases v with
  | mapping m =>
    have hs : Segment.index i ≠ .append := nofun
    exact ⟨_, by rw [put, if_neg hs]⟩
  | list items =>
    have countable : unstorableGap < uncountableGap := by decide
    have bound : ¬ unstorableGap ≤ i - items.length := by omega
    have bound' : ¬ uncountableGap ≤ i - items.length := by omega
    have item : ∃ items', putItem items (.index i) x = .ok items' := by
      simp only [putItem, Segment.position?, if_neg (Int.not_lt.2 counted), if_neg bound,
        if_neg bound']
      split_ifs
      · exact ⟨_, rfl⟩
      · exact ⟨_, rfl⟩
    obtain ⟨items', equal⟩ := item
    exact ⟨.list items', by rw [put, equal]; rfl⟩
  | _ => cases kind

/-- **A forced write to an item** of a list goes through where one to the list does. -/
theorem write_forced_item_iff {i : Int} (below : path ≠ []) (counted : 0 ≤ i)
    (stored : i < unstorableGap) (v x : Value) :
    (v.write true (path ++ [.index i]) x).2 = none ↔ (v.write true path x).2 = none := by
  induction path generalizing v with
  | nil => exact absurd rfl below
  | cons s path ih =>
    cases path with
    | nil =>
      have room : ((v.inner s (.index i)).write true [.index i] x).2 = none :=
        (write_last_fault_iff _ _ x).2 (put_index (isWrongKind_inner v s _) counted stored x)
      rw [List.cons_append, List.nil_append, write_forced_fault_iff, write_last_fault_iff v s]
      exact ⟨fun h => h.1, fun h => ⟨h, room⟩⟩
    | cons t rest =>
      rw [List.cons_append, List.cons_append, write_forced_fault_iff, write_forced_fault_iff,
        ← List.cons_append, ih (by simp)]

end PatchScript.Value
