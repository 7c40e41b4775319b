import PatchScript.Document.Basic
import PatchScript.Proofs.Value.Mapping

/-!
# Changing a document below a location

A location with a value is a place where the document can be cut: what is read, changed or written
further down is read, changed or written in the value that stands there, and the document takes the
result in place of that value.

## Main results

* `Value.resolve_append`, `Value.update_append` — a path in two parts
* `Value.resolve_update` — the change is found where it was made
* `Value.write_append` — a write below a container is a write into it
-/

namespace PatchScript.Value

variable {container child child' v x : Value} {s t : Segment} {path rest : Path}

/-! ### One step -/

theorem isContainer_of_child? (h : container.child? s = some child) :
    container.isContainer = true := by
  cases container with
  | list _ | mapping _ => rfl
  | _ => cases s <;> simp [child?] at h

theorem ne_append_of_child? (h : container.child? s = some child) : s ≠ .append := by
  rintro rfl
  cases container <;> simp [child?] at h

theorem child?_mapping (hs : s ≠ .append) (m : Mapping) :
    (Value.mapping m).child? s = m.get? s.label := by
  cases s with
  | append => exact absurd rfl hs
  | _ => rfl

/-- A step into a list goes to an item of it. -/
theorem child?_list_eq_some_iff {items : List Value} :
    (Value.list items).child? s = some child ↔
      ∃ i : Nat, s.position? = some (i : Int) ∧ items[i]? = some child := by
  have step : (Value.list items).child? s =
      s.position?.bind fun i => if 0 ≤ i then items[i.toNat]? else none := by
    cases s with
    | other v => cases v <;> rfl
    | _ => rfl
  rw [step, Option.bind_eq_some_iff]
  constructor
  · rintro ⟨i, hi, h⟩
    split at h
    · next nonneg => exact ⟨i.toNat, by rw [hi, Int.toNat_of_nonneg nonneg], h⟩
    · cases h
  · rintro ⟨i, hi, h⟩
    exact ⟨i, hi, by simp [h]⟩

/-- What stands in place of a child is the child from then on. -/
theorem child?_replaceChild (h : container.child? s = some child) (x : Value) :
    (container.replaceChild s x).child? s = some x := by
  have hs := ne_append_of_child? h
  cases container with
  | mapping m => rw [replaceChild, child?_mapping hs, Mapping.get?_put, if_pos rfl]
  | list items =>
    obtain ⟨i, hi, found⟩ := child?_list_eq_some_iff.1 h
    obtain ⟨bound, -⟩ := List.getElem?_eq_some_iff.1 found
    simp only [replaceChild, hi]
    exact child?_list_eq_some_iff.2 ⟨i, hi, by simp [bound]⟩
  | _ => cases isContainer_of_child? h

theorem replaceChild_eq_self (h : container.child? s = some child) :
    container.replaceChild s child = container := by
  cases container with
  | mapping m =>
    rw [child?_mapping (ne_append_of_child? h)] at h
    rw [replaceChild, Mapping.put_eq_self_iff.2 h]
  | list items =>
    obtain ⟨i, hi, found⟩ := child?_list_eq_some_iff.1 h
    obtain ⟨bound, rfl⟩ := List.getElem?_eq_some_iff.1 found
    simp [replaceChild, hi]
  | _ => cases isContainer_of_child? h

theorem replaceChild_eq_self_iff (h : container.child? s = some child) :
    container.replaceChild s x = container ↔ x = child := by
  constructor
  · intro same
    have found := child?_replaceChild h x
    rw [same, h] at found
    exact (Option.some.inj found).symm
  · rintro rfl
    exact replaceChild_eq_self h

theorem replaceChild_replaceChild (container : Value) (s : Segment) (x y : Value) :
    (container.replaceChild s x).replaceChild s y = container.replaceChild s y := by
  cases container with
  | mapping m => simp only [replaceChild, Mapping.put_put]
  | list items => cases hi : s.position? <;> simp [replaceChild, hi]
  | _ => rfl

/-! ### A path in two parts -/

theorem resolve_append (v : Value) (path rest : Path) :
    v.resolve (path ++ rest) = (v.resolve path).bind (·.resolve rest) := by
  induction path generalizing v with
  | nil => rfl
  | cons s path ih =>
    simp only [List.cons_append, resolve]
    cases v.child? s with
    | none => rfl
    | some child => exact ih child

theorem update_append (f : Value → Value) (v : Value) (path rest : Path) :
    v.update f (path ++ rest) = v.update (·.update f rest) path := by
  induction path generalizing v with
  | nil => rfl
  | cons s path ih =>
    simp only [List.cons_append, update]
    cases v.child? s with
    | none => rfl
    | some child => simp only [ih]

theorem resolve_cons_eq_some_iff :
    v.resolve (s :: path) = some x ↔
      ∃ child, v.child? s = some child ∧ child.resolve path = some x := by
  rw [resolve]
  cases v.child? s <;> simp

/-- What an update makes of a value is found in its place. -/
theorem resolve_update (h : v.resolve path = some x) (f : Value → Value) :
    (v.update f path).resolve path = some (f x) := by
  induction path generalizing v with
  | nil =>
    obtain rfl : v = x := by simpa [resolve] using h
    rfl
  | cons s path ih =>
    obtain ⟨child, hs, hpath⟩ := resolve_cons_eq_some_iff.1 h
    simp only [update, hs, resolve, child?_replaceChild hs]
    exact ih hpath

theorem update_congr (h : v.resolve path = some x) {f g : Value → Value} (equal : f x = g x) :
    v.update f path = v.update g path := by
  induction path generalizing v with
  | nil =>
    obtain rfl : v = x := by simpa [resolve] using h
    exact equal
  | cons s path ih =>
    obtain ⟨child, hs, hpath⟩ := resolve_cons_eq_some_iff.1 h
    simp only [update, hs, ih hpath]

theorem update_eq_self (h : v.resolve path = some x) {f : Value → Value} (equal : f x = x) :
    v.update f path = v := by
  induction path generalizing v with
  | nil =>
    obtain rfl : v = x := by simpa [resolve] using h
    exact equal
  | cons s path ih =>
    obtain ⟨child, hs, hpath⟩ := resolve_cons_eq_some_iff.1 h
    simp only [update, hs, ih hpath, replaceChild_eq_self hs]

theorem update_update (h : v.resolve path = some x) (f g : Value → Value) :
    (v.update f path).update g path = v.update (g ∘ f) path := by
  induction path generalizing v with
  | nil => rfl
  | cons s path ih =>
    obtain ⟨child, hs, hpath⟩ := resolve_cons_eq_some_iff.1 h
    simp only [update, hs, child?_replaceChild hs, ih hpath, replaceChild_replaceChild]

/-! ### Writing -/

theorem isContainer_of_resolve (h : v.resolve path = some x) (hx : x.isContainer = true) :
    v.isContainer = true := by
  cases path with
  | nil =>
    obtain rfl : v = x := by simpa [resolve] using h
    exact hx
  | cons s path =>
    obtain ⟨child, hs, -⟩ := resolve_cons_eq_some_iff.1 h
    exact isContainer_of_child? hs

variable {force : Bool} {value : Value}

/-- A write goes into a container into which the next step leads. -/
theorem way_eq_into (hs : container.child? s = some child) (h : child.isContainer = true)
    (kind : (force && isWrongKind t child) = false) : container.way force s t = .into child := by
  cases child with
  | list _ | mapping _ => simp [way, hs, isContainer, kind]
  | _ => cases h

theorem child?_of_way_eq_into (h : container.way force s t = .into child) :
    container.child? s = some child ∧ child.isContainer = true := by
  rw [way] at h
  split at h
  · cases h
  · cases h
  · next found _ hs =>
    split at h
    · cases h
    · split at h
      · next hchild =>
        obtain rfl : found = child := by simpa using h
        exact ⟨hs, hchild⟩
      · cases h

/-- A write makes a new container only in place of nothing or of null, when it is not forced. -/
theorem child?_of_way_eq_anew (h : container.way false s t = .anew) :
    container.child? s = none ∨ container.child? s = some .null := by
  rw [way] at h
  split at h
  · next hs => exact .inl hs
  · next hs => exact .inr hs
  · simp only [Bool.false_and, Bool.false_eq_true, if_false] at h
    split at h <;> cases h

theorem ne_append_of_way_eq_into (h : container.way force s t = .into child) : s ≠ .append :=
  ne_append_of_child? (child?_of_way_eq_into h).1

theorem write_of_into (h : container.way force s t = .into child) :
    container.write force (s :: t :: rest) value =
      (container.replaceChild s (child.write force (t :: rest) value).1,
        (child.write force (t :: rest) value).2) := by
  simp only [write, h]

theorem write_of_blocked {fault : WriteFault} (h : container.way force s t = .blocked fault) :
    container.write force (s :: t :: rest) value = (container, some fault) := by
  simp only [write, h]

theorem write_of_anew (h : container.way force s t = .anew) :
    container.write force (s :: t :: rest) value =
      match container.put s ((emptyFor t).write force (t :: rest) value).1 with
      | .ok written => (written, ((emptyFor t).write force (t :: rest) value).2)
      | .error fault => (container, some fault) := by
  cases hput : container.put s ((emptyFor t).write force (t :: rest) value).1 <;>
    simp only [write, h, hput]

/-- A write below a container is a write into it. -/
theorem write_append (h : v.resolve path = some x) (hx : x.isContainer = true) :
    v.write false (path ++ s :: rest) value =
      (v.update (fun _ => (x.write false (s :: rest) value).1) path,
        (x.write false (s :: rest) value).2) := by
  induction path generalizing v with
  | nil =>
    obtain rfl : v = x := by simpa [resolve] using h
    rfl
  | cons q path ih =>
    obtain ⟨child, hq, hpath⟩ := resolve_cons_eq_some_iff.1 h
    have hchild := isContainer_of_resolve hpath hx
    obtain ⟨t, more, step⟩ := List.exists_cons_of_ne_nil (show path ++ s :: rest ≠ [] by simp)
    rw [List.cons_append, step, write_of_into (way_eq_into hq hchild rfl), ← step, ih hpath]
    simp only [update, hq]

/-- A write into a mapping changes at most the entry of its first step. -/
theorem write_mapping (force : Bool) (m : Mapping) (k : Segment) (rest : Path) (value : Value) :
    (((Value.mapping m).write force (k :: rest) value).1 = .mapping m ∧
        ((Value.mapping m).write force (k :: rest) value).2.isSome = true) ∨
      (k ≠ .append ∧
        ∃ x, ((Value.mapping m).write force (k :: rest) value).1 = .mapping (m.put k.label x)) := by
  have put (x : Value) (hk : k ≠ .append) :
      (Value.mapping m).put k x = .ok (.mapping (m.put k.label x)) := by
    rw [Value.put, if_neg hk]
  have append (x : Value) (hk : k = .append) :
      (Value.mapping m).put k x = .error (.address .appendOnMapping) := by
    rw [Value.put, if_pos hk]
  cases rest with
  | nil =>
    by_cases hk : k = .append
    · simp [write, append value hk]
    · exact .inr ⟨hk, value, by simp [write, put value hk]⟩
  | cons t rest =>
    cases hway : (Value.mapping m).way force k t with
    | blocked fault => simp [write_of_blocked hway]
    | into child =>
      have hk := ne_append_of_way_eq_into hway
      exact .inr ⟨hk, _, by rw [write_of_into hway, replaceChild]⟩
    | anew =>
      by_cases hk : k = .append
      · simp [write_of_anew hway, append _ hk]
      · refine .inr ⟨hk, ((emptyFor t).write force (t :: rest) value).1, ?_⟩
        simp only [write_of_anew hway, put _ hk]

/-- A write at the root of a mapping leaves a mapping. -/
theorem mapping_entries_write (force : Bool) (m : Mapping) (path : Path) (value : Value) :
    Value.mapping ((Value.mapping m).write force path value).1.entries =
      ((Value.mapping m).write force path value).1 := by
  cases path with
  | nil => rfl
  | cons k rest =>
    obtain ⟨same, -⟩ | ⟨-, x, changed⟩ := write_mapping force m k rest value
    · rw [same, entries]
    · rw [changed, entries]

end PatchScript.Value
