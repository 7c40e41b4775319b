import PatchScript.Proofs.Document.Mirror

/-!
# What a write leaves alone

A write that does not fail is found where it was made, and every location apart from it holds what
it held. Only where a list had to grow are there locations that resolve now and did not before, and
these hold null. Two paths are apart when neither of them leads through the other. This is a matter
of the texts of their segments, because an index and its text name the same entry of a mapping.

A value that is appended stands behind the items of the list that was there, or alone in a new list
where nothing was there, or null.

## Main definitions

* `Path.Apart` — two paths of which neither leads through the other
* `Value.Kept`, `Value.KeptApart` — what reads find after a write elsewhere
* `Value.itemsFor?` — the items behind which a value is appended

## Main results

* `Value.keptApart_write` — a write keeps what is apart from any beginning of its path
* `Value.write_reads_back_and_frames` — the laws of writing and of appending
-/

namespace PatchScript

/-- Neither path leads through the other: the texts of neither are a beginning of the other's. -/
def Path.Apart (p q : Path) : Prop :=
  ¬ p.map Segment.label <+: q.map Segment.label ∧ ¬ q.map Segment.label <+: p.map Segment.label

instance (p q : Path) : Decidable (p.Apart q) := inferInstanceAs (Decidable (_ ∧ _))

namespace Value

variable {v v' x y child : Value} {s t u : Segment} {p q rest : Path}

/-- What a read finds after a write elsewhere: what it found before, and where it found nothing,
nothing or null. -/
structure Kept (before after : Option Value) : Prop where
  same : ∀ x, before = some x → after = some x
  padded : before = none → after = none ∨ after = some .null

/-- Every read apart from a path finds afterwards what it found before, up to new nulls. -/
def KeptApart (before : Value) (p : Path) (after : Value) : Prop :=
  ∀ q : Path, (∀ u ∈ q, u.IsConcrete) → p.Apart q → Kept (before.resolve q) (after.resolve q)

/-- The items behind which a value is appended at a location: those of the list that is there, and
none where there is nothing or null. -/
def itemsFor? : Option Value → Option (List Value)
  | none | some .null => some []
  | some (.list items) => some items
  | some _ => none

/-! ### One step -/

/-- A write puts back, after its first step, what the rest of it makes of the child that is there,
or of a new container in place of nothing or of null. -/
theorem put_of_write_cons (h : (v.write false (s :: t :: rest) x).2 = none) :
    ∃ child : Value, (v.child? s = some child ∨
        (v.child? s = none ∨ v.child? s = some .null) ∧ child = emptyFor t) ∧
      (child.write false (t :: rest) x).2 = none ∧
      v.put s (child.write false (t :: rest) x).1 = .ok (v.write false (s :: t :: rest) x).1 := by
  cases hway : v.way false s t with
  | blocked fault =>
    rw [write_of_blocked hway] at h
    cases h
  | into child =>
    obtain ⟨hs, -⟩ := child?_of_way_eq_into hway
    rw [write_of_into hway] at h ⊢
    exact ⟨child, .inl hs, h, put_of_child? hs _⟩
  | anew =>
    obtain ⟨written, hput, -, equal⟩ | ⟨fault, -, equal⟩ := write_anew_cases hway rest x
    · rw [equal] at h ⊢
      exact ⟨emptyFor t, .inr ⟨child?_of_way_eq_anew hway, rfl⟩, h, hput⟩
    · rw [equal] at h
      cases h

/-- Whatever is written further down, a write puts something at its first step. -/
theorem exists_put_of_write (h : (v.write false (s :: rest) x).2 = none) :
    ∃ y, v.put s y = .ok (v.write false (s :: rest) x).1 := by
  cases rest with
  | nil => exact ⟨x, put_of_write_last h⟩
  | cons t rest =>
    obtain ⟨child, -, -, hput⟩ := put_of_write_cons h
    exact ⟨_, hput⟩

/-- Steps with another text find what they found, or a null that fills a list. -/
theorem kept_child?_of_put (hput : v.put s y = .ok v') (hs : s.IsConcrete) (hu : u.IsConcrete)
    (different : u.label ≠ s.label) : Kept (v.child? u) (v'.child? u) := by
  have marker := ne_append_of_isConcrete hs
  constructor
  · intro c hc
    exact child?_put_of_ne hput (.inr hs) hu (by rwa [placed_of_ne_append marker]) hc
  · intro nothing
    cases found : v'.child? u with
    | none => exact .inl rfl
    | some c =>
      obtain ⟨-, alike⟩ | ⟨-, before | rfl⟩ := child?_put_cases hput (.inr hs) hu found
      · -- a mapping with the key of `s` alone tells the two steps apart
        have only := alike (.mapping [(s.label, .null)]) fun _ _ => ⟨_, rfl⟩
        rw [placed_of_ne_append marker, child?_mapping marker,
          child?_mapping (ne_append_of_isConcrete hu)] at only
        simp [Mapping.get?, Ne.symm different] at only
      · rw [nothing] at before
        cases before
      · exact .inr rfl

/-- Of two steps with one text either both lead to one place, or one of them is a key that finds
nothing in a list. -/
theorem child?_put_of_label_eq (hput : v.put s y = .ok v') (hs : s.IsConcrete) (hu : u.IsConcrete)
    (same : u.label = s.label) :
    (v.child? u = v.child? s ∧ v'.child? u = some y) ∨
      (v.child? u = none ∧ v'.child? u = none) := by
  have marker := ne_append_of_isConcrete hs
  have there := child?_of_put hput marker
  cases v with
  | mapping m =>
    obtain ⟨-, rfl⟩ := put_mapping_eq_ok hput
    have entry (m : Mapping) : (Value.mapping m).child? u = (Value.mapping m).child? s := by
      rw [child?_mapping marker, child?_mapping (ne_append_of_isConcrete hu), same]
    exact .inl ⟨entry m, (entry _).trans there⟩
  | list items =>
    obtain ⟨items', -, rfl⟩ := put_list_eq_ok hput
    cases u with
    | key k => exact .inr ⟨rfl, rfl⟩
    | index i =>
      cases s with
      | key k => cases hput
      | index j =>
        obtain rfl : i = j := indexText_injective same
        exact .inl ⟨rfl, there⟩
      | _ => exact hs.elim
    | _ => exact hu.elim
  | _ => cases hput

/-! ### Further down -/

theorem resolve_null_cons (u : Segment) (q : Path) : Value.null.resolve (u :: q) = none := by
  cases u <;> rfl

theorem resolve_emptyFor_cons (t u : Segment) (q : Path) :
    (emptyFor t).resolve (u :: q) = none := by
  have nothing : (emptyFor t).child? u = none := by
    rw [emptyFor]
    split
    · by_contra found
      obtain ⟨c, hc⟩ := Option.ne_none_iff_exists'.1 found
      obtain ⟨i, -, hi⟩ := child?_list_eq_some_iff.1 hc
      simp at hi
    · cases u <;> rfl
  simp only [resolve, nothing]

/-- What one step keeps is kept below it. -/
theorem Kept.resolve_cons (h : Kept (v.child? u) (v'.child? u)) (q : Path) :
    Kept (v.resolve (u :: q)) (v'.resolve (u :: q)) := by
  constructor
  · intro x hx
    obtain ⟨c, hc, below⟩ := resolve_cons_eq_some_iff.1 hx
    exact resolve_cons_eq_some_iff.2 ⟨c, h.same c hc, below⟩
  · intro nothing
    cases hu : v.child? u with
    | some c =>
      rw [resolve, hu] at nothing
      rw [resolve, h.same c hu]
      exact .inl nothing
    | none =>
      obtain none | null := h.padded hu
      · exact .inl (by rw [resolve, none])
      · rw [resolve, null]
        cases q with
        | nil => exact .inr rfl
        | cons w q => exact .inl (resolve_null_cons w q)

/-- Below a step that was put back, what its child keeps is kept, whichever of the steps with its
text leads there. -/
theorem kept_resolve_cons_of_put (hput : v.put s y = .ok v') (hs : s.IsConcrete)
    (hu : u.IsConcrete) (same : u.label = s.label)
    (came : v.child? s = some child ∨
      (v.child? s = none ∨ v.child? s = some .null) ∧ child = emptyFor t)
    (hq : q ≠ []) (below : Kept (child.resolve q) (y.resolve q)) :
    Kept (v.resolve (u :: q)) (v'.resolve (u :: q)) := by
  obtain ⟨before, after⟩ | ⟨before, after⟩ := child?_put_of_label_eq hput hs hu same
  · have written : v'.resolve (u :: q) = y.resolve q := by simp only [resolve, after]
    rw [written]
    obtain found | ⟨nothing, rfl⟩ := came
    · have read : v.resolve (u :: q) = child.resolve q := by simp only [resolve, before, found]
      rwa [read]
    · obtain ⟨w, q, rfl⟩ := List.exists_cons_of_ne_nil hq
      have read : v.resolve (u :: w :: q) = none := by
        rw [← before] at nothing
        obtain none | null := nothing
        · simp only [resolve, none]
        · rw [resolve, null]
          exact resolve_null_cons w q
      rw [resolve_emptyFor_cons] at below
      rwa [read]
  · have nothing : v.resolve (u :: q) = none ∧ v'.resolve (u :: q) = none := by
      simp only [resolve, before, after, and_self]
    rw [nothing.1, nothing.2]
    refine ⟨fun x found => ?_, fun _ => .inl rfl⟩
    cases found

end Value

namespace Path.Apart

variable {s u : Segment} {p q : Path}

theorem left_ne_nil (apart : p.Apart q) : p ≠ [] := by
  rintro rfl
  exact apart.1 List.nil_prefix

theorem right_ne_nil (apart : p.Apart q) : q ≠ [] := by
  rintro rfl
  exact apart.2 List.nil_prefix

theorem tail (apart : Path.Apart (s :: p) (u :: q)) (same : u.label = s.label) : p.Apart q := by
  simpa [Path.Apart, same] using apart

end Path.Apart

namespace Value

variable {v x : Value} {p rest : Path}

/-- **A write keeps what is apart** from any beginning of its path. -/
theorem keptApart_write (hp : ∀ s ∈ p, s.IsConcrete)
    (h : (v.write false (p ++ rest) x).2 = none) :
    v.KeptApart p (v.write false (p ++ rest) x).1 := by
  intro q hq apart
  induction p generalizing v q with
  | nil => exact absurd rfl apart.left_ne_nil
  | cons s p ih =>
    obtain ⟨u, q, rfl⟩ := List.exists_cons_of_ne_nil apart.right_ne_nil
    have hs := hp s (by simp)
    have hu := hq u (by simp)
    by_cases same : u.label = s.label
    · -- both go on below one child, where what is left of them is apart
      have further := apart.tail same
      obtain ⟨t, more, step⟩ : ∃ t more, p ++ rest = t :: more :=
        List.exists_cons_of_ne_nil (by simp [further.left_ne_nil])
      rw [List.cons_append, step] at h ⊢
      obtain ⟨child, came, success, hput⟩ := put_of_write_cons h
      refine kept_resolve_cons_of_put hput hs hu same came further.right_ne_nil ?_
      rw [← step] at success ⊢
      exact ih (fun t ht => hp t (by simp [ht])) success q (fun w hw => hq w (by simp [hw])) further
    · obtain ⟨y, hput⟩ := exists_put_of_write h
      exact (kept_child?_of_put hput hs hu same).resolve_cons q

/-! ### Appending -/

/-- What is appended in a new container stands alone, and so it does where the container takes the
place of nothing or of null. -/
theorem itemsFor?_of_anew {s t : Segment} (nothing : v.child? s = none ∨ v.child? s = some .null)
    {more : Path} (step : p ++ [.append] = t :: more) {items : List Value}
    (h : itemsFor? ((emptyFor t).resolve p) = some items) :
    itemsFor? (v.resolve (s :: p)) = some items := by
  cases p with
  | nil =>
    obtain rfl : Segment.append = t := (List.cons.inj step).1
    rw [← h]
    obtain none | null := nothing
    · simp only [resolve, none]
      rfl
    · simp only [resolve, null]
      rfl
  | cons w p =>
    rw [resolve_emptyFor_cons] at h
    rw [← h]
    obtain none | null := nothing
    · simp only [resolve, none]
    · rw [resolve, null]
      exact congrArg itemsFor? (resolve_null_cons w p)

/-- **A value that is appended** stands behind the items that were there. -/
theorem resolve_write_append_items (hp : ∀ s ∈ p, s.IsConcrete)
    (h : (v.write false (p ++ [.append]) x).2 = none) :
    ∃ items, itemsFor? (v.resolve p) = some items ∧
      (v.write false (p ++ [.append]) x).1.resolve p = some (.list (items ++ [x])) := by
  induction p generalizing v with
  | nil =>
    obtain ⟨items, rfl, written⟩ := put_append_eq_ok (put_of_write_last h)
    exact ⟨items, rfl, congrArg some written⟩
  | cons s p ih =>
    have hs := ne_append_of_isConcrete (hp s (by simp))
    obtain ⟨t, more, step⟩ : ∃ t more, p ++ [Segment.append] = t :: more :=
      List.exists_cons_of_ne_nil (by simp)
    rw [List.cons_append, step] at h ⊢
    obtain ⟨child, came, success, hput⟩ := put_of_write_cons h
    rw [← step] at success hput ⊢
    obtain ⟨items, former, found⟩ := ih (fun t ht => hp t (by simp [ht])) success
    refine ⟨items, ?_, resolve_cons_eq_some_iff.2 ⟨_, child?_of_put hput hs, found⟩⟩
    obtain there | ⟨nothing, rfl⟩ := came
    · simpa only [resolve, there] using former
    · exact itemsFor?_of_anew nothing step former

/-! ### The laws -/

/-- **Writing reads back and frames.** A write that succeeds is read back, an appended value stands
once behind the items that were there, and either keeps everything apart from the location. -/
theorem write_reads_back_and_frames (document value : Value) (hp : ∀ s ∈ p, s.IsConcrete) :
    ((document.write false p value).2 = none →
        (document.write false p value).1.resolve p = some value ∧
          document.KeptApart p (document.write false p value).1) ∧
      ((document.write false (p ++ [.append]) value).2 = none →
        (∃ items, itemsFor? (document.resolve p) = some items ∧
            (document.write false (p ++ [.append]) value).1.resolve p =
              some (.list (items ++ [value]))) ∧
          document.KeptApart p (document.write false (p ++ [.append]) value).1) := by
  refine ⟨fun written => ⟨?_, ?_⟩, fun appended => ⟨?_, keptApart_write hp appended⟩⟩
  · exact resolve_write written fun marker => ne_append_of_isConcrete (hp _ marker) rfl
  · have whole := List.append_nil p
    have kept := @keptApart_write document value p [] hp (by rwa [whole])
    rwa [whole] at kept
  · exact resolve_write_append_items hp appended

/-- A list that is too short for a write, and a null in place of which something is appended. -/
def sparseDocument : Value :=
  .mapping [("a", .list [.bool true]), ("7", .null), ("b", .mapping [("0", .text "kept")])]

/-- A write that fills a list with null, and a value that is appended in place of null: an entry
reached by an index is kept, and so is what is missing behind the end of the list, up to null. -/
theorem write_frames_filled_list :
    let path : Path := [.key "a", .index 2, .key "c"]
    let written := (sparseDocument.write false path (.text "x")).1
    let appended := (sparseDocument.write false ([.index 7] ++ [.append]) (.text "x")).1
    (∀ s ∈ path, s.IsConcrete) ∧ (∀ s ∈ [Segment.index 7], s.IsConcrete) ∧
      (sparseDocument.write false path (.text "x")).2 = none ∧
      (sparseDocument.write false ([.index 7] ++ [.append]) (.text "x")).2 = none ∧
      written.resolve path = some (.text "x") ∧
      written.resolve [.key "b", .index 0] = some (.text "kept") ∧
      (written.resolve [.key "a", .index 1] = none ∨
        written.resolve [.key "a", .index 1] = some .null) ∧
      appended.resolve [.index 7] = some (.list [.text "x"]) := by
  intro path written appended
  have concrete : ∀ s ∈ path, s.IsConcrete := by simp [path, Segment.IsConcrete]
  have index : ∀ s ∈ [Segment.index 7], s.IsConcrete := by simp [Segment.IsConcrete]
  have success : (sparseDocument.write false path (.text "x")).2 = none := by decide
  have appends : (sparseDocument.write false ([.index 7] ++ [.append]) (.text "x")).2 = none := by
    decide
  obtain ⟨reads, keeps⟩ :=
    (write_reads_back_and_frames sparseDocument (.text "x") concrete).1 success
  obtain ⟨⟨items, former, stands⟩, -⟩ :=
    (write_reads_back_and_frames sparseDocument (.text "x") index).2 appends
  obtain rfl : [] = items := Option.some.inj former
  refine ⟨concrete, index, success, appends, reads, ?_, ?_, stands⟩
  · exact (keeps [.key "b", .index 0] (by simp [Segment.IsConcrete]) (by decide)).same _ (by decide)
  · exact (keeps [.key "a", .index 1] (by simp [Segment.IsConcrete]) (by decide)).padded (by decide)

end Value

end PatchScript
