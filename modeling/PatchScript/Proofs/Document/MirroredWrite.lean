import PatchScript.Proofs.Document.Mirror

/-!
# Forced writes into a document and its mirror

Two documents that take the same forced write may be of different shapes: a container that one of
them has is missing in the other, or is made anew there. A mirror is kept all the same, as long as
the text that was written shows in it at the place where it landed in the other document. What one
write drops on its way cannot be left over in the other document: a value of the wrong kind in the
mirror stands for one of the wrong kind, or for one that holds nothing to be shown. Only the append
marker is different, as it makes a list where the mirror has a mapping and the other document a
list, and then the text lands behind the items that are there.

## Main results

* `Value.MirroredIn.write_of_shown` — writing a text that is shown already
* `Value.MirroredIn.inner` — the containers in which two writes go on
* `Value.MirroredIn.write` — writing a text into both documents
-/

namespace PatchScript.Value

variable {d p v x z : Value} {s t : Segment} {path rest : Path}

namespace MirroredIn

/-! ### Writing what is shown already -/

/-- A new container is mirrored by one into which the same step leads. -/
theorem emptyFor (ht : t.IsStep) (key : t.isKey = true → ∃ m, z = .mapping m) :
    (emptyFor t).MirroredIn (some z) := by
  rw [Value.emptyFor]
  split
  · exact empty_list _
  · next notIndexed =>
    obtain ⟨m, rfl⟩ := key (by
      rcases ht with rfl | concrete
      · simp [Segment.isIndexed] at notIndexed
      · cases t <;> simp_all [Segment.isIndexed, Segment.position?, Segment.isKey,
          Segment.IsConcrete])
    refine mirroredIn_iff.2 ⟨by simp, fun _ _ => ⟨m, rfl⟩, fun u hu c hc => ?_⟩
    rw [child?_mapping (ne_append_of_isConcrete hu)] at hc
    cases hc

/-- A key finds something in a mapping alone. -/
theorem exists_mapping_of_child? (key : t.isKey = true) (h : z.child? t = some x) :
    ∃ m, z = .mapping m := by
  cases z with
  | mapping m => exact ⟨m, rfl⟩
  | list items =>
    have := isWrongKind_of_child? h
    simp [isWrongKind, key] at this
  | _ => cases isContainer_of_child? h

/-- **Writing a text** that a mirror shows where it lands keeps the mirror. -/
theorem write_of_shown {text : String} (steps : ∀ s ∈ path, s.IsStep)
    (h : d.MirroredIn (some z)) (success : (d.write true path (.text text)).2 = none)
    (shown : z.resolve (d.landing path) = some (.text text)) :
    (d.write true path (.text text)).1.MirroredIn (some z) := by
  induction path generalizing d z with
  | nil => cases success
  | cons s path ih =>
    have hs := steps s (by simp)
    have shape : ∀ m, d = .mapping m → ∃ m', some z = some (.mapping m') := by
      rintro m rfl
      exact h.exists_mapping
    have others : ∀ u : Segment, u.IsConcrete → u.label ≠ (d.placed s).label → ∀ c,
        d.child? u = some c → c.MirroredIn ((some z).bind (·.child? u)) :=
      fun u hu _ c hc => h.child hu hc
    cases path with
    | nil =>
      obtain ⟨child, found, there⟩ := resolve_cons_eq_some_iff.1 shown
      obtain rfl : child = .text text := by simpa [resolve] using there
      refine put (put_of_write_last success) hs shape others ?_
      rw [Option.bind_some, found]
      exact refl _
    | cons t rest =>
      obtain ⟨hput, below⟩ := put_of_write_forced success
      obtain ⟨child, found, there⟩ := resolve_cons_eq_some_iff.1 shown
      refine put hput hs shape others ?_
      rw [Option.bind_some, found]
      refine ih (fun s hs => steps s (by simp [hs])) ?_ below there
      obtain ⟨inside, -⟩ | ⟨-, fresh⟩ := inner_cases d s t
      · have marker := ne_append_of_child? inside
        rw [placed_of_ne_append marker] at found
        have := h.child (hs.resolve_left marker) inside
        rwa [Option.bind_some, found] at this
      · rw [fresh] at there ⊢
        refine emptyFor (steps t (by simp)) fun key => ?_
        have marker : t ≠ .append := by
          rintro rfl
          cases key
        obtain ⟨first, hfirst⟩ : ∃ first, child.child? t = some first := by
          cases rest with
          | nil =>
            rw [landing, placed_of_ne_append marker] at there
            obtain ⟨first, hfirst, -⟩ := resolve_cons_eq_some_iff.1 there
            exact ⟨first, hfirst⟩
          | cons t' rest =>
            rw [landing, placed_of_ne_append marker] at there
            obtain ⟨first, hfirst, -⟩ := resolve_cons_eq_some_iff.1 there
            exact ⟨first, hfirst⟩
        exact exists_mapping_of_child? key hfirst

end MirroredIn

/-! ### Writing into both -/

/-- A forced write behind the items of a list does not depend on them. -/
theorem write_append_marker (rest : Path) (value : Value) :
    ∃ x fault, ∀ items, (Value.list items).write true (.append :: rest) value =
      (.list (items ++ [x]), fault) := by
  have put (items : List Value) (x : Value) :
      (Value.list items).put .append x = .ok (.list (items ++ [x])) := rfl
  cases rest with
  | nil => exact ⟨value, none, fun items => rfl⟩
  | cons t rest =>
    refine ⟨((emptyFor t).write true (t :: rest) value).1,
      ((emptyFor t).write true (t :: rest) value).2, fun items => ?_⟩
    have fresh : (Value.list items).inner .append t = emptyFor t := rfl
    rw [write_forced, fresh, put]

theorem landing_append_marker (items : List Value) (rest : Path) :
    ∃ more, (Value.list items).landing (.append :: rest) = .index items.length :: more := by
  cases rest with
  | nil => exact ⟨[], rfl⟩
  | cons t rest => exact ⟨_, rfl⟩

theorem exists_list_of_write_append (h : (v.write true (.append :: rest) x).2 = none) :
    ∃ items, v = .list items := by
  obtain ⟨y, written, hput⟩ : ∃ y written, v.put .append y = .ok written := by
    cases rest with
    | nil => exact ⟨_, _, put_of_write_last h⟩
    | cons t rest => exact ⟨_, _, (put_of_write_forced h).1⟩
  obtain ⟨items, equal, -⟩ := put_append_eq_ok hput
  exact ⟨items, equal⟩

theorem exists_list_of_kind_append (h : isWrongKind .append v = false) :
    ∃ items, v = .list items := by
  cases v with
  | list items => exact ⟨items, rfl⟩
  | _ => cases h

namespace MirroredIn

/-- The containers in which a forced write goes on mirror each other, unless a list is made anew for
the append marker. -/
theorem inner (h : d.MirroredIn (some p)) (hs : s.IsConcrete) (ht : t.IsStep) :
    (d.inner s t).MirroredIn (some (p.inner s t)) ∨ t = .append ∧ p.inner s t = .list [] := by
  obtain ⟨inside, kind⟩ | ⟨-, fresh⟩ := inner_cases d s t
  · have below := h.child hs inside
    obtain ⟨shown, -⟩ | ⟨wrong, anew⟩ := inner_cases p s t
    · rw [Option.bind_some, shown] at below
      exact .inl below
    · rw [Option.bind_some] at below
      cases found : p.child? s with
      | none =>
        rw [found] at below
        exact .inl (below.of_none _)
      | some c =>
        rw [found] at below
        have wrong := wrong c found
        cases c with
        | list items =>
          -- only a key cannot lead into the list, and a mapping is not mirrored by one
          have key : t.isKey = true := wrong
          have notList : ∀ items, d.inner s t ≠ .list items := by
            intro items equal
            rw [equal] at kind
            simp [isWrongKind, key] at kind
          cases hd : d.inner s t with
          | list items => exact absurd hd (notList items)
          | mapping m =>
            rw [hd] at below
            obtain ⟨m', equal⟩ := below.exists_mapping
            cases equal
          | _ => simp [hd, isWrongKind] at kind
        | mapping m =>
          obtain rfl : t = .append := by simpa [isWrongKind] using wrong
          exact .inr ⟨rfl, anew⟩
        | _ =>
          have nothing := below.none_of_not_isContainer (isContainer_of_isWrongKind kind) rfl
          exact .inl (nothing.of_none _)
  · left
    rw [fresh]
    refine emptyFor ht fun key => ?_
    have kind := isWrongKind_inner p s t
    cases hp : p.inner s t with
    | mapping m => exact ⟨m, rfl⟩
    | list items => simp [hp, isWrongKind, key] at kind
    | _ => simp [hp, isWrongKind] at kind

/-- Where a list is made anew for the append marker, the text shows in it only if it landed in front
of nothing, and so the containers mirror each other there too. -/
theorem inner_of_shown {text : String} (h : d.MirroredIn (some p)) (hs : s.IsConcrete)
    (ht : t.IsStep) (success : ((p.inner s t).write true (t :: rest) (.text text)).2 = none)
    (shown : ((d.inner s t).write true (t :: rest) (.text text)).2 = none →
      ((p.inner s t).write true (t :: rest) (.text text)).1.resolve
        ((d.inner s t).landing (t :: rest)) = some (.text text)) :
    (d.inner s t).MirroredIn (some (p.inner s t)) := by
  obtain mirrored | ⟨rfl, anew⟩ := h.inner hs ht
  · exact mirrored
  · obtain ⟨items, inside⟩ := exists_list_of_kind_append (isWrongKind_inner d s .append)
    obtain ⟨x, fault, appended⟩ := write_append_marker rest (.text text)
    obtain ⟨more, lands⟩ := landing_append_marker items rest
    simp only [inside, anew, appended, lands] at success shown ⊢
    obtain ⟨child, found, -⟩ := resolve_cons_eq_some_iff.1 (shown success)
    obtain ⟨i, first, hi⟩ := child?_list_eq_some_iff.1 found
    obtain rfl : items.length = i := Int.ofNat_inj.1 (Option.some.inj first)
    obtain ⟨bound, -⟩ := List.getElem?_eq_some_iff.1 hi
    obtain rfl : items = [] := by
      cases items with
      | nil => rfl
      | cons _ _ => simp at bound
    exact empty_list _

/-- A list that gets another item shows what it showed. -/
theorem append_item {items : List Value} (h : d.MirroredIn (some (.list items))) (x : Value)
    (hd : ∀ t, d ≠ .text t) : d.MirroredIn (some (.list (items ++ [x]))) := by
  refine mirroredIn_iff.2 ⟨fun t ht => absurd ht (hd t), ?_, fun u hu c hc => ?_⟩
  · rintro m rfl
    obtain ⟨m', equal⟩ := h.exists_mapping
    cases equal
  · have below := h.child hu hc
    rw [Option.bind_some] at below ⊢
    cases found : (Value.list items).child? u with
    | none =>
      rw [found] at below
      exact below.of_none _
    | some c' =>
      obtain ⟨i, rfl, hi⟩ := eq_index_of_child?_list hu found
      have stays : (Value.list (items ++ [x])).child? (.index i) = some c' :=
        child?_list_eq_some_iff.2 ⟨i, rfl, by grind⟩
      rw [stays, ← found]
      exact below

/-- **Writing a text into both documents** keeps a mirror, if the second write succeeds, and the
text shows where the first one landed. -/
theorem write {text : String} (steps : ∀ s ∈ path, s.IsStep)
    (kind : ∀ s ∈ path.head?, isWrongKind s d = false) (h : d.MirroredIn (some p))
    (success : (p.write true path (.text text)).2 = none)
    (shown : (d.write true path (.text text)).2 = none →
      (p.write true path (.text text)).1.resolve (d.landing path) = some (.text text)) :
    (d.write true path (.text text)).1.MirroredIn (some (p.write true path (.text text)).1) := by
  induction path generalizing d p with
  | nil => cases success
  | cons s path ih =>
    have hs := steps s (by simp)
    have kind_d : isWrongKind s d = false := kind s (by simp)
    obtain rfl | hs := hs
    · -- the marker leads into lists, which both get the same item
      obtain ⟨items, rfl⟩ := exists_list_of_kind_append kind_d
      obtain ⟨items', rfl⟩ := exists_list_of_write_append success
      obtain ⟨x, fault, written⟩ := write_append_marker path (.text text)
      simp only [written] at success shown ⊢
      have kept := h.append_item x (by simp)
      have both := write_of_shown steps kept (by rw [written, success]) (shown success)
      rwa [written] at both
    · have marker := ne_append_of_isConcrete hs
      cases path with
      | nil =>
        have hp := put_of_write_last success
        cases hd : d.put s (.text text) with
        | error fault =>
          have stays : d.write true [s] (.text text) = (d, some fault) := by simp [Value.write, hd]
          rw [stays]
          exact h.of_put_eq_error hs kind_d hd hp
        | ok d' =>
          have written : d.write true [s] (.text text) = (d', none) := by simp [Value.write, hd]
          rw [written]
          exact h.put_put hs hd hp (refl _)
      | cons t rest =>
        obtain ⟨hp, below⟩ := put_of_write_forced success
        cases hd : d.put s ((d.inner s t).write true (t :: rest) (.text text)).1 with
        | error fault =>
          have stays : d.write true (s :: t :: rest) (.text text) = (d, some fault) := by
            rw [write_forced, hd]
          rw [stays]
          exact h.of_put_eq_error hs kind_d hd hp
        | ok d' =>
          have written : d.write true (s :: t :: rest) (.text text) =
              (d', ((d.inner s t).write true (t :: rest) (.text text)).2) := by
            rw [write_forced, hd]
          rw [written] at shown ⊢
          have shown_below (ok : ((d.inner s t).write true (t :: rest) (.text text)).2 = none) :
              ((p.inner s t).write true (t :: rest) (.text text)).1.resolve
                ((d.inner s t).landing (t :: rest)) = some (.text text) := by
            obtain ⟨child, found, there⟩ := resolve_cons_eq_some_iff.1 (shown ok)
            rw [placed_of_ne_append marker, child?_of_put hp marker] at found
            rwa [Option.some.inj found]
          exact h.put_put hs hd hp
            (ih (fun s hs => steps s (by simp [hs])) (by rintro _ ⟨⟩; exact isWrongKind_inner d s t)
              (h.inner_of_shown hs (steps t (by simp)) below shown_below) below shown_below)

end MirroredIn

end PatchScript.Value
