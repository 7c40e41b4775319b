import PatchScript.Proofs.Document.Frame
import PatchScript.Proofs.Document.Rewriting

/-!
# What stands at a path

A value that stands at a path is still there after a write elsewhere, whether the write succeeds or
fails on its way, and whatever it creates or fills with null until then.

Two paths may have the same text, because an index and its text name the same entry of a mapping.
Where one of them leads to a value, the other one leads to the same place, or nowhere: a key does
not lead into a list, and neither does the append marker into a mapping.

A forced write replaces whatever is in its way. So it goes through wherever no index is negative or
too large to be stored.

## Main definitions

* `Path.SameText` — two paths with the same text
* `Segment.IsStorable` — a step that a forced write can always take

## Main results

* `Value.resolve_write_of_apart` — what stands apart from a write stays
* `Value.sameText_cases` — what a path leads to that has the same text as another one
* `Value.write_forced_of_storable` — where forced writes go through
-/

namespace PatchScript

/-- The two paths have the same text, segment by segment. -/
def Path.SameText (p q : Path) : Prop := q.map Segment.label = p.map Segment.label

instance (p q : Path) : Decidable (p.SameText q) := inferInstanceAs (Decidable (_ = _))

theorem Path.Apart.not_sameText {p q : Path} (apart : p.Apart q) : ¬ p.SameText q := by
  intro same
  exact apart.1 (same ▸ List.prefix_rfl)

/-- A key that a spelling keeps, or an index that is neither negative nor too large. -/
def Segment.IsStorable : Segment → Prop
  | .key k => Path.PlainKey k.toList
  | .index i => 0 ≤ i ∧ i < Value.unstorableGap
  | .append | .other _ => False

instance : DecidablePred Segment.IsStorable
  | .key k => inferInstanceAs (Decidable (Path.PlainKey k.toList))
  | .index i => inferInstanceAs (Decidable (0 ≤ i ∧ i < Value.unstorableGap))
  | .append | .other _ => isFalse id

theorem Segment.IsStorable.isPlain {s : Segment} (h : s.IsStorable) : s.IsPlain := by
  cases s with
  | key k => exact h
  | index i => trivial
  | append | other _ => exact h.elim

namespace Value

variable {v v' x y c : Value} {s u : Segment} {p q : Path}

/-! ### Writing elsewhere -/

theorem isContainer_of_resolve_ne_nil (h : v.resolve p = some x) (ne : p ≠ []) :
    v.isContainer = true := by
  obtain ⟨u, p, rfl⟩ := List.exists_cons_of_ne_nil ne
  obtain ⟨_, there, -⟩ := resolve_cons_eq_some_iff.1 h
  exact isContainer_of_child? there

/-- What a step finds is not changed by an item behind the others. -/
theorem child?_put_append (found : v.child? u = some c) (hu : u.IsConcrete)
    (hput : v.put .append y = .ok v') : v'.child? u = some c := by
  obtain ⟨items, rfl, rfl⟩ := put_append_eq_ok hput
  obtain ⟨i, rfl, there⟩ := eq_index_of_child?_list hu found
  obtain ⟨bound, -⟩ := List.getElem?_eq_some_iff.1 there
  exact child?_list_eq_some_iff.2 ⟨i, rfl, by rwa [List.getElem?_append_left bound]⟩

/-- A write changes nothing, or puts something at its first step. -/
theorem write_cons_cases {force : Bool} (v : Value) (s : Segment) (rest : Path) (y : Value) :
    (v.write force (s :: rest) y).1 = v ∨
      ∃ z, v.put s z = .ok (v.write force (s :: rest) y).1 := by
  cases rest with
  | nil =>
    cases hput : v.put s y with
    | ok written => exact .inr ⟨y, by simp only [write, hput]⟩
    | error fault => exact .inl (by simp only [write, hput])
  | cons t rest =>
    cases hway : v.way force s t with
    | blocked fault => exact .inl (by rw [write_of_blocked hway])
    | into child =>
      rw [write_of_into hway]
      exact .inr ⟨_, put_of_child? (child?_of_way_eq_into hway).1 _⟩
    | anew =>
      obtain ⟨written, hput, -, equal⟩ | ⟨fault, -, equal⟩ := write_anew_cases hway rest y
      · exact .inr ⟨_, by rw [equal]; exact hput⟩
      · exact .inl (by rw [equal])

/-- The text of the append marker is not that of an integer. -/
theorem indexText_ne_append (i : Int) : Segment.indexText i ≠ Segment.append.label := by
  intro same
  have read := congrArg (fun text : String => Path.integer? text.toList) same
  have letters : Path.integer? Segment.append.label.toList = none := by decide
  rw [Segment.indexText, String.toList_ofList, Path.integer?_intText, letters] at read
  cases read

/-- Two steps with the same text lead to the same place, or one of them leads nowhere and nothing
can be put there. -/
theorem child?_of_label_eq (found : v.child? u = some c) (hu : u.IsConcrete) (hs : s.IsStep)
    (same : s.label = u.label) :
    (v.child? s = some c ∧ ∀ z, v.replaceChild s z = v.replaceChild u z) ∨
      v.child? s = none ∧ ∃ fault, ∀ z, v.put s z = .error fault := by
  cases v with
  | mapping m =>
    by_cases marker : s = .append
    · subst marker
      exact .inr ⟨rfl, _, fun z => by rw [put, if_pos rfl]⟩
    · rw [child?_mapping (ne_append_of_isConcrete hu), ← same] at found
      exact .inl ⟨by rw [child?_mapping marker, found], fun z => by rw [replaceChild, same]; rfl⟩
  | list items =>
    obtain ⟨i, rfl, -⟩ := eq_index_of_child?_list hu found
    cases s with
    | key k => exact .inr ⟨rfl, _, fun z => rfl⟩
    | index j =>
      obtain rfl := indexText_injective same
      exact .inl ⟨found, fun z => rfl⟩
    | append =>
      exact absurd same.symm (indexText_ne_append i)
    | other w => exact absurd hs (by simp [Segment.IsStep, Segment.IsConcrete])
  | _ => cases isContainer_of_child? found

/-- **What stands apart from a write** stays, whether the write succeeds or fails. -/
theorem resolve_write_of_apart (hp : ∀ u ∈ p, u.IsConcrete) (hq : ∀ s ∈ q, s.IsStep)
    (apart : p.Apart q) (found : v.resolve p = some x) (y : Value) :
    (v.write false q y).1.resolve p = some x := by
  induction p generalizing v q with
  | nil => exact absurd rfl apart.left_ne_nil
  | cons u p ih =>
    obtain ⟨s, q, rfl⟩ := List.exists_cons_of_ne_nil apart.right_ne_nil
    obtain ⟨c, hc, below⟩ := resolve_cons_eq_some_iff.1 found
    have hu := hp u (by simp)
    have hs := hq s (by simp)
    by_cases same : s.label = u.label
    · -- both go on below one child, where what is left of them is apart
      have further := apart.tail same
      obtain ⟨t, q, rfl⟩ := List.exists_cons_of_ne_nil further.right_ne_nil
      have goes := isContainer_of_resolve_ne_nil below further.left_ne_nil
      obtain ⟨there, replaced⟩ | ⟨nothing, fault, refused⟩ := child?_of_label_eq hc hu hs same
      · rw [write_of_into (way_eq_into there goes rfl), replaced]
        exact resolve_cons_eq_some_iff.2 ⟨_, child?_replaceChild hc _,
          ih (fun w hw => hp w (by simp [hw])) (fun w hw => hq w (by simp [hw])) further below⟩
      · have anew : v.way false s t = .anew := by simp only [way, nothing]
        rw [write_of_anew anew, refused]
        exact found
    · obtain unchanged | ⟨z, hput⟩ := write_cons_cases v s q y
      · rw [unchanged]
        exact found
      · refine resolve_cons_eq_some_iff.2 ⟨c, ?_, below⟩
        rcases hs with rfl | concrete
        · exact child?_put_append hc hu hput
        · exact (kept_child?_of_put hput concrete hu (Ne.symm same)).same c hc

/-- A write to a value that is there puts another one in its place. -/
theorem write_of_resolve (found : v.resolve q = some x) (proper : q ≠ []) (y : Value) :
    v.write false q y = (v.update (fun _ => y) q, none) := by
  induction q generalizing v with
  | nil => exact absurd rfl proper
  | cons s q ih =>
    obtain ⟨c, there, below⟩ := resolve_cons_eq_some_iff.1 found
    cases q with
    | nil => simp only [write, put_of_child? there, update, there]
    | cons t q =>
      have goes := isContainer_of_resolve_ne_nil below (List.cons_ne_nil t q)
      rw [write_of_into (way_eq_into there goes rfl), ih below (List.cons_ne_nil t q)]
      simp only [update, there]

/-! ### Paths with the same text -/

/-- **A path with the same text** as one that leads to a value leads to the same place, or to
nothing, and then a write there does nothing but fail. -/
theorem sameText_cases (hp : ∀ u ∈ p, u.IsConcrete) (hq : ∀ s ∈ q, s.IsStep)
    (same : p.SameText q) (found : v.resolve p = some x) :
    (v.resolve q = some x ∧ ∀ f, v.update f q = v.update f p) ∨
      v.resolve q = none ∧ ∀ y, ∃ fault, v.write false q y = (v, some fault) := by
  induction p generalizing v q with
  | nil =>
    obtain rfl : q = [] := List.map_eq_nil_iff.1 same
    exact .inl ⟨found, fun _ => rfl⟩
  | cons u p ih =>
    obtain ⟨s, q, rfl, label, rest⟩ := List.map_eq_cons_iff.1 same
    obtain ⟨c, hc, below⟩ := resolve_cons_eq_some_iff.1 found
    have hu := hp u (by simp)
    have hs := hq s (by simp)
    obtain ⟨there, replaced⟩ | ⟨nothing, fault, refused⟩ := child?_of_label_eq hc hu hs label
    · obtain ⟨stands, updated⟩ | ⟨missing, fails⟩ :=
        ih (fun w hw => hp w (by simp [hw])) (fun w hw => hq w (by simp [hw])) rest below
      · refine .inl ⟨resolve_cons_eq_some_iff.2 ⟨c, there, stands⟩, fun f => ?_⟩
        simp only [update, there, hc, replaced, updated]
      · refine .inr ⟨by rw [resolve, there]; exact missing, fun y => ?_⟩
        obtain ⟨fault, failed⟩ := fails y
        cases q with
        | nil => cases missing
        | cons t q =>
          have longer : p ≠ [] := fun none => by simp [none] at rest
          have goes := isContainer_of_resolve_ne_nil below longer
          rw [write_of_into (way_eq_into there goes rfl), failed, replaceChild_eq_self there]
          exact ⟨fault, rfl⟩
    · refine .inr ⟨by rw [resolve, nothing], fun y => ⟨fault, ?_⟩⟩
      cases q with
      | nil => simp only [write, refused]
      | cons t q =>
        have anew : v.way false s t = .anew := by simp only [way, nothing]
        rw [write_of_anew anew, refused]

/-! ### Forced writes -/

/-- A storable step can be taken in every container into which it leads. -/
theorem put_of_isStorable (storable : s.IsStorable) (kind : isWrongKind s v = false) (y : Value) :
    ∃ written, v.put s y = .ok written := by
  cases s with
  | index i => exact put_index kind storable.1 storable.2 y
  | key k =>
    cases v with
    | mapping m => exact ⟨_, rfl⟩
    | _ => cases kind
  | append | other _ => exact storable.elim

/-- **A forced write** goes through at storable steps. -/
theorem write_forced_of_storable (storable : ∀ s ∈ q, s.IsStorable) (proper : q ≠ [])
    (kind : ∀ s, q.head? = some s → isWrongKind s v = false) (y : Value) :
    (v.write true q y).2 = none := by
  induction q generalizing v with
  | nil => exact absurd rfl proper
  | cons s q ih =>
    have first := put_of_isStorable (storable s (by simp)) (kind s rfl)
    cases q with
    | nil => exact (write_last_fault_iff v s y).2 (first y)
    | cons t q =>
      refine (write_forced_fault_iff v s t q y).2 ⟨first y, ?_⟩
      refine ih (fun w hw => storable w (by simp [hw])) (by simp) ?_
      rintro _ ⟨⟩
      exact isWrongKind_inner v s t

end Value

end PatchScript
