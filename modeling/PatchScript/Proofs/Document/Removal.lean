import PatchScript.Proofs.Document.Places
import PatchScript.Proofs.Value.Alike
import PatchScript.Store.Basic

/-!
# What a removal takes away

A removal takes one child out of a container: an entry of a mapping, or an item of a list, and the
items behind it move up. It takes away what can be read, with one exception: the append marker reads
nothing, but behind a mapping it removes the entry under the text of the marker.

Whatever does not lead through the container is read as before. The containers around it are still
there, and what is read in them is what a removal further down makes of them. Which paths lead
through a container is a matter of places, because several paths may lead to it.

## Main definitions

* `Value.LosesChild` — a container before and after it lost a child
* `Value.SamePlace`, `Value.GoesThrough` — paths that meet in a document
* `Value.RemovedAt` — a document that lost a child of one container, and nothing else
* `Value.MarkerNamesEntry` — the append marker behind a mapping that has an entry for it

## Main results

* `Value.removeChild?_eq_some_iff` — what is taken out of a container
* `Value.remove?_concat_eq_some_iff` — a removal takes out of the container, and updates it
* `Value.resolve_update_of_samePlace`, `Value.resolve_update_of_elsewhere` — reading after an update
* `Value.remove?_as_read_iff` — a removal takes away what can be read, and nothing else
-/

namespace PatchScript

namespace Value

variable {container container' document after child v x y : Value} {s t u : Segment}
  {parent front rest p q : Path} {m : Mapping} {items : List Value}

/-! ### One child -/

/-- A container before and after it lost a child: an entry of a mapping, the first one under its
key, or an item of a list. -/
inductive LosesChild (s : Segment) : Value → Value → Prop
  | entry {before behind : Mapping} {y : Value} (first : s.label ∉ before.keys) :
    LosesChild s (.mapping (before ++ (s.label, y) :: behind)) (.mapping (before ++ behind))
  | item {items : List Value} {i : Nat} (position : s.position? = some (i : Int))
    (bound : i < items.length) :
    LosesChild s (.list items) (.list (items.take i ++ items.drop (i + 1)))

theorem removeChild?_mapping (hk : m.get? s.label = some v) :
    (Value.mapping m).removeChild? s = some (.mapping (m.erase s.label)) := by
  simp [removeChild?, Mapping.hasKey, hk]

theorem removeChild?_list {i : Nat} (position : s.position? = some (i : Int))
    (bound : i < items.length) :
    (Value.list items).removeChild? s = some (.list (items.eraseIdx i)) := by
  simp [removeChild?, position, bound]

/-- What is taken out of a container is a child of it. -/
theorem removeChild?_eq_some_iff :
    container.removeChild? s = some container' ↔ LosesChild s container container' := by
  constructor
  · intro removed
    cases container with
    | mapping m =>
      rw [removeChild?, Mapping.hasKey] at removed
      split at removed
      · next present =>
        obtain ⟨v, hv⟩ := Option.isSome_iff_exists.1 present
        obtain ⟨before, y, behind, rfl, first⟩ :=
          Mapping.exists_split (Mapping.mem_keys_of_get? hv)
        obtain rfl := Option.some.inj removed
        rw [Mapping.erase_split first]
        exact .entry first
      · cases removed
    | list items =>
      cases position : s.position? with
      | none => simp [removeChild?, position] at removed
      | some i =>
        simp only [removeChild?, position] at removed
        split at removed
        · next bounds =>
          obtain rfl := Option.some.inj removed
          rw [List.eraseIdx_eq_take_drop_succ]
          exact .item (by rw [position, Int.toNat_of_nonneg bounds.1]) (by omega)
        · cases removed
    | _ => cases removed
  · rintro (⟨first⟩ | ⟨position, bound⟩)
    · next before behind y =>
      have present : s.label ∈ Mapping.keys (before ++ (s.label, y) :: behind) := by
        simp [Mapping.keys]
      obtain ⟨v, hv⟩ := Option.ne_none_iff_exists'.1
        fun absent => Mapping.get?_eq_none_iff.1 absent present
      rw [removeChild?_mapping hv, Mapping.erase_split first]
    · rw [removeChild?_list position bound, List.eraseIdx_eq_take_drop_succ]

/-- A container that loses a child is another one. -/
theorem removeChild?_of_child? (hs : container.child? s = some v) :
    ∃ left, container.removeChild? s = some left ∧ left.isContainer = true ∧ left ≠ container := by
  cases container with
  | mapping m =>
    rw [child?_mapping (ne_append_of_child? hs)] at hs
    refine ⟨_, removeChild?_mapping hs, rfl, fun same => ?_⟩
    have shorter := Mapping.length_erase (Mapping.mem_keys_of_get? hs)
    rw [Value.mapping.inj same] at shorter
    omega
  | list items =>
    obtain ⟨i, position, hi⟩ := child?_list_eq_some_iff.1 hs
    obtain ⟨bound, -⟩ := List.getElem?_eq_some_iff.1 hi
    refine ⟨_, removeChild?_list position bound, rfl, fun same => ?_⟩
    have shorter := List.length_eraseIdx_add_one bound
    rw [Value.list.inj same] at shorter
    omega
  | _ => cases isContainer_of_child? hs

/-- Whether the append marker stands for an entry of a mapping, under its text. -/
def MarkerNamesEntry (container : Value) (s : Segment) : Prop :=
  s = .append ∧ ∃ m : Mapping, container = .mapping m ∧ Segment.append.label ∈ m.keys

theorem isSome_removeChild?_mapping :
    ((Value.mapping m).removeChild? s).isSome = true ↔ s.label ∈ m.keys := by
  have found : m.hasKey s.label = true ↔ s.label ∈ m.keys := by
    rw [Mapping.hasKey, Option.isSome_iff_ne_none, ne_eq, Mapping.get?_eq_none_iff, not_not]
  rw [removeChild?, ← found]
  split <;> simp_all

/-- A child can be taken out exactly when it can be read, or the append marker names an entry. -/
theorem isSome_removeChild?_iff :
    (container.removeChild? s).isSome = true ↔
      (container.child? s).isSome = true ∨ container.MarkerNamesEntry s := by
  cases container with
  | mapping m =>
    rw [isSome_removeChild?_mapping]
    by_cases marker : s = .append
    · subst marker
      simp [child?, MarkerNamesEntry]
    · rw [child?_mapping marker, Option.isSome_iff_ne_none, ne_eq, Mapping.get?_eq_none_iff]
      simp [MarkerNamesEntry, marker]
  | list items =>
    have unnamed : ¬ (Value.list items).MarkerNamesEntry s := by rintro ⟨-, m, equal, -⟩; cases equal
    rw [or_iff_left unnamed]
    constructor
    · intro removed
      obtain ⟨left, removed⟩ := Option.isSome_iff_exists.1 removed
      cases removeChild?_eq_some_iff.1 removed with
      | item position bound =>
        rw [child?_list_eq_some_iff.2 ⟨_, position, List.getElem?_eq_getElem bound⟩,
          Option.isSome_some]
    · intro found
      obtain ⟨child, found⟩ := Option.isSome_iff_exists.1 found
      obtain ⟨left, removed, -, -⟩ := removeChild?_of_child? found
      rw [removed, Option.isSome_some]
  | _ => cases s <;> simp [removeChild?, child?, MarkerNamesEntry]

/-! ### The container -/

theorem remove?_concat (hparent : document.resolve parent = some container)
    (hs : container.removeChild? s = some container') :
    document.remove? (parent ++ [s]) = some (document.update (fun _ => container') parent) := by
  induction parent generalizing document with
  | nil =>
    obtain rfl : document = container := by simpa [resolve] using hparent
    simp [remove?, hs, update]
  | cons t parent ih =>
    obtain ⟨child, ht, hparent⟩ := resolve_cons_eq_some_iff.1 hparent
    have below := ih hparent
    obtain ⟨u, more, step⟩ := List.exists_cons_of_ne_nil (show parent ++ [s] ≠ [] by simp)
    rw [step] at below
    rw [List.cons_append, step, remove?, ht]
    simp only [below, Option.map_some, update, ht]

/-- A removal takes a child out of the container that stands before it, and nothing else. -/
theorem remove?_concat_eq_some_iff :
    document.remove? (parent ++ [s]) = some after ↔
      ∃ container container', document.resolve parent = some container ∧
        container.removeChild? s = some container' ∧
        after = document.update (fun _ => container') parent := by
  constructor
  · intro removed
    induction parent generalizing document after with
    | nil => exact ⟨document, after, rfl, removed, rfl⟩
    | cons t parent ih =>
      obtain ⟨u, more, step⟩ := List.exists_cons_of_ne_nil (show parent ++ [s] ≠ [] by simp)
      rw [List.cons_append, step, remove?] at removed
      split at removed
      · next child ht =>
        rw [← step, Option.map_eq_some_iff] at removed
        obtain ⟨below, removed, rfl⟩ := removed
        obtain ⟨container, container', hparent, hs, rfl⟩ := ih removed
        refine ⟨container, container', resolve_cons_eq_some_iff.2 ⟨child, ht, hparent⟩, hs, ?_⟩
        simp only [update, ht]
      · cases removed
  · rintro ⟨container, container', hparent, hs, rfl⟩
    exact remove?_concat hparent hs

/-! ### What is read afterwards -/

/-- Two paths that lead to one place of a document. -/
def SamePlace (document : Value) (p q : Path) : Prop :=
  ∃ l, document.places? p = some l ∧ document.places? q = some l

/-- A path that leads through the place of another one, or ends there. -/
def GoesThrough (document : Value) (q p : Path) : Prop :=
  ∃ front rest, q = front ++ rest ∧ document.SamePlace front p

theorem samePlace_nil (document : Value) : document.SamePlace [] [] := ⟨[], rfl, rfl⟩

theorem SamePlace.resolve_eq (h : document.SamePlace p q) :
    document.resolve p = document.resolve q := by
  obtain ⟨l, hp, hq⟩ := h
  exact resolve_eq_of_places?_eq hp hq

theorem exists_place?_of_child? (hs : container.child? s = some child) :
    ∃ place, container.place? s = some place := by
  cases container with
  | mapping m => exact ⟨.entry s.label, rfl⟩
  | list items =>
    obtain ⟨i, position, -⟩ := child?_list_eq_some_iff.1 hs
    exact ⟨.item i, by simp [place?, position]⟩
  | _ => cases isContainer_of_child? hs

theorem SamePlace.cons (hs : container.child? s = some child) (ht : container.child? t = some child)
    (same : container.place? s = container.place? t) (h : child.SamePlace p q) :
    container.SamePlace (s :: p) (t :: q) := by
  obtain ⟨l, hp, hq⟩ := h
  obtain ⟨place, hplace⟩ := exists_place?_of_child? hs
  exact ⟨place :: l, places?_cons_eq_some_iff.2 ⟨child, place, l, hs, hplace, hp, rfl⟩,
    places?_cons_eq_some_iff.2 ⟨child, place, l, ht, same ▸ hplace, hq, rfl⟩⟩

theorem GoesThrough.cons (hs : container.child? s = some child)
    (ht : container.child? t = some child) (same : container.place? s = container.place? t)
    (h : child.GoesThrough p q) : container.GoesThrough (s :: p) (t :: q) := by
  obtain ⟨front, rest, rfl, h⟩ := h
  exact ⟨s :: front, rest, rfl, h.cons hs ht same⟩

/-- Children at one place are replaced alike. -/
theorem replaceChild_congr (hs : container.child? s = some x) (ht : container.child? t = some y)
    (same : container.place? s = container.place? t) (v : Value) :
    container.replaceChild s v = container.replaceChild t v := by
  cases container with
  | mapping m =>
    obtain labels : s.label = t.label := by simpa [place?] using same
    rw [replaceChild, replaceChild, labels]
  | list items =>
    obtain ⟨i, position, -⟩ := child?_list_eq_some_iff.1 hs
    obtain ⟨j, position', -⟩ := child?_list_eq_some_iff.1 ht
    obtain rfl : i = j := by simpa [place?, position, position'] using same
    simp only [replaceChild, position, position']
  | _ => rfl

/-- A child at another place stays. -/
theorem child?_replaceChild_of_ne (hs : container.child? s = some child)
    (different : (container.child? t).isSome = true → container.place? t ≠ container.place? s)
    (x : Value) : (container.replaceChild s x).child? t = container.child? t := by
  cases container with
  | mapping m =>
    rw [replaceChild]
    by_cases marker : t = .append
    · simp [marker, child?]
    rw [child?_mapping marker] at different ⊢
    rw [child?_mapping marker, Mapping.get?_put]
    split
    · next labels =>
      rw [child?_mapping (ne_append_of_child? hs), labels] at hs
      exact absurd (by simp [place?, labels]) (different (by rw [hs, Option.isSome_some]))
    · rfl
  | list items =>
    obtain ⟨i, position, hi⟩ := child?_list_eq_some_iff.1 hs
    simp only [replaceChild, position]
    ext y
    rw [child?_list_eq_some_iff, child?_list_eq_some_iff]
    refine exists_congr fun j => and_congr_right fun position' => ?_
    by_cases equal : i = j
    · subst equal
      have found : (Value.list items).child? t = some child :=
        child?_list_eq_some_iff.2 ⟨i, position', hi⟩
      exact absurd (by simp [place?, position, position'])
        (different (by rw [found, Option.isSome_some]))
    · rw [Int.toNat_natCast, List.getElem?_set_ne equal]
  | _ => cases isContainer_of_child? hs

/-- An update at one place is the same by every path that leads there. -/
theorem update_eq_of_samePlace (h : document.SamePlace p q) (f : Value → Value) :
    document.update f p = document.update f q := by
  induction p generalizing document q with
  | nil =>
    obtain ⟨l, hp, hq⟩ := h
    obtain rfl : [] = l := by simpa [places?] using hp
    cases q with
    | nil => rfl
    | cons t q =>
      obtain ⟨_, _, _, -, -, -, equal⟩ := places?_cons_eq_some_iff.1 hq
      cases equal
  | cons s p ih =>
    obtain ⟨l, hp, hq⟩ := h
    obtain ⟨child, place, below, hs, hplace, hp', rfl⟩ := places?_cons_eq_some_iff.1 hp
    cases q with
    | nil => simp [places?] at hq
    | cons t q =>
      obtain ⟨child', place', below', ht, hplace', hq', equal⟩ := places?_cons_eq_some_iff.1 hq
      obtain ⟨rfl, rfl⟩ := List.cons.inj equal
      have same := hplace.trans hplace'.symm
      obtain rfl := child?_eq_of_place?_eq hs ht same
      simp only [update, hs, ht, ih ⟨below, hp', hq'⟩]
      exact replaceChild_congr hs ht same _

/-- What an update makes of a value is read by every path that leads to its place. -/
theorem resolve_update_of_samePlace (h : document.SamePlace q p) (hp : document.resolve p = some x)
    (f : Value → Value) : (document.update f p).resolve q = some (f x) := by
  rw [← update_eq_of_samePlace h]
  exact resolve_update (h.resolve_eq.trans hp) f

/-- What neither stands around an updated place nor goes through it is read as before. -/
theorem resolve_update_of_elsewhere (hp : document.resolve p = some x)
    (apart : ¬ document.GoesThrough q p) (notAround : ¬ document.GoesThrough p q)
    (f : Value → Value) : (document.update f p).resolve q = document.resolve q := by
  induction p generalizing document q with
  | nil => exact absurd ⟨[], q, rfl, samePlace_nil document⟩ apart
  | cons s p ih =>
    obtain ⟨child, hs, hp⟩ := resolve_cons_eq_some_iff.1 hp
    cases q with
    | nil => exact absurd ⟨[], s :: p, rfl, samePlace_nil document⟩ notAround
    | cons t q =>
      simp only [update, hs]
      by_cases same : (document.child? t).isSome = true ∧ document.place? t = document.place? s
      · obtain ⟨present, same⟩ := same
        obtain ⟨child', ht⟩ := Option.isSome_iff_exists.1 present
        obtain rfl := child?_eq_of_place?_eq ht hs same
        rw [replaceChild_congr hs ht same.symm]
        simp only [resolve, child?_replaceChild ht, ht]
        exact ih hp (fun through => apart (through.cons ht hs same))
          fun around => notAround (around.cons hs ht same.symm)
      · have kept := child?_replaceChild_of_ne hs (fun present equal => same ⟨present, equal⟩)
          (child.update f p)
        simp only [resolve, kept]

/-! ### Removing -/

/-- A document that lost a child of one of its containers, and nothing else. -/
structure RemovedAt (document : Value) (parent : Path) (s : Segment) (after : Value) : Prop where
  /-- The container lost the child. -/
  lost : ∃ container container', document.resolve parent = some container ∧
    LosesChild s container container' ∧ after.resolve parent = some container'
  /-- A mapping no longer has the key. -/
  gone : document.wellFormed = true → ∀ m : Mapping, after.resolve parent = some (.mapping m) →
    s.label ∉ m.keys
  /-- A container around it is what the removal made of it. -/
  around : ∀ front rest q, parent = front ++ rest → document.SamePlace q front →
    ∃ x x', document.resolve q = some x ∧ x.remove? (rest ++ [s]) = some x' ∧
      after.resolve q = some x'
  /-- What is neither around it nor in it is read as before. -/
  elsewhere : ∀ q, ¬ document.GoesThrough q parent → ¬ document.GoesThrough parent q →
    after.resolve q = document.resolve q

theorem LosesChild.label_notMem (h : LosesChild s container (.mapping m))
    (wf : container.wellFormed = true) : s.label ∉ m.keys := by
  cases h with
  | entry first =>
    next before behind y =>
    have distinct := (wellFormed_mapping.1 wf).1
    simp only [Mapping.keys, List.map_append, List.map_cons] at distinct first ⊢
    rw [List.nodup_append, List.nodup_cons] at distinct
    obtain ⟨-, ⟨later, -⟩, -⟩ := distinct
    exact fun mem => (List.mem_append.1 mem).elim first later

theorem removedAt_of_remove? (h : document.remove? (parent ++ [s]) = some after) :
    RemovedAt document parent s after := by
  obtain ⟨container, container', hparent, hs, rfl⟩ := remove?_concat_eq_some_iff.1 h
  have lost := removeChild?_eq_some_iff.1 hs
  have left := resolve_update hparent fun _ => container'
  constructor
  case lost => exact ⟨container, container', hparent, lost, left⟩
  case gone =>
    intro wf m hm
    obtain rfl : container' = .mapping m := Option.some.inj (left.symm.trans hm)
    exact lost.label_notMem (wellFormed_of_resolve wf hparent)
  case around =>
    rintro front rest q rfl same
    rw [resolve_append, Option.bind_eq_some_iff] at hparent
    obtain ⟨x, hfront, hrest⟩ := hparent
    refine ⟨x, _, same.resolve_eq.trans hfront, remove?_concat hrest hs, ?_⟩
    rw [update_append]
    exact resolve_update_of_samePlace same hfront _
  case elsewhere =>
    intro q apart notAround
    exact resolve_update_of_elsewhere hparent apart notAround _

theorem isSome_remove?_concat_iff :
    (document.remove? (parent ++ [s])).isSome = true ↔
      ∃ container, document.resolve parent = some container ∧
        (container.removeChild? s).isSome = true := by
  simp only [Option.isSome_iff_exists, remove?_concat_eq_some_iff]
  constructor
  · rintro ⟨_, container, container', hparent, hs, -⟩
    exact ⟨container, hparent, container', hs⟩
  · rintro ⟨container, hparent, container', hs⟩
    exact ⟨_, container, container', hparent, hs, rfl⟩

theorem isSome_resolve_concat_iff :
    (document.resolve (parent ++ [s])).isSome = true ↔
      ∃ container, document.resolve parent = some container ∧
        (container.child? s).isSome = true := by
  simp only [resolve_append, Option.isSome_iff_exists, Option.bind_eq_some_iff]
  constructor
  · rintro ⟨x, container, hparent, hs⟩
    obtain ⟨child, hs, -⟩ := resolve_cons_eq_some_iff.1 hs
    exact ⟨container, hparent, child, hs⟩
  · rintro ⟨container, hparent, child, hs⟩
    exact ⟨child, container, hparent, resolve_cons_eq_some_iff.2 ⟨child, hs, rfl⟩⟩

/-- A removal takes place exactly where something is read, unless the append marker names an entry
of the mapping before it. It leaves everything as it was when it does not take place, and takes one
child out of one container when it does. -/
theorem remove?_as_read_iff (document : Value) (parent : Path) (s : Segment) :
    (((document.remove? (parent ++ [s])).isSome = true ↔
        (document.resolve (parent ++ [s])).isSome = true) ↔
      ¬ ∃ container, document.resolve parent = some container ∧ container.MarkerNamesEntry s) ∧
    (∀ after, document.remove? (parent ++ [s]) = some after →
      RemovedAt document parent s after) ∧
    ∀ (store : Store) (source : Source), Value.mapping (store.projection source) = document →
      (store.delete (parent ++ [s]) source).2 = (document.remove? (parent ++ [s])).isSome ∧
      ((store.delete (parent ++ [s]) source).2 = false →
        (store.delete (parent ++ [s]) source).1 = store) := by
  refine ⟨?_, fun after => removedAt_of_remove?, ?_⟩
  · rw [isSome_remove?_concat_iff, isSome_resolve_concat_iff]
    cases hparent : document.resolve parent with
    | none => simp
    | some container =>
      have removable := @isSome_removeChild?_iff container s
      -- the marker reads nothing, so the two ways of being removable exclude each other
      have unread : container.MarkerNamesEntry s → ¬ (container.child? s).isSome = true := by
        rintro ⟨rfl, m, rfl, -⟩
        simp [child?]
      simp only [Option.some.injEq, exists_eq_left']
      tauto
  · rintro store source rfl
    rw [Store.delete]
    cases (Value.mapping (store.projection source)).remove? (parent ++ [s]) <;> simp

/-- The second of three items is removed, and the third one is read in its place. -/
theorem remove?_as_read_iff_item :
    let document : Value := .mapping
      [("a", .list [.text "x", .text "y", .text "z"]), ("b", .text "y")]
    let after : Value := .mapping [("a", .list [.text "x", .text "z"]), ("b", .text "y")]
    document.remove? [.key "a", .index 1] = some after ∧
      RemovedAt document [.key "a"] (.index 1) after :=
  ⟨rfl, (remove?_as_read_iff _ [.key "a"] (.index 1)).2.1 _ rfl⟩

/-- The marker behind a mapping reads nothing, and yet it removes an entry. -/
theorem marker_removes_unread_entry :
    let document : Value := .mapping [("a", .mapping [("APPEND", .bool true)])]
    let path : Path := [.key "a", .append]
    Path.parse "a/-" = path ∧ document.resolve path = none ∧
      document.remove? path = some (.mapping [("a", .mapping [])]) := by
  refine ⟨by decide, rfl, rfl⟩

end Value

end PatchScript
