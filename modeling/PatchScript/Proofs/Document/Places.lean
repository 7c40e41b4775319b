import PatchScript.Proofs.Document.Update

/-!
# Places in a document

Two paths may lead to the same location without being the same: an entry of a mapping is reached by
an index as well as by its text, and an item of a list by a truth value as well as by an index. The
places along a path tell locations apart.

## Main definitions

* `Value.Place`, `Value.place?` — the place of a child in its container
* `Value.places?` — the places along a path

## Main results

* `Value.resolve_eq_of_places?_eq` — paths with the same places lead to the same value
* `Value.places?_concat_eq_some_iff` — the last place is one in the container before it
-/

namespace PatchScript

/-- A place in a container: an entry of a mapping, or an item of a list. -/
inductive Value.Place where
  | entry (k : String)
  | item (i : Nat)
deriving DecidableEq

namespace Value

variable {container v x y : Value} {s t : Segment} {p q : Path} {place : Place}

/-- The place of a child in its container. -/
def place? (container : Value) (s : Segment) : Option Place :=
  match container, s.position? with
  | .mapping _, _ => some (.entry s.label)
  | .list _, some i => some (.item i.toNat)
  | _, _ => none

/-- The places along a path that leads to a value. -/
def places? : Value → Path → Option (List Place)
  | _, [] => some []
  | v, s :: rest => do
    let child ← v.child? s
    let place ← v.place? s
    let places ← places? child rest
    return place :: places

theorem places?_cons_eq_some_iff {l : List Place} :
    v.places? (s :: p) = some l ↔ ∃ child place rest, v.child? s = some child ∧
      v.place? s = some place ∧ child.places? p = some rest ∧ l = place :: rest := by
  simp only [places?, bind, Option.bind_eq_some_iff, pure, Option.some.injEq]
  constructor
  · rintro ⟨child, hs, place, hplace, rest, hrest, rfl⟩
    exact ⟨child, place, rest, hs, hplace, hrest, rfl⟩
  · rintro ⟨child, place, rest, hs, hplace, hrest, rfl⟩
    exact ⟨child, hs, place, hplace, rest, hrest, rfl⟩

/-- The place in a container decides about the child. -/
theorem child?_eq_of_place?_eq (hs : container.child? s = some x) (ht : container.child? t = some y)
    (same : container.place? s = container.place? t) : x = y := by
  cases container with
  | mapping m =>
    rw [child?_mapping (ne_append_of_child? hs)] at hs
    rw [child?_mapping (ne_append_of_child? ht)] at ht
    obtain labels : s.label = t.label := by simpa [place?] using same
    rw [labels, ht] at hs
    exact (Option.some.inj hs).symm
  | list items =>
    obtain ⟨i, position, hi⟩ := child?_list_eq_some_iff.1 hs
    obtain ⟨j, position', hj⟩ := child?_list_eq_some_iff.1 ht
    obtain rfl : i = j := by simpa [place?, position, position'] using same
    rw [hi] at hj
    exact Option.some.inj hj
  | _ => cases isContainer_of_child? hs

/-- Paths with the same places lead to the same value. -/
theorem resolve_eq_of_places?_eq {l : List Place} (hp : v.places? p = some l)
    (hq : v.places? q = some l) : v.resolve p = v.resolve q := by
  induction p generalizing v q l with
  | nil =>
    obtain rfl : [] = l := by simpa [places?] using hp
    cases q with
    | nil => rfl
    | cons t q =>
      obtain ⟨_, _, _, -, -, -, equal⟩ := places?_cons_eq_some_iff.1 hq
      cases equal
  | cons s p ih =>
    obtain ⟨child, place, rest, hs, hplace, hrest, rfl⟩ := places?_cons_eq_some_iff.1 hp
    cases q with
    | nil => simp [places?] at hq
    | cons t q =>
      obtain ⟨child', place', rest', ht, hplace', hrest', equal⟩ := places?_cons_eq_some_iff.1 hq
      obtain ⟨rfl, rfl⟩ := List.cons.inj equal
      obtain rfl := child?_eq_of_place?_eq hs ht (hplace.trans hplace'.symm)
      simp only [resolve, hs, ht]
      exact ih hrest hrest'

/-- The last place of a path is one in the container before it. -/
theorem places?_concat_eq_some_iff {l : List Place} :
    v.places? (p ++ [s]) = some l ↔ ∃ front x child place, v.places? p = some front ∧
      v.resolve p = some x ∧ x.child? s = some child ∧ x.place? s = some place ∧
      l = front ++ [place] := by
  induction p generalizing v l with
  | nil =>
    rw [List.nil_append, places?_cons_eq_some_iff]
    constructor
    · rintro ⟨child, place, rest, hs, hplace, hrest, rfl⟩
      obtain rfl : [] = rest := by simpa [places?] using hrest
      exact ⟨[], v, child, place, rfl, rfl, hs, hplace, rfl⟩
    · rintro ⟨front, x, child, place, hfront, hx, hs, hplace, rfl⟩
      obtain rfl : [] = front := by simpa [places?] using hfront
      obtain rfl : v = x := by simpa [resolve] using hx
      exact ⟨child, place, [], hs, hplace, rfl, rfl⟩
  | cons t p ih =>
    rw [List.cons_append, places?_cons_eq_some_iff]
    constructor
    · rintro ⟨child, place, rest, ht, hplace, hrest, rfl⟩
      obtain ⟨front, x, last, place', hfront, hx, hlast, hplace', rfl⟩ := ih.1 hrest
      exact ⟨place :: front, x, last, place',
        places?_cons_eq_some_iff.2 ⟨child, place, front, ht, hplace, hfront, rfl⟩,
        resolve_cons_eq_some_iff.2 ⟨child, ht, hx⟩, hlast, hplace', rfl⟩
    · rintro ⟨front, x, last, place', hfront, hx, hlast, hplace', rfl⟩
      obtain ⟨child, place, front', ht, hplace, hfront', rfl⟩ := places?_cons_eq_some_iff.1 hfront
      obtain ⟨child', ht', hx⟩ := resolve_cons_eq_some_iff.1 hx
      obtain rfl : child = child' := Option.some.inj (ht.symm.trans ht')
      exact ⟨child, place, front' ++ [place'], ht, hplace,
        ih.2 ⟨front', x, last, place', hfront', hx, hlast, hplace', rfl⟩, rfl⟩

end Value

end PatchScript
