import PatchScript.Proofs.Document.Rewriting
import PatchScript.Proofs.Store.Annotations
import PatchScript.Proofs.Store.Reported

/-!
# Writing into a store again

A value that was set can be set again, and the second value takes the place of the first one with
the description that was there in the beginning. A change that was recorded can be recorded again:
whether a path takes annotations is decided by the two projections, and not by the text.

## Main definitions

* `Store.Annotates` — the path takes annotations in both projections
* `Store.Records` — a change at a path can be recorded

## Main results

* `Store.assign_assign` — the second of two values wins, and the description stays
* `Store.annotate_fault_iff`, `Store.Annotates.again` — whether a change can be recorded
-/

namespace PatchScript.Store

variable {s s' : Store} {path : Path} {x : Value}

/-! ### The live document -/

theorem set_set (concrete : Segment.append ∉ path) (h : (s.set path x).2 = none) (y : Value) :
    (s.set path x).1.set path y = s.set path y := by
  have twice := Value.write_write concrete h y
  rw [set_eq (s.set path x).1, mapping_stat_set]
  rw [set_eq] at h ⊢
  exact congrArg (fun w : Value × Option WriteFault => ({ s with stat := w.1.entries }, w.2)) twice

/-- A value that is no list leaves the description as it is. -/
theorem description?_described (hx : ∀ items, x ≠ .list items) (current : Option Value) :
    (described current x).description? = current.bind Value.description? := by
  cases x with
  | list items => exact absurd rfl (hx items)
  | _ => cases found : current.bind Value.description? <;> simp only [described, found] <;> rfl

/-- How a value is described depends on the description that is there. -/
theorem described_congr {current current' : Option Value}
    (h : current.bind Value.description? = current'.bind Value.description?) (y : Value) :
    described current y = described current' y := by
  unfold described
  rw [h]

/-- Whether a value can be assigned does not depend on the value. -/
theorem assign_fault_eq (s : Store) (path : Path) (x y : Value) :
    (s.assign path x).2 = (s.assign path y).2 := by
  rw [assign, assign, set_eq, set_eq]
  exact Value.write_fault_eq ..

/-- What becomes of a value that is assigned depends on the live document alone. -/
theorem assign_congr (h : s.stat = s'.stat) (path : Path) (x : Value) :
    (s.assign path x).1.stat = (s'.assign path x).1.stat ∧
      (s.assign path x).2 = (s'.assign path x).2 := by
  rw [assign, assign, lookup_eq, lookup_eq, set_eq, set_eq, h]
  exact ⟨rfl, rfl⟩

theorem lookup_of_assign (concrete : Segment.append ∉ path) (h : (s.assign path x).2 = none) :
    (s.assign path x).1.lookup path = some (described (s.lookup path) x) := by
  rw [assign] at h ⊢
  exact lookup_of_set (Prod.ext rfl h) concrete

/-- **The second of two values** takes the place of the first one and keeps the description. -/
theorem assign_assign (concrete : Segment.append ∉ path) (hx : ∀ items, x ≠ .list items)
    (h : (s.assign path x).2 = none) (y : Value) :
    (s.assign path x).1.assign path y = s.assign path y := by
  have kept : described ((s.assign path x).1.lookup path) y = described (s.lookup path) y :=
    described_congr
      (by rw [lookup_of_assign concrete h]; exact description?_described hx _) y
  rw [assign, kept]
  exact set_set concrete h _

/-! ### Annotations -/

theorem SameAnnotations.assign (s : Store) (path : Path) (x : Value) :
    s.SameAnnotations (s.assign path x).1 := by
  rw [Store.assign, set_eq]
  exact ⟨rfl, rfl⟩

/-- The path takes annotations in both projections. -/
structure Annotates (s : Store) (path : Path) : Prop where
  display : ((Value.mapping s.display).write true path .null).2 = none
  delta : ((Value.mapping s.delta).write true path .null).2 = none

theorem annotate_fault_iff (s : Store) (path : Path) (text : String) :
    (s.annotate path text).2 = none ↔ s.Annotates path := by
  have display := Value.write_fault_eq true (.mapping s.display) path (.text text) .null
  have delta := Value.write_fault_eq true (.mapping s.delta) path (.text text) .null
  constructor
  · intro h
    rw [annotate] at h
    split at h
    · cases h
    · next shown hshown =>
      obtain ⟨rfl, first⟩ := Prod.mk.inj hshown
      exact ⟨display.symm.trans first, delta.symm.trans h⟩
  · rintro ⟨first, second⟩
    have shown : s.write .display true path (.text text) =
        ((s.write .display true path (.text text)).1, none) :=
      Prod.ext rfl (display.trans first)
    rw [annotate, shown]
    exact delta.trans second

/-- Only the annotations matter. -/
theorem SameAnnotations.annotates_iff (h : s.SameAnnotations s') :
    s'.Annotates path ↔ s.Annotates path := by
  constructor
  · rintro ⟨display, delta⟩
    exact ⟨h.display ▸ display, h.delta ▸ delta⟩
  · rintro ⟨display, delta⟩
    exact ⟨h.display ▸ display, h.delta ▸ delta⟩

/-- **A path that was annotated** takes annotations again. -/
theorem Annotates.again (h : s.Annotates path) (text : String) :
    (s.annotate path text).1.Annotates path := by
  have success := (annotate_fault_iff s path text).2 h
  rw [annotate] at success ⊢
  split at success
  · cases success
  · next shown hshown =>
    obtain ⟨rfl, first⟩ := Prod.mk.inj hshown
    have display :=
      Value.write_forced_again (Value.write_fault_eq_none h.display (.text text)) .null
    have delta := Value.write_forced_again (Value.write_fault_eq_none h.delta (.text text)) .null
    rw [← Value.mapping_entries_write] at display delta
    exact ⟨display, delta⟩

/-- A change at a path can be recorded: the reading of its spelling takes annotations. -/
def Records (s : Store) (path : Path) : Prop := s.Annotates (Path.parse (Path.canonical path))

end PatchScript.Store
