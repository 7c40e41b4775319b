import PatchScript.Proofs.Value.Mapping

/-!
# Sizes

Every item of a list and every entry of a mapping adds to the size of the whole, so a change in one
place changes the size by what it puts there less what it takes away. This tells documents apart
without a look at where they differ.

## Main results

* `Value.sizeOf_set`, `sizeOf_insertIdx`, `sizeOf_eraseIdx` — lists
* `Mapping.sizeOf_put_of_get?`, `sizeOf_put_of_not_mem`, `sizeOf_erase` — mappings
-/

namespace PatchScript

namespace Value

variable {α : Type} [SizeOf α] {xs : List α} {x y : α} {i : Nat}

theorem sizeOf_append (xs ys : List α) : sizeOf (xs ++ ys) + 1 = sizeOf xs + sizeOf ys := by
  induction xs with
  | nil => simp; omega
  | cons x xs ih => simp only [List.cons_append, List.cons.sizeOf_spec]; omega

theorem sizeOf_set (h : xs[i]? = some y) :
    sizeOf (xs.set i x) + sizeOf y = sizeOf xs + sizeOf x := by
  induction xs generalizing i with
  | nil => simp at h
  | cons z xs ih =>
    cases i with
    | zero =>
      obtain rfl : z = y := by simpa using h
      simp only [List.set_cons_zero, List.cons.sizeOf_spec]
      omega
    | succ i =>
      have := ih (i := i) (by simpa using h)
      simp only [List.set_cons_succ, List.cons.sizeOf_spec]
      omega

theorem sizeOf_insertIdx (h : i ≤ xs.length) (x : α) :
    sizeOf (xs.insertIdx i x) = sizeOf xs + (1 + sizeOf x) := by
  induction xs generalizing i with
  | nil =>
    obtain rfl : i = 0 := by simpa using h
    simp
    omega
  | cons z xs ih =>
    cases i with
    | zero =>
      simp only [List.insertIdx_zero, List.cons.sizeOf_spec]
      omega
    | succ i =>
      have := ih (i := i) (by simpa using h)
      simp only [List.insertIdx_succ_cons, List.cons.sizeOf_spec]
      omega

theorem sizeOf_eraseIdx (h : xs[i]? = some x) :
    sizeOf (xs.eraseIdx i) + (1 + sizeOf x) = sizeOf xs := by
  induction xs generalizing i with
  | nil => simp at h
  | cons z xs ih =>
    cases i with
    | zero =>
      obtain rfl : z = x := by simpa using h
      simp only [List.eraseIdx_cons_zero, List.cons.sizeOf_spec]
      omega
    | succ i =>
      have := ih (i := i) (by simpa using h)
      simp only [List.eraseIdx_cons_succ, List.cons.sizeOf_spec]
      omega

theorem sizeOf_pos (xs : List α) : 0 < sizeOf xs := by
  cases xs with
  | nil => simp
  | cons x xs =>
    simp only [List.cons.sizeOf_spec]
    omega

/-- A container is larger than nothing. -/
theorem sizeOf_null_lt {v : Value} (h : v.isContainer = true) : sizeOf Value.null < sizeOf v := by
  cases v with
  | list items =>
    have := sizeOf_pos items
    simp only [Value.null.sizeOf_spec, Value.list.sizeOf_spec]
    omega
  | mapping entries =>
    have := sizeOf_pos entries
    simp only [Value.null.sizeOf_spec, Value.mapping.sizeOf_spec]
    omega
  | _ => cases h

end Value

namespace Mapping

variable {m : Mapping} {k : String} {v c : Value}

theorem sizeOf_put_of_get? (h : m.get? k = some c) (v : Value) :
    sizeOf (m.put k v) + sizeOf c = sizeOf m + sizeOf v := by
  induction m with
  | nil => cases h
  | cons e rest ih =>
    obtain ⟨l, x⟩ := e
    by_cases hl : l = k
    · obtain rfl : x = c := by simpa [get?, hl] using h
      simp only [put, hl, if_true, List.cons.sizeOf_spec, Prod.mk.sizeOf_spec]
      omega
    · have := ih (by simpa [get?, hl] using h)
      simp only [put, if_neg hl, List.cons.sizeOf_spec]
      omega

theorem sizeOf_put_of_not_mem (h : k ∉ m.keys) (v : Value) :
    sizeOf (m.put k v) = sizeOf m + (1 + sizeOf (k, v)) := by
  have := Value.sizeOf_append m [(k, v)]
  rw [put_of_not_mem h]
  simp only [List.cons.sizeOf_spec, List.nil.sizeOf_spec] at this
  omega

theorem sizeOf_erase (h : m.get? k = some v) :
    sizeOf (m.erase k) + (1 + sizeOf (k, v)) = sizeOf m := by
  induction m with
  | nil => cases h
  | cons e rest ih =>
    obtain ⟨l, x⟩ := e
    by_cases hl : l = k
    · obtain rfl : x = v := by simpa [get?, hl] using h
      simp only [erase, hl, if_true, List.cons.sizeOf_spec]
      omega
    · have := ih (by simpa [get?, hl] using h)
      simp only [erase, if_neg hl, List.cons.sizeOf_spec]
      omega

end Mapping

end PatchScript
