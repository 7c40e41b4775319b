/-!
# Finding and replacing parts of a text

## Main definitions

* `cut?`: the text before and after the first occurrence of a marker.
* `replaceAll`: every occurrence of a part replaced, from the left and without overlap.
* `withoutSuffix?`: the text before a given ending.
-/

namespace PatchScript.Text

/-- The text before and after the first occurrence of `marker`. -/
def cut? (marker : List Char) : List Char → Option (List Char × List Char)
  | [] => if marker.isEmpty then some ([], []) else none
  | c :: rest =>
    match marker.isPrefixOf? (c :: rest) with
    | some after => some ([], after)
    | none => (cut? marker rest).map fun (before, after) => (c :: before, after)

/-- A prefix and what is left after it make up the text. -/
theorem append_eq_of_isPrefixOf? {marker text after : List Char}
    (h : marker.isPrefixOf? text = some after) : marker ++ after = text := by
  induction marker generalizing text with
  | nil => exact Option.some.inj h.symm
  | cons m marker ih =>
    cases text with
    | nil => cases h
    | cons c text =>
      have h : (if m == c then marker.isPrefixOf? text else none) = some after := h
      simp only [beq_iff_eq, Option.ite_none_right_eq_some] at h
      obtain ⟨rfl, found⟩ := h
      rw [List.cons_append, ih found]

/-- A cut loses nothing: the text is what stands before the marker, the marker, and what stands
after it. -/
theorem eq_append_of_cut? {marker text before after : List Char}
    (h : cut? marker text = some (before, after)) : text = before ++ marker ++ after := by
  induction text generalizing before with
  | nil =>
    simp only [cut?, Option.ite_none_right_eq_some, Option.some.injEq, Prod.mk.injEq,
      List.isEmpty_iff] at h
    obtain ⟨rfl, rfl, rfl⟩ := h
    rfl
  | cons c rest ih =>
    unfold cut? at h
    split at h
    · next rest' found =>
      simp only [Option.some.injEq, Prod.mk.injEq] at h
      obtain ⟨rfl, rfl⟩ := h
      simpa using (append_eq_of_isPrefixOf? found).symm
    · simp only [Option.map_eq_some_iff, Prod.exists, Prod.mk.injEq] at h
      obtain ⟨b, a, hcut, rfl, rfl⟩ := h
      rw [ih hcut]
      rfl

/-- Replaces every occurrence of `part`, from the left and without overlap. The number counts the
characters of an occurrence that are still to be passed over. -/
def replaceFrom (part replacement : List Char) : Nat → List Char → List Char
  | _, [] => []
  | skip + 1, _ :: rest => replaceFrom part replacement skip rest
  | 0, c :: rest =>
    if part.isPrefixOf (c :: rest) then
      replacement ++ replaceFrom part replacement (part.length - 1) rest
    else c :: replaceFrom part replacement 0 rest

/-- Replaces every occurrence of a part that is not empty. -/
def replaceAll (part replacement text : List Char) : List Char :=
  replaceFrom part replacement 0 text

/-- The text before the ending `ending`, if it ends so. -/
def withoutSuffix? (ending text : List Char) : Option (List Char) :=
  if ending.isSuffixOf text then some (text.take (text.length - ending.length)) else none

end PatchScript.Text
