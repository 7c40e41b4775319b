import PatchScript.Text.Find
import Mathlib.Data.List.Infix

/-!
# First occurrences

`cut?` finds the first occurrence of a marker. What it finds in the front of a text is found in the
whole text, and what stands before the occurrence holds no other one. A character that the marker
does not have separates a text into two that can be searched one after the other.

## Main results

* `Text.cut?_eq_none_iff` — nothing is found exactly where the marker does not occur
* `Text.cut?_append` — text that follows does not change what was found
* `Text.not_infix_before` — the marker does not occur before its first occurrence
* `Text.cut?_append_cons` — a separator can be searched past
* `Text.not_infix_append_cons` — texts around a separator hold what the two of them hold
-/

namespace PatchScript.Text

variable {marker text before after : List Char}

/-! ### Beginnings -/

theorem isPrefixOf?_eq_none_iff : marker.isPrefixOf? text = none ↔ ¬ marker <+: text := by
  rw [Option.eq_none_iff_forall_ne_some]
  simp only [ne_eq, List.isPrefixOf?_eq_some_iff_append_eq]
  constructor
  · rintro h ⟨after, found⟩
    exact h after found
  · intro h after found
    exact h ⟨after, found⟩

/-! ### What is found -/

theorem cut?_of_isPrefixOf (c : Char) (rest : List Char) (h : marker ++ after = c :: rest) :
    cut? marker (c :: rest) = some ([], after) := by
  rw [cut?, List.isPrefixOf?_eq_some_iff_append_eq.2 h]

/-- A marker at the front is found there. -/
theorem cut?_marker_append (hm : marker ≠ []) (after : List Char) :
    cut? marker (marker ++ after) = some ([], after) := by
  obtain ⟨c, rest, rfl⟩ := List.exists_cons_of_ne_nil hm
  exact cut?_of_isPrefixOf c (rest ++ after) rfl

theorem cut?_cons_of_not_isPrefixOf (c : Char) (rest : List Char) (h : ¬ marker <+: c :: rest) :
    cut? marker (c :: rest) =
      (cut? marker rest).map fun found => (c :: found.1, found.2) := by
  rw [cut?, isPrefixOf?_eq_none_iff.2 h]

/-- Nothing is found exactly where the marker does not occur. -/
theorem cut?_eq_none_iff : cut? marker text = none ↔ ¬ marker <:+: text := by
  induction text with
  | nil => simp [cut?]
  | cons c rest ih =>
    by_cases h : marker <+: c :: rest
    · obtain ⟨after, found⟩ := h
      have occurs : marker <:+: c :: rest := ⟨[], after, found⟩
      simp [cut?_of_isPrefixOf c rest found, occurs]
    · rw [cut?_cons_of_not_isPrefixOf c rest h, Option.map_eq_none_iff, ih, List.infix_cons_iff]
      simp [h]

/-- Text that follows does not change what was found. -/
theorem cut?_append (h : cut? marker text = some (before, after)) (more : List Char) :
    cut? marker (text ++ more) = some (before, after ++ more) := by
  induction text generalizing before with
  | nil =>
    -- only the empty marker occurs in the empty text
    obtain ⟨rfl, rfl, rfl⟩ : marker = [] ∧ [] = before ∧ [] = after := by
      simpa [cut?] using h
    cases more with
    | nil => rfl
    | cons c more => exact cut?_of_isPrefixOf c more rfl
  | cons c rest ih =>
    by_cases start : marker <+: c :: rest
    · obtain ⟨after', found⟩ := start
      obtain ⟨rfl, rfl⟩ : [] = before ∧ after' = after := by
        simpa [cut?_of_isPrefixOf c rest found] using h
      exact cut?_of_isPrefixOf c (rest ++ more) (by rw [← List.append_assoc, found]; rfl)
    · obtain ⟨before', found, rfl⟩ : ∃ b, cut? marker rest = some (b, after) ∧ c :: b = before := by
        simpa [cut?_cons_of_not_isPrefixOf c rest start] using h
      -- an occurrence further on ends before `more`, so none begins here
      have short : marker.length ≤ (c :: rest).length := by
        have := congrArg List.length (eq_append_of_cut? found)
        simp only [List.length_append] at this
        simp only [List.length_cons]
        omega
      have start' : ¬ marker <+: c :: (rest ++ more) := fun longer =>
        start (List.prefix_of_prefix_length_le longer (List.prefix_append (c :: rest) more) short)
      rw [List.cons_append, cut?_cons_of_not_isPrefixOf c _ start', ih found]
      rfl

/-- What was found does not hang on the text that follows. -/
theorem cut?_front (h : cut? marker text = some (before, after)) :
    cut? marker (before ++ marker) = some (before, []) := by
  cases found : cut? marker (before ++ marker) with
  | none => exact absurd (List.suffix_append before marker).isInfix (cut?_eq_none_iff.1 found)
  | some cut =>
    have whole := cut?_append found after
    rw [← eq_append_of_cut? h, h] at whole
    obtain ⟨rfl, equal⟩ : before = cut.1 ∧ after = cut.2 ++ after := by simpa using whole
    have : cut.2 = [] := List.append_left_eq_self.1 equal.symm
    rw [← this]

/-- The marker does not occur before its first occurrence. -/
theorem not_infix_before (hm : marker ≠ []) (h : cut? marker text = some (before, after)) :
    ¬ marker <:+: before := by
  rw [← cut?_eq_none_iff, Option.eq_none_iff_forall_ne_some]
  rintro ⟨b, a⟩ found
  -- an occurrence inside would be the first one, but it leaves less before it
  have whole := cut?_append found (marker ++ after)
  rw [← List.append_assoc, ← eq_append_of_cut? h, h] at whole
  obtain ⟨rfl, -⟩ : before = b ∧ _ := by simpa using whole
  have := congrArg List.length (eq_append_of_cut? found)
  have := List.length_pos_iff.2 hm
  simp only [List.length_append] at *
  omega

/-! ### Separators -/

variable {c : Char} {rest : List Char}

/-- A beginning that lacks a character ends before that character. -/
theorem prefix_of_prefix_append_cons (text : List Char) (hc : c ∉ marker)
    (h : marker <+: text ++ c :: rest) : marker <+: text := by
  obtain ⟨after, found⟩ := h
  rcases List.append_eq_append_iff.1 found with ⟨middle, rfl, -⟩ | ⟨middle, rfl, ends⟩
  · exact List.prefix_append marker middle
  · cases middle with
    | nil => simp
    | cons d middle =>
      obtain ⟨rfl, -⟩ : c = d ∧ _ := by simpa using ends
      simp at hc

/-- A character that the marker lacks separates two texts: where the first one holds no
occurrence, the search goes on in the second. -/
theorem cut?_append_cons (hc : c ∉ marker) (h : ¬ marker <:+: text) :
    cut? marker (text ++ c :: rest) =
      (cut? marker rest).map fun found => (text ++ c :: found.1, found.2) := by
  induction text with
  | nil =>
    have start : ¬ marker <+: c :: rest := fun longer => by
      have := prefix_of_prefix_append_cons [] hc longer
      exact h this.isInfix
    rw [List.nil_append, cut?_cons_of_not_isPrefixOf c rest start]
    rfl
  | cons d text ih =>
    have start : ¬ marker <+: d :: (text ++ c :: rest) := fun longer =>
      h (prefix_of_prefix_append_cons (d :: text) hc longer).isInfix
    rw [List.cons_append, cut?_cons_of_not_isPrefixOf d _ start,
      ih fun occurs => h (List.infix_cons occurs), Option.map_map]
    rfl

/-- A marker does not reach over a character that it lacks. -/
theorem not_infix_append_cons (hc : c ∉ marker) (front : ¬ marker <:+: text)
    (back : ¬ marker <:+: rest) : ¬ marker <:+: text ++ c :: rest := by
  rw [← cut?_eq_none_iff, cut?_append_cons hc front, cut?_eq_none_iff.2 back]
  rfl

/-- Behind a text that does not hold the marker and whose last character the marker lacks, the
marker is found. -/
theorem cut?_concat_marker (hm : marker ≠ []) (hc : c ∉ marker) (h : ¬ marker <:+: text ++ [c])
    (after : List Char) :
    cut? marker (text ++ [c] ++ (marker ++ after)) = some (text ++ [c], after) := by
  have front : ¬ marker <:+: text := fun occurs => h (occurs.trans (List.prefix_append ..).isInfix)
  rw [List.append_assoc, List.singleton_append, cut?_append_cons hc front,
    cut?_marker_append hm after]
  rfl

end PatchScript.Text
