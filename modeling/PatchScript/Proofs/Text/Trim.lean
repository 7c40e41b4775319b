import PatchScript.Text.Blank
import Mathlib.Data.List.DropRight

/-!
# Texts without blanks around them

A text is what trimming leaves of it exactly where neither its first nor its last character is a
blank.

## Main results

* `Text.trim_eq_nil_iff` — when trimming leaves nothing
* `Text.trim_eq_self_iff` — when trimming changes nothing
* `Text.trim_trim` — trimming leaves nothing to trim
* `Text.trim_append_blanks` — the blanks around a text are what trimming takes away
-/

namespace PatchScript.Text

variable {text : List Char}

theorem trimRight_eq (text : List Char) : trimRight text = text.rdropWhile isBlank := by
  induction text with
  | nil => rfl
  | cons c rest ih =>
    rw [trimRight, ih]
    by_cases h : rest.rdropWhile isBlank = []
    · -- only blanks follow, so this character is the last one
      have blanks := List.rdropWhile_eq_nil_iff.1 h
      rw [h]
      by_cases hc : isBlank c = true
      · have : (c :: rest).rdropWhile isBlank = [] := by
          rw [List.rdropWhile_eq_nil_iff]
          simpa [hc] using blanks
        simp [hc, this]
      · have : (c :: rest).rdropWhile isBlank = [c] := by
          have all : rest.reverse.dropWhile isBlank = [] := by
            rw [List.dropWhile_eq_nil_iff]
            simpa using blanks
          rw [List.rdropWhile, List.reverse_cons, List.dropWhile_append, all]
          simp [hc]
        simp [hc, this]
    · have kept : (c :: rest).rdropWhile isBlank = c :: rest.rdropWhile isBlank := by
        have some_left : rest.reverse.dropWhile isBlank ≠ [] := by
          simpa [List.rdropWhile] using h
        rw [List.rdropWhile, List.reverse_cons, List.dropWhile_append]
        simp [some_left, List.rdropWhile]
      obtain ⟨d, others, equal⟩ := List.exists_cons_of_ne_nil h
      rw [kept, equal]

theorem trimRight_prefix_self (text : List Char) : trimRight text <+: text := by
  rw [trimRight_eq]
  exact List.rdropWhile_prefix isBlank text

theorem trimRight_cons {c : Char} (solid : isBlank c = false) (text : List Char) :
    trimRight (c :: text) = c :: trimRight text := by
  rw [trimRight]
  split
  · next none => simp [none, solid]
  · rfl

/-- Trimming keeps what is no blank. -/
theorem mem_trimRight {c : Char} (solid : isBlank c = false) (h : c ∈ text) :
    c ∈ trimRight text := by
  induction text with
  | nil => cases h
  | cons d rest ih =>
    rw [trimRight]
    rcases List.mem_cons.1 h with rfl | later
    · split
      · simp [solid]
      · exact List.mem_cons_self ..
    · have kept := ih later
      split
      · next none => simp [none] at kept
      · exact List.mem_cons_of_mem _ kept

/-- Where something is left behind it, a text is kept. -/
theorem trimRight_append {tail : List Char} (h : trimRight tail ≠ []) (text : List Char) :
    trimRight (text ++ tail) = text ++ trimRight tail := by
  induction text with
  | nil => rfl
  | cons c text ih =>
    rw [List.cons_append, trimRight, ih]
    split
    · next none => exact absurd (List.append_eq_nil_iff.1 none).2 h
    · rfl

/-- Trimming leaves nothing exactly of the texts of blanks. -/
theorem trim_eq_nil_iff : trim text = [] ↔ ∀ c ∈ text, isBlank c = true := by
  rw [trim, trimRight_eq, List.rdropWhile_eq_nil_iff, trimLeft]
  constructor
  · intro blanks
    -- what trimming leaves in front would begin with something else than a blank
    rw [← List.dropWhile_eq_nil_iff]
    by_contra some_left
    have first := List.head_dropWhile_not isBlank some_left
    rw [blanks _ (List.head_mem _)] at first
    cases first
  · intro blanks c hc
    exact blanks c ((List.dropWhile_sublist isBlank).subset hc)

/-- Trimming changes nothing exactly where no blank stands first or last. -/
theorem trim_eq_self_iff :
    trim text = text ↔
      (∀ c ∈ text.head?, isBlank c = false) ∧ ∀ c ∈ text.getLast?, isBlank c = false := by
  have left : trimLeft text = text ↔ ∀ c ∈ text.head?, isBlank c = false := by
    cases text with
    | nil => simp [trimLeft]
    | cons c rest => simp [trimLeft, List.dropWhile_eq_self_iff]
  have right : trimRight text = text ↔ ∀ c ∈ text.getLast?, isBlank c = false := by
    rw [trimRight_eq, List.rdropWhile_eq_self_iff]
    cases text with
    | nil => simp
    | cons c rest => simp [List.getLast?_eq_some_getLast]
  rw [← left, ← right, trim]
  constructor
  · intro same
    -- a text that loses a blank in front is shorter, and trimming behind does not make up for it
    have first : trimLeft text = text := by
      have shorter := (trimRight_prefix_self (trimLeft text)).length_le
      rw [same] at shorter
      exact List.IsSuffix.eq_of_length_le (List.dropWhile_suffix isBlank) shorter
    exact ⟨first, by rwa [first] at same⟩
  · rintro ⟨first, last⟩
    rw [first, last]

/-- Where no blank stands last, trimming takes away those in front. -/
theorem trim_eq_trimLeft (last : ∀ c ∈ text.getLast?, isBlank c = false) :
    trim text = trimLeft text := by
  rw [trim, trimRight_eq, List.rdropWhile_eq_self_iff]
  intro some_text
  obtain ⟨front, equal⟩ := List.dropWhile_suffix isBlank (l := text)
  have same : text.getLast? = some ((trimLeft text).getLast some_text) := by
    rw [← List.getLast?_eq_some_getLast, ← List.getLast?_append_of_ne_nil front some_text]
    exact congrArg List.getLast? equal.symm
  simpa using last _ same

/-- Trimming takes away the blanks that stand around a text. -/
theorem trim_append_blanks {left right : List Char} (hleft : ∀ c ∈ left, isBlank c = true)
    (hright : ∀ c ∈ right, isBlank c = true) (trimmed : trim text = text) (some_text : text ≠ []) :
    trim (left ++ text ++ right) = text := by
  obtain ⟨c, rest, rfl⟩ := List.exists_cons_of_ne_nil some_text
  have first : isBlank c = false := (trim_eq_self_iff.1 trimmed).1 c rfl
  have front (others : List Char) : trimLeft (c :: others) = c :: others :=
    List.dropWhile_cons_of_neg (by simp [first])
  have back : (c :: rest).rdropWhile isBlank = c :: rest := by
    rwa [trim, front, trimRight_eq] at trimmed
  calc trim (left ++ (c :: rest) ++ right)
      = trimRight ((c :: rest) ++ right) := by
        rw [trim, trimLeft, List.append_assoc, List.dropWhile_append_of_pos hleft]
        exact congrArg trimRight (front _)
    _ = (c :: rest).rdropWhile isBlank := by
        rw [trimRight_eq, List.rdropWhile, List.reverse_append,
          List.dropWhile_append_of_pos (by simpa using hright), List.rdropWhile]
    _ = c :: rest := back

theorem trim_sublist (text : List Char) : (trim text).Sublist text :=
  (trimRight_prefix_self _).sublist.trans (List.dropWhile_sublist _)

/-- What trimming leaves has no blanks at its ends. -/
theorem trim_trim (text : List Char) : trim (trim text) = trim text := by
  rw [trim_eq_self_iff, trim]
  constructor
  · -- the first character is that behind the blanks in front
    have start := List.head?_dropWhile_not isBlank text
    obtain ⟨tail, front⟩ := trimRight_prefix_self (trimLeft text)
    rw [← trimLeft, ← front] at start
    intro c hc
    obtain ⟨others, kept⟩ := List.head?_eq_some_iff.1 hc
    simpa [kept] using start
  · rw [trimRight_eq]
    intro c hc
    have some_text : (trimLeft text).rdropWhile isBlank ≠ [] := by
      rintro none
      simp [none] at hc
    have last := List.rdropWhile_last_not isBlank _ some_text
    rw [List.getLast?_eq_some_getLast some_text] at hc
    simpa [Option.some.inj hc] using last

end PatchScript.Text
