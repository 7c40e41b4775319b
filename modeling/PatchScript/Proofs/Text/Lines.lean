import PatchScript.Text.Lines

/-!
# Lines of a text

A line feed closes a line, also where it is the second half of a boundary. So a text that ends with
a line feed has its lines to itself, whatever follows it.

## Main results

* `Text.lines_of_not_isLineBreak` — a text that is one line
* `Text.lines_append_lineFeed` — the lines before and after a line feed
-/

namespace PatchScript.Text

variable {text : List Char}

/-- A text without a boundary is one line. -/
theorem lines_of_not_isLineBreak (some_character : text ≠ [])
    (h : ∀ c ∈ text, isLineBreak c = false) : lines text = [text] := by
  induction text with
  | nil => exact absurd rfl some_character
  | cons c rest ih =>
    have notReturn : c ≠ '\r' := by
      rintro rfl
      exact absurd (h '\r' (by simp)) (by decide)
    have here : lines (c :: rest) = consLine c (lines rest) := by
      rw [lines, h c (by simp), if_neg Bool.false_ne_true]
      exact fun _ begins => absurd begins notReturn
    cases rest with
    | nil => rw [here]; rfl
    | cons d rest =>
      rw [here, ih (by simp) fun e he => h e (List.mem_cons_of_mem c he)]
      rfl

theorem lines_cons {c : Char} {rest : List Char} (h : c = '\r' → rest.head? ≠ some '\n') :
    lines (c :: rest) = if isLineBreak c then [] :: lines rest else consLine c (lines rest) := by
  rw [lines]
  rintro rest' rfl rfl
  exact h rfl rfl

theorem consLine_append (c : Char) {front back : List (List Char)} (h : front ≠ []) :
    consLine c (front ++ back) = consLine c front ++ back := by
  cases front with
  | nil => exact absurd rfl h
  | cons line others => rfl

theorem lines_ne_nil {text : List Char} (h : text ≠ []) : lines text ≠ [] := by
  cases text using lines.fun_cases with
  | case1 => exact absurd rfl h
  | case2 => simp [lines]
  | case3 c rest notBoth breaks =>
    rw [lines_cons (by rintro rfl; cases rest <;> simp_all), if_pos breaks]
    exact List.cons_ne_nil _ _
  | case4 c rest notBoth goesOn =>
    rw [lines_cons (by rintro rfl; cases rest <;> simp_all), if_neg goesOn]
    cases lines rest <;> exact List.cons_ne_nil _ _

/-- A line feed closes a line: what stands before it has its lines, whatever follows. -/
theorem lines_append_lineFeed (text rest : List Char) :
    lines (text ++ '\n' :: rest) = lines (text ++ ['\n']) ++ lines rest := by
  induction text using lines.induct with
  | case1 => rfl
  | case2 text ih => simpa [lines] using ih
  | case3 c text notBoth _ ih | case4 c text notBoth _ ih =>
    by_cases both : c = '\r' ∧ text = []
    · obtain ⟨rfl, rfl⟩ := both
      rfl
    -- the line feed is no part of the boundary `c`, neither alone nor with what follows
    have apart (more : List Char) : c = '\r' → (text ++ '\n' :: more).head? ≠ some '\n' := by
      rintro rfl
      cases text with
      | nil => exact absurd ⟨rfl, rfl⟩ both
      | cons d text => simpa using fun equal => notBoth text rfl (by rw [equal])
    have some_line : lines (text ++ ['\n']) ≠ [] := lines_ne_nil (by simp)
    rw [List.cons_append, List.cons_append, lines_cons (apart rest), lines_cons (apart []), ih,
      consLine_append c some_line]
    cases isLineBreak c <;> rfl

end PatchScript.Text
