import PatchScript.Proofs.Expression.Tokens
import Mathlib.Data.List.Basic

/-!
# The words of a text

A text is split into the words of an expression from the front: blanks are passed over, a number is
as long as any number at its place can be, and every other character is a word of its own. This says
which words a text has without a scanner, and it has them exactly where the scanner finds them.

## Main definitions

* `IsLongest` — a number that is as long as any number at its place
* `Splits` — a text splits into words

## Main results

* `IsUnsigned.ends_iff_isLongest` — a number is longest when the character behind it does not
  prolong it
* `splits_iff_kinds?` — the words of a text are its tokens
-/

namespace PatchScript

open Text

variable {text t rest : List Char} {c : Char} {n : Number} {kinds : List TokenKind}

/-- No number at the front of the whole text is longer than the one that is taken. -/
def IsLongest (t rest : List Char) : Prop :=
  ∀ longer m, IsUnsigned longer m → longer <+: t ++ rest → longer.length ≤ t.length

/-- A text splits into words: blanks are passed over, and a number is as long as possible. -/
inductive Splits : List Char → List TokenKind → Prop
  | nil : Splits [] []
  | blank {c : Char} {rest : List Char} {kinds : List TokenKind} : isBlank c = true →
      Splits rest kinds → Splits (c :: rest) kinds
  | number {t rest : List Char} {n : Number} {kinds : List TokenKind} : IsUnsigned t n →
      IsLongest t rest → Splits rest kinds → Splits (t ++ rest) (.number n :: kinds)
  | symbol {c : Char} {rest : List Char} {kind : TokenKind} {kinds : List TokenKind} :
      symbolKind? c = some kind → Splits rest kinds → Splits (c :: rest) (kind :: kinds)

/-! ### Longest numbers -/

/-- A number has at most one point. -/
theorem IsUnsigned.count_point_le_one (h : IsUnsigned t n) : t.count '.' ≤ 1 := by
  have pointless {w : List Char} (digits : ∀ c ∈ w, c.isDigit = true) : w.count '.' = 0 :=
    List.count_eq_zero.2 fun inside => absurd (digits _ inside) (by decide)
  cases h with
  | whole _ _ digits => simp [pointless digits]
  | pointed w f _ digits more_digits => simp [pointless digits, pointless more_digits]

/-- A number with one more digit is a number. -/
theorem IsUnsigned.concat_digit (h : IsUnsigned t n) (digit : c.isDigit = true) :
    ∃ m, IsUnsigned (t ++ [c]) m := by
  cases h with
  | whole _ _ digits =>
    exact ⟨_, .whole (t ++ [c]) (by simp) (List.forall_mem_append.2 ⟨digits, by simpa using digit⟩)⟩
  | pointed w f _ digits more_digits =>
    rw [List.append_assoc, List.cons_append]
    exact ⟨_, .pointed w (f ++ [c]) (.inr (by simp)) digits
      (List.forall_mem_append.2 ⟨more_digits, by simpa using digit⟩)⟩

/-- A number without a point is a number with a point behind it. -/
theorem IsUnsigned.concat_point (h : IsUnsigned t n) (pointless : '.' ∉ t) :
    ∃ m, IsUnsigned (t ++ ['.']) m := by
  cases h with
  | whole _ some_digits digits => exact ⟨_, .pointed t [] (.inl some_digits) digits (by simp)⟩
  | pointed w f => simp at pointless

/-- A number is longest exactly when the character behind it does not prolong it. -/
theorem IsUnsigned.ends_iff_isLongest (h : IsUnsigned t n) : Ends t rest ↔ IsLongest t rest := by
  constructor
  · intro ends longer m hlonger hprefix
    by_contra beyond
    -- a longer number would begin with this one and the character behind it
    obtain ⟨more, rfl⟩ : ∃ more, longer = t ++ more := by
      obtain ⟨more, equal⟩ := List.prefix_of_prefix_length_le (List.prefix_append t rest) hprefix
        (by omega)
      exact ⟨more, equal.symm⟩
    obtain ⟨c, more, rfl⟩ := List.exists_cons_of_ne_nil (l := more) (by rintro rfl; simp at beyond)
    obtain ⟨behind, rfl⟩ := (List.prefix_append_right_inj t).1 hprefix
    obtain ⟨notDigit, point⟩ := ends c rfl
    obtain digit | rfl := hlonger.digit_or_point (c := c) (by simp)
    · simp [notDigit] at digit
    · have inside : 0 < t.count '.' := List.count_pos_iff.2 (point.resolve_right (by simp))
      have once := hlonger.count_point_le_one
      simp only [List.count_append, List.count_cons_self] at once
      omega
  · intro longest c behind
    obtain ⟨others, rfl⟩ := List.head?_eq_some_iff.1 behind
    have next : t ++ [c] <+: t ++ c :: others := by simp
    have short (m : Number) (longer : IsUnsigned (t ++ [c]) m) : False := by
      have := longest _ m longer next
      simp only [List.length_append, List.length_singleton] at this
      omega
    constructor
    · by_contra digit
      obtain ⟨m, longer⟩ := h.concat_digit (c := c) (by simpa using digit)
      exact short m longer
    · by_contra neither
      obtain ⟨pointless, rfl⟩ : '.' ∉ t ∧ c = '.' := by simpa using neither
      obtain ⟨m, longer⟩ := h.concat_point pointless
      exact short m longer

/-! ### Words and tokens -/

/-- A word of one character is neither a blank nor the beginning of a number. -/
theorem numberless_of_symbolKind? {kind : TokenKind} (h : symbolKind? c = some kind)
    (rest : List Char) : isBlank c = false ∧ Numberless (c :: rest) := by
  have apart : isBlank c = false ∧ c.isDigit = false ∧ c ≠ '.' := by
    unfold symbolKind? at h
    split at h <;> first | decide | cases h
  refine ⟨apart.1, by simpa using apart.2.1, ?_⟩
  rintro others equal
  exact absurd (List.cons.inj equal).1 apart.2.2

/-- **The words of a text** are what its tokens are. -/
theorem splits_iff_kinds? : Splits text kinds ↔ kinds? text = some kinds := by
  constructor
  · intro h
    induction h with
    | nil => rfl
    | blank hblank _ ih => rw [kinds?_blank hblank, ih]
    | number unsigned longest _ ih =>
      rw [kinds?_number unsigned (unsigned.ends_iff_isLongest.2 longest), ih]
      rfl
    | @symbol c rest kind _ hkind _ ih =>
      obtain ⟨hblank, numberless⟩ := numberless_of_symbolKind? hkind rest
      rw [kinds?_symbol hblank numberless, hkind, ih]
      rfl
  · refine kinds_induction (motive := Splits) .nil ?_ ?_ ?_
    · exact fun _ _ _ hblank others => .blank hblank others
    · exact fun _ _ _ _ unsigned ends others =>
        .number unsigned (unsigned.ends_iff_isLongest.1 ends) others
    · exact fun _ _ _ _ hkind others => .symbol hkind others

end PatchScript
