import PatchScript.Expression.Reader
import PatchScript.Proofs.Text.Digits

/-!
# Numbers at the front of a text

A number in an expression is a run of digits, possibly with a point in it or around it. The number
at the front of a text is the longest one: behind it stands no digit, and no point unless it has a
point itself. So what is taken depends on the number and on one character behind it.

## Main definitions

* `IsUnsigned` — the written forms of numbers without signs, with their values
* `Ends` — a text behind a number that does not prolong it

## Main results

* `takeNumber?_eq_some_iff` — the number at the front of a text is the longest one
* `takeNumber?_eq_none_iff` — where a text begins with no number
-/

namespace PatchScript

open Text

variable {text t rest : List Char} {n : Number}

/-- The written forms of numbers without signs: digits, or digits around a point, on one of its
sides at least. -/
inductive IsUnsigned : List Char → Number → Prop
  | whole (w : List Char) (some_digits : w ≠ []) (digits : ∀ c ∈ w, c.isDigit = true) :
    IsUnsigned w (unsignedValue ⟨false, w.map digitOf, none, none⟩)
  | pointed (w f : List Char) (some_digits : w ≠ [] ∨ f ≠ []) (digits : ∀ c ∈ w, c.isDigit = true)
    (more_digits : ∀ c ∈ f, c.isDigit = true) :
    IsUnsigned (w ++ '.' :: f) (unsignedValue ⟨false, w.map digitOf, some (f.map digitOf), none⟩)

/-- Behind a number stands neither a digit nor, unless it has a point itself, a point. -/
def Ends (t rest : List Char) : Prop :=
  ∀ c ∈ rest.head?, c.isDigit = false ∧ ('.' ∈ t ∨ c ≠ '.')

theorem IsUnsigned.ne_nil (h : IsUnsigned t n) : t ≠ [] := by
  cases h with
  | whole w some_digits _ => exact some_digits
  | pointed w f _ _ _ => simp

/-- A number without a sign consists of digits and a point. -/
theorem IsUnsigned.digit_or_point (h : IsUnsigned t n) {c : Char} (hc : c ∈ t) :
    c.isDigit = true ∨ c = '.' := by
  cases h with
  | whole _ _ digits => exact .inl (digits c hc)
  | pointed w f _ digits more_digits =>
    rcases List.mem_append.1 hc with front | behind
    · exact .inl (digits c front)
    · exact (List.mem_cons.1 behind).symm.imp (more_digits c) id

theorem takeDigits_ascii (digits rest : List Char) (front : ∀ c ∈ digits, c.isDigit = true)
    (behind : ∀ c ∈ rest.head?, c.isDigit = false) :
    takeDigits asciiDigit? (digits ++ rest) = (digits.map digitOf, rest) :=
  takeDigits_append digits rest (fun c hc => asciiDigit?_of_isDigit (front c hc))
    fun c hc => asciiDigit?_eq_none (behind c hc)

/-! ### The number in front -/

section

variable {digit? : Char → Option Nat} {ds fs : List Nat} {after : List Char}

theorem takeUnsigned_whole (h : takeDigits digit? text = (ds, rest)) (some_digits : ds ≠ [])
    (pointless : ∀ others, rest ≠ '.' :: others) :
    takeUnsigned digit? false text = some (⟨false, ds, none, none⟩, rest) := by
  obtain ⟨d, ds, rfl⟩ := List.exists_cons_of_ne_nil some_digits
  rw [takeUnsigned, h]
  dsimp only
  split
  · next equal => cases equal
  · next equal => cases equal
  · next whole others _ equal =>
    obtain ⟨-, rfl⟩ := Prod.mk.inj equal
    exact absurd rfl (pointless others)
  · next whole rest _ _ equal =>
    obtain ⟨rfl, rfl⟩ := Prod.mk.inj equal
    rfl

theorem takeUnsigned_pointed (h : takeDigits digit? text = (ds, '.' :: rest))
    (h' : takeDigits digit? rest = (fs, after)) (some_digits : ds ≠ [] ∨ fs ≠ []) :
    takeUnsigned digit? false text = some (⟨false, ds, some fs, none⟩, after) := by
  rw [takeUnsigned, h]
  dsimp only
  cases ds with
  | cons d ds => simp [h']
  | nil =>
    obtain ⟨f, fs, rfl⟩ := List.exists_cons_of_ne_nil (some_digits.resolve_left (by simp))
    simp [h']

theorem takeUnsigned_eq_none (h : takeDigits digit? text = ([], rest))
    (h' : ∀ others, rest = '.' :: others → (takeDigits digit? others).1 = []) :
    takeUnsigned digit? false text = none := by
  rw [takeUnsigned, h]
  dsimp only
  split
  · next others equal =>
    obtain ⟨-, rfl⟩ := Prod.mk.inj equal
    have nothing := h' others rfl
    split
    · rfl
    · next fraction after _ taken =>
      rw [taken] at nothing
      exact absurd nothing (by assumption)
  · rfl
  · next whole others _ equal => simp_all
  · next whole rest _ _ equal => simp_all

end

theorem takeNumber?_of_takeUnsigned {m : Numeral}
    (h : takeUnsigned asciiDigit? false (t ++ rest) = some (m, rest)) :
    takeNumber? (t ++ rest) = some (unsignedValue m, t, rest) := by
  simp [takeNumber?, h]

/-- A number is taken that is not prolonged by what stands behind it. -/
theorem takeNumber?_of_isUnsigned (h : IsUnsigned t n) (ends : Ends t rest) :
    takeNumber? (t ++ rest) = some (n, t, rest) := by
  cases h with
  | whole _ some_digits digits =>
    refine takeNumber?_of_takeUnsigned (takeUnsigned_whole
      (takeDigits_ascii _ _ digits fun c hc => (ends c hc).1) (by simpa using some_digits) ?_)
    rintro others rfl
    obtain ⟨-, inside | other⟩ := ends '.' rfl
    · exact absurd (digits _ inside) (by decide)
    · exact other rfl
  | pointed w f some_digits digits more_digits =>
    have front := takeDigits_ascii w ('.' :: f ++ rest) digits (by simp)
    have behind := takeDigits_ascii f rest more_digits fun c hc => (ends c hc).1
    refine takeNumber?_of_takeUnsigned (takeUnsigned_pointed (by simpa using front) behind ?_)
    simpa using some_digits

/-- A text that begins with no number: with no digit, and with no point before a digit. -/
def Numberless (text : List Char) : Prop :=
  (∀ c ∈ text.head?, c.isDigit = false) ∧
    ∀ others, text = '.' :: others → ∀ c ∈ others.head?, c.isDigit = false

theorem takeNumber?_of_numberless (h : Numberless text) : takeNumber? text = none := by
  have taken := takeDigits_ascii [] text (by simp) h.1
  have nothing := takeUnsigned_eq_none taken fun others equal => by
    rw [← List.nil_append others, takeDigits_ascii [] others (by simp) (h.2 others equal)]
    rfl
  rw [takeNumber?, ← List.nil_append text, nothing]
  rfl

/-- A text begins with a longest number, or with none. -/
theorem front_cases (text : List Char) :
    (∃ t rest n, text = t ++ rest ∧ IsUnsigned t n ∧ Ends t rest) ∨ Numberless text := by
  obtain ⟨w, rest, rfl, digits, behind, -⟩ := takeDigits_front text
  by_cases point : ∃ others, rest = '.' :: others
  · obtain ⟨others, rfl⟩ := point
    obtain ⟨f, after, rfl, more_digits, further, -⟩ := takeDigits_front others
    by_cases some_digits : w ≠ [] ∨ f ≠ []
    · refine .inl ⟨w ++ '.' :: f, after, _, by simp, .pointed w f some_digits digits more_digits, ?_⟩
      exact fun c hc => ⟨further c hc, .inl (by simp)⟩
    · obtain ⟨rfl, rfl⟩ : w = [] ∧ f = [] := by simpa using some_digits
      refine .inr ⟨by simp, ?_⟩
      rintro others equal
      obtain rfl : after = others := by simpa using equal
      exact further
  · by_cases some_digits : w ≠ []
    · refine .inl ⟨w, rest, _, rfl, .whole w some_digits digits, fun c hc => ⟨behind c hc, .inr ?_⟩⟩
      rintro rfl
      exact point (List.head?_eq_some_iff.1 hc)
    · obtain rfl : w = [] := by simpa using some_digits
      exact .inr ⟨behind, fun others equal => absurd ⟨others, equal⟩ point⟩

/-- **The number in front of a text** is the longest one. -/
theorem takeNumber?_eq_some_iff :
    takeNumber? text = some (n, t, rest) ↔ text = t ++ rest ∧ IsUnsigned t n ∧ Ends t rest := by
  constructor
  · intro h
    obtain ⟨t', rest', n', rfl, number, ends⟩ | none := front_cases text
    · rw [takeNumber?_of_isUnsigned number ends] at h
      cases h
      exact ⟨rfl, number, ends⟩
    · rw [takeNumber?_of_numberless none] at h
      cases h
  · rintro ⟨rfl, number, ends⟩
    exact takeNumber?_of_isUnsigned number ends

theorem takeNumber?_eq_none_iff : takeNumber? text = none ↔ Numberless text := by
  refine ⟨fun h => ?_, takeNumber?_of_numberless⟩
  obtain ⟨t, rest, n, rfl, number, ends⟩ | none := front_cases text
  · rw [takeNumber?_of_isUnsigned number ends] at h
    cases h
  · exact none

end PatchScript
