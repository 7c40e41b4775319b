import PatchScript.Proofs.Text.Digits

/-!
# Positional texts

A finite binary64 number whose text has no exponent is written with digits on both sides of a point.
So is every finite number with six decimal places.

## Main definitions

* `IsPointed` — digits on both sides of a point
* `Magnitude.writtenText` — the text that stands for a magnitude in an expression

## Main results

* `Magnitude.isPointed_writtenText` — it has digits on both sides of a point
-/

namespace PatchScript

open Text

/-- Digits, one at least, then a point and further digits. -/
def IsPointed (text : List Char) : Prop :=
  ∃ w f, text = w ++ '.' :: f ∧ w ≠ [] ∧ (∀ c ∈ w, c.isDigit = true) ∧ ∀ c ∈ f, c.isDigit = true

theorem isDigit_of_mem_replicate {k : Nat} {c : Char} (h : c ∈ List.replicate k '0') :
    c.isDigit = true := by
  rw [List.eq_of_mem_replicate h]
  decide

theorem isDigit_of_mem_dropTrailingZeros {digits : List Char} (h : ∀ c ∈ digits, c.isDigit = true) :
    ∀ c ∈ dropTrailingZeros digits, c.isDigit = true := by
  intro c hc
  rw [dropTrailingZeros, List.mem_reverse] at hc
  exact h c (List.mem_reverse.1 ((List.dropWhile_suffix _).subset hc))

/-- Positional notation has digits on both sides of its point. -/
theorem isPointed_positionalText {digits : List Char} (h : ∀ c ∈ digits, c.isDigit = true)
    (point : Int) : IsPointed (positionalText digits point) := by
  rw [positionalText]
  split
  · refine ⟨['0'], List.replicate (-point).toNat '0' ++ digits, by simp, by simp, by simp, ?_⟩
    exact fun c hc => (List.mem_append.1 hc).elim isDigit_of_mem_replicate (h c)
  · split
    · refine ⟨digits ++ List.replicate (point.toNat - digits.length) '0', ['0'], by simp, ?_, ?_,
        by simp⟩
      · intro empty
        have := congrArg List.length empty
        simp only [List.length_append, List.length_replicate, List.length_nil] at this
        omega
      · exact fun c hc => (List.mem_append.1 hc).elim (h c) isDigit_of_mem_replicate
    · refine ⟨digits.take point.toNat, digits.drop point.toNat, rfl, ?_, ?_, ?_⟩
      · intro empty
        have := congrArg List.length empty
        simp only [List.length_take, List.length_nil] at this
        omega
      · exact fun c hc => h c (List.mem_of_mem_take hc)
      · exact fun c hc => h c (List.mem_of_mem_drop hc)

namespace Magnitude

variable {x : Magnitude}

/-- A text without an exponent has digits on both sides of a point. -/
theorem isPointed_text (h : 'e' ∉ x.text) : IsPointed x.text := by
  rw [text] at h ⊢
  split
  · exact ⟨['0'], ['0'], rfl, by simp, by simp, by simp⟩
  · next positive =>
    rw [if_neg positive] at h
    dsimp only at h ⊢
    split
    · exact isPointed_positionalText
        (isDigit_of_mem_dropTrailingZeros fun c hc => isDigit_of_mem_decimalDigits hc) _
    · next outside =>
      rw [if_neg outside] at h
      simp [exponentText] at h

theorem isPointed_fixedText (x : Magnitude) : IsPointed x.fixedText := by
  refine ⟨_, _, rfl, decimalDigits_ne_nil _, fun c hc => isDigit_of_mem_decimalDigits hc, ?_⟩
  exact fun c hc => (List.mem_append.1 hc).elim isDigit_of_mem_replicate isDigit_of_mem_decimalDigits

/-- The usual text, with six decimal places in place of one that has an exponent. -/
def writtenText (x : Magnitude) : List Char := if 'e' ∈ x.text then x.fixedText else x.text

theorem isPointed_writtenText (x : Magnitude) : IsPointed x.writtenText := by
  rw [writtenText]
  split
  · exact x.isPointed_fixedText
  · next unscaled => exact isPointed_text unscaled

end Magnitude

end PatchScript
