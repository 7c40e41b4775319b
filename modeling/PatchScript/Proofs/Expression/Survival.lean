import PatchScript.Proofs.Expression.Calculation
import PatchScript.Proofs.Number.ReadBack

/-!
# Numbers that survive in place of a name

A number that replaces a name is always read, as a primary in which at most two parentheses and
signs are open. Its value is the number again, but for finite numbers whose digits lie behind the
sixth decimal place. Those have a usual text with an exponent, and are written without it.

## Main definitions

* `Number.Survives` — the text of a number has that number as its value
* `Number.LosesDigits` — a number that has digits behind the places with which it is written

## Main results

* `Number.isUnsigned_pointedValue` — digits around a point are read as what they denote, rounded
* `Number.survives_iff` — which numbers survive
-/

namespace PatchScript

open Text

namespace Number

variable {v : Number} {t : List Char}

/-- The text of the number consists of arithmetic. Wherever there is room for two parentheses and
signs it is read as a primary, whose value is the number itself. -/
def Survives (v : Number) : Prop :=
  ∀ room, 2 ≤ room → v.rendered.all isArithmetic = true ∧
    ∃ tokens e, expressionTokens v.rendered = .ok tokens ∧ IsPrimary (tokens.map (·.kind)) ∧
      Expression.read room v.rendered = .ok e ∧ e.evaluate = .ok v

/-- The finite numbers whose digits are lost when they are written with six decimal places. -/
def LosesDigits : Number → Prop
  | .float (.finite _ x) => x.LosesDigits
  | _ => False

/-- The text of a number is always read, and its value is the number that is read in its place. -/
theorem survives_iff_reread : v.Survives ↔ v.reread = v := by
  obtain ⟨kinds, e, d, operand, shallow, value⟩ := v.isOperand_rendered
  obtain ⟨tokens, htokens, rfl⟩ := kinds?_eq_some_iff.1 operand.kinds?_eq
  constructor
  · intro survives
    obtain ⟨-, _, e', -, -, hread, hvalue⟩ := survives 2 (Nat.le_refl 2)
    obtain rfl : e = e' := Except.ok.inj ((operand.read_eq shallow).symm.trans hread)
    rw [Expression.evaluate_eq_value, value] at hvalue
    exact Except.ok.inj hvalue
  · intro same room enough
    refine ⟨all_isArithmetic_of_kinds? operand.kinds?_eq, tokens, e, htokens, operand.primary,
      operand.read_eq (shallow.trans enough), ?_⟩
    rw [Expression.evaluate_eq_value, value, same]
    rfl

/-- **Digits around a point** are read as the number that they denote, rounded. -/
theorem isUnsigned_pointedValue (h : IsPointed t) :
    IsUnsigned t (.float (.ofMagnitude false (pointedValue t))) := by
  obtain ⟨w, f, rfl, some_digits, digits, more_digits⟩ := h
  have unsigned := IsUnsigned.pointed w f (.inl some_digits) digits more_digits
  have value : unsignedValue ⟨false, w.map digitOf, some (f.map digitOf), none⟩ =
      .float (.ofMagnitude false (pointedValue (w ++ '.' :: f))) := by
    rw [unsignedValue, if_neg (by simp [Numeral.isInteger]), Numeral.toBinary64,
      Decimal.toBinary64_eq, pointedValue_append digits]
    simp [Numeral.toDecimal, Decimal.magnitude]
  rwa [value] at unsigned

theorem ofMagnitude_eq_finite_iff (negative : Bool) {q : ℚ} {x : Magnitude} :
    Binary64.ofMagnitude negative q = .finite negative x ↔ Magnitude.ofRat q = some x := by
  rw [Binary64.ofMagnitude]
  cases Magnitude.ofRat q <;> simp

/-- The number that is read in place of a finite one has its sign. -/
theorem reread_float_finite (negative : Bool) (x : Magnitude) :
    (Number.float (.finite negative x)).reread =
      .float (.ofMagnitude negative (pointedValue x.writtenText)) := by
  rw [reread_finite negative (isUnsigned_pointedValue x.isPointed_writtenText)]
  cases negative with
  | false => rfl
  | true =>
    rw [if_pos rfl, Number.neg, Binary64.ofMagnitude, Binary64.ofMagnitude]
    cases Magnitude.ofRat (pointedValue x.writtenText) <;> rfl

theorem reread_eq_iff : v.reread = v ↔ ¬ v.LosesDigits := by
  cases v with
  | int k => simp [reread, LosesDigits]
  | float x =>
    cases x with
    | nan | infinite _ => simp [reread, LosesDigits]
    | finite negative x =>
      rw [reread_float_finite, Number.float.injEq, ofMagnitude_eq_finite_iff,
        Magnitude.ofRat_pointedValue_iff]
      rfl

/-- **Numbers survive in place of a name**, unless they lose digits behind the sixth decimal
place. -/
theorem survives_iff (v : Number) : v.Survives ↔ ¬ v.LosesDigits :=
  survives_iff_reread.trans reread_eq_iff

/-- One ten-millionth is written as zero. -/
theorem tiny_number_vanishes :
    let tiny : Number := .float (.finite false ⟨7555786372591432, -76, by decide⟩)
    tiny.text = "1e-07".toList ∧ tiny.rendered = "0.000000".toList ∧
      tiny.reread = .float (.zero false) ∧ ¬ tiny.Survives := by
  intro tiny
  have vanished : tiny.reread = .float (.zero false) := by decide +kernel
  refine ⟨by decide +kernel, by decide +kernel, vanished, fun survives => ?_⟩
  have zero := vanished.symm.trans (survives_iff_reread.1 survives)
  exact absurd zero (by decide +kernel)

end Number

end PatchScript
