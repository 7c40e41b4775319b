import PatchScript.Number.Binary64
import Mathlib.Algebra.Order.Field.Power
import Mathlib.Data.Int.Log
import Mathlib.Data.Rat.Floor
import Mathlib.Tactic.FieldSimp
import Mathlib.Tactic.Linarith
import Mathlib.Tactic.Positivity
import Mathlib.Tactic.Ring

/-!
# Rounding to binary64

A positive rational number between `2 ^ k` and `2 ^ (k + 1)` is rounded to a multiple of its unit,
`2 ^ (k - 52)`, or the least positive magnitude where that is more. The multiples of the unit are as
close to the number as all magnitudes are, because those that are none are smaller than `2 ^ k`. So
the result is a nearest magnitude, a magnitude is its own rounding, and rounding keeps the order.

## Main definitions

* `Magnitude.unitExponent` — the exponent of the unit to which a number is rounded

## Main results

* `Magnitude.exists_units_iff` — rounding in terms of the unit
* `Magnitude.ofRat_nearest` — no magnitude is nearer than the result
* `Magnitude.ofRat_toRat` — magnitudes are their own roundings
* `Magnitude.ofRat_mono` — rounding keeps the order
-/

namespace PatchScript.Magnitude

variable {num den m : ℕ} {q r : ℚ} {x y : Magnitude}

/-! ### Quotients -/

/-- The quotient is rounded to a natural number at a distance of a half at most. -/
theorem abs_sub_roundQuotient_le (num : ℕ) (pos : 0 < den) :
    |(num : ℚ) / den - roundQuotient num den| ≤ 1 / 2 := by
  have positive : (0 : ℚ) < den := by exact_mod_cast pos
  have split : (num : ℚ) / den = (num / den : ℕ) + (num % den : ℕ) / den := by
    rw [eq_comm, add_div_eq_mul_add_div _ _ positive.ne', mul_comm]
    exact_mod_cast congrArg (fun n : ℕ => (n : ℚ) / den) (Nat.div_add_mod num den)
  have down (h : 2 * (num % den) ≤ den) : |(num : ℚ) / den - (num / den : ℕ)| ≤ 1 / 2 := by
    have half : (2 : ℚ) * (num % den : ℕ) ≤ den := by exact_mod_cast h
    rw [split, add_sub_cancel_left, abs_of_nonneg (by positivity), div_le_iff₀ positive]
    linarith
  have up (h : den ≤ 2 * (num % den)) : |(num : ℚ) / den - (num / den + 1 : ℕ)| ≤ 1 / 2 := by
    have half : (den : ℚ) ≤ 2 * (num % den : ℕ) := by exact_mod_cast h
    have below : ((num % den : ℕ) : ℚ) ≤ den := by exact_mod_cast (Nat.mod_lt num pos).le
    have fraction : ((num % den : ℕ) : ℚ) / den ≤ 1 := (div_le_one positive).2 below
    have more : (1 : ℚ) / 2 ≤ (num % den : ℕ) / den := by
      rw [le_div_iff₀ positive]
      linarith
    rw [split, Nat.cast_add, Nat.cast_one, abs_le]
    constructor <;> linarith
  unfold roundQuotient
  dsimp only
  split
  · exact down (by omega)
  · split
    · exact up (by omega)
    · split
      · exact down (by omega)
      · exact up (by omega)

theorem abs_sub_roundScaled_le (num : ℕ) (pos : 0 < den) (e : ℤ) :
    |(num : ℚ) / den / 2 ^ e - roundScaled num den e| ≤ 1 / 2 := by
  rw [roundScaled]
  split
  · next nonneg =>
    obtain ⟨k, rfl⟩ := Int.eq_ofNat_of_zero_le nonneg
    have scaled := abs_sub_roundQuotient_le num
      (Nat.mul_pos pos (Nat.pow_pos Nat.two_pos : 0 < 2 ^ k))
    simpa [div_div] using scaled
  · next negative =>
    obtain ⟨k, rfl⟩ : ∃ k : ℕ, e = -k := ⟨(-e).toNat, by omega⟩
    have scaled := abs_sub_roundQuotient_le (num * 2 ^ k) pos
    simpa [mul_div_right_comm] using scaled

/-- A power of two, multiplied out on one side or the other, is at most a quotient. -/
theorem two_zpow_le_quotient_iff (hden : 0 < den) (e : ℤ) :
    (if 0 ≤ e then decide (den * Nat.pow 2 e.toNat ≤ num)
      else decide (den ≤ num * Nat.pow 2 (-e).toNat)) = true ↔ (2 : ℚ) ^ e ≤ (num : ℚ) / den := by
  have positive : (0 : ℚ) < den := by exact_mod_cast hden
  rw [le_div_iff₀ positive]
  split
  · next nonneg =>
    obtain ⟨k, rfl⟩ := Int.eq_ofNat_of_zero_le nonneg
    rw [decide_eq_true_iff, zpow_natCast, Int.toNat_natCast, mul_comm, Nat.pow_eq]
    exact_mod_cast Iff.rfl
  · next negative =>
    obtain ⟨k, rfl⟩ : ∃ k : ℕ, e = -k := ⟨(-e).toNat, by omega⟩
    have power : (0 : ℚ) < 2 ^ k := by positivity
    rw [decide_eq_true_iff, neg_neg, Int.toNat_natCast, zpow_neg, zpow_natCast, ← div_eq_inv_mul,
      div_le_iff₀ power, Nat.pow_eq]
    exact_mod_cast Iff.rfl

theorem two_zpow_le_iff (pos : 0 < q) {k : ℤ} : (2 : ℚ) ^ k ≤ q ↔ k ≤ Int.log 2 q := by
  have bound := Int.zpow_le_iff_le_log (x := k) one_lt_two pos
  rwa [Nat.cast_ofNat] at bound

theorem lt_two_zpow_iff (pos : 0 < q) {k : ℤ} : q < (2 : ℚ) ^ k ↔ Int.log 2 q < k := by
  have bound := Int.lt_zpow_iff_log_lt (x := k) one_lt_two pos
  rwa [Nat.cast_ofNat] at bound

theorem log_eq_of_bounds {k : ℤ} (lower : (2 : ℚ) ^ k ≤ q) (upper : q < 2 ^ (k + 1)) :
    Int.log 2 q = k := by
  have positive : 0 < q := lt_of_lt_of_le (by positivity) lower
  have least := (two_zpow_le_iff positive).1 lower
  have greatest := (lt_two_zpow_iff positive).1 upper
  omega

/-- The binary exponent is the greatest power of two that is at most the quotient. -/
theorem binaryExponent_eq_log (hnum : num ≠ 0) (hden : 0 < den) :
    binaryExponent num den = Int.log 2 ((num : ℚ) / den) := by
  have positive : (0 : ℚ) < den := by exact_mod_cast hden
  have numLower : (2 : ℚ) ^ num.log2 ≤ num := by exact_mod_cast Nat.log2_self_le hnum
  have numUpper : (num : ℚ) < 2 ^ (num.log2 + 1) := by exact_mod_cast Nat.lt_log2_self
  have denLower : (2 : ℚ) ^ den.log2 ≤ den := by exact_mod_cast Nat.log2_self_le hden.ne'
  have denUpper : (den : ℚ) < 2 ^ (den.log2 + 1) := by exact_mod_cast Nat.lt_log2_self
  have powers (a b : ℕ) : (2 : ℚ) ^ ((a : ℤ) - b) = 2 ^ a / 2 ^ b := by
    rw [zpow_sub₀ two_ne_zero, zpow_natCast, zpow_natCast]
  -- the guess is right or one too large
  have lower : (2 : ℚ) ^ ((num.log2 : ℤ) - den.log2 - 1) ≤ num / den := by
    have shift : (num.log2 : ℤ) - den.log2 - 1 = num.log2 - (den.log2 + 1 : ℕ) := by push_cast; ring
    rw [shift, powers]
    exact div_le_div₀ (by positivity) numLower positive denUpper.le
  have upper : (num : ℚ) / den < 2 ^ ((num.log2 : ℤ) - den.log2 + 1) := by
    have shift : (num.log2 : ℤ) - den.log2 + 1 = (num.log2 + 1 : ℕ) - den.log2 := by push_cast; ring
    rw [shift, powers]
    exact div_lt_div₀ numUpper denLower (by positivity) (by positivity)
  by_cases reached : (2 : ℚ) ^ ((num.log2 : ℤ) - den.log2) ≤ num / den
  · rw [log_eq_of_bounds reached upper]
    exact if_pos ((two_zpow_le_quotient_iff hden _).2 reached)
  · rw [log_eq_of_bounds lower (by rwa [sub_add_cancel, ← not_le])]
    exact if_neg (mt (two_zpow_le_quotient_iff hden _).1 reached)

/-! ### The unit -/

/-- The exponent of the unit: the place of the last of 53 binary digits, as far as there is one. -/
def unitExponent (q : ℚ) : ℤ := max (-1074) (Int.log 2 q - 52)

theorem div_unit_lt (q : ℚ) : q / 2 ^ unitExponent q < 2 ^ 53 := by
  have bound : q < 2 ^ (Int.log 2 q + 1) := by
    exact_mod_cast Int.lt_zpow_succ_log_self (b := 2) (by decide) q
  have unit : Int.log 2 q + 1 ≤ 53 + unitExponent q := by
    rw [unitExponent]
    omega
  rw [div_lt_iff₀ (by positivity)]
  calc q < 2 ^ (Int.log 2 q + 1) := bound
    _ ≤ 2 ^ (53 + unitExponent q) := zpow_le_zpow_right₀ one_le_two unit
    _ = 2 ^ 53 * 2 ^ unitExponent q := by rw [zpow_add₀ two_ne_zero]; rfl

theorem le_div_unit (pos : 0 < q) (normal : unitExponent q ≠ -1074) :
    2 ^ 52 ≤ q / 2 ^ unitExponent q := by
  have bound : (2 : ℚ) ^ Int.log 2 q ≤ q := by
    exact_mod_cast Int.zpow_log_le_self (b := 2) (by decide) pos
  have unit : Int.log 2 q = 52 + unitExponent q := by
    rw [unitExponent] at normal ⊢
    omega
  rw [le_div_iff₀ (by positivity)]
  calc (2 : ℚ) ^ 52 * 2 ^ unitExponent q = 2 ^ (52 + unitExponent q) := by
        rw [zpow_add₀ two_ne_zero]; rfl
    _ ≤ q := unit ▸ bound

/-- The unit of a number that is given by its digits at the place of the last one. -/
theorem unitExponent_mul {e : ℤ} (some_digit : m ≠ 0) (short : m < 2 ^ 53) (least : -1074 ≤ e)
    (long : e = -1074 ∨ 2 ^ 52 ≤ m) : unitExponent (m * 2 ^ e) = e := by
  have positive : (0 : ℚ) < m * 2 ^ e :=
    mul_pos (Nat.cast_pos.2 (Nat.pos_of_ne_zero some_digit)) (by positivity)
  have below : (m : ℚ) * 2 ^ e < 2 ^ (53 + e) := by
    rw [zpow_add₀ two_ne_zero]
    exact mul_lt_mul_of_pos_right (by exact_mod_cast short) (by positivity)
  have upper := (lt_two_zpow_iff positive).1 below
  rw [unitExponent]
  rcases long with subnormal | long
  · omega
  · have above : (2 : ℚ) ^ (52 + e) ≤ m * 2 ^ e := by
      rw [zpow_add₀ two_ne_zero]
      exact mul_le_mul_of_nonneg_right (by exact_mod_cast long) (by positivity)
    have lower := (two_zpow_le_iff positive).1 above
    omega

/-! ### Values -/

theorem toRat_nonneg (x : Magnitude) : 0 ≤ x.toRat :=
  mul_nonneg (Nat.cast_nonneg _) (by positivity)

theorem toRat_lt (x : Magnitude) : x.toRat < 2 ^ (1024 : ℤ) := by
  obtain ⟨short, -, most, -⟩ := x.canonical
  have digits : (x.mantissa : ℚ) < 2 ^ 53 := by exact_mod_cast short
  calc x.toRat < 2 ^ 53 * 2 ^ x.exponent := mul_lt_mul_of_pos_right digits (by positivity)
    _ = 2 ^ (53 + x.exponent) := by rw [zpow_add₀ two_ne_zero]; rfl
    _ ≤ 2 ^ (1024 : ℤ) := zpow_le_zpow_right₀ one_le_two (by omega)

theorem unitExponent_toRat (positive : x.mantissa ≠ 0) : unitExponent x.toRat = x.exponent :=
  unitExponent_mul positive x.canonical.1 x.canonical.2.1 x.canonical.2.2.2

/-- A value determines its canonical form. -/
theorem toRat_eq_iff {e : ℤ} (short : m < 2 ^ 53) (least : -1074 ≤ e)
    (long : e = -1074 ∨ 2 ^ 52 ≤ m) :
    x.toRat = m * 2 ^ e ↔ x.mantissa = m ∧ x.exponent = e := by
  have power (e : ℤ) : (2 : ℚ) ^ e ≠ 0 := by positivity
  constructor
  · intro same
    have exponents : x.exponent = e := by
      by_cases zero : m = 0
      · have zero' : x.mantissa = 0 := by simpa [toRat, zero, power] using same
        have subnormal := x.canonical.2.2.2
        rw [zero'] at subnormal
        rw [zero] at long
        simp_all
      · have positive : x.mantissa ≠ 0 := by
          rintro zero'
          simp [toRat, zero', power, zero] at same
        rw [← unitExponent_toRat positive, same, unitExponent_mul zero short least long]
    refine ⟨?_, exponents⟩
    rw [toRat, exponents] at same
    exact_mod_cast mul_right_cancel₀ (power e) same
  · rintro ⟨rfl, rfl⟩
    rfl

theorem toRat_injective : Function.Injective toRat := by
  intro x y same
  obtain ⟨mantissas, exponents⟩ :=
    (toRat_eq_iff y.canonical.1 y.canonical.2.1 y.canonical.2.2.2).1 same
  obtain ⟨_, _, _⟩ := x
  obtain ⟨_, _, _⟩ := y
  simp_all

theorem eq_zero_of_mantissa (h : x.mantissa = 0) : x = zero :=
  toRat_injective (by simp [toRat, h, zero])

/-! ### Rounding -/

theorem ofParts?_eq_some_iff {e : ℤ} :
    ofParts? m e = some x ↔ x.mantissa = m ∧ x.exponent = e := by
  rw [ofParts?]
  split
  · obtain ⟨m', e', canonical⟩ := x
    simp [eq_comm]
  · next wrong =>
    refine iff_of_false (by simp) ?_
    rintro ⟨rfl, rfl⟩
    exact wrong x.canonical

theorem natAbs_num_div_den (nonneg : 0 ≤ q) : (q.num.natAbs : ℚ) / q.den = q := by
  conv_rhs => rw [← Rat.num_div_den q]
  rw [Nat.cast_natAbs, abs_of_nonneg (by exact_mod_cast Rat.num_nonneg.2 nonneg)]

/-- A positive number is rounded to a multiple of its unit at a distance of half a unit. -/
theorem exists_units (pos : 0 < q) :
    ∃ m : ℕ, |q / 2 ^ unitExponent q - m| ≤ 1 / 2 ∧
      ofRat q = if m = 2 ^ 53 then ofParts? (2 ^ 52) (unitExponent q + 1)
        else ofParts? m (unitExponent q) := by
  have some_num : q.num.natAbs ≠ 0 := by simpa using pos.ne'
  have quotient := natAbs_num_div_den pos.le
  have log := binaryExponent_eq_log some_num q.den_pos
  rw [quotient] at log
  refine ⟨roundScaled q.num.natAbs q.den (unitExponent q), ?_, ?_⟩
  · have rounded := abs_sub_roundScaled_le q.num.natAbs q.den_pos (unitExponent q)
    rwa [quotient] at rounded
  · rw [ofRat, ofQuotient, if_neg some_num, log]
    rfl

theorem le_of_near_units (near : |q / 2 ^ unitExponent q - m| ≤ 1 / 2) : m ≤ 2 ^ 53 := by
  have short := div_unit_lt q
  have close := (abs_le.1 near).1
  have bound : (m : ℚ) < 2 ^ 53 + 1 := by linarith
  exact Nat.lt_succ_iff.1 (by exact_mod_cast bound)

theorem normal_of_near_units (pos : 0 < q) (near : |q / 2 ^ unitExponent q - m| ≤ 1 / 2) :
    unitExponent q = -1074 ∨ 2 ^ 52 ≤ m := by
  by_cases normal : unitExponent q = -1074
  · exact .inl normal
  · have long := le_div_unit pos normal
    have close := (abs_le.1 near).2
    have bound : (2 : ℚ) ^ 52 < m + 1 := by linarith
    exact .inr (Nat.lt_succ_iff.1 (by exact_mod_cast bound))

/-- **Rounding in terms of the unit.** The result is the magnitude of a multiple of the unit, at a
distance of half a unit. -/
theorem exists_units_iff (pos : 0 < q) :
    ∃ m : ℕ, |q / 2 ^ unitExponent q - m| ≤ 1 / 2 ∧
      ∀ x : Magnitude, ofRat q = some x ↔ x.toRat = m * 2 ^ unitExponent q := by
  obtain ⟨m, near, rounded⟩ := exists_units pos
  refine ⟨m, near, fun x => ?_⟩
  have least : -1074 ≤ unitExponent q := le_max_left _ _
  have most := le_of_near_units near
  have long := normal_of_near_units pos near
  rw [rounded]
  by_cases carry : m = 2 ^ 53
  · -- one digit more: the same value, with the digits of the next power of two
    have shift : (m : ℚ) * 2 ^ unitExponent q = (2 ^ 52 : ℕ) * 2 ^ (unitExponent q + 1) := by
      rw [carry, zpow_add_one₀ two_ne_zero]
      push_cast
      ring
    rw [if_pos carry, ofParts?_eq_some_iff, shift]
    exact (toRat_eq_iff (by decide) (by omega) (.inr le_rfl)).symm
  · rw [if_neg carry, ofParts?_eq_some_iff]
    exact (toRat_eq_iff (lt_of_le_of_ne most carry) least long).symm

theorem ofRat_zero : ofRat 0 = some zero := rfl

/-- The result lies within half a unit. -/
theorem abs_sub_le_of_ofRat (pos : 0 < q) (h : ofRat q = some x) :
    |q - x.toRat| ≤ 2 ^ unitExponent q / 2 := by
  obtain ⟨m, near, rounded⟩ := exists_units_iff pos
  have unit : (0 : ℚ) < 2 ^ unitExponent q := by positivity
  have scaled : q - m * 2 ^ unitExponent q =
      (q / 2 ^ unitExponent q - m) * 2 ^ unitExponent q := by
    field_simp
  rw [(rounded x).1 h, scaled, abs_mul, abs_of_pos unit]
  linarith [mul_le_mul_of_nonneg_right near unit.le]

/-- A magnitude with a smaller unit does not get beyond the power of two that the number reaches. -/
theorem toRat_le_of_exponent_lt (pos : 0 < q) (h : y.exponent < unitExponent q) :
    y.toRat ≤ 2 ^ 52 * 2 ^ unitExponent q ∧ 2 ^ 52 * 2 ^ unitExponent q ≤ q := by
  obtain ⟨short, least, -, -⟩ := y.canonical
  have digits : (y.mantissa : ℚ) ≤ 2 ^ 53 := by exact_mod_cast short.le
  constructor
  · calc y.toRat ≤ 2 ^ 53 * 2 ^ y.exponent := mul_le_mul_of_nonneg_right digits (by positivity)
      _ ≤ 2 ^ 53 * 2 ^ (unitExponent q - 1) := by
        gcongr
        · exact one_le_two
        · omega
      _ = 2 ^ 52 * 2 ^ unitExponent q := by
        rw [zpow_sub_one₀ two_ne_zero]
        ring
  · have normal := le_div_unit pos (by omega)
    rwa [le_div_iff₀ (by positivity)] at normal

/-- Among the multiples of the unit is one as near as any magnitude. -/
theorem exists_multiple (pos : 0 < q) (y : Magnitude) :
    ∃ n : ℕ, |q - n * 2 ^ unitExponent q| ≤ |q - y.toRat| := by
  by_cases coarse : unitExponent q ≤ y.exponent
  · obtain ⟨k, shift⟩ := Int.le.dest coarse
    refine ⟨y.mantissa * 2 ^ k, le_of_eq ?_⟩
    rw [toRat, ← shift, zpow_add₀ two_ne_zero, zpow_natCast]
    push_cast
    ring_nf
  · obtain ⟨below, above⟩ := toRat_le_of_exponent_lt pos (not_le.1 coarse)
    refine ⟨2 ^ 52, ?_⟩
    push_cast
    rw [abs_of_nonneg (by linarith), abs_of_nonneg (by linarith)]
    linarith

/-- No multiple of the unit is nearer than the one within half a unit. -/
theorem abs_sub_le_of_near {unit : ℚ} (hunit : 0 < unit) (near : |q / unit - m| ≤ 1 / 2) (n : ℕ) :
    |q - m * unit| ≤ |q - n * unit| := by
  have scaled (k : ℕ) : |q - k * unit| = |q / unit - k| * unit := by
    rw [← abs_of_pos hunit, ← abs_mul, abs_of_pos hunit]
    congr 1
    field_simp
  rw [scaled, scaled]
  refine mul_le_mul_of_nonneg_right ?_ hunit.le
  by_cases same : m = n
  · rw [same]
  · have apart : (1 : ℚ) ≤ |(m : ℚ) - n| := by
      have : (1 : ℤ) ≤ |(m : ℤ) - n| := Int.one_le_abs (by omega)
      exact_mod_cast this
    have := abs_sub_le (m : ℚ) (q / unit) n
    rw [abs_sub_comm (m : ℚ) (q / unit)] at this
    linarith

/-- **No magnitude is nearer** to a number than its rounding. -/
theorem ofRat_nearest (pos : 0 < q) (h : ofRat q = some x) (y : Magnitude) :
    |q - x.toRat| ≤ |q - y.toRat| := by
  obtain ⟨m, near, rounded⟩ := exists_units_iff pos
  obtain ⟨n, close⟩ := exists_multiple pos y
  rw [(rounded x).1 h]
  exact (abs_sub_le_of_near (by positivity) near n).trans close

/-- **A magnitude is its own rounding.** -/
theorem ofRat_toRat (x : Magnitude) : ofRat x.toRat = some x := by
  by_cases zero : x.mantissa = 0
  · have value : x.toRat = 0 := by simp [toRat, zero]
    rw [value, ofRat_zero, eq_zero_of_mantissa zero]
  · have positive : 0 < x.toRat :=
      mul_pos (Nat.cast_pos.2 (Nat.pos_of_ne_zero zero)) (by positivity)
    obtain ⟨m, near, rounded⟩ := exists_units_iff positive
    rw [rounded, unitExponent_toRat zero, ← sub_eq_zero, ← abs_nonpos_iff]
    have exact := abs_sub_le_of_near (by positivity) near x.mantissa
    rw [unitExponent_toRat zero] at exact
    refine exact.trans (le_of_eq ?_)
    rw [toRat, sub_self, abs_zero]

/-- **Rounding keeps the order.** -/
theorem ofRat_mono (pos : 0 < q) (le : q ≤ r) (hq : ofRat q = some x) (hr : ofRat r = some y) :
    x.toRat ≤ y.toRat := by
  by_contra greater
  rw [not_le] at greater
  -- the smaller number lies on the side of the greater rounding, and the greater one on the other
  have upper : x.toRat + y.toRat ≤ 2 * q := by
    have nearer := sq_le_sq.2 (ofRat_nearest pos hq y)
    nlinarith only [nearer, greater]
  have lower : 2 * r ≤ x.toRat + y.toRat := by
    have nearer := sq_le_sq.2 (ofRat_nearest (pos.trans_le le) hr x)
    nlinarith only [nearer, greater]
  obtain rfl : q = r := by linarith
  rw [hq] at hr
  exact greater.ne (congrArg toRat (Option.some.inj hr)).symm

/-! ### Outside the range -/

/-- What reaches the end of the range has no rounding. -/
theorem ofRat_eq_none (huge : 2 ^ (1024 : ℤ) ≤ q) : ofRat q = none := by
  have pos : 0 < q := lt_of_lt_of_le (by positivity) huge
  have most := (two_zpow_le_iff pos).1 huge
  obtain ⟨m, near, rounded⟩ := exists_units_iff pos
  refine Option.eq_none_iff_forall_ne_some.2 fun x hx => ?_
  have unit : 972 ≤ unitExponent q := by
    rw [unitExponent]
    omega
  have digits : (2 : ℚ) ^ 52 ≤ m := by
    exact_mod_cast (normal_of_near_units pos near).resolve_left (by omega)
  have large : 2 ^ (1024 : ℤ) ≤ x.toRat := by
    rw [(rounded x).1 hx]
    calc (2 : ℚ) ^ (1024 : ℤ) ≤ 2 ^ (52 + unitExponent q) :=
          zpow_le_zpow_right₀ one_le_two (by omega)
      _ = 2 ^ 52 * 2 ^ unitExponent q := by rw [zpow_add₀ two_ne_zero]; rfl
      _ ≤ m * 2 ^ unitExponent q := mul_le_mul_of_nonneg_right digits (by positivity)
  exact absurd (toRat_lt x) (not_lt.2 large)

/-- What lies below half the least positive magnitude is rounded to zero. -/
theorem ofRat_eq_zero (nonneg : 0 ≤ q) (tiny : q < 2 ^ (-1075 : ℤ)) : ofRat q = some zero := by
  obtain rfl | pos := nonneg.eq_or_lt
  · rfl
  have least := (lt_two_zpow_iff pos).1 tiny
  have unit : unitExponent q = -1074 := by
    rw [unitExponent]
    omega
  obtain ⟨m, near, rounded⟩ := exists_units_iff pos
  have half : q / 2 ^ unitExponent q < 1 / 2 := by
    rw [div_lt_iff₀ (by positivity), unit]
    calc q < 2 ^ (-1075 : ℤ) := tiny
      _ = 1 / 2 * 2 ^ (-1074 : ℤ) := by
        rw [show (-1075 : ℤ) = -1074 - 1 by norm_num, zpow_sub_one₀ two_ne_zero]
        ring
  have digits : m = 0 := by
    have close := (abs_le.1 near).1
    have bound : (m : ℚ) < 1 := by linarith
    exact Nat.lt_one_iff.1 (by exact_mod_cast bound)
  exact (rounded _).2 (by simp [digits, toRat, zero])

end PatchScript.Magnitude
