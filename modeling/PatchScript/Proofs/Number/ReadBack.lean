import PatchScript.Proofs.Number.Positional
import PatchScript.Proofs.Number.Rounding

/-!
# Decimal texts read back

A finite number is read back from its usual text, because the digits are chosen so. Where that text
has an exponent, six decimal places stand in for it. They read back for a number of `10 ^ 16` or
more, which is whole, but below `10 ^ -4` only for a number that is nearest to a multiple of
`10 ^ -6`.

## Main definitions

* `pointedValue` — the number that digits around a point denote
* `Magnitude.LosesDigits` — the magnitudes for which six decimal places are not enough

## Main results

* `Decimal.toBinary64_eq` — decimal numbers are read as their roundings, whatever their exponent
* `Magnitude.ofRat_shortest`, `Magnitude.ofRat_pointedValue_text` — the usual text reads back
* `Magnitude.exponent_mem_text_iff_outside` — which usual texts have an exponent
* `Magnitude.ofRat_pointedValue_iff` — which numbers are read back where they are written
-/

namespace PatchScript

open Text

/-! ### Decimal numbers -/

namespace Decimal

theorem two_zpow_le_ten_zpow (k : ℕ) : (2 : ℚ) ^ (3 * k : ℤ) ≤ 10 ^ (k : ℤ) := by
  rw [zpow_mul, zpow_natCast, zpow_natCast]
  exact pow_le_pow_left₀ (by norm_num) (by norm_num) k

/-- **Decimal numbers are read as their roundings**, those included whose exponent settles it. -/
theorem toBinary64_eq (d : Decimal) : d.toBinary64 = .ofMagnitude d.negative d.magnitude := by
  have nonneg : 0 ≤ d.magnitude := mul_nonneg (Nat.cast_nonneg _) (by positivity)
  rw [toBinary64]
  split
  · next none =>
    have value : d.magnitude = 0 := by simp [magnitude, none]
    rw [Binary64.ofMagnitude, value, Magnitude.ofRat_zero, Binary64.zero]
  next some_digits =>
  split
  · next large =>
    have digits : (1 : ℚ) ≤ d.digits := by exact_mod_cast Nat.pos_of_ne_zero some_digits
    have huge : 2 ^ (1024 : ℤ) ≤ d.magnitude := by
      calc (2 : ℚ) ^ (1024 : ℤ) ≤ 2 ^ (3 * 400 : ℤ) := zpow_le_zpow_right₀ one_le_two (by decide)
        _ ≤ 10 ^ (400 : ℤ) := two_zpow_le_ten_zpow 400
        _ ≤ 10 ^ d.exponent := zpow_le_zpow_right₀ (by norm_num) large.le
        _ ≤ d.magnitude := le_mul_of_one_le_left (by positivity) digits
    rw [Binary64.ofMagnitude, Magnitude.ofRat_eq_none huge]
  split
  · next small =>
    have digits : (d.digits : ℚ) < 10 ^ (d.digits.log2 + 1) := by
      have bound : d.digits < 10 ^ (d.digits.log2 + 1) :=
        Nat.lt_log2_self.trans_le (Nat.pow_le_pow_left (by decide) _)
      exact_mod_cast bound
    have tiny : d.magnitude < 2 ^ (-1075 : ℤ) := by
      calc d.magnitude < 10 ^ (d.digits.log2 + 1) * 10 ^ d.exponent :=
            mul_lt_mul_of_pos_right digits (by positivity)
        _ = 10 ^ (d.exponent + (d.digits.log2 + 1)) := by
            rw [zpow_add₀ (by norm_num), mul_comm]
            rfl
        _ ≤ 10 ^ (-400 : ℤ) := zpow_le_zpow_right₀ (by norm_num) small.le
        _ ≤ 2 ^ (-(3 * 400) : ℤ) := by
            rw [zpow_neg, zpow_neg]
            exact inv_anti₀ (by positivity) (two_zpow_le_ten_zpow 400)
        _ ≤ 2 ^ (-1075 : ℤ) := zpow_le_zpow_right₀ one_le_two (by decide)
    rw [Binary64.ofMagnitude, Magnitude.ofRat_eq_zero nonneg tiny, Binary64.zero]
  · rfl

end Decimal

/-! ### Digits -/

variable {text w digits : List Char}

theorem naturalOf_append (ds es : List Nat) :
    naturalOf (ds ++ es) = naturalOf ds * 10 ^ es.length + naturalOf es := by
  have shift : ∀ n, es.foldl (fun n d => 10 * n + d) n = n * 10 ^ es.length + naturalOf es := by
    induction es with
    | nil => simp [naturalOf]
    | cons d es ih =>
      intro n
      rw [naturalOf, List.foldl_cons, List.foldl_cons, ih, ih, List.length_cons]
      ring
  rw [naturalOf, List.foldl_append, ← naturalOf, shift]

theorem naturalOf_zeros (k : ℕ) : naturalOf ((List.replicate k '0').map digitOf) = 0 := by
  induction k with
  | zero => rfl
  | succ k ih => simpa [naturalOf, List.replicate_succ, digitOf] using ih

theorem naturalOf_append_zeros (digits : List Char) (k : ℕ) :
    naturalOf ((digits ++ List.replicate k '0').map digitOf) =
      naturalOf (digits.map digitOf) * 10 ^ k := by
  rw [List.map_append, naturalOf_append, naturalOf_zeros]
  simp

theorem IsPointed.exponent_notMem (h : IsPointed text) : 'e' ∉ text := by
  obtain ⟨w, f, rfl, -, digits, more_digits⟩ := h
  simp only [List.mem_append, List.mem_cons, not_or]
  exact ⟨fun before => absurd (digits _ before) (by decide), by decide,
    fun behind => absurd (more_digits _ behind) (by decide)⟩

/-- The number that digits around a point denote. -/
def pointedValue (text : List Char) : ℚ :=
  let whole := text.takeWhile Char.isDigit
  let fraction := text.drop (whole.length + 1)
  naturalOf ((whole ++ fraction).map digitOf) * 10 ^ (-fraction.length : ℤ)

theorem pointedValue_append (h : ∀ c ∈ w, c.isDigit = true) (f : List Char) :
    pointedValue (w ++ '.' :: f) = naturalOf ((w ++ f).map digitOf) * 10 ^ (-f.length : ℤ) := by
  have whole : (w ++ '.' :: f).takeWhile Char.isDigit = w := by
    rw [List.takeWhile_append_of_pos h, List.takeWhile_cons_of_neg (by decide), List.append_nil]
  have fraction : (w ++ '.' :: f).drop (w.length + 1) = f := by
    rw [← List.drop_drop, List.drop_left]
    rfl
  rw [pointedValue, whole, fraction]

/-- Positional notation denotes its digits at their places. -/
theorem pointedValue_positionalText (h : ∀ c ∈ digits, c.isDigit = true) (point : ℤ) :
    pointedValue (positionalText digits point) =
      naturalOf (digits.map digitOf) * 10 ^ (point - digits.length) := by
  rw [positionalText]
  split
  · next before =>
    have value := pointedValue_append (w := ['0']) (by simp)
      (List.replicate (-point).toNat '0' ++ digits)
    rw [List.map_append, List.map_append, naturalOf_append, naturalOf_append, naturalOf_zeros]
      at value
    have places : (-(List.replicate (-point).toNat '0' ++ digits).length : ℤ) =
        point - digits.length := by
      simp
      omega
    rw [places] at value
    simpa [naturalOf, digitOf] using value
  split
  · next behind =>
    obtain ⟨zeros, hzeros⟩ : ∃ k : ℕ, k = point.toNat - digits.length := ⟨_, rfl⟩
    have value := pointedValue_append (w := digits ++ List.replicate zeros '0')
      (fun c hc => (List.mem_append.1 hc).elim (h c) isDigit_of_mem_replicate) ['0']
    have joined : digits ++ List.replicate zeros '0' ++ ['0'] =
        digits ++ List.replicate (zeros + 1) '0' := by
      rw [List.replicate_succ', List.append_assoc]
    have places : point - digits.length = (zeros : ℤ) := by omega
    rw [joined, naturalOf_append_zeros] at value
    rw [← hzeros, places, zpow_natCast, value, pow_succ]
    simp [← mul_assoc]
  · next before behind =>
    have value := pointedValue_append (w := digits.take point.toNat)
      (fun c hc => h c (List.mem_of_mem_take hc)) (digits.drop point.toNat)
    have places : (-(digits.drop point.toNat).length : ℤ) = point - digits.length := by
      simp
      omega
    rwa [List.take_append_drop, places] at value

/-! ### The usual text -/

/-- Only zeros are left out. -/
theorem dropTrailingZeros_append (digits : List Char) :
    ∃ k, digits = dropTrailingZeros digits ++ List.replicate k '0' := by
  obtain ⟨k, zeros⟩ : ∃ k, digits.reverse.takeWhile (· == '0') = List.replicate k '0' := by
    refine ⟨_, List.eq_replicate_iff.2 ⟨rfl, fun c hc => ?_⟩⟩
    exact eq_of_beq (List.all_eq_true.1 List.all_takeWhile c hc)
  refine ⟨k, ?_⟩
  have split := congrArg List.reverse
    (List.takeWhile_append_dropWhile (p := (· == '0')) (l := digits.reverse))
  rw [List.reverse_append, List.reverse_reverse, zeros, List.reverse_replicate] at split
  exact split.symm

theorem pow_le_decimalDigits {n : ℕ} (some_number : n ≠ 0) :
    10 ^ ((decimalDigits n).length - 1) ≤ n ∧ n < 10 ^ (decimalDigits n).length := by
  have some_digits := List.length_pos_iff.2 (decimalDigits_ne_nil n)
  constructor
  · by_contra less
    rw [not_le] at less
    obtain one | more := Nat.eq_zero_or_pos ((decimalDigits n).length - 1)
    · rw [one] at less
      omega
    · have short := (Nat.length_toDigits_le_iff (by decide) more).2 less
      rw [← decimalDigits] at short
      omega
  · exact (Nat.length_toDigits_le_iff (by decide) some_digits).1 le_rfl

namespace Magnitude

variable {x : Magnitude}

theorem toRat_exactDecimal (x : Magnitude) :
    (x.exactDecimal.1 : ℚ) * 10 ^ x.exactDecimal.2 = x.toRat := by
  rw [exactDecimal, toRat]
  split
  · next whole =>
    obtain ⟨k, hk⟩ := Int.eq_ofNat_of_zero_le whole
    simp [hk]
  · next fraction =>
    obtain ⟨k, hk⟩ : ∃ k : ℕ, x.exponent = -k := ⟨(-x.exponent).toNat, by omega⟩
    have ten : (10 : ℚ) ^ k = 2 ^ k * 5 ^ k := by
      rw [← mul_pow]
      norm_num
    simp only [hk, neg_neg, Int.toNat_natCast, zpow_neg, zpow_natCast, ten, Nat.pow_eq]
    push_cast
    field_simp

/-- **The shortest digits read back.** -/
theorem ofRat_shortest (x : Magnitude) :
    ofRat ((x.shortest.1 : ℚ) * 10 ^ x.shortest.2) = some x := by
  rw [shortest]
  split
  · next found h =>
    obtain ⟨count, -, nearest⟩ := List.exists_of_findSome?_eq_some h
    obtain ⟨digits, first, rfl⟩ := Option.map_eq_some_iff.1 nearest
    have reads : x.readsBack digits (x.decimalExponent - count) = true :=
      List.find?_some (p := fun d => x.readsBack d (x.decimalExponent - count)) first
    exact eq_of_beq reads
  · rw [toRat_exactDecimal, ofRat_toRat]

theorem shortest_ne_zero (positive : x.mantissa ≠ 0) : x.shortest.1 ≠ 0 := by
  intro zero
  have rounded := ofRat_shortest x
  rw [zero, Nat.cast_zero, zero_mul, ofRat_zero] at rounded
  exact positive (congrArg mantissa (Option.some.inj rounded)).symm

/-- The place of the point before the shortest digits, counted from the first of them. -/
def shortestPoint (x : Magnitude) : ℤ := (decimalDigits x.shortest.1).length + x.shortest.2

theorem text_of_ne_zero (positive : x.mantissa ≠ 0) :
    x.text = if -4 < x.shortestPoint ∧ x.shortestPoint ≤ 16 then
        positionalText (dropTrailingZeros (decimalDigits x.shortest.1)) x.shortestPoint
      else exponentText (dropTrailingZeros (decimalDigits x.shortest.1)) x.shortestPoint := by
  rw [text, if_neg positive]
  rfl

/-- An exponent is written where the point is far from the digits. -/
theorem exponent_mem_text_iff :
    'e' ∈ x.text ↔ x.mantissa ≠ 0 ∧ (x.shortestPoint ≤ -4 ∨ 16 < x.shortestPoint) := by
  by_cases zero : x.mantissa = 0
  · simp [text, zero]
  rw [text_of_ne_zero zero]
  split
  · next inside =>
    refine iff_of_false (IsPointed.exponent_notMem (isPointed_positionalText ?_ _)) (by omega)
    exact isDigit_of_mem_dropTrailingZeros fun c hc => isDigit_of_mem_decimalDigits hc
  · next outside => exact iff_of_true (by simp [exponentText]) ⟨zero, by omega⟩

/-- **A number is read back from its usual text**, where that has no exponent. -/
theorem ofRat_pointedValue_text (h : 'e' ∉ x.text) : ofRat (pointedValue x.text) = some x := by
  by_cases zero : x.mantissa = 0
  · have nothing : pointedValue x.text = 0 := by
      rw [text, if_pos zero]
      exact pointedValue_append (w := ['0']) (by simp) ['0'] |>.trans (by simp [naturalOf, digitOf])
    rw [nothing, ofRat_zero, eq_zero_of_mantissa zero]
  have inside : -4 < x.shortestPoint ∧ x.shortestPoint ≤ 16 := by
    rw [exponent_mem_text_iff] at h
    by_contra outside
    exact h ⟨zero, by omega⟩
  obtain ⟨k, zeros⟩ := dropTrailingZeros_append (decimalDigits x.shortest.1)
  have number := naturalOf_decimalDigits x.shortest.1
  rw [zeros, naturalOf_append_zeros] at number
  have places : x.shortestPoint - (dropTrailingZeros (decimalDigits x.shortest.1)).length =
      k + x.shortest.2 := by
    have lengths := congrArg List.length zeros
    rw [List.length_append, List.length_replicate] at lengths
    rw [shortestPoint]
    omega
  have value : pointedValue x.text = (x.shortest.1 : ℚ) * 10 ^ x.shortest.2 := by
    rw [text_of_ne_zero zero, if_pos inside, pointedValue_positionalText
      (isDigit_of_mem_dropTrailingZeros fun c hc => isDigit_of_mem_decimalDigits hc), places,
      zpow_add₀ (by norm_num), zpow_natCast, ← mul_assoc]
    congr 1
    exact_mod_cast number
  rw [value, ofRat_shortest]

/-! ### The least and the greatest numbers without an exponent -/

/-- The digits and the point tell between which powers of ten a number stands. -/
theorem shortest_bounds (positive : x.mantissa ≠ 0) :
    (10 : ℚ) ^ (x.shortestPoint - 1) ≤ x.shortest.1 * 10 ^ x.shortest.2 ∧
      (x.shortest.1 : ℚ) * 10 ^ x.shortest.2 < 10 ^ x.shortestPoint := by
  obtain ⟨least, greatest⟩ := pow_le_decimalDigits (shortest_ne_zero positive)
  have some_digits := List.length_pos_iff.2 (decimalDigits_ne_nil x.shortest.1)
  have power : (0 : ℚ) < 10 ^ x.shortest.2 := by positivity
  constructor
  · have places : x.shortestPoint - 1 =
        ((decimalDigits x.shortest.1).length - 1 : ℕ) + x.shortest.2 := by
      rw [shortestPoint]
      omega
    rw [places, zpow_add₀ (by norm_num), zpow_natCast]
    exact mul_le_mul_of_nonneg_right (by exact_mod_cast least) power.le
  · rw [shortestPoint, zpow_add₀ (by norm_num), zpow_natCast]
    exact mul_lt_mul_of_pos_right (by exact_mod_cast greatest) power

/-- The rounding of `10 ^ -4`. -/
def tenThousandth : Magnitude := ⟨7378697629483821, -66, by decide⟩

/-- The number `10 ^ 16`. -/
def tenQuadrillions : Magnitude := ⟨5000000000000000, 1, by decide⟩

theorem ofRat_tenThousandth : ofRat (10 ^ (-4 : ℤ)) = some tenThousandth := by
  decide +kernel

theorem le_toRat_tenThousandth : (10 : ℚ) ^ (-4 : ℤ) ≤ tenThousandth.toRat := by
  norm_num [tenThousandth, toRat]

theorem toRat_tenQuadrillions : tenQuadrillions.toRat = 10 ^ (16 : ℤ) := by
  norm_num [tenQuadrillions, toRat]

theorem ofRat_tenQuadrillions : ofRat (10 ^ (16 : ℤ)) = some tenQuadrillions := by
  rw [← toRat_tenQuadrillions, ofRat_toRat]

/-- **The usual text has an exponent** below `10 ^ -4` and from `10 ^ 16` up. -/
theorem exponent_mem_text_iff_outside :
    'e' ∈ x.text ↔ x.mantissa ≠ 0 ∧ (x.toRat < 10 ^ (-4 : ℤ) ∨ 10 ^ (16 : ℤ) ≤ x.toRat) := by
  rw [exponent_mem_text_iff]
  refine and_congr_right fun positive => ?_
  obtain ⟨least, most⟩ := shortest_bounds positive
  have number : (0 : ℚ) < x.shortest.1 * 10 ^ x.shortest.2 :=
    mul_pos (Nat.cast_pos.2 (Nat.pos_of_ne_zero (shortest_ne_zero positive))) (by positivity)
  have below {k : ℤ} (h : x.shortestPoint ≤ k) : (x.shortest.1 : ℚ) * 10 ^ x.shortest.2 ≤ 10 ^ k :=
    most.le.trans (zpow_le_zpow_right₀ (by norm_num) h)
  have above {k : ℤ} (h : k < x.shortestPoint) : (10 : ℚ) ^ k ≤ x.shortest.1 * 10 ^ x.shortest.2 :=
    (zpow_le_zpow_right₀ (by norm_num) (by omega)).trans least
  refine or_congr ⟨fun small => ?_, fun small => ?_⟩ ⟨fun large => ?_, fun large => ?_⟩
  · -- it is at most the rounding of the bound, which is written without an exponent
    by_contra reaches
    have rounded := ofRat_mono number (below small) (ofRat_shortest x) ofRat_tenThousandth
    have nearest := ofRat_nearest (by positivity) ofRat_tenThousandth x
    rw [abs_sub_comm, abs_of_nonneg (by linarith), abs_sub_comm, abs_of_nonneg (by linarith)]
      at nearest
    obtain rfl : x = tenThousandth := toRat_injective (by linarith)
    exact absurd small (by decide +kernel)
  · by_contra reaches
    have rounded := ofRat_mono (by positivity) (above (not_le.1 reaches)) ofRat_tenThousandth
      (ofRat_shortest x)
    linarith [le_toRat_tenThousandth]
  · rw [← toRat_tenQuadrillions]
    exact ofRat_mono (by positivity) (above large) ofRat_tenQuadrillions (ofRat_shortest x)
  · -- it is at least the bound, which is written with an exponent
    by_contra short
    have rounded := ofRat_mono number (below (not_lt.1 short)) (ofRat_shortest x)
      ofRat_tenQuadrillions
    rw [← toRat_tenQuadrillions] at large
    obtain rfl : x = tenQuadrillions := toRat_injective (le_antisymm rounded large)
    exact absurd short (by decide +kernel)

/-! ### Six decimal places -/

/-- The millionths to which a magnitude is rounded when it is written with six decimal places. -/
def millionths (x : Magnitude) : ℕ :=
  roundQuotient (x.toRat.num.natAbs * Nat.pow 10 6) x.toRat.den

theorem pointedValue_fixedText (x : Magnitude) :
    pointedValue x.fixedText = x.millionths / 10 ^ 6 := by
  have short : (decimalDigits (x.millionths % 10 ^ 6)).length ≤ 6 :=
    (Nat.length_toDigits_le_iff (by decide) (by decide)).2 (Nat.mod_lt _ (by decide))
  obtain ⟨fraction, hfraction⟩ : ∃ fraction, fraction =
      List.replicate (6 - (decimalDigits (x.millionths % 10 ^ 6)).length) '0' ++
        decimalDigits (x.millionths % 10 ^ 6) := ⟨_, rfl⟩
  have places : fraction.length = 6 := by
    rw [hfraction, List.length_append, List.length_replicate]
    omega
  have parts : naturalOf (fraction.map digitOf) = x.millionths % 10 ^ 6 := by
    rw [hfraction, List.map_append, naturalOf_append, naturalOf_zeros, naturalOf_decimalDigits]
    omega
  have text : x.fixedText = decimalDigits (x.millionths / 10 ^ 6) ++ '.' :: fraction := by
    rw [hfraction]
    rfl
  rw [text, pointedValue_append fun c hc => isDigit_of_mem_decimalDigits hc, List.map_append,
    naturalOf_append, naturalOf_decimalDigits, List.length_map, parts, places, Nat.div_add_mod',
    zpow_neg, ← div_eq_mul_inv]
  rfl

theorem abs_sub_millionths_le (x : Magnitude) :
    |x.toRat * 10 ^ 6 - x.millionths| ≤ 1 / 2 := by
  have rounded := abs_sub_roundQuotient_le (x.toRat.num.natAbs * Nat.pow 10 6) x.toRat.den_pos
  have value : ((x.toRat.num.natAbs * Nat.pow 10 6 : ℕ) : ℚ) / x.toRat.den = x.toRat * 10 ^ 6 := by
    rw [Nat.cast_mul, mul_div_right_comm, natAbs_num_div_den x.toRat_nonneg]
    norm_num
  rwa [value] at rounded

/-- No two natural numbers are nearer to each other than one. -/
theorem natCast_eq_of_abs_sub_lt {m n : ℕ} (near : |(m : ℚ) - n| < 1) : m = n := by
  have close : |(m : ℤ) - n| < 1 := by exact_mod_cast near
  have := Int.abs_lt_one_iff.1 close
  omega

/-- A number below one is nearer than a millionth to all that is rounded to it. -/
theorem abs_sub_le_of_lt_one {q : ℚ} (small : x.toRat < 1) (nonneg : 0 ≤ q)
    (h : ofRat q = some x) : |q - x.toRat| ≤ 2 ^ (-54 : ℤ) := by
  obtain rfl | pos := nonneg.eq_or_lt
  · obtain rfl : zero = x := Option.some.inj (ofRat_zero.symm.trans h)
    simp [toRat, zero]
  have below : q < 2 ^ (0 : ℤ) := by
    by_contra large
    have one : ofRat (2 ^ (0 : ℤ)) = some ⟨4503599627370496, -52, by decide⟩ := by decide +kernel
    have above := ofRat_mono (by positivity) (not_lt.1 large) one h
    refine absurd small (not_lt.2 (le_trans ?_ above))
    norm_num [toRat]
  have unit : unitExponent q ≤ -53 := by
    have := (lt_two_zpow_iff pos).1 below
    rw [unitExponent]
    omega
  calc |q - x.toRat| ≤ 2 ^ unitExponent q / 2 := abs_sub_le_of_ofRat pos h
    _ ≤ 2 ^ (-53 : ℤ) / 2 := by
      gcongr
      exact one_le_two
    _ = 2 ^ (-54 : ℤ) := by norm_num

/-- What is rounded to a number below one from a multiple of a millionth is the nearest one. -/
theorem millionths_eq {k : ℕ} (small : x.toRat < 1) (h : ofRat (k / 10 ^ 6) = some x) :
    x.millionths = k := by
  have near := abs_sub_le_of_lt_one small (by positivity) h
  have scaled : |(k : ℚ) - x.toRat * 10 ^ 6| ≤ 1 / 4 := by
    have split : (k : ℚ) - x.toRat * 10 ^ 6 = (k / 10 ^ 6 - x.toRat) * 10 ^ 6 := by ring
    rw [split, abs_mul, abs_of_pos (by positivity : (0 : ℚ) < 10 ^ 6)]
    calc |(k : ℚ) / 10 ^ 6 - x.toRat| * 10 ^ 6 ≤ 2 ^ (-54 : ℤ) * 10 ^ 6 :=
          mul_le_mul_of_nonneg_right near (by positivity)
      _ ≤ 1 / 4 := by norm_num
  have rounded := abs_sub_millionths_le x
  refine (natCast_eq_of_abs_sub_lt ?_).symm
  calc |(k : ℚ) - x.millionths|
      ≤ |(k : ℚ) - x.toRat * 10 ^ 6| + |x.toRat * 10 ^ 6 - x.millionths| := abs_sub_le _ _ _
    _ ≤ 1 / 4 + 1 / 2 := add_le_add scaled rounded
    _ < 1 := by norm_num

/-- A number of at least `10 ^ 16` is whole, and six decimal places are exact. -/
theorem ofRat_millionths_of_le (large : 10 ^ (16 : ℤ) ≤ x.toRat) :
    ofRat (x.millionths / 10 ^ 6) = some x := by
  have whole : 0 ≤ x.exponent := by
    by_contra negative
    have short : (x.mantissa : ℚ) < 2 ^ 53 := by exact_mod_cast x.canonical.1
    have fraction : (2 : ℚ) ^ x.exponent ≤ 1 := zpow_le_one_of_nonpos₀ one_le_two (by omega)
    have below : x.toRat ≤ 2 ^ 53 * 1 :=
      mul_le_mul short.le fraction (by positivity) (by positivity)
    norm_num at large below
    linarith
  obtain ⟨e, he⟩ := Int.eq_ofNat_of_zero_le whole
  have value : x.toRat = (x.mantissa * 2 ^ e : ℕ) := by
    rw [toRat, he]
    push_cast
    rfl
  have exact : x.millionths = x.mantissa * 2 ^ e * 10 ^ 6 := by
    have rounded := abs_sub_millionths_le x
    refine (natCast_eq_of_abs_sub_lt ?_).symm
    rw [value] at rounded
    push_cast at rounded ⊢
    linarith
  rw [exact, Nat.cast_mul, ← value, Nat.cast_pow, Nat.cast_ofNat, mul_div_cancel_right₀ _
    (by positivity), ofRat_toRat]

/-- The magnitudes that six decimal places do not tell from others: they are below `10 ^ -4`, and
not nearest to a multiple of `10 ^ -6`. -/
def LosesDigits (x : Magnitude) : Prop :=
  x.toRat < 10 ^ (-4 : ℤ) ∧ ∀ k : ℕ, ofRat (k / 10 ^ 6) ≠ some x

/-- **A number is read back**, from six decimal places where its usual text has an exponent, unless
it loses digits by that. -/
theorem ofRat_pointedValue_iff (x : Magnitude) :
    ofRat (pointedValue x.writtenText) = some x ↔ ¬ x.LosesDigits := by
  rw [writtenText]
  by_cases small : x.toRat < 10 ^ (-4 : ℤ)
  · by_cases zero : x.mantissa = 0
    · have unscaled : 'e' ∉ x.text := fun scaled => (exponent_mem_text_iff.1 scaled).1 zero
      rw [if_neg unscaled, ofRat_pointedValue_text unscaled]
      refine iff_of_true rfl fun loses => loses.2 0 ?_
      rw [eq_zero_of_mantissa zero, Nat.cast_zero, zero_div, ofRat_zero]
    · have scaled : 'e' ∈ x.text := exponent_mem_text_iff_outside.2 ⟨zero, .inl small⟩
      rw [if_pos scaled, pointedValue_fixedText]
      constructor
      · exact fun reads loses => loses.2 _ reads
      · intro keeps
        obtain ⟨k, hk⟩ : ∃ k : ℕ, ofRat (k / 10 ^ 6) = some x := by
          by_contra none
          exact keeps ⟨small, fun k hk => none ⟨k, hk⟩⟩
        rw [millionths_eq (small.trans (by norm_num)) hk, hk]
  · refine iff_of_true ?_ fun loses => small loses.1
    split
    · next scaled =>
      have large := (exponent_mem_text_iff_outside.1 scaled).2.resolve_left small
      rw [pointedValue_fixedText]
      exact ofRat_millionths_of_le large
    · next unscaled => exact ofRat_pointedValue_text unscaled

end Magnitude

end PatchScript
