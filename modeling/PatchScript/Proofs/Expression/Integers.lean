import PatchScript.Proofs.Expression.Machine

/-!
# Exact arithmetic of integers

An expression of integers with signs, sums, differences, products and remainders denotes an integer,
as long as no remainder is taken by zero. The machine finds this very integer, however large it and
the numbers on the way are.

The remainder is that of a division truncated toward zero. It is determined by what it leaves of the
dividend, by its size, and by its sign, so nothing is said here of how it is computed.

## Main definitions

* `IsTruncatedRemainder` — the remainder of a division truncated toward zero
* `Operator.Gives` — the integer that an operator gives for two integers
* `Expression.Denotes` — the integer that an expression denotes
* `Expression.IsIntegral`, `Expression.NeverByZero` — the expressions that denote an integer

## Main results

* `IsTruncatedRemainder.eq_tmod` — the remainder is determined
* `Expression.exists_denotes` — integral expressions without remainders by zero denote an integer
* `Expression.evaluate_integral` — the machine finds the integer that an expression denotes
-/

namespace PatchScript

variable {a b m n r r' : Int} {o : Operator} {e : Expression}

/-! ### The truncated remainder -/

/-- The remainder of a division truncated toward zero: what a whole number of divisors leaves of the
dividend, smaller than the divisor, and zero or of the sign of the dividend. -/
structure IsTruncatedRemainder (a b r : Int) : Prop where
  left : ∃ q, a = b * q + r
  smaller : r.natAbs < b.natAbs
  sign : r = 0 ∨ r.sign = a.sign

namespace IsTruncatedRemainder

theorem tmod (a : Int) (hb : b ≠ 0) : IsTruncatedRemainder a b (a.tmod b) where
  left := ⟨a.tdiv b, (Int.mul_tdiv_add_tmod a b).symm⟩
  smaller := by
    rw [Int.natAbs_tmod]
    exact Nat.mod_lt _ (Int.natAbs_pos.2 hb)
  sign := by
    have sign := Int.sign_tmod a b
    by_cases whole : b ∣ a
    · exact .inl (Int.sign_eq_zero_iff_zero.1 (by rw [sign, if_pos whole]))
    · exact .inr (by rw [sign, if_neg whole])

theorem divisor_ne_zero (h : IsTruncatedRemainder a b r) : b ≠ 0 :=
  Int.natAbs_pos.1 (Nat.zero_lt_of_lt h.smaller)

/-- Only one number is the remainder: two of them differ by a multiple of the divisor, and lie on
the same side of zero. -/
theorem unique (h : IsTruncatedRemainder a b r) (h' : IsTruncatedRemainder a b r') : r = r' := by
  obtain ⟨q, left⟩ := h.left
  obtain ⟨q', left'⟩ := h'.left
  have multiple : b ∣ r - r' := ⟨q' - q, by rw [Int.mul_sub]; omega⟩
  have smaller := h.smaller
  have smaller' := h'.smaller
  have close : (r - r').natAbs < b.natAbs := by
    rcases h.sign with zero | sign
    · omega
    · rcases h'.sign with zero | sign'
      · omega
      · rcases Int.lt_trichotomy a 0 with negative | zero | positive
        · rw [Int.sign_eq_neg_one_of_neg negative, Int.sign_eq_neg_one_iff_neg] at sign sign'
          omega
        · rw [zero, Int.sign_zero, Int.sign_eq_zero_iff_zero] at sign sign'
          omega
        · rw [Int.sign_eq_one_of_pos positive, Int.sign_eq_one_iff_pos] at sign sign'
          omega
  have := Int.eq_zero_of_dvd_of_natAbs_lt_natAbs multiple close
  omega

theorem eq_tmod (h : IsTruncatedRemainder a b r) : r = a.tmod b :=
  h.unique (tmod a h.divisor_ne_zero)

end IsTruncatedRemainder

/-! ### Operators on integers -/

/-- The integer that an operator gives for two integers. A quotient is no integer, and neither is a
remainder by zero. -/
inductive Operator.Gives : Operator → Int → Int → Int → Prop
  | sum (a b : Int) : Gives .add a b (a + b)
  | difference (a b : Int) : Gives .sub a b (a - b)
  | product (a b : Int) : Gives .mul a b (a * b)
  | remainder {a b r : Int} : IsTruncatedRemainder a b r → Gives .rem a b r

theorem Operator.apply_of_gives (h : o.Gives a b n) :
    o.apply (.int a) (.int b) = .ok (.int n) := by
  cases h with
  | sum | difference | product => rfl
  | remainder h =>
    rw [h.eq_tmod]
    simp [apply, Number.remainder, h.divisor_ne_zero]

/-- An operator other than division gives an integer, unless it takes a remainder by zero. -/
theorem Operator.exists_gives (whole : o ≠ .div) (nonzero : o = .rem → b ≠ 0) :
    ∃ n, o.Gives a b n := by
  cases o with
  | add => exact ⟨_, .sum a b⟩
  | sub => exact ⟨_, .difference a b⟩
  | mul => exact ⟨_, .product a b⟩
  | div => exact absurd rfl whole
  | rem => exact ⟨_, .remainder (.tmod a (nonzero rfl))⟩

namespace Expression

/-! ### What expressions of integers denote -/

/-- The integer that an expression denotes. -/
inductive Denotes : Expression → Int → Prop
  | number (n : Int) : Denotes (.number (.int n)) n
  | plus {e : Expression} {n : Int} : Denotes e n → Denotes (.signed .plus e) n
  | minus {e : Expression} {n : Int} : Denotes e n → Denotes (.signed .minus e) (-n)
  | binary {o : Operator} {left right : Expression} {a b n : Int} : Denotes left a →
      Denotes right b → o.Gives a b n → Denotes (.binary o left right) n

/-- Integers with signs, sums, differences, products and remainders. -/
inductive IsIntegral : Expression → Prop
  | number (n : Int) : IsIntegral (.number (.int n))
  | signed (sign : Sign) {e : Expression} : IsIntegral e → IsIntegral (.signed sign e)
  | binary {o : Operator} {left right : Expression} : o ≠ .div → IsIntegral left →
      IsIntegral right → IsIntegral (.binary o left right)

/-- No remainder is taken by an expression that denotes zero. -/
def NeverByZero : Expression → Prop
  | .number _ => True
  | .signed _ e => e.NeverByZero
  | .binary o left right =>
    left.NeverByZero ∧ right.NeverByZero ∧ (o = .rem → ¬ right.Denotes 0)

/-- Integers without remainders by zero denote an integer. -/
theorem exists_denotes (h : e.IsIntegral) (nonzero : e.NeverByZero) : ∃ n, e.Denotes n := by
  induction h with
  | number n => exact ⟨n, .number n⟩
  | signed sign _ ih =>
    obtain ⟨n, denotes⟩ := ih nonzero
    cases sign with
    | plus => exact ⟨n, .plus denotes⟩
    | minus => exact ⟨-n, .minus denotes⟩
  | binary whole _ _ ihl ihr =>
    obtain ⟨nonzeroLeft, nonzeroRight, divisor⟩ := nonzero
    obtain ⟨a, left⟩ := ihl nonzeroLeft
    obtain ⟨b, right⟩ := ihr nonzeroRight
    obtain ⟨n, gives⟩ := Operator.exists_gives (a := a) (b := b) whole
      fun rem zero => divisor rem (zero ▸ right)
    exact ⟨n, .binary left right gives⟩

/-- The value of an expression is the integer that it denotes, whatever else it is made of. -/
theorem value_of_denotes (h : e.Denotes n) : e.value = .ok (.int n) := by
  induction h with
  | number n => rfl
  | plus _ ih | minus _ ih =>
    rw [value, ih]
    rfl
  | binary _ _ gives ihl ihr =>
    rw [value, ihl, ihr]
    exact Operator.apply_of_gives gives

/-- **Arithmetic of integers is exact.** An expression of integers in which no remainder is taken by
zero denotes one integer. The machine finds it, and it is normal. -/
theorem evaluate_integral (h : e.IsIntegral) (nonzero : e.NeverByZero) :
    ∃ n, (∀ m, e.Denotes m ↔ m = n) ∧ e.evaluate = .ok (.int n) ∧
      (Number.int n).normalize = .int n := by
  obtain ⟨n, denotes⟩ := exists_denotes h nonzero
  have found := value_of_denotes denotes
  refine ⟨n, fun m => ⟨fun other => ?_, fun same => same ▸ denotes⟩, ?_, rfl⟩
  · have := value_of_denotes other
    rw [found] at this
    simpa using this.symm
  · rw [evaluate_eq_value, found]
    rfl

/-- The remainder of a negative number by a negative one. The dividend is a product far beyond the
integers that machine words hold. -/
theorem evaluate_integral_large :
    let large : Expression := .number (.int 1180591620717411303424)
    let square : Expression := .binary .mul large large
    let e : Expression := .binary .rem (.signed .minus square)
      (.binary .sub (.number (.int 3)) (.signed .plus (.number (.int 10))))
    e.IsIntegral ∧ e.NeverByZero ∧ e.Denotes (-4) ∧ e.evaluate = .ok (.int (-4)) := by
  intro large square e
  have divisor : ¬ (Expression.binary .sub (.number (.int 3))
      (.signed .plus (.number (.int 10)))).Denotes 0 := by
    intro zero
    have value : Number.int (3 - 10) = .int 0 := Except.ok.inj (value_of_denotes zero)
    exact absurd value (by decide)
  have integral : e.IsIntegral :=
    .binary (by decide) (.signed _ (.binary (by decide) (.number _) (.number _)))
      (.binary (by decide) (.number _) (.signed _ (.number _)))
  have nonzero : e.NeverByZero := by simp [e, square, large, NeverByZero, divisor]
  obtain ⟨n, denotes, found, -⟩ := evaluate_integral integral nonzero
  have value : e.evaluate = .ok (.int (-4)) := rfl
  rw [value] at found
  obtain rfl : -4 = n := by simpa using found
  exact ⟨integral, nonzero, (denotes _).2 rfl, value⟩

end Expression

end PatchScript
