import PatchScript.Number.Basic
import PatchScript.Text.Blank

/-!
# Decimal digits read back

The decimal text of a natural number consists of the digits `0` to `9`, and reading them gives the
number again, whether digits of every script are read or those of ASCII alone.

## Main results

* `Text.takeDigits_append`, `Text.takeDigits_front` — the digits at the front of a text
* `Text.natural?_eq_some_iff` — the texts that are read as a natural number
* `Text.naturalOf_decimalDigits` — digits denote the number that they were written for
* `Text.natural?_decimalDigits` — a natural number is read back from its text
-/

namespace PatchScript

namespace Text

variable {digit? : Char → Option Nat} {c : Char}

/-- The value of a digit from `0` to `9`. -/
def digitOf (c : Char) : Nat := c.toNat - '0'.toNat

theorem asciiDigit?_of_isDigit (h : c.isDigit = true) : asciiDigit? c = some (digitOf c) := by
  have range : '0'.val ≤ c.val ∧ c.val ≤ '9'.val := by
    simpa [Char.isDigit] using h
  rw [asciiDigit?, if_pos range]
  rfl

theorem isDigit_of_asciiDigit? (h : (asciiDigit? c).isSome = true) : c.isDigit = true := by
  rw [asciiDigit?] at h
  split at h
  · next range => simpa [Char.isDigit] using range
  · cases h

theorem toNat_of_isDigit (h : c.isDigit = true) : 48 ≤ c.toNat ∧ c.toNat ≤ 57 := by
  simpa [Char.isDigit, UInt32.le_iff_toNat_le] using h

theorem digitValue?_of_isDigit (h : c.isDigit = true) : digitValue? c = some (digitOf c) := by
  have := toNat_of_isDigit h
  rw [digitValue?, if_pos (by omega), asciiDigit?_of_isDigit h]

theorem isBlank_of_isDigit (h : c.isDigit = true) : isBlank c = false := by
  have := toNat_of_isDigit h
  grind [isBlank]

/-- The value of a digit is below ten. -/
theorem digitValue?_lt {d : Nat} (h : digitValue? c = some d) : d < 10 := by
  rw [digitValue?] at h
  split at h
  · have digit : c.isDigit = true := isDigit_of_asciiDigit? (by rw [h]; rfl)
    have range := toNat_of_isDigit digit
    rw [asciiDigit?_of_isDigit digit] at h
    obtain rfl := Option.some.inj h
    rw [digitOf, show '0'.toNat = 48 from rfl]
    omega
  · obtain ⟨start, found, rfl⟩ := Option.map_eq_some_iff.1 h
    have range := List.find?_some found
    simp only [Bool.and_eq_true, decide_eq_true_eq] at range
    omega

/-- No run of digits has a blank in it. -/
theorem isBlank_of_digitValue? (h : (digitValue? c).isSome = true) : isBlank c = false := by
  have apart : ∀ start ∈ digitRuns, 160 < start ∧ (start + 10 ≤ 5760 ∨ 5760 < start) ∧
      (start + 10 ≤ 8192 ∨ 12288 < start) := by decide
  rw [digitValue?] at h
  split at h
  · exact isBlank_of_isDigit (isDigit_of_asciiDigit? h)
  · rw [Option.isSome_map] at h
    obtain ⟨start, found⟩ := Option.isSome_iff_exists.1 h
    have range := List.find?_some found
    simp only [Bool.and_eq_true, decide_eq_true_eq] at range
    have := apart start (List.mem_of_find?_eq_some found)
    grind [isBlank]

/-- The digits at the front of a text are taken, up to a character that is none. -/
theorem takeDigits_append (digits rest : List Char)
    (hdigits : ∀ c ∈ digits, digit? c = some (digitOf c))
    (hrest : ∀ c ∈ rest.head?, digit? c = none) :
    takeDigits digit? (digits ++ rest) = (digits.map digitOf, rest) := by
  induction digits with
  | nil =>
    cases rest with
    | nil => rfl
    | cons c rest => simp [takeDigits, hrest c (by simp)]
  | cons c digits ih =>
    have others := ih fun d hd => hdigits d (by simp [hd])
    simp [takeDigits, hdigits c (by simp), others]

theorem asciiDigit?_eq_none (h : c.isDigit = false) : asciiDigit? c = none := by
  cases hc : asciiDigit? c with
  | none => rfl
  | some d =>
    rw [isDigit_of_asciiDigit? (by rw [hc]; rfl)] at h
    cases h

/-- A text is the digits in front of it, and what follows them. -/
theorem takeDigits_front (text : List Char) :
    ∃ digits rest, text = digits ++ rest ∧ (∀ c ∈ digits, c.isDigit = true) ∧
      (∀ c ∈ rest.head?, c.isDigit = false) ∧
      takeDigits asciiDigit? text = (digits.map digitOf, rest) := by
  induction text with
  | nil => exact ⟨[], [], rfl, by simp, by simp, rfl⟩
  | cons c text ih =>
    cases hc : c.isDigit with
    | true =>
      obtain ⟨digits, rest, rfl, front, behind, taken⟩ := ih
      refine ⟨c :: digits, rest, rfl, by simpa [hc] using front, behind, ?_⟩
      simp [takeDigits, asciiDigit?_of_isDigit hc, taken]
    | false =>
      refine ⟨[], c :: text, rfl, by simp, by simpa using hc, ?_⟩
      simp [takeDigits, asciiDigit?_eq_none hc]

/-- The digits at the front are the whole text exactly where each character has its value. -/
theorem takeDigits_eq_iff {text : List Char} {values : List Nat} :
    takeDigits digit? text = (values, []) ↔ text.map digit? = values.map some := by
  induction text generalizing values with
  | nil => cases values <;> simp [takeDigits]
  | cons c text ih =>
    rw [takeDigits]
    cases hc : digit? c with
    | none => cases values <;> simp [hc]
    | some d =>
      cases values with
      | nil => simp
      | cons v values => simp [hc, ← @ih values, Prod.ext_iff, and_assoc]

/-- A text is read as a number exactly where it consists of digits that denote the number. -/
theorem natural?_eq_some_iff {text : List Char} {n : Nat} :
    natural? digit? text = some n ↔
      ∃ values, values ≠ [] ∧ text.map digit? = values.map some ∧ naturalOf values = n := by
  simp only [← takeDigits_eq_iff]
  rw [natural?]
  obtain ⟨values, after⟩ := takeDigits digit? text
  cases values <;> cases after <;> grind

/-- What has a value is a digit, -/
theorem forall_isDigit_of_map {digits : List Char} {values : List Nat}
    (decimal : digits.map digitValue? = values.map some) : ∀ c ∈ digits, isDigit c = true := by
  intro c hc
  have value := List.mem_map_of_mem (f := digitValue?) hc
  rw [decimal, List.mem_map] at value
  obtain ⟨n, -, value⟩ := value
  rw [isDigit, ← value]
  rfl

/-- and digits have values. -/
theorem exists_values_of_isDigit {digits : List Char} (h : ∀ c ∈ digits, isDigit c = true) :
    ∃ values : List Nat, digits.map digitValue? = values.map some := by
  refine ⟨digits.map fun c => (digitValue? c).getD 0, ?_⟩
  rw [List.map_map, List.map_inj_left]
  intro c hc
  obtain ⟨n, value⟩ := Option.isSome_iff_exists.1 (h c hc)
  simp [value]

/-! ### The text of a natural number -/

theorem isDigit_of_mem_decimalDigits {n : Nat} (h : c ∈ decimalDigits n) : c.isDigit = true :=
  Nat.isDigit_of_mem_toDigits (Nat.succ_pos 9) (Nat.le_refl 10) h

theorem decimalDigits_ne_nil (n : Nat) : decimalDigits n ≠ [] := Nat.toDigits_ne_nil

theorem naturalOf_decimalDigits (n : Nat) :
    naturalOf ((decimalDigits n).map digitOf) = n := by
  have read := Nat.ofDigitChars_ten_toDigits (n := n)
  rw [Nat.ofDigitChars_eq_foldl] at read
  rw [naturalOf, List.foldl_map]
  exact read

theorem natural?_decimalDigits (hdigit : ∀ c : Char, c.isDigit = true → digit? c = some (digitOf c))
    (n : Nat) : natural? digit? (decimalDigits n) = some n := by
  have taken := takeDigits_append (decimalDigits n) []
    (fun c hc => hdigit c (isDigit_of_mem_decimalDigits hc)) (by simp)
  rw [List.append_nil] at taken
  have some_digits : (decimalDigits n).map digitOf ≠ [] := by simp [decimalDigits_ne_nil]
  obtain ⟨d, ds, equal⟩ := List.exists_cons_of_ne_nil some_digits
  rw [natural?, taken, equal]
  dsimp only
  rw [← equal, naturalOf_decimalDigits]

end Text

end PatchScript
