import PatchScript.Expression.Names
import PatchScript.Proofs.Expression.Reading
import PatchScript.Proofs.Expression.Tokens
import PatchScript.Proofs.Number.Positional

/-!
# Numbers in place of names

A number that replaces a name is a single factor: an unsigned number, or a group in parentheses. It
begins with no operator and ends where the blank behind it begins, so nothing around it can be drawn
into it, and it cannot be torn apart.

## Main definitions

* `IsPrimary` — the tokens of a number, or of a sum in parentheses
* `IsOperand` — a text that is one factor wherever a blank follows it
* `Number.reread` — the number that is read where a number is written

## Main results

* `Number.isOperand_rendered` — numbers in place of names are such texts
-/

namespace PatchScript

open Text

variable {t rest : List Char} {n : Number}

/-! ### Tokens from the front -/

theorem kinds?_cons_symbol {c : Char} (kind : TokenKind) (h : symbolKind? c = some kind)
    (rest : List Char) : kinds? (c :: rest) = (kinds? rest).map (kind :: ·) := by
  obtain ⟨unblank, digitless, pointless⟩ : isBlank c = false ∧ c.isDigit = false ∧ c ≠ '.' := by
    unfold symbolKind? at h
    split at h <;> first | decide | cases h
  rw [kinds?_symbol unblank, h, Option.bind_some]
  refine ⟨by simpa using digitless, fun others equal => absurd ?_ pointless⟩
  exact (List.cons.inj equal).1

/-- A text that cannot prolong a number before it. -/
def Closed (rest : List Char) : Prop := ∀ c ∈ rest.head?, c.isDigit = false ∧ c ≠ '.'

theorem Closed.ends (h : Closed rest) (t : List Char) : Ends t rest :=
  fun c hc => ⟨(h c hc).1, .inr (h c hc).2⟩

theorem isUnsigned_decimalDigits (k : Nat) : IsUnsigned (decimalDigits k) (.int k) := by
  have value : unsignedValue ⟨false, (decimalDigits k).map digitOf, none, none⟩ = .int k := by
    simp [unsignedValue, Numeral.isInteger, Numeral.toInt, naturalOf_decimalDigits]
  rw [← value]
  exact .whole _ (decimalDigits_ne_nil k) fun c hc => isDigit_of_mem_decimalDigits hc

/-- The tokens of a number alone, or of a sum in parentheses: nothing at their ends binds to what
stands around them. -/
inductive IsPrimary : List TokenKind → Prop
  | number (n : Number) : IsPrimary [.number n]
  | group {kinds : List TokenKind} {t : NamedExpression} {d : Nat} :
    Derives .sum (kinds.map TokenKind.lexeme) t d → IsPrimary (.opener :: kinds ++ [.closer])

/-- A text that is one factor, wherever nothing follows that prolongs a number. -/
structure IsOperand (text : List Char) (kinds : List TokenKind) (e : Expression) (d : Nat) :
    Prop where
  tokens : ∀ rest, Closed rest → kinds? (text ++ rest) = (kinds? rest).map (kinds ++ ·)
  derives : Derives .factor (kinds.map TokenKind.lexeme) e.named d
  primary : IsPrimary kinds
  nesting : d ≤ text.length

theorem IsOperand.starts {text : List Char} {kinds : List TokenKind} {e : Expression} {d : Nat}
    (h : IsOperand text kinds e d) :
    kinds.head? = some .opener ∨ ∃ n, kinds.head? = some (.number n) := by
  cases h.primary with
  | number n => exact .inr ⟨n, rfl⟩
  | group _ => exact .inl rfl

theorem IsUnsigned.isOperand (h : IsUnsigned t n) : IsOperand t [.number n] (.number n) 0 where
  tokens _ closed := kinds?_number h (closed.ends t)
  derives := .number n
  primary := .number n
  nesting := Nat.zero_le _

/-- What comes behind an opening parenthesis is the inside of a group. -/
theorem kinds?_group {inner : List Char} {kinds : List TokenKind}
    (h : ∀ rest, Closed rest → kinds? (inner ++ rest) = (kinds? rest).map (kinds ++ ·))
    (rest : List Char) :
    kinds? ('(' :: inner ++ [')'] ++ rest) =
      (kinds? rest).map ((.opener :: kinds ++ [.closer]) ++ ·) := by
  have closed : Closed (')' :: rest) := by simp [Closed]
  have whole : '(' :: inner ++ [')'] ++ rest = '(' :: (inner ++ ')' :: rest) := by simp
  rw [whole, kinds?_cons_symbol .opener rfl, h _ closed,
    kinds?_cons_symbol .closer rfl]
  cases kinds? rest <;> simp

/-- A text between parentheses is one factor. -/
theorem isOperand_group {inner : List Char} {kinds : List TokenKind} {e : Expression} {d : Nat}
    (h : ∀ rest, Closed rest → kinds? (inner ++ rest) = (kinds? rest).map (kinds ++ ·))
    (derives : Derives .sum (kinds.map TokenKind.lexeme) e.named d) (nesting : d ≤ inner.length) :
    IsOperand ('(' :: inner ++ [')']) (.opener :: kinds ++ [.closer]) e (d + 1) where
  tokens rest _ := kinds?_group h rest
  derives := by simpa [TokenKind.lexeme] using Derives.group derives
  primary := .group derives
  nesting := by simp; omega

/-- A number with a minus sign before it. -/
theorem kinds?_minus (h : IsUnsigned t n) (rest : List Char) (closed : Closed rest) :
    kinds? ('-' :: t ++ rest) = (kinds? rest).map ([.operator .sub, .number n] ++ ·) := by
  rw [List.cons_append, kinds?_cons_symbol (.operator .sub) rfl,
    kinds?_number h (closed.ends t)]
  cases kinds? rest <;> rfl

/-- The quotient of a text and a number. -/
theorem kinds?_quotient {dividend : List Char} {kinds : List TokenKind}
    (h : ∀ rest, Closed rest → kinds? (dividend ++ rest) = (kinds? rest).map (kinds ++ ·))
    (ht : IsUnsigned t n) (rest : List Char) (closed : Closed rest) :
    kinds? (dividend ++ '/' :: t ++ rest) =
      (kinds? rest).map (kinds ++ [.operator .div, .number n] ++ ·) := by
  have slash : Closed ('/' :: (t ++ rest)) := by simp [Closed]
  rw [List.append_assoc, List.cons_append, h _ slash,
    kinds?_cons_symbol (.operator .div) rfl, kinds?_number ht (closed.ends t)]
  cases kinds? rest <;> simp

/-- The quotient of a factor and a number, in parentheses. -/
theorem isOperand_quotient {dividend : List Char} {kinds : List TokenKind} {e : Expression}
    {d : Nat}
    (h : ∀ rest, Closed rest → kinds? (dividend ++ rest) = (kinds? rest).map (kinds ++ ·))
    (derives : Derives .factor (kinds.map TokenKind.lexeme) e.named d)
    (nesting : d ≤ dividend.length) (ht : IsUnsigned t n) :
    IsOperand ('(' :: (dividend ++ '/' :: t) ++ [')'])
      (.opener :: (kinds ++ [.operator .div, .number n]) ++ [.closer])
      (.binary .div e (.number n)) (max d 0 + 1) := by
  refine isOperand_group (kinds?_quotient h ht) ?_ (by simp; omega)
  rw [List.map_append]
  exact .term (.multiplied .div rfl (.single derives) (.number n))

/-- The minus sign of a number has precedence over the operators. -/
theorem derives_minus (n : Number) :
    Derives .factor ([.operator .sub, .number n].map TokenKind.lexeme)
      (Expression.signed .minus (.number n)).named 1 :=
  .signed .minus (.number n)

/-- A number as it is written with a sign. -/
def Expression.ofSigned (negative : Bool) (n : Number) : Expression :=
  if negative then .signed .minus (.number n) else .number n

/-- A text with a sign before it, where there is one, is one factor in place of a name. -/
theorem isOperand_guardSign (h : IsUnsigned t n) (negative : Bool) :
    ∃ kinds d, IsOperand (guardSign (Binary64.signed negative t)) kinds (.ofSigned negative n) d ∧
      d ≤ 2 := by
  cases negative with
  | true =>
    have group := isOperand_group (kinds?_minus h) (.term (.single (derives_minus n)))
      (Nat.succ_le_succ (Nat.zero_le _))
    exact ⟨_, 2, group, Nat.le_refl 2⟩
  | false =>
    have unsigned : guardSign t = t := by
      rw [guardSign]
      rintro rest rfl
      have := h.digit_or_point (c := '-') (by simp)
      revert this
      decide
    refine ⟨[.number n], 0, ?_, Nat.zero_le 2⟩
    rw [Binary64.signed, if_neg (by simp), unsigned]
    exact h.isOperand

theorem isUnsigned_of_isPointed (h : IsPointed t) : ∃ n, IsUnsigned t n := by
  obtain ⟨w, f, rfl, some_digits, digits, more_digits⟩ := h
  exact ⟨_, .pointed w f (.inl some_digits) digits more_digits⟩

/-- The text of a finite number, with six decimal places where the usual text has an exponent. -/
theorem rendered_finite (negative : Bool) (m : Magnitude) :
    (Number.float (.finite negative m)).rendered =
      guardSign (Binary64.signed negative m.writtenText) := by
  have scaled : (Binary64.finite negative m).hasExponent = true ↔ 'e' ∈ m.text := by
    cases negative <;> simp [Binary64.hasExponent, Binary64.text, Binary64.signed]
  have guarded : (Number.float (.finite negative m)).rendered =
      guardSign (if (Binary64.finite negative m).hasExponent then
        (Binary64.finite negative m).fixedText else (Binary64.finite negative m).text) := rfl
  rw [guarded, Magnitude.writtenText]
  by_cases h : 'e' ∈ m.text
  · rw [if_pos (scaled.2 h), if_pos h, Binary64.fixedText]
  · rw [if_neg (mt scaled.1 h), if_neg h, Binary64.text]

/-- The number that is read where a number is written. Only the digits of a finite number may denote
another one. -/
def Number.reread : Number → Number
  | .float (.finite negative m) =>
    match takeNumber? m.writtenText with
    | some (n, _, _) => if negative then n.neg else n
    | none => .float (.finite negative m)
  | v => v

theorem reread_finite (negative : Bool) {m : Magnitude} (h : IsUnsigned m.writtenText n) :
    (Number.float (.finite negative m)).reread = if negative then n.neg else n := by
  have ends : Ends m.writtenText [] := by simp [Ends]
  have taken := takeNumber?_of_isUnsigned h ends
  rw [List.append_nil] at taken
  simp only [Number.reread, taken]

theorem value_ofSigned (negative : Bool) (n : Number) :
    (Expression.ofSigned negative n).value = .ok (if negative then n.neg else n) := by
  cases negative <;> rfl

/-- **A number in place of a name** is one factor, in which at most two parentheses and signs are
open. -/
theorem Number.isOperand_rendered (v : Number) :
    ∃ kinds e d, IsOperand v.rendered kinds e d ∧ d ≤ 2 ∧ e.value = .ok v.reread := by
  have zero := isUnsigned_decimalDigits 0
  have one := isUnsigned_decimalDigits 1
  match v with
  | .int k =>
    obtain ⟨kinds, d, operand, shallow⟩ :=
      isOperand_guardSign (isUnsigned_decimalDigits k.natAbs) (decide (k < 0))
    have value : (if decide (k < 0) = true then (Number.int k.natAbs).neg else .int k.natAbs) =
        .int k := by
      by_cases negative : k < 0
      · have sign : -(k.natAbs : Int) = k := by omega
        rw [if_pos (by simpa using negative), Number.neg, sign]
      · have sign : (k.natAbs : Int) = k := by omega
        rw [if_neg (by simpa using negative), sign]
    exact ⟨kinds, _, d, operand, shallow, by rw [value_ofSigned, value, Number.reread]; simp⟩
  | .float .nan =>
    exact ⟨_, _, _, isOperand_quotient zero.isOperand.tokens zero.isOperand.derives
      (Nat.zero_le _) zero, by decide, rfl⟩
  | .float (.infinite false) =>
    exact ⟨_, _, _, isOperand_quotient one.isOperand.tokens one.isOperand.derives
      (Nat.zero_le _) zero, by decide, rfl⟩
  | .float (.infinite true) =>
    exact ⟨_, _, _, isOperand_quotient (kinds?_minus one) (derives_minus _)
      (Nat.succ_le_succ (Nat.zero_le _)) zero, by decide, rfl⟩
  | .float (.finite negative m) =>
    obtain ⟨n, number⟩ := isUnsigned_of_isPointed m.isPointed_writtenText
    obtain ⟨kinds, d, operand, shallow⟩ := isOperand_guardSign number negative
    rw [← rendered_finite] at operand
    exact ⟨kinds, _, d, operand, shallow, by rw [value_ofSigned, reread_finite negative number]⟩

end PatchScript
