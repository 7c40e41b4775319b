import PatchScript.Proofs.Expression.Numerals

/-!
# The tokens of a text

What the tokens of a text are depends on the text alone, not on where it stands: blanks are left
out, a number at the front is one token, and any other character is one token or none at all. So a
text can be divided where nothing is torn apart, and its tokens are those of its parts.

## Main definitions

* `kinds?` — what the tokens of a text are, if it has tokens

## Main results

* `kinds?_blank`, `kinds?_number`, `kinds?_symbol` — what the tokens of a text are, from the front
-/

namespace PatchScript

open Text

variable {text t rest : List Char} {c : Char} {n : Number}

/-- What tokens are, without where they stand. -/
def kindsOf (tokens : Except ExpressionFault (List ExpressionToken)) : Option (List TokenKind) :=
  tokens.toOption.map (·.map (·.kind))

/-- What the tokens of a text are, if it has tokens. -/
def kinds? (text : List Char) : Option (List TokenKind) := kindsOf (expressionTokens text)

theorem kindsOf_cons (token : ExpressionToken)
    (tokens : Except ExpressionFault (List ExpressionToken)) :
    kindsOf (do return token :: (← tokens)) = (kindsOf tokens).map (token.kind :: ·) := by
  cases tokens <;> rfl

theorem kinds?_eq_some_iff {kinds : List TokenKind} :
    kinds? text = some kinds ↔
      ∃ tokens, expressionTokens text = .ok tokens ∧ tokens.map (·.kind) = kinds := by
  rw [kinds?, kindsOf]
  cases expressionTokens text <;> simp [Except.toOption]

/-- The tokens do not depend on the position, and passing characters over leaves out the characters. -/
theorem kindsOf_tokensFrom (skip position : Nat) (text : List Char) :
    kindsOf (tokensFrom skip position text) = kinds? (text.drop skip) := by
  have independent : ∀ (text : List Char) (skip position : Nat),
      kindsOf (tokensFrom skip position text) = kindsOf (tokensFrom 0 0 (text.drop skip)) := by
    intro text
    induction text with
    | nil => intro skip position; cases skip <;> simp [tokensFrom]
    | cons c rest ih =>
      intro skip position
      cases skip with
      | succ skip => rw [tokensFrom, ih, List.drop_succ_cons]
      | zero =>
        rw [List.drop_zero, tokensFrom, tokensFrom]
        split
        · rw [ih 0 (position + 1), ih 0 1]
        · split
          · next n text _ _ =>
            rw [kindsOf_cons, kindsOf_cons, ih _ (position + 1), ih _ (0 + 1)]
          · split
            · rw [kindsOf_cons, kindsOf_cons, ih _ (position + 1), ih _ (0 + 1)]
            · rfl
  exact independent text skip position

theorem kinds?_nil : kinds? [] = some [] := rfl

theorem kinds?_blank (h : isBlank c = true) (rest : List Char) : kinds? (c :: rest) = kinds? rest := by
  rw [kinds?, expressionTokens, tokensFrom, if_pos h, kindsOf_tokensFrom, List.drop_zero]

/-- Neither a digit nor a point is a blank. -/
theorem IsUnsigned.isBlank_of_mem (h : IsUnsigned t n) (hc : c ∈ t) : isBlank c = false := by
  obtain digit | rfl := h.digit_or_point hc
  · exact isBlank_of_isDigit digit
  · decide

theorem kinds?_number (h : IsUnsigned t n) (ends : Ends t rest) :
    kinds? (t ++ rest) = (kinds? rest).map (.number n :: ·) := by
  have taken := takeNumber?_of_isUnsigned h ends
  obtain ⟨c, others, rfl⟩ := List.exists_cons_of_ne_nil h.ne_nil
  have unblank : ¬ isBlank c = true := by simp [h.isBlank_of_mem (c := c) (by simp)]
  rw [List.cons_append] at taken ⊢
  rw [kinds?, expressionTokens, tokensFrom, if_neg unblank, taken]
  dsimp only
  rw [kindsOf_cons, kindsOf_tokensFrom]
  simp

theorem kinds?_symbol (hblank : isBlank c = false) (h : Numberless (c :: rest)) :
    kinds? (c :: rest) = (symbolKind? c).bind fun kind => (kinds? rest).map (kind :: ·) := by
  have unblank : ¬ isBlank c = true := by simp [hblank]
  rw [kinds?, expressionTokens, tokensFrom, if_neg unblank, takeNumber?_of_numberless h]
  cases symbolKind? c with
  | none => rfl
  | some kind =>
    dsimp only
    rw [kindsOf_cons, kindsOf_tokensFrom]
    rfl

/-- Induction along the tokens of a text. -/
theorem kinds_induction {motive : List Char → List TokenKind → Prop} (nil : motive [] [])
    (blank : ∀ c rest kinds, isBlank c = true → motive rest kinds → motive (c :: rest) kinds)
    (number : ∀ t rest n kinds, IsUnsigned t n → Ends t rest → motive rest kinds →
      motive (t ++ rest) (.number n :: kinds))
    (symbol : ∀ c rest kind kinds, symbolKind? c = some kind → motive rest kinds →
      motive (c :: rest) (kind :: kinds))
    {kinds : List TokenKind} (h : kinds? text = some kinds) : motive text kinds := by
  induction hlength : text.length using Nat.strongRecOn generalizing text kinds with
  | _ length ih =>
    subst hlength
    obtain ⟨t, rest, n, rfl, unsigned, ends⟩ | numberless := front_cases text
    · rw [kinds?_number unsigned ends] at h
      obtain ⟨kinds, hrest, rfl⟩ := Option.map_eq_some_iff.1 h
      have shorter : rest.length < (t ++ rest).length := by
        have := List.length_pos_iff.2 unsigned.ne_nil
        simp
        omega
      exact number t rest n kinds unsigned ends (ih _ shorter hrest rfl)
    · cases text with
      | nil =>
        obtain rfl : [] = kinds := Option.some.inj h
        exact nil
      | cons c rest =>
        cases hblank : isBlank c with
        | true =>
          rw [kinds?_blank hblank] at h
          exact blank c rest kinds hblank (ih _ (by simp) h rfl)
        | false =>
          rw [kinds?_symbol hblank numberless] at h
          obtain ⟨kind, hkind, hmore⟩ := Option.bind_eq_some_iff.1 h
          obtain ⟨kinds, hrest, rfl⟩ := Option.map_eq_some_iff.1 hmore
          exact symbol c rest kind kinds hkind (ih _ (by simp) hrest rfl)

/-- Each token takes a character at least. -/
theorem length_le_of_kinds? {kinds : List TokenKind} (h : kinds? text = some kinds) :
    kinds.length ≤ text.length := by
  refine kinds_induction (motive := fun text kinds => kinds.length ≤ text.length)
    (Nat.le_refl 0) ?_ ?_ ?_ h
  · exact fun _ _ _ _ shorter => Nat.le_succ_of_le shorter
  · intro t rest n kinds unsigned _ shorter
    have := List.length_pos_iff.2 unsigned.ne_nil
    simp
    omega
  · exact fun _ _ _ _ _ shorter => Nat.succ_le_succ shorter

end PatchScript
