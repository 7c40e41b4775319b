import PatchScript.Expression.Reader

/-!
# The grammar of expressions

A sum is one or more products joined by `+` and `-`, a product is one or more factors joined by `*`,
`/` and `%`, and a factor is a number, a name, a sum in parentheses, or a factor with a sign before
it. Sums and products group to the left, so each of them is an operand or a shorter one with a last
operand.

The grammar has names besides numbers, and so have its trees. The expressions that are read and
evaluated have none: they are the trees without names.

## Main definitions

* `Lexeme`, `NamedExpression` — the words of the grammar and its trees
* `Derives` — what the grammar derives, with how deep parentheses and signs are nested in it
* `Expression.named`, `TokenKind.lexeme` — expressions and tokens among them

## Main results

* `Derives.nesting_le_length` — the nesting is at most the number of words
-/

namespace PatchScript

/-- A word of an expression. -/
inductive Lexeme where
  | number (n : Number)
  | name (s : String)
  | operator (o : Operator)
  | opener
  | closer
deriving DecidableEq

/-- An arithmetic expression with names. -/
inductive NamedExpression where
  | number (n : Number)
  | name (s : String)
  | signed (sign : Sign) (operand : NamedExpression)
  | binary (operator : Operator) (left right : NamedExpression)
deriving DecidableEq

/-- The operator that is written like a sign. -/
def Sign.operator : Sign → Operator
  | .plus => .add
  | .minus => .sub

/-- Whether an operator joins the terms of a sum. -/
def Operator.joinsTerms : Operator → Bool
  | .add | .sub => true
  | .mul | .div | .rem => false

/-- What a part of the grammar derives. -/
inductive Level where
  | sum
  | product
  | factor
deriving DecidableEq

/-- The words derive a tree in which so many parentheses and signs are open around some part. -/
inductive Derives : Level → List Lexeme → NamedExpression → Nat → Prop
  | number (n : Number) : Derives .factor [.number n] (.number n) 0
  | name (s : String) : Derives .factor [.name s] (.name s) 0
  | group {words t d} : Derives .sum words t d →
      Derives .factor (.opener :: words ++ [.closer]) t (d + 1)
  | signed (sign : Sign) {words t d} : Derives .factor words t d →
      Derives .factor (.operator sign.operator :: words) (.signed sign t) (d + 1)
  | single {words t d} : Derives .factor words t d → Derives .product words t d
  | multiplied (o : Operator) {words more t u d e} : o.joinsTerms = false →
      Derives .product words t d → Derives .factor more u e →
      Derives .product (words ++ .operator o :: more) (.binary o t u) (max d e)
  | term {words t d} : Derives .product words t d → Derives .sum words t d
  | added (o : Operator) {words more t u d e} : o.joinsTerms = true →
      Derives .sum words t d → Derives .product more u e →
      Derives .sum (words ++ .operator o :: more) (.binary o t u) (max d e)

namespace Derives

variable {level : Level} {words : List Lexeme} {t : NamedExpression} {d : Nat}

theorem ne_nil (h : Derives level words t d) : words ≠ [] := by
  induction h with
  | single _ ih | term _ ih => exact ih
  | _ => simp

/-- The nesting is at most the number of words, since each sign and parenthesis is one. -/
theorem nesting_le_length (h : Derives level words t d) : d ≤ words.length := by
  induction h with
  | number n | name s => exact Nat.zero_le _
  | group _ ih | signed _ _ ih => simp; omega
  | single _ ih | term _ ih => exact ih
  | multiplied o _ _ _ ih ih' | added o _ _ _ ih ih' => simp; omega

end Derives

/-! ### Expressions without names -/

/-- An expression as a tree of the grammar. -/
def Expression.named : Expression → NamedExpression
  | .number n => .number n
  | .signed sign operand => .signed sign operand.named
  | .binary operator left right => .binary operator left.named right.named

theorem Expression.named_injective : Function.Injective Expression.named := by
  intro e
  induction e with
  | number n =>
    rintro (_ | _ | _) ⟨⟩
    rfl
  | signed sign operand ih =>
    rintro (_ | ⟨sign', operand'⟩ | _) h
    · cases h
    · obtain ⟨rfl, same⟩ := NamedExpression.signed.inj h
      rw [ih same]
    · cases h
  | binary operator left right ihl ihr =>
    rintro (_ | _ | ⟨operator', left', right'⟩) h
    · cases h
    · cases h
    · obtain ⟨rfl, sameLeft, sameRight⟩ := NamedExpression.binary.inj h
      rw [ihl sameLeft, ihr sameRight]

/-- The word that a token is. -/
def TokenKind.lexeme : TokenKind → Lexeme
  | .number n => .number n
  | .operator o => .operator o
  | .opener => .opener
  | .closer => .closer

theorem TokenKind.lexeme_injective : Function.Injective TokenKind.lexeme := by
  intro kind kind' same
  cases kind <;> cases kind' <;> cases same <;> rfl

/-- The words of tokens. -/
def wordsOf (tokens : List ExpressionToken) : List Lexeme := tokens.map (·.kind.lexeme)

end PatchScript
