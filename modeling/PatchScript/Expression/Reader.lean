import PatchScript.Expression.Basic
import PatchScript.Number.Numeral
import PatchScript.Text.Blank

/-!
# Reading expressions

Blanks separate tokens and are otherwise ignored, and a number is as long as possible. `*`, `/` and
`%` bind closer than `+` and `-`, both group to the left, and signs bind closest. Parentheses and
signs may be nested only so deep.

## Main definitions

* `ExpressionToken`, `expressionTokens`: the tokens of a text with their positions.
* `ExpressionFault`: why a text is no expression.
* `Expression.read`: the expression of a text.
-/

namespace PatchScript

/-- Why a text is no expression. -/
inductive ExpressionFault where
  | unexpected (text : String) (position : Nat)
  | missingCloser (position : Nat)
  | tooDeep
deriving DecidableEq

/-- The wording of a fault. -/
def ExpressionFault.message : ExpressionFault → String
  | .unexpected text position => "unexpected '" ++ text ++ "' at " ++ toString position
  | .missingCloser position => "missing ')' for '(' at " ++ toString position
  | .tooDeep => "expression nested too deeply"

/-! ### Tokens -/

/-- What a token is. -/
inductive TokenKind where
  | number (n : Number)
  | operator (o : Operator)
  | opener
  | closer
deriving DecidableEq

/-- A token, with its text and the number of characters before it. -/
structure ExpressionToken where
  kind : TokenKind
  text : List Char
  position : Nat
deriving DecidableEq

/-- The token of a character that is neither a blank nor part of a number. -/
def symbolKind? : Char → Option TokenKind
  | '+' => some (.operator .add)
  | '-' => some (.operator .sub)
  | '*' => some (.operator .mul)
  | '/' => some (.operator .div)
  | '%' => some (.operator .rem)
  | '(' => some .opener
  | ')' => some .closer
  | _ => none

/-- The number that an unsigned numeral denotes: an integer when it has no point. -/
def unsignedValue (n : Numeral) : Number :=
  if n.isInteger then .int n.toInt else .float n.toBinary64

/-- The number at the front of a text, with its text and what follows. -/
def takeNumber? (text : List Char) : Option (Number × List Char × List Char) :=
  (takeUnsigned Text.asciiDigit? false text).map fun (n, rest) =>
    (unsignedValue n, text.take (text.length - rest.length), rest)

/-- The tokens of a text whose first character has the given position. The first number counts the
characters that belong to the token before and are to be passed over. -/
def tokensFrom : (skip position : Nat) → List Char → Except ExpressionFault (List ExpressionToken)
  | _, _, [] => .ok []
  | skip + 1, position, _ :: rest => tokensFrom skip (position + 1) rest
  | 0, position, c :: rest =>
    if Text.isBlank c then tokensFrom 0 (position + 1) rest
    else
      match takeNumber? (c :: rest) with
      | some (n, text, _) => do
        return ⟨.number n, text, position⟩ :: (← tokensFrom (text.length - 1) (position + 1) rest)
      | none =>
        match symbolKind? c with
        | some kind => do return ⟨kind, [c], position⟩ :: (← tokensFrom 0 (position + 1) rest)
        | none => .error (.unexpected (String.singleton c) position)

/-- The tokens of a text. -/
def expressionTokens (text : List Char) : Except ExpressionFault (List ExpressionToken) :=
  tokensFrom 0 0 text

/-! ### Grammar -/

/-- The complaint about the token that is next; at the end of a text of the given length, about the
end. -/
def unexpectedNext (length : Nat) (ending : String) : List ExpressionToken → ExpressionFault
  | [] => .unexpected ending length
  | token :: _ => .unexpected (String.ofList token.text) token.position

/-- The sum operator that is next. -/
def sumOperator? : List ExpressionToken → Option (Operator × List ExpressionToken)
  | ⟨.operator .add, _, _⟩ :: rest => some (.add, rest)
  | ⟨.operator .sub, _, _⟩ :: rest => some (.sub, rest)
  | _ => none

/-- The product operator that is next. -/
def productOperator? : List ExpressionToken → Option (Operator × List ExpressionToken)
  | ⟨.operator .mul, _, _⟩ :: rest => some (.mul, rest)
  | ⟨.operator .div, _, _⟩ :: rest => some (.div, rest)
  | ⟨.operator .rem, _, _⟩ :: rest => some (.rem, rest)
  | _ => none

/-- The sign that is next. -/
def sign? : List ExpressionToken → Option (Sign × List ExpressionToken)
  | ⟨.operator .add, _, _⟩ :: rest => some (.plus, rest)
  | ⟨.operator .sub, _, _⟩ :: rest => some (.minus, rest)
  | _ => none

/-- An expression with the tokens after it. -/
abbrev ReadExpression := Except ExpressionFault (Expression × List ExpressionToken)

mutual

/-- Reads a sum. `room` is how many more parentheses and signs may be opened, `length` the length of
the text, and the first number a bound on the depth of the reading. -/
def readSum : (fuel room length : Nat) → List ExpressionToken → ReadExpression
  | 0, _, length, tokens => .error (unexpectedNext length "end" tokens)
  | fuel + 1, room, length, tokens => do
    let (first, rest) ← readProduct fuel room length tokens
    readSumRest fuel room length first rest

/-- Reads the further terms of a sum. -/
def readSumRest : (fuel room length : Nat) → Expression → List ExpressionToken → ReadExpression
  | 0, _, length, _, tokens => .error (unexpectedNext length "end" tokens)
  | fuel + 1, room, length, left, tokens =>
    match sumOperator? tokens with
    | some (o, rest) => do
      let (right, rest) ← readProduct fuel room length rest
      readSumRest fuel room length (.binary o left right) rest
    | none => .ok (left, tokens)

/-- Reads a product. -/
def readProduct : (fuel room length : Nat) → List ExpressionToken → ReadExpression
  | 0, _, length, tokens => .error (unexpectedNext length "end" tokens)
  | fuel + 1, room, length, tokens => do
    let (first, rest) ← readFactor fuel room length tokens
    readProductRest fuel room length first rest

/-- Reads the further factors of a product. -/
def readProductRest : (fuel room length : Nat) → Expression → List ExpressionToken → ReadExpression
  | 0, _, length, _, tokens => .error (unexpectedNext length "end" tokens)
  | fuel + 1, room, length, left, tokens =>
    match productOperator? tokens with
    | some (o, rest) => do
      let (right, rest) ← readFactor fuel room length rest
      readProductRest fuel room length (.binary o left right) rest
    | none => .ok (left, tokens)

/-- Reads a number, a sum in parentheses, or either with signs before it. -/
def readFactor : (fuel room length : Nat) → List ExpressionToken → ReadExpression
  | 0, _, length, tokens => .error (unexpectedNext length "end" tokens)
  | fuel + 1, room, length, tokens =>
    match sign? tokens with
    | some (s, rest) =>
      match room with
      | 0 => .error .tooDeep
      | room + 1 => do
        let (operand, rest) ← readFactor fuel room length rest
        return (.signed s operand, rest)
    | none =>
      match tokens with
      | ⟨.number n, _, _⟩ :: rest => .ok (.number n, rest)
      | ⟨.opener, _, position⟩ :: rest =>
        match room with
        | 0 => .error .tooDeep
        | room + 1 => do
          let (inner, rest) ← readSum fuel room length rest
          match rest with
          | ⟨.closer, _, _⟩ :: rest => return (inner, rest)
          | _ => .error (.missingCloser position)
      | _ => .error (unexpectedNext length "end" tokens)

end

/-- The expression of a text, with at most `room` parentheses and signs open at once. -/
def Expression.read (room : Nat) (text : List Char) : Except ExpressionFault Expression := do
  let tokens ← expressionTokens text
  let (e, rest) ← readSum (4 * tokens.length + 4) room text.length tokens
  if rest.isEmpty then return e else .error (unexpectedNext text.length "" rest)

end PatchScript
