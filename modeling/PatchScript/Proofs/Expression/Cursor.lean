import PatchScript.Proofs.Expression.Reading
import PatchScript.Proofs.Expression.Splitting

/-!
# Reading with a cursor and a counter

Expressions are read here by a machine that has the tokens in front of it all the time, with an end
behind the last one, and keeps two numbers: how many tokens it has consumed, and how many parentheses
and signs are open. It consumes the end where it complains about it, and it opens and closes on the
way. Two things could go wrong that reading on lists cannot express: a token behind the end could be
asked for, and an opening could be counted that was closed already.

Neither happens. The machine does exactly what reading on lists does, with the cursor in front of
the tokens that are left and the counter at the room that is taken.

## Main definitions

* `Cursor`, `CursorStop` — the state of the machine, and why it stops
* `Expression.cursorRead` — a text read by the machine
* `SpelledWithin` — the words of a text derive a tree, with so many openings at once

## Main results

* `follows` — the machine follows reading on lists, at every level of the grammar
* `Expression.read_iff_spelledWithin` — which texts are read, as what, and how the others end
-/

namespace PatchScript

/-! ### The machine -/

/-- The number of tokens consumed, and the number of parentheses and signs that are open. -/
structure Cursor where
  position : Nat
  depth : Nat
deriving DecidableEq

/-- Why the machine stops. -/
inductive CursorStop where
  | fault (f : ExpressionFault)
  /-- A token behind the end is asked for. -/
  | pastEnd
  /-- The bound on the depth of the reading is reached. -/
  | unfinished
deriving DecidableEq

/-- The token at a position; the end, which is none, stands behind the last one, and nothing behind
the end. -/
def tokenAt (tokens : List ExpressionToken) (i : Nat) :
    Except CursorStop (Option ExpressionToken) :=
  if i ≤ tokens.length then .ok tokens[i]? else .error .pastEnd

namespace Cursor

/-- The next token. -/
def peek (tokens : List ExpressionToken) (c : Cursor) :
    Except CursorStop (Option ExpressionToken) :=
  tokenAt tokens c.position

/-- The next token, consumed. -/
def advance (tokens : List ExpressionToken) (c : Cursor) :
    Except CursorStop (Option ExpressionToken × Cursor) := do
  return (← c.peek tokens, { c with position := c.position + 1 })

/-- Counts a parenthesis or sign that opens. -/
def descend (limit : Nat) (c : Cursor) : Except CursorStop Cursor :=
  if limit < c.depth + 1 then .error (.fault .tooDeep) else .ok { c with depth := c.depth + 1 }

/-- Counts a parenthesis or sign that closes. -/
def ascend (c : Cursor) : Cursor := { c with depth := c.depth - 1 }

end Cursor

/-- The sign that a token is. -/
def signOf? : Option ExpressionToken → Option Sign
  | some ⟨.operator .add, _, _⟩ => some .plus
  | some ⟨.operator .sub, _, _⟩ => some .minus
  | _ => none

/-- The operator that a token is, if it joins the terms of a sum, or the factors of a product. -/
def operatorOf? (joinsTerms : Bool) : Option ExpressionToken → Option Operator
  | some ⟨.operator o, _, _⟩ => if o.joinsTerms = joinsTerms then some o else none
  | _ => none

/-- The complaint about a token that was consumed; about the end, at the end of a text of the given
length. -/
def unexpectedToken (length : Nat) : Option ExpressionToken → ExpressionFault
  | none => .unexpected "end" length
  | some token => .unexpected (String.ofList token.text) token.position

section

variable (tokens : List ExpressionToken) (limit length : Nat)

mutual

/-- Reads a sum. The first number bounds the depth of the reading. -/
def cursorSum : Nat → Cursor → Except CursorStop (Expression × Cursor)
  | 0, _ => .error .unfinished
  | fuel + 1, c => do
    let (first, c) ← cursorProduct fuel c
    cursorSumRest fuel first c

/-- Reads the further terms of a sum. -/
def cursorSumRest : Nat → Expression → Cursor → Except CursorStop (Expression × Cursor)
  | 0, _, _ => .error .unfinished
  | fuel + 1, left, c => do
    match operatorOf? true (← c.peek tokens) with
    | some o => do
      let (_, c) ← c.advance tokens
      let (right, c) ← cursorProduct fuel c
      cursorSumRest fuel (.binary o left right) c
    | none => return (left, c)

/-- Reads a product. -/
def cursorProduct : Nat → Cursor → Except CursorStop (Expression × Cursor)
  | 0, _ => .error .unfinished
  | fuel + 1, c => do
    let (first, c) ← cursorFactor fuel c
    cursorProductRest fuel first c

/-- Reads the further factors of a product. -/
def cursorProductRest : Nat → Expression → Cursor → Except CursorStop (Expression × Cursor)
  | 0, _, _ => .error .unfinished
  | fuel + 1, left, c => do
    match operatorOf? false (← c.peek tokens) with
    | some o => do
      let (_, c) ← c.advance tokens
      let (right, c) ← cursorFactor fuel c
      cursorProductRest fuel (.binary o left right) c
    | none => return (left, c)

/-- Reads a number, a sum in parentheses, or either with signs before it. -/
def cursorFactor : Nat → Cursor → Except CursorStop (Expression × Cursor)
  | 0, _ => .error .unfinished
  | fuel + 1, c => do
    match signOf? (← c.peek tokens) with
    | some sign => do
      let (_, c) ← c.advance tokens
      let c ← c.descend limit
      let (operand, c) ← cursorFactor fuel c
      return (.signed sign operand, c.ascend)
    | none => do
      let (token, c) ← c.advance tokens
      match token with
      | some ⟨.number n, _, _⟩ => return (.number n, c)
      | some ⟨.opener, _, position⟩ => do
        let c ← c.descend limit
        let (inner, c) ← cursorSum fuel c
        let c := c.ascend
        let (token, c) ← c.advance tokens
        match token with
        | some ⟨.closer, _, _⟩ => return (inner, c)
        | _ => .error (.fault (.missingCloser position))
      | token => .error (.fault (unexpectedToken length token))

end

end

/-- The expression of a text, read by the machine. Tokens that are left over are complained about. -/
def Expression.cursorRead (limit : Nat) (text : List Char) : Except CursorStop Expression := do
  let tokens ← (expressionTokens text).mapError .fault
  let (e, c) ← cursorSum tokens limit text.length (4 * tokens.length + 4) ⟨0, 0⟩
  match ← c.peek tokens with
  | none => return e
  | some token => .error (.fault (.unexpected (String.ofList token.text) token.position))

/-! ### In front of the tokens that are left -/

variable {tokens left rest used : List ExpressionToken} {limit length depth fuel : Nat}
  {e first : Expression} {level : Level} {room : Nat}

/-- The cursor in front of the tokens that are left, with so many openings counted. -/
def Cursor.before (tokens left : List ExpressionToken) (depth : Nat) : Cursor :=
  ⟨tokens.length - left.length, depth⟩

/-- Where the machine arrives when reading on lists has a result. -/
def arrive (tokens : List ExpressionToken) (depth : Nat) :
    ReadExpression → Except CursorStop (Expression × Cursor)
  | .ok (e, rest) => .ok (e, .before tokens rest depth)
  | .error f => .error (.fault f)

theorem peek_before (h : left <:+ tokens) :
    (Cursor.before tokens left depth).peek tokens = .ok left.head? := by
  obtain ⟨used, rfl⟩ := h
  have next : (used ++ left)[used.length]? = left.head? := by
    rw [List.getElem?_append_right (Nat.le_refl _), Nat.sub_self, List.head?_eq_getElem?]
  simp [Cursor.peek, Cursor.before, tokenAt, next]

theorem advance_before (h : left <:+ tokens) :
    (Cursor.before tokens left depth).advance tokens =
      .ok (left.head?, ⟨tokens.length - left.length + 1, depth⟩) := by
  rw [Cursor.advance, peek_before h]
  rfl

theorem advance_before_cons {token : ExpressionToken} (h : token :: left <:+ tokens) :
    (Cursor.before tokens (token :: left) depth).advance tokens =
      .ok (some token, .before tokens left depth) := by
  have long := h.length_le
  rw [List.length_cons] at long
  have next : tokens.length - (token :: left).length + 1 = tokens.length - left.length := by
    rw [List.length_cons]
    omega
  rw [advance_before h, next]
  rfl

/-- Reading on goes on from where the machine arrives. -/
theorem arrive_bind {r : ReadExpression} {depth' : Nat}
    {f : Expression × Cursor → Except CursorStop (Expression × Cursor)}
    {g : Expression × List ExpressionToken → ReadExpression}
    (h : ∀ e rest, r = .ok (e, rest) →
      f (e, .before tokens rest depth) = arrive tokens depth' (g (e, rest))) :
    (arrive tokens depth r >>= f) = arrive tokens depth' (r >>= g) := by
  cases r with
  | error fault => rfl
  | ok found =>
    obtain ⟨e, rest⟩ := found
    exact h e rest rfl

/-- What is opened is counted where there is room for it. -/
theorem descend_before_bind
    {f : Cursor → Except CursorStop (Expression × Cursor)} {g : Nat → ReadExpression}
    (h : f (.before tokens left (depth + 1)) = arrive tokens depth (g (limit - (depth + 1)))) :
    ((Cursor.before tokens left depth).descend limit >>= f) =
      arrive tokens depth
        (match limit - depth with
        | 0 => .error .tooDeep
        | room + 1 => g room) := by
  by_cases room : depth < limit
  · rw [Cursor.descend, if_neg (by simp [Cursor.before]; omega),
      show limit - depth = (limit - (depth + 1)) + 1 by omega]
    exact h
  · rw [Cursor.descend, if_pos (by simp [Cursor.before]; omega),
      show limit - depth = 0 by omega]
    rfl

/-! ### The next token -/

theorem sumOperator?_eq (left : List ExpressionToken) :
    sumOperator? left = (operatorOf? true left.head?).map (·, left.tail) := by
  rcases left with _ | ⟨⟨_ | o | _ | _, _, _⟩, rest⟩
  case cons.operator => cases o <;> rfl
  all_goals rfl

theorem productOperator?_eq (left : List ExpressionToken) :
    productOperator? left = (operatorOf? false left.head?).map (·, left.tail) := by
  rcases left with _ | ⟨⟨_ | o | _ | _, _, _⟩, rest⟩
  case cons.operator => cases o <;> rfl
  all_goals rfl

theorem cons_of_operatorOf? {joinsTerms : Bool} {o : Operator}
    (h : operatorOf? joinsTerms left.head? = some o) : ∃ token others, left = token :: others := by
  cases left with
  | nil => cases h
  | cons token others => exact ⟨token, others, rfl⟩

/-- Something is consumed. -/
theorem Takes.shorter (h : Takes level room left e rest) :
    rest <:+ left ∧ rest.length < left.length := by
  obtain ⟨used, d, rfl, derived, -⟩ := h
  have some_token : used ≠ [] := fun none => derived.ne_nil (by rw [none]; rfl)
  have := List.length_pos_iff.2 some_token
  refine ⟨List.suffix_append used rest, ?_⟩
  rw [List.length_append]
  omega

/-! ### The machine follows reading on lists -/

/-- With a bound that covers the tokens that are left three times, the machine follows reading on
lists, at every level of the grammar. -/
structure Follows (tokens : List ExpressionToken) (limit length fuel : Nat) : Prop where
  sum {left : List ExpressionToken} {depth : Nat} (suffix : left <:+ tokens)
    (covers : 3 * left.length + 3 ≤ fuel) :
    cursorSum tokens limit length fuel (.before tokens left depth) =
      arrive tokens depth (readSum fuel (limit - depth) length left)
  sumRest {left : List ExpressionToken} {depth : Nat} (first : Expression)
    (suffix : left <:+ tokens) (covers : 3 * left.length + 1 ≤ fuel) :
    cursorSumRest tokens limit length fuel first (.before tokens left depth) =
      arrive tokens depth (readSumRest fuel (limit - depth) length first left)
  product {left : List ExpressionToken} {depth : Nat} (suffix : left <:+ tokens)
    (covers : 3 * left.length + 2 ≤ fuel) :
    cursorProduct tokens limit length fuel (.before tokens left depth) =
      arrive tokens depth (readProduct fuel (limit - depth) length left)
  productRest {left : List ExpressionToken} {depth : Nat} (first : Expression)
    (suffix : left <:+ tokens) (covers : 3 * left.length + 1 ≤ fuel) :
    cursorProductRest tokens limit length fuel first (.before tokens left depth) =
      arrive tokens depth (readProductRest fuel (limit - depth) length first left)
  factor {left : List ExpressionToken} {depth : Nat} (suffix : left <:+ tokens)
    (covers : 3 * left.length + 1 ≤ fuel) :
    cursorFactor tokens limit length fuel (.before tokens left depth) =
      arrive tokens depth (readFactor fuel (limit - depth) length left)

namespace Follows

variable (ih : Follows tokens limit length fuel)
include ih

theorem sum_succ (suffix : left <:+ tokens) (covers : 3 * left.length + 3 ≤ fuel + 1) :
    cursorSum tokens limit length (fuel + 1) (.before tokens left depth) =
      arrive tokens depth (readSum (fuel + 1) (limit - depth) length left) := by
  rw [cursorSum, readSum, ih.product suffix (by omega)]
  refine arrive_bind fun first rest read => ?_
  obtain ⟨behind, shorter⟩ := ((read_sound fuel).2.2.1 _ _ _ _ read).shorter
  exact ih.sumRest first (behind.trans suffix) (by omega)

theorem sumRest_succ (suffix : left <:+ tokens) (covers : 3 * left.length + 1 ≤ fuel + 1) :
    cursorSumRest tokens limit length (fuel + 1) first (.before tokens left depth) =
      arrive tokens depth (readSumRest (fuel + 1) (limit - depth) length first left) := by
  rw [cursorSumRest, readSumRest, peek_before suffix, sumOperator?_eq]
  simp only [bind, Except.bind]
  cases next : operatorOf? true left.head? with
  | none => rfl
  | some o =>
    obtain ⟨token, left, rfl⟩ := cons_of_operatorOf? next
    have suffix' := (List.suffix_cons token left).trans suffix
    rw [List.length_cons] at covers
    simp only [advance_before_cons suffix, Option.map_some, List.tail_cons]
    rw [ih.product suffix' (by omega)]
    refine arrive_bind fun right rest read => ?_
    obtain ⟨behind, shorter⟩ := ((read_sound fuel).2.2.1 _ _ _ _ read).shorter
    exact ih.sumRest _ (behind.trans suffix') (by omega)

theorem product_succ (suffix : left <:+ tokens) (covers : 3 * left.length + 2 ≤ fuel + 1) :
    cursorProduct tokens limit length (fuel + 1) (.before tokens left depth) =
      arrive tokens depth (readProduct (fuel + 1) (limit - depth) length left) := by
  rw [cursorProduct, readProduct, ih.factor suffix (by omega)]
  refine arrive_bind fun first rest read => ?_
  obtain ⟨behind, shorter⟩ := ((read_sound fuel).2.2.2.2 _ _ _ _ read).shorter
  exact ih.productRest first (behind.trans suffix) (by omega)

theorem productRest_succ (suffix : left <:+ tokens) (covers : 3 * left.length + 1 ≤ fuel + 1) :
    cursorProductRest tokens limit length (fuel + 1) first (.before tokens left depth) =
      arrive tokens depth (readProductRest (fuel + 1) (limit - depth) length first left) := by
  rw [cursorProductRest, readProductRest, peek_before suffix, productOperator?_eq]
  simp only [bind, Except.bind]
  cases next : operatorOf? false left.head? with
  | none => rfl
  | some o =>
    obtain ⟨token, left, rfl⟩ := cons_of_operatorOf? next
    have suffix' := (List.suffix_cons token left).trans suffix
    rw [List.length_cons] at covers
    simp only [advance_before_cons suffix, Option.map_some, List.tail_cons]
    rw [ih.factor suffix' (by omega)]
    refine arrive_bind fun right rest read => ?_
    obtain ⟨behind, shorter⟩ := ((read_sound fuel).2.2.2.2 _ _ _ _ read).shorter
    exact ih.productRest _ (behind.trans suffix') (by omega)

/-- Behind an opening parenthesis: a sum, with one more opening counted, and the closing one. -/
theorem group_succ {position : Nat} (suffix : left <:+ tokens)
    (covers : 3 * left.length + 3 ≤ fuel) :
    (do
      let (inner, c) ← cursorSum tokens limit length fuel (.before tokens left (depth + 1))
      let c := c.ascend
      let (token, c) ← c.advance tokens
      match token with
      | some ⟨.closer, _, _⟩ => return (inner, c)
      | _ => .error (.fault (.missingCloser position))) =
    arrive tokens depth (do
      let (inner, rest) ← readSum fuel (limit - (depth + 1)) length left
      match rest with
      | ⟨.closer, _, _⟩ :: rest => return (inner, rest)
      | _ => .error (.missingCloser position)) := by
  rw [ih.sum suffix covers]
  refine arrive_bind fun inner rest read => ?_
  obtain ⟨behind, -⟩ := ((read_sound fuel).1 _ _ _ _ read).shorter
  have suffix' := behind.trans suffix
  have closed : (Cursor.before tokens rest (depth + 1)).ascend = .before tokens rest depth := rfl
  rcases rest with _ | ⟨⟨_ | _ | _ | _, _, _⟩, rest⟩
  case cons.closer =>
    simp only [closed, advance_before_cons suffix', bind, Except.bind]
    rfl
  all_goals
    simp only [closed, advance_before suffix', bind, Except.bind]
    rfl

/-- Behind a sign: a factor, with one more opening counted. -/
theorem signed_succ (sign : Sign) (suffix : left <:+ tokens) (covers : 3 * left.length + 1 ≤ fuel) :
    (do
      let (operand, c) ← cursorFactor tokens limit length fuel (.before tokens left (depth + 1))
      return (.signed sign operand, c.ascend)) =
    arrive tokens depth (do
      let (operand, rest) ← readFactor fuel (limit - (depth + 1)) length left
      return (.signed sign operand, rest)) := by
  rw [ih.factor suffix covers]
  exact arrive_bind fun _ _ _ => rfl

theorem factor_succ (suffix : left <:+ tokens) (covers : 3 * left.length + 1 ≤ fuel + 1) :
    cursorFactor tokens limit length (fuel + 1) (.before tokens left depth) =
      arrive tokens depth (readFactor (fuel + 1) (limit - depth) length left) := by
  rw [cursorFactor, peek_before suffix]
  unfold readFactor
  rcases left with _ | ⟨⟨_ | o | _ | _, _, position⟩, left⟩
  case nil =>
    simp only [ok_bind, signOf?, List.head?_nil, advance_before suffix]
    rfl
  case cons.operator =>
    have suffix' := (List.suffix_cons _ left).trans suffix
    simp only [ok_bind, List.head?_cons, advance_before_cons suffix]
    cases o
    case add =>
      refine descend_before_bind (ih.signed_succ .plus suffix' ?_)
      rw [List.length_cons] at covers
      omega
    case sub =>
      refine descend_before_bind (ih.signed_succ .minus suffix' ?_)
      rw [List.length_cons] at covers
      omega
    all_goals rfl
  case cons.opener =>
    have suffix' := (List.suffix_cons _ left).trans suffix
    simp only [ok_bind, List.head?_cons, advance_before_cons suffix, signOf?]
    refine descend_before_bind (ih.group_succ suffix' ?_)
    rw [List.length_cons] at covers
    omega
  all_goals
    simp only [ok_bind, List.head?_cons, advance_before_cons suffix]
    rfl

end Follows

/-- The machine follows reading on lists. -/
theorem follows (tokens : List ExpressionToken) (limit length fuel : Nat) :
    Follows tokens limit length fuel := by
  induction fuel with
  | zero => exact ⟨by omega, by omega, by omega, by omega, by omega⟩
  | succ fuel ih =>
    exact ⟨ih.sum_succ, fun _ => ih.sumRest_succ, ih.product_succ, fun _ => ih.productRest_succ,
      ih.factor_succ⟩

/-! ### Whole texts -/

/-- The machine reads the expression of a text, and complains as reading on lists does. -/
theorem Expression.cursorRead_eq (limit : Nat) (text : List Char) :
    Expression.cursorRead limit text = (Expression.read limit text).mapError .fault := by
  unfold Expression.cursorRead Expression.read
  cases expressionTokens text with
  | error fault => rfl
  | ok tokens =>
    have start : (⟨0, 0⟩ : Cursor) = .before tokens tokens 0 := by simp [Cursor.before]
    simp only [mapError_ok, ok_bind]
    rw [start, (follows tokens limit text.length _).sum (List.suffix_refl tokens)
      (by omega), Nat.sub_zero]
    cases read : readSum (4 * tokens.length + 4) limit text.length tokens with
    | error fault => rfl
    | ok found =>
      obtain ⟨e, rest⟩ := found
      obtain ⟨behind, -⟩ := ((read_sound _).1 _ _ _ _ read).shorter
      simp only [arrive, ok_bind, peek_before behind]
      cases rest <;> rfl

/-- A text splits into words that derive a tree, with at most so many parentheses and signs open
around any of them. -/
def SpelledWithin (limit : Nat) (text : List Char) (t : NamedExpression) : Prop :=
  ∃ kinds d, Splits text kinds ∧ Derives .sum (kinds.map TokenKind.lexeme) t d ∧ d ≤ limit

end PatchScript
