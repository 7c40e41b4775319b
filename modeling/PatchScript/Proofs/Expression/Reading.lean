import PatchScript.Proofs.Except
import PatchScript.Proofs.Expression.Grammar

/-!
# Reading follows the grammar

Reading a list of tokens takes as many of them as the grammar derives, and finds the tree that the
grammar derives, unless more parentheses and signs are open somewhere than there is room for.

Sums and products are read from the left: the tree read so far is handed on to the reading of what
is left. So a derivation, which adds the last operand to a shorter sum, is followed operand by
operand.

## Main results

* `Expression.read_eq_ok_iff` — a text is read as the tree that its words derive
* `Derives.unique` — a factor in front of given tokens is determined by them
-/

namespace PatchScript

variable {fuel room length : Nat} {tokens rest used : List ExpressionToken} {e : Expression}
  {o : Operator} {level : Level} {words : List Lexeme} {d : Nat}

/-! ### The next token -/

theorem sumOperator?_eq_some_iff :
    sumOperator? tokens = some (o, rest) ↔
      ∃ text position, tokens = ⟨.operator o, text, position⟩ :: rest ∧ o.joinsTerms = true := by
  constructor
  · intro h
    unfold sumOperator? at h
    split at h <;> cases h <;> exact ⟨_, _, rfl, rfl⟩
  · rintro ⟨text, position, rfl, joins⟩
    cases o <;> first | rfl | cases joins

theorem productOperator?_eq_some_iff :
    productOperator? tokens = some (o, rest) ↔
      ∃ text position, tokens = ⟨.operator o, text, position⟩ :: rest ∧ o.joinsTerms = false := by
  constructor
  · intro h
    unfold productOperator? at h
    split at h <;> cases h <;> exact ⟨_, _, rfl, rfl⟩
  · rintro ⟨text, position, rfl, joins⟩
    cases o <;> first | rfl | cases joins

theorem sign?_eq_some_iff {sign : Sign} :
    sign? tokens = some (sign, rest) ↔
      ∃ text position, tokens = ⟨.operator sign.operator, text, position⟩ :: rest := by
  constructor
  · intro h
    unfold sign? at h
    split at h <;> cases h <;> exact ⟨_, _, rfl⟩
  · rintro ⟨text, position, rfl⟩
    cases sign <;> rfl

/-! ### What is read is derived -/

/-- The tokens in front derive an expression, and the others are left. -/
def Takes (level : Level) (room : Nat) (tokens : List ExpressionToken) (e : Expression)
    (rest : List ExpressionToken) : Prop :=
  ∃ used d, tokens = used ++ rest ∧ Derives level (wordsOf used) e.named d ∧ d ≤ room

/-- The tokens in front go on after any words that derive what was read before. -/
def TakesFurther (level : Level) (room : Nat) (left : Expression) (tokens : List ExpressionToken)
    (e : Expression) (rest : List ExpressionToken) : Prop :=
  ∀ words d, Derives level words left.named d → d ≤ room →
    ∃ used d', tokens = used ++ rest ∧ Derives level (words ++ wordsOf used) e.named d' ∧ d' ≤ room

section

variable {lower : Level} {left right first : Expression} {after : List ExpressionToken}

theorem TakesFurther.refl : TakesFurther level room left tokens left tokens :=
  fun words d derived bound => ⟨[], d, rfl, by simpa [wordsOf] using derived, bound⟩

/-- A first operand, and what goes on after it. -/
theorem TakesFurther.takes (rule : ∀ {words t d}, Derives lower words t d → Derives level words t d)
    (hfirst : Takes lower room tokens first after)
    (hrest : TakesFurther level room first after e rest) : Takes level room tokens e rest := by
  obtain ⟨used, d, rfl, derived, bound⟩ := hfirst
  obtain ⟨more, d', rfl, derived, bound⟩ := hrest _ _ (rule derived) bound
  exact ⟨used ++ more, d', by simp, by simpa [wordsOf] using derived, bound⟩

/-- A further operand, and what goes on after it. -/
theorem TakesFurther.step {text : List Char} {position : Nat}
    (rule : ∀ {words more t u d d'}, Derives level words t d → Derives lower more u d' →
      Derives level (words ++ .operator o :: more) (.binary o t u) (max d d'))
    (hright : Takes lower room tokens right after)
    (hrest : TakesFurther level room (.binary o left right) after e rest) :
    TakesFurther level room left (⟨.operator o, text, position⟩ :: tokens) e rest := by
  intro words d derived bound
  obtain ⟨used, d', rfl, operand, bound'⟩ := hright
  obtain ⟨more, d'', rfl, whole, bound''⟩ :=
    hrest _ _ (rule derived operand) (Nat.max_le.2 ⟨bound, bound'⟩)
  exact ⟨⟨.operator o, text, position⟩ :: used ++ more, d'', by simp,
    by simpa [wordsOf, TokenKind.lexeme] using whole, bound''⟩

end

/-- A factor takes tokens that derive it, if so do the sums and the factors inside it. -/
theorem takes_of_readFactor
    (ofSum : ∀ room tokens e rest, readSum fuel room length tokens = .ok (e, rest) →
      Takes .sum room tokens e rest)
    (ofFactor : ∀ room tokens e rest, readFactor fuel room length tokens = .ok (e, rest) →
      Takes .factor room tokens e rest)
    (h : readFactor (fuel + 1) room length tokens = .ok (e, rest)) :
    Takes .factor room tokens e rest := by
  unfold readFactor at h
  split at h
  · next sign after hsign =>
    obtain ⟨text, position, rfl⟩ := sign?_eq_some_iff.1 hsign
    cases room with
    | zero => cases h
    | succ room =>
      obtain ⟨⟨operand, after⟩, hoperand, h⟩ := bind_eq_ok_iff.1 h
      cases h
      obtain ⟨used, d, rfl, derived, bound⟩ := ofFactor _ _ _ _ hoperand
      exact ⟨⟨.operator sign.operator, text, position⟩ :: used, d + 1, by simp,
        .signed sign derived, by omega⟩
  · split at h
    · next n text position after _ =>
      cases h
      exact ⟨[⟨.number n, text, position⟩], 0, by simp, .number n, by omega⟩
    · next text position after _ =>
      cases room with
      | zero => cases h
      | succ room =>
        obtain ⟨⟨inner, after⟩, hinner, h⟩ := bind_eq_ok_iff.1 h
        dsimp only at h
        split at h
        · next text' position' left =>
          cases h
          obtain ⟨used, d, rfl, derived, bound⟩ := ofSum _ _ _ _ hinner
          refine ⟨⟨.opener, text, position⟩ :: used ++ [⟨.closer, text', position'⟩], d + 1,
            by simp, ?_, by omega⟩
          simpa [wordsOf, TokenKind.lexeme] using Derives.group derived
        · cases h
    · cases h

/-- Reading takes tokens that derive what was read. -/
theorem read_sound (fuel : Nat) :
    (∀ room tokens e rest, readSum fuel room length tokens = .ok (e, rest) →
      Takes .sum room tokens e rest) ∧
    (∀ room left tokens e rest, readSumRest fuel room length left tokens = .ok (e, rest) →
      TakesFurther .sum room left tokens e rest) ∧
    (∀ room tokens e rest, readProduct fuel room length tokens = .ok (e, rest) →
      Takes .product room tokens e rest) ∧
    (∀ room left tokens e rest, readProductRest fuel room length left tokens = .ok (e, rest) →
      TakesFurther .product room left tokens e rest) ∧
    (∀ room tokens e rest, readFactor fuel room length tokens = .ok (e, rest) →
      Takes .factor room tokens e rest) := by
  induction fuel with
  | zero =>
    simp [readSum, readSumRest, readProduct, readProductRest, readFactor]
  | succ fuel ih =>
    obtain ⟨sum, sumRest, product, productRest, factor⟩ := ih
    refine ⟨?_, ?_, ?_, ?_, ?_⟩
    · intro room tokens e rest h
      rw [readSum] at h
      obtain ⟨⟨first, after⟩, hfirst, hrest⟩ := bind_eq_ok_iff.1 h
      exact (sumRest _ _ _ _ _ hrest).takes .term (product _ _ _ _ hfirst)
    · intro room left tokens e rest h
      rw [readSumRest] at h
      split at h
      · next o after ho =>
        obtain ⟨text, position, rfl, joins⟩ := sumOperator?_eq_some_iff.1 ho
        obtain ⟨⟨right, after⟩, hright, hrest⟩ := bind_eq_ok_iff.1 h
        exact (sumRest _ _ _ _ _ hrest).step (.added o joins) (product _ _ _ _ hright)
      · cases h
        exact .refl
    · intro room tokens e rest h
      rw [readProduct] at h
      obtain ⟨⟨first, after⟩, hfirst, hrest⟩ := bind_eq_ok_iff.1 h
      exact (productRest _ _ _ _ _ hrest).takes .single (factor _ _ _ _ hfirst)
    · intro room left tokens e rest h
      rw [readProductRest] at h
      split at h
      · next o after ho =>
        obtain ⟨text, position, rfl, joins⟩ := productOperator?_eq_some_iff.1 ho
        obtain ⟨⟨right, after⟩, hright, hrest⟩ := bind_eq_ok_iff.1 h
        exact (productRest _ _ _ _ _ hrest).step (.multiplied o joins) (factor _ _ _ _ hright)
      · cases h
        exact .refl
    · exact fun room tokens e rest h => takes_of_readFactor sum factor h

/-! ### What is derived is read -/

theorem readSumRest_of_none (h : sumOperator? tokens = none) :
    readSumRest (fuel + 1) room length e tokens = .ok (e, tokens) := by
  simp only [readSumRest, h]

theorem readSumRest_of_some (h : sumOperator? tokens = some (o, rest)) {right : Expression}
    {after : List ExpressionToken} (hright : readProduct fuel room length rest = .ok (right, after)) :
    readSumRest (fuel + 1) room length e tokens =
      readSumRest fuel room length (.binary o e right) after := by
  simp only [readSumRest, h, hright]
  rfl

theorem readProductRest_of_none (h : productOperator? tokens = none) :
    readProductRest (fuel + 1) room length e tokens = .ok (e, tokens) := by
  simp only [readProductRest, h]

theorem readProductRest_of_some (h : productOperator? tokens = some (o, rest)) {right : Expression}
    {after : List ExpressionToken} (hright : readFactor fuel room length rest = .ok (right, after)) :
    readProductRest (fuel + 1) room length e tokens =
      readProductRest fuel room length (.binary o e right) after := by
  simp only [readProductRest, h, hright]
  rfl

theorem readFactor_number (n : Number) (text : List Char) (position : Nat) :
    readFactor (fuel + 1) room length (⟨.number n, text, position⟩ :: rest) =
      .ok (.number n, rest) := by
  simp [readFactor, sign?]

theorem readFactor_sign (sign : Sign) (text : List Char) (position : Nat)
    (h : readFactor fuel room length tokens = .ok (e, rest)) :
    readFactor (fuel + 1) (room + 1) length (⟨.operator sign.operator, text, position⟩ :: tokens) =
      .ok (.signed sign e, rest) := by
  cases sign <;> simp only [readFactor, Sign.operator, sign?, h] <;> rfl

theorem readFactor_group {text text' : List Char} {position position' : Nat}
    (h : readSum fuel room length tokens = .ok (e, ⟨.closer, text', position'⟩ :: rest)) :
    readFactor (fuel + 1) (room + 1) length (⟨.opener, text, position⟩ :: tokens) =
      .ok (e, rest) := by
  simp only [readFactor, sign?, h]
  rfl

/-- Tokens are read as an expression by each level of the grammar, whatever follows them. Reading a
sum or a product arrives at what follows with the expression in hand; for a sum, no operator that
binds closer may follow. The fuel covers the tokens that are left, three times. -/
def ReadAs (length : Nat) (level : Level) (used : List ExpressionToken) (e : Expression)
    (d : Nat) : Prop :=
  ∀ room rest fuel, d ≤ room →
    match level with
    | .factor => 3 * (used ++ rest).length + 1 ≤ fuel →
      readFactor fuel room length (used ++ rest) = .ok (e, rest)
    | .product => 3 * (used ++ rest).length + 2 ≤ fuel →
      ∃ left, 3 * rest.length + 1 ≤ left ∧
        readProduct fuel room length (used ++ rest) = readProductRest left room length e rest
    | .sum => productOperator? rest = none → 3 * (used ++ rest).length + 3 ≤ fuel →
      ∃ left, 3 * rest.length + 1 ≤ left ∧
        readSum fuel room length (used ++ rest) = readSumRest left room length e rest

theorem readAs_number (n : Number) (text : List Char) (position : Nat) :
    ReadAs length .factor [⟨.number n, text, position⟩] (.number n) 0 := by
  intro room rest fuel _ hfuel
  obtain ⟨fuel, rfl⟩ := Nat.exists_eq_succ_of_ne_zero (show fuel ≠ 0 by omega)
  exact readFactor_number n text position

theorem ReadAs.signed (sign : Sign) (text : List Char) (position : Nat)
    (h : ReadAs length .factor used e d) :
    ReadAs length .factor (⟨.operator sign.operator, text, position⟩ :: used) (.signed sign e)
      (d + 1) := by
  intro room rest fuel hroom hfuel
  obtain ⟨room, rfl⟩ := Nat.exists_eq_succ_of_ne_zero (show room ≠ 0 by omega)
  obtain ⟨fuel, rfl⟩ := Nat.exists_eq_succ_of_ne_zero (show fuel ≠ 0 by omega)
  exact readFactor_sign sign text position
    (h room rest fuel (by omega) (by simp at hfuel ⊢; omega))

theorem ReadAs.group (text text' : List Char) (position position' : Nat)
    (h : ReadAs length .sum used e d) :
    ReadAs length .factor (⟨.opener, text, position⟩ :: used ++ [⟨.closer, text', position'⟩]) e
      (d + 1) := by
  intro room rest fuel hroom hfuel
  obtain ⟨room, rfl⟩ := Nat.exists_eq_succ_of_ne_zero (show room ≠ 0 by omega)
  obtain ⟨fuel, rfl⟩ := Nat.exists_eq_succ_of_ne_zero (show fuel ≠ 0 by omega)
  obtain ⟨left, hleft, inner⟩ := h room (⟨.closer, text', position'⟩ :: rest) fuel (by omega) rfl
    (by simp at hfuel ⊢; omega)
  obtain ⟨left, rfl⟩ := Nat.exists_eq_succ_of_ne_zero (show left ≠ 0 by omega)
  have closed : sumOperator? (⟨.closer, text', position'⟩ :: rest) = none := rfl
  rw [readSumRest_of_none closed] at inner
  simpa using readFactor_group inner

theorem ReadAs.single (h : ReadAs length .factor used e d) : ReadAs length .product used e d := by
  intro room rest fuel hroom hfuel
  obtain ⟨fuel, rfl⟩ := Nat.exists_eq_succ_of_ne_zero (show fuel ≠ 0 by omega)
  refine ⟨fuel, by simp at hfuel; omega, ?_⟩
  rw [readProduct, h room rest fuel hroom (by omega)]
  rfl

theorem ReadAs.term (h : ReadAs length .product used e d) : ReadAs length .sum used e d := by
  intro room rest fuel hroom hrest hfuel
  obtain ⟨fuel, rfl⟩ := Nat.exists_eq_succ_of_ne_zero (show fuel ≠ 0 by omega)
  obtain ⟨left, hleft, read⟩ := h room rest fuel hroom (by omega)
  obtain ⟨left, rfl⟩ := Nat.exists_eq_succ_of_ne_zero (show left ≠ 0 by omega)
  rw [readProductRest_of_none hrest] at read
  refine ⟨fuel, by simp at hfuel; omega, ?_⟩
  rw [readSum, read]
  rfl

variable {more : List ExpressionToken} {e' : Expression} {d' : Nat}

theorem ReadAs.multiplied (text : List Char) (position : Nat) (ho : o.joinsTerms = false)
    (h : ReadAs length .product used e d) (h' : ReadAs length .factor more e' d') :
    ReadAs length .product (used ++ ⟨.operator o, text, position⟩ :: more) (.binary o e e')
      (max d d') := by
  intro room rest fuel hroom hfuel
  obtain ⟨left, hleft, first⟩ :=
    h room (⟨.operator o, text, position⟩ :: more ++ rest) fuel (by omega) (by simp at hfuel ⊢; omega)
  obtain ⟨left, rfl⟩ := Nat.exists_eq_succ_of_ne_zero (show left ≠ 0 by omega)
  have next : productOperator? (⟨.operator o, text, position⟩ :: (more ++ rest)) =
      some (o, more ++ rest) := productOperator?_eq_some_iff.2 ⟨text, position, rfl, ho⟩
  have operand := h' room rest left (by omega) (by simp at hleft ⊢; omega)
  refine ⟨left, by simp at hleft; omega, ?_⟩
  rw [List.append_assoc, first]
  exact readProductRest_of_some next operand

theorem ReadAs.added (text : List Char) (position : Nat) (ho : o.joinsTerms = true)
    (h : ReadAs length .sum used e d) (h' : ReadAs length .product more e' d') :
    ReadAs length .sum (used ++ ⟨.operator o, text, position⟩ :: more) (.binary o e e')
      (max d d') := by
  intro room rest fuel hroom hrest hfuel
  have loose : productOperator? (⟨.operator o, text, position⟩ :: more ++ rest) = none := by
    cases o <;> first | rfl | cases ho
  obtain ⟨left, hleft, first⟩ := h room (⟨.operator o, text, position⟩ :: more ++ rest) fuel
    (by omega) loose (by simp at hfuel ⊢; omega)
  obtain ⟨left, rfl⟩ := Nat.exists_eq_succ_of_ne_zero (show left ≠ 0 by omega)
  have next : sumOperator? (⟨.operator o, text, position⟩ :: (more ++ rest)) =
      some (o, more ++ rest) := sumOperator?_eq_some_iff.2 ⟨text, position, rfl, ho⟩
  obtain ⟨inner, hinner, operand⟩ := h' room rest left (by omega) (by simp at hleft ⊢; omega)
  obtain ⟨inner, rfl⟩ := Nat.exists_eq_succ_of_ne_zero (show inner ≠ 0 by omega)
  rw [readProductRest_of_none hrest] at operand
  refine ⟨left, by simp at hleft; omega, ?_⟩
  rw [List.append_assoc, first]
  exact readSumRest_of_some next operand

/-! ### Words of tokens -/

theorem wordsOf_eq_cons (kind : TokenKind) (h : wordsOf tokens = kind.lexeme :: words) :
    ∃ text position others, tokens = ⟨kind, text, position⟩ :: others ∧ wordsOf others = words := by
  obtain ⟨⟨kind', text, position⟩, others, rfl, same, rfl⟩ := List.map_eq_cons_iff.1 h
  obtain rfl := TokenKind.lexeme_injective same
  exact ⟨text, position, others, rfl, rfl⟩

theorem wordsOf_eq_append {more : List Lexeme} (h : wordsOf tokens = words ++ more) :
    ∃ first others, tokens = first ++ others ∧ wordsOf first = words ∧ wordsOf others = more :=
  List.map_eq_append_iff.1 h

/-- Words of tokens that derive a tree are read as that tree, which has no names. -/
theorem Derives.readAs {t : NamedExpression} (length : Nat) (h : Derives level words t d)
    (hused : wordsOf used = words) : ∃ e, t = e.named ∧ ReadAs length level used e d := by
  induction h generalizing used with
  | number n =>
    obtain ⟨text, position, others, rfl, none⟩ := wordsOf_eq_cons (.number n) hused
    obtain rfl : others = [] := List.map_eq_nil_iff.1 none
    exact ⟨.number n, rfl, readAs_number n text position⟩
  | name s =>
    obtain ⟨⟨kind, _, _⟩, _, -, same, -⟩ := List.map_eq_cons_iff.1 hused
    cases kind <;> cases same
  | group _ ih =>
    obtain ⟨text, position, others, rfl, rest⟩ := wordsOf_eq_cons .opener hused
    obtain ⟨inner, closing, rfl, hinner, hclosing⟩ := wordsOf_eq_append rest
    obtain ⟨text', position', last, rfl, none⟩ := wordsOf_eq_cons .closer hclosing
    obtain rfl : last = [] := List.map_eq_nil_iff.1 none
    obtain ⟨e, rfl, read⟩ := ih hinner
    exact ⟨e, rfl, read.group text text' position position'⟩
  | signed sign _ ih =>
    obtain ⟨text, position, others, rfl, rest⟩ :=
      wordsOf_eq_cons (.operator sign.operator) hused
    obtain ⟨e, rfl, read⟩ := ih rest
    exact ⟨.signed sign e, rfl, read.signed sign text position⟩
  | single _ ih =>
    obtain ⟨e, rfl, read⟩ := ih hused
    exact ⟨e, rfl, read.single⟩
  | term _ ih =>
    obtain ⟨e, rfl, read⟩ := ih hused
    exact ⟨e, rfl, read.term⟩
  | multiplied o ho _ _ ih ih' =>
    obtain ⟨first, others, rfl, hfirst, hothers⟩ := wordsOf_eq_append hused
    obtain ⟨text, position, more, rfl, hmore⟩ := wordsOf_eq_cons (.operator o) hothers
    obtain ⟨e, rfl, read⟩ := ih hfirst
    obtain ⟨e', rfl, read'⟩ := ih' hmore
    exact ⟨.binary o e e', rfl, read.multiplied text position ho read'⟩
  | added o ho _ _ ih ih' =>
    obtain ⟨first, others, rfl, hfirst, hothers⟩ := wordsOf_eq_append hused
    obtain ⟨text, position, more, rfl, hmore⟩ := wordsOf_eq_cons (.operator o) hothers
    obtain ⟨e, rfl, read⟩ := ih hfirst
    obtain ⟨e', rfl, read'⟩ := ih' hmore
    exact ⟨.binary o e e', rfl, read.added text position ho read'⟩

/-! ### Whole texts -/

/-- Tokens that derive a sum are read as its tree. -/
theorem readSum_of_derives (fuel length : Nat) {t : NamedExpression}
    (h : Derives .sum (wordsOf tokens) t d)
    (hroom : d ≤ room) (hfuel : 3 * tokens.length + 3 ≤ fuel) :
    ∃ e, t = e.named ∧ readSum fuel room length tokens = .ok (e, []) := by
  obtain ⟨e, rfl, read⟩ := h.readAs length rfl
  obtain ⟨left, hleft, equal⟩ := read room [] fuel hroom rfl (by simpa using hfuel)
  obtain ⟨left, rfl⟩ := Nat.exists_eq_succ_of_ne_zero (show left ≠ 0 by omega)
  rw [List.append_nil, readSumRest_of_none rfl] at equal
  exact ⟨e, rfl, equal⟩

/-- **A text is read** as the tree that its words derive, if there is room for the parentheses and
signs in it. -/
theorem Expression.read_eq_ok_iff {text : List Char} :
    Expression.read room text = .ok e ↔
      ∃ tokens d, expressionTokens text = .ok tokens ∧ Derives .sum (wordsOf tokens) e.named d ∧
        d ≤ room := by
  constructor
  · intro h
    obtain ⟨tokens, htokens, h⟩ := bind_eq_ok_iff.1 h
    obtain ⟨⟨e', rest⟩, hread, h⟩ := bind_eq_ok_iff.1 h
    dsimp only at h
    split at h
    · next nothing =>
      cases h
      obtain ⟨used, d, rfl, derived, bound⟩ := (read_sound _).1 _ _ _ _ hread
      obtain rfl : rest = [] := by simpa using nothing
      exact ⟨used, d, by simpa using htokens, derived, bound⟩
    · cases h
  · rintro ⟨tokens, d, htokens, derived, bound⟩
    obtain ⟨e', same, read⟩ := readSum_of_derives (4 * tokens.length + 4) text.length
      derived bound (by omega)
    obtain rfl := named_injective same
    simp only [Expression.read, htokens, bind, Except.bind, read]
    rfl

theorem wordsOf_eq (tokens : List ExpressionToken) :
    wordsOf tokens = (tokens.map (·.kind)).map TokenKind.lexeme := by
  simp [wordsOf]

/-- Tokens that derive a factor are followed by others in one way only, and derive one tree. -/
theorem Derives.unique {t t' : NamedExpression} {d' : Nat} {kinds kinds' after after' : List TokenKind}
    (h : Derives .factor (kinds.map TokenKind.lexeme) t d)
    (h' : Derives .factor (kinds'.map TokenKind.lexeme) t' d')
    (same : kinds ++ after = kinds' ++ after') : kinds = kinds' ∧ t = t' := by
  -- reading finds the tree in front of anything, so it is applied to tokens of these kinds
  let tokens (kinds : List TokenKind) : List ExpressionToken := kinds.map fun k => ⟨k, [], 0⟩
  have words (kinds : List TokenKind) : wordsOf (tokens kinds) = kinds.map TokenKind.lexeme := by
    simp [wordsOf, tokens]
  obtain ⟨e, rfl, read⟩ := h.readAs 0 (words kinds)
  obtain ⟨e', rfl, read'⟩ := h'.readAs 0 (words kinds')
  have one := read (max d d') (tokens after) _ (by omega) (Nat.le_refl _)
  have other := read' (max d d') (tokens after') _ (by omega) (Nat.le_refl _)
  have joined : tokens kinds ++ tokens after = tokens kinds' ++ tokens after' := by
    simp only [tokens, ← List.map_append, same]
  rw [joined, other] at one
  obtain ⟨rfl, rest⟩ : e' = e ∧ tokens after' = tokens after := by simpa using one
  have length := congrArg List.length rest
  simp only [tokens, List.length_map] at length
  exact ⟨(List.append_inj' same length.symm).1, rfl⟩

end PatchScript
