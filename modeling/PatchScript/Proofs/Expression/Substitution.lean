import PatchScript.Proofs.Expression.Machine
import PatchScript.Proofs.Expression.Names

/-!
# Derivations of words and of their tokens

When names give way to numbers, the words of a text become its tokens, a name those of one factor.
So a derivation of the words becomes one of the tokens. Conversely the tokens of a name are taken as
a whole wherever a factor is derived from them, because a factor in front of given tokens is
determined by them, and so a derivation of the tokens comes from one of the words.

## Main definitions

* `NamedExpression.value?` — the value of an expression with names
* `Number.alone?`, `Number.operand` — the value that a number in place of a name has by itself, and
  the expression that it is
* `NamedExpression.expanded` — an expression after its names gave way to numbers

## Main results

* `Derives.expanded` — a derivation of words becomes one of their tokens
* `Derives.comesFrom` — a derivation of tokens comes from one of the words
-/

namespace PatchScript

variable {valueOf : String → Number} {words : List Lexeme} {t : NamedExpression} {d : Nat}
  {level : Level}

/-! ### Names and their operands -/

/-- The value of an expression in which each name has a value, if no operation overflows. -/
def NamedExpression.value? (bound : String → Option Number) : NamedExpression → Option Number
  | .number n => some n
  | .name s => bound s
  | .signed sign operand => (operand.value? bound).map sign.apply
  | .binary operator left right => do
    let a ← left.value? bound
    let b ← right.value? bound
    (operator.apply a b).toOption

/-- The expression that results when each name gives way to an expression. -/
def NamedExpression.bind (σ : String → Expression) : NamedExpression → Expression
  | .number n => .number n
  | .name s => σ s
  | .signed sign operand => .signed sign (operand.bind σ)
  | .binary operator left right => .binary operator (left.bind σ) (right.bind σ)

theorem NamedExpression.value_bind (σ : String → Expression) (t : NamedExpression) :
    (t.bind σ).value.toOption = t.value? fun s => (σ s).value.toOption := by
  induction t with
  | number n => rfl
  | name s => rfl
  | signed sign operand ih =>
    rw [bind, Expression.value, value?, ← ih]
    cases (operand.bind σ).value <;> rfl
  | binary operator left right ihl ihr =>
    rw [bind, Expression.value, value?, ← ihl, ← ihr]
    cases (left.bind σ).value with
    | error cause => rfl
    | ok a => cases (right.bind σ).value <;> rfl

/-- The value that a number in place of a name has when it is evaluated alone. -/
def Number.alone? (v : Number) : Option Number :=
  match Expression.read v.rendered.length v.rendered with
  | .ok e => e.evaluate.toOption
  | .error _ => none

/-- The expression that a number in place of a name is. -/
def Number.operand (v : Number) : Expression :=
  match Expression.read v.rendered.length v.rendered with
  | .ok e => e
  | .error _ => .number v

theorem toOption_evaluate (e : Expression) : e.evaluate.toOption = e.value.toOption := by
  rw [Expression.evaluate_eq_value]
  cases e.value <;> rfl

theorem IsOperand.read_eq {text : List Char} {kinds : List TokenKind} {e : Expression} {room : Nat}
    (h : IsOperand text kinds e d) (deep : d ≤ room) : Expression.read room text = .ok e := by
  obtain ⟨tokens, htokens, rfl⟩ := kinds?_eq_some_iff.1 h.kinds?_eq
  refine Expression.read_eq_ok_iff.2 ⟨tokens, d, htokens, ?_, deep⟩
  rw [wordsOf_eq]
  exact .term (.single h.derives)

/-- The tokens of a number in place of a name. -/
theorem Number.isOperand (v : Number) :
    ∃ d, IsOperand v.rendered ((kinds? v.rendered).getD []) v.operand d := by
  obtain ⟨kinds, e, d, operand, -⟩ := v.isOperand_rendered
  refine ⟨d, ?_⟩
  rw [Number.operand, operand.read_eq operand.nesting, operand.kinds?_eq]
  exact operand

theorem Number.alone?_eq (v : Number) : v.alone? = v.operand.value.toOption := by
  obtain ⟨kinds, e, d, operand, -⟩ := v.isOperand_rendered
  rw [Number.alone?, Number.operand, operand.read_eq operand.nesting]
  exact toOption_evaluate e

/-! ### Derivations of words and of their tokens -/

/-- The expression that an expression with names becomes. -/
def NamedExpression.expanded (valueOf : String → Number) (t : NamedExpression) : Expression :=
  t.bind fun s => (valueOf s).operand

/-- What tokens derive. -/
def DerivesKinds (level : Level) (kinds : List TokenKind) (e : Expression) : Prop :=
  ∃ d, Derives level (kinds.map TokenKind.lexeme) e.named d

theorem expandedWords_append (valueOf : String → Number) (words more : List Lexeme) :
    expandedWords valueOf (words ++ more) =
      expandedWords valueOf words ++ expandedWords valueOf more :=
  List.flatMap_append

/-- A derivation of words becomes one of their tokens. -/
theorem Derives.expanded (valueOf : String → Number) (h : Derives level words t d) :
    DerivesKinds level (expandedWords valueOf words) (t.expanded valueOf) := by
  induction h with
  | number n => exact ⟨0, .number n⟩
  | name s =>
    obtain ⟨d, operand⟩ := (valueOf s).isOperand
    refine ⟨d, ?_⟩
    simpa [expandedWords, Lexeme.expanded, NamedExpression.expanded, NamedExpression.bind]
      using operand.derives
  | group _ ih =>
    obtain ⟨d, derived⟩ := ih
    exact ⟨d + 1, by simpa [expandedWords, Lexeme.expanded, TokenKind.lexeme] using .group derived⟩
  | signed sign _ ih =>
    obtain ⟨d, derived⟩ := ih
    exact ⟨d + 1, .signed sign derived⟩
  | single _ ih =>
    obtain ⟨d, derived⟩ := ih
    exact ⟨d, .single derived⟩
  | term _ ih =>
    obtain ⟨d, derived⟩ := ih
    exact ⟨d, .term derived⟩
  | multiplied o ho _ _ ih ih' =>
    obtain ⟨d, derived⟩ := ih
    obtain ⟨d', derived'⟩ := ih'
    refine ⟨max d d', ?_⟩
    rw [expandedWords_append, List.map_append]
    exact .multiplied o ho derived derived'
  | added o ho _ _ ih ih' =>
    obtain ⟨d, derived⟩ := ih
    obtain ⟨d', derived'⟩ := ih'
    refine ⟨max d d', ?_⟩
    rw [expandedWords_append, List.map_append]
    exact .added o ho derived derived'

/-- A token in front of the tokens of words is a word itself, or it begins the tokens of a name. -/
theorem expandedWords_eq_cons {kind : TokenKind} {more : List TokenKind}
    (h : expandedWords valueOf words = kind :: more) :
    (∃ others, words = kind.lexeme :: others ∧ expandedWords valueOf others = more) ∨
      (kind = .opener ∨ ∃ n, kind = .number n) ∧ ∃ s others, words = .name s :: others := by
  cases words with
  | nil => cases h
  | cons word others =>
    have step : expandedWords valueOf (word :: others) =
        word.expanded valueOf ++ expandedWords valueOf others := by simp [expandedWords]
    rw [step] at h
    cases word with
    | name s =>
      obtain ⟨d, operand⟩ := (valueOf s).isOperand
      refine .inr ⟨?_, s, others, rfl⟩
      have front := congrArg List.head? h
      rw [Lexeme.expanded, List.head?_append] at front
      obtain opener | ⟨n, number⟩ := operand.starts
      · exact .inl (by simpa [opener] using front.symm)
      · exact .inr ⟨n, by simpa [number] using front.symm⟩
    | _ =>
      obtain ⟨rfl, rest⟩ := List.cons.inj h
      exact .inl ⟨others, rfl, rest⟩

/-- Tokens in front of those of words come from words in front of them. -/
def ComesFrom (valueOf : String → Number) (level : Level) (words : List Lexeme)
    (kinds : List TokenKind) (u : NamedExpression) : Prop :=
  ∃ first others t d, words = first ++ others ∧ expandedWords valueOf first = kinds ∧
    Derives level first t d ∧ (t.expanded valueOf).named = u

/-- The tokens of a name are taken as a whole. -/
theorem comesFrom_name {s : String} {others : List Lexeme} {kinds rest : List TokenKind}
    {u : NamedExpression} (h : Derives .factor (kinds.map TokenKind.lexeme) u d)
    (same : kinds ++ rest = expandedWords valueOf (.name s :: others)) :
    ComesFrom valueOf .factor (.name s :: others) kinds u := by
  obtain ⟨d', operand⟩ := (valueOf s).isOperand
  have step : expandedWords valueOf (.name s :: others) =
      (kinds? (valueOf s).rendered).getD [] ++ expandedWords valueOf others := by
    simp [expandedWords, Lexeme.expanded]
  obtain ⟨rfl, rfl⟩ := h.unique operand.derives (same.trans step)
  exact ⟨[.name s], others, .name s, 0, rfl, by simp [expandedWords, Lexeme.expanded], .name s, rfl⟩

/-- Tokens whose first word is that of a token begin with this token. -/
theorem map_lexeme_eq_cons (kind : TokenKind) {kinds : List TokenKind} {words : List Lexeme}
    (h : kinds.map TokenKind.lexeme = kind.lexeme :: words) :
    ∃ more, kinds = kind :: more ∧ more.map TokenKind.lexeme = words := by
  obtain ⟨kind', more, rfl, same, hmore⟩ := List.map_eq_cons_iff.1 h
  exact ⟨more, by rw [TokenKind.lexeme_injective same], hmore⟩

/-- What the tokens of two operands come from is joined by the operator between them. -/
theorem ComesFrom.binary {lower : Level} {leftWords rightWords : List Lexeme}
    {kinds rest : List TokenKind} {u u' : NamedExpression} (o : Operator)
    (rule : ∀ {first second t t' d d'}, Derives level first t d → Derives lower second t' d' →
      Derives level (first ++ .operator o :: second) (.binary o t t') (max d d'))
    (hkinds : kinds.map TokenKind.lexeme = leftWords ++ .operator o :: rightWords)
    (same : kinds ++ rest = expandedWords valueOf words)
    (ofLeft : ∀ {kinds rest words}, kinds.map TokenKind.lexeme = leftWords →
      kinds ++ rest = expandedWords valueOf words → ComesFrom valueOf level words kinds u)
    (ofRight : ∀ {kinds rest words}, kinds.map TokenKind.lexeme = rightWords →
      kinds ++ rest = expandedWords valueOf words → ComesFrom valueOf lower words kinds u') :
    ComesFrom valueOf level words kinds (.binary o u u') := by
  obtain ⟨left, behind, rfl, hleft, hbehind⟩ := List.map_eq_append_iff.1 hkinds
  obtain ⟨right, rfl, hright⟩ := map_lexeme_eq_cons (.operator o) hbehind
  rw [List.append_assoc] at same
  obtain ⟨first, others, t, d, rfl, hfirst, derived, rfl⟩ := ofLeft hleft same
  rw [expandedWords_append, hfirst, List.append_cancel_left_eq, List.cons_append] at same
  obtain ⟨others, rfl, hothers⟩ | ⟨begins, -⟩ := expandedWords_eq_cons same.symm
  · obtain ⟨second, others, t', d', rfl, hsecond, derived', rfl⟩ := ofRight hright hothers.symm
    refine ⟨first ++ .operator o :: second, others, .binary o t t', max d d',
      by simp [TokenKind.lexeme], ?_, rule derived derived', rfl⟩
    rw [expandedWords_append, hfirst, ← hsecond]
    rfl
  · simp at begins

/-- A group of tokens comes from a group of words, or is taken from a name. -/
theorem comesFrom_group {kinds rest : List TokenKind} {groupWords : List Lexeme}
    {u : NamedExpression} (derived : Derives .sum groupWords u d)
    (hkinds : kinds.map TokenKind.lexeme = .opener :: groupWords ++ [.closer])
    (same : kinds ++ rest = expandedWords valueOf words)
    (ofInner : ∀ {kinds rest words}, kinds.map TokenKind.lexeme = groupWords →
      kinds ++ rest = expandedWords valueOf words → ComesFrom valueOf .sum words kinds u) :
    ComesFrom valueOf .factor words kinds u := by
  obtain ⟨behind, rfl, hbehind⟩ := map_lexeme_eq_cons .opener hkinds
  obtain ⟨others, rfl, hothers⟩ | ⟨-, s, others, rfl⟩ := expandedWords_eq_cons same.symm
  · obtain ⟨inner, closing, rfl, hinner, hclosing⟩ := List.map_eq_append_iff.1 hbehind
    obtain ⟨_, rfl, none⟩ := map_lexeme_eq_cons .closer hclosing
    obtain rfl := List.map_eq_nil_iff.1 none
    replace hothers : expandedWords valueOf others = inner ++ ([.closer] ++ rest) := by
      rw [← List.append_assoc]
      exact hothers
    obtain ⟨first, others, t, d, rfl, hfirst, derived', rfl⟩ := ofInner hinner hothers.symm
    rw [expandedWords_append, hfirst, List.append_cancel_left_eq] at hothers
    obtain ⟨others, rfl, -⟩ | ⟨begins, -⟩ := expandedWords_eq_cons hothers
    · refine ⟨.opener :: first ++ [.closer], others, t, d + 1, by simp [TokenKind.lexeme], ?_,
        .group derived', rfl⟩
      rw [expandedWords_append, ← hfirst]
      rfl
    · simp at begins
  · exact comesFrom_name (by rw [hkinds]; exact .group derived) same

/-- **A derivation of the tokens of words** comes from one of words. -/
theorem Derives.comesFrom {kindWords : List Lexeme} {u : NamedExpression}
    {kinds rest : List TokenKind} (h : Derives level kindWords u d)
    (hkinds : kinds.map TokenKind.lexeme = kindWords)
    (same : kinds ++ rest = expandedWords valueOf words) :
    ComesFrom valueOf level words kinds u := by
  induction h generalizing kinds rest words with
  | number n =>
    obtain ⟨_, rfl, none⟩ := map_lexeme_eq_cons (.number n) hkinds
    obtain rfl := List.map_eq_nil_iff.1 none
    obtain ⟨others, rfl, -⟩ | ⟨-, s, others, rfl⟩ := expandedWords_eq_cons same.symm
    · exact ⟨[.number n], others, .number n, 0, rfl, rfl, .number n, rfl⟩
    · exact comesFrom_name (.number n) same
  | name s =>
    -- no token is a name
    obtain ⟨kind, _, -, hkind, -⟩ := List.map_eq_cons_iff.1 hkinds
    cases kind <;> cases hkind
  | group derived ih => exact comesFrom_group derived hkinds same ih
  | signed sign _ ih =>
    obtain ⟨behind, rfl, hbehind⟩ := map_lexeme_eq_cons (.operator sign.operator) hkinds
    obtain ⟨others, rfl, hothers⟩ | ⟨begins, -⟩ := expandedWords_eq_cons same.symm
    · obtain ⟨first, others, t, d, rfl, hfirst, derived, rfl⟩ := ih hbehind hothers.symm
      refine ⟨.operator sign.operator :: first, others, .signed sign t, d + 1, rfl, ?_,
        .signed sign derived, rfl⟩
      rw [← hfirst]
      rfl
    · simp at begins
  | single _ ih =>
    obtain ⟨first, others, t, d, split, hfirst, derived, tree⟩ := ih hkinds same
    exact ⟨first, others, t, d, split, hfirst, .single derived, tree⟩
  | term _ ih =>
    obtain ⟨first, others, t, d, split, hfirst, derived, tree⟩ := ih hkinds same
    exact ⟨first, others, t, d, split, hfirst, .term derived, tree⟩
  | multiplied o ho _ _ ih ih' => exact .binary o (.multiplied o ho) hkinds same ih ih'
  | added o ho _ _ ih ih' => exact .binary o (.added o ho) hkinds same ih ih'

end PatchScript
