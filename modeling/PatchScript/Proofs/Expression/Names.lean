import PatchScript.Proofs.Expression.Rendered

/-!
# The words of a text with names

The words of a text with names are its numbers and names, each as long as possible, and its
operators and parentheses; between them stand blanks. When every name gives way to a number, the
words that are no names stay the tokens that they are, and each name becomes the tokens of one
factor, because a blank stands on both sides of it.

## Main definitions

* `words?` — the words of a text, if it has nothing else but blanks
* `Lexeme.expanded` — the tokens that a word becomes

## Main results

* `kinds?_substitute` — the tokens of a text whose names are replaced
-/

namespace PatchScript

open Text

/-! ### Words -/

/-- The words of a part of a text. -/
def ExpressionPart.words? : ExpressionPart → Option (List Lexeme)
  | .number text => (takeNumber? text).map fun (n, _, _) => [.number n]
  | .name text => some [.name (String.ofList text)]
  | .other c => if isBlank c then some [] else (symbolKind? c).map fun kind => [kind.lexeme]

/-- The words of several parts. -/
def partWords? : List ExpressionPart → Option (List Lexeme)
  | [] => some []
  | part :: rest => part.words?.bind fun words => (partWords? rest).map (words ++ ·)

/-- The words of a text, if it consists of numbers, names, operators, parentheses and blanks. -/
def words? (text : List Char) : Option (List Lexeme) := partWords? (expressionParts text)

variable {text t rest : List Char} {n : Number} {c : Char} {valueOf : String → Number}

/-! ### Parts from the front -/

theorem partsFrom_eq (skip : Nat) (text : List Char) :
    partsFrom skip text = expressionParts (text.drop skip) := by
  induction text generalizing skip with
  | nil => cases skip <;> simp [expressionParts, partsFrom]
  | cons c rest ih =>
    cases skip with
    | zero => rfl
    | succ skip => rw [partsFrom, ih, List.drop_succ_cons]

theorem numberLength_of_isUnsigned (h : IsUnsigned t n) (ends : Ends t rest) :
    numberLength (t ++ rest) = t.length := by
  rw [numberLength, takeNumber?_of_isUnsigned h ends]

theorem numberLength_of_numberless (h : Numberless text) : numberLength text = 0 := by
  rw [numberLength, takeNumber?_of_numberless h]

theorem expressionParts_number (h : IsUnsigned t n) (ends : Ends t rest) :
    expressionParts (t ++ rest) = .number t :: expressionParts rest := by
  have length := numberLength_of_isUnsigned h ends
  obtain ⟨c, others, rfl⟩ := List.exists_cons_of_ne_nil h.ne_nil
  rw [List.cons_append] at length ⊢
  rw [expressionParts, partsFrom, length, if_pos (by simp), partsFrom_eq]
  simp

theorem expressionParts_name (h : Numberless text) (hname : nameLength text ≠ 0) :
    expressionParts text =
      .name (text.take (nameLength text)) :: expressionParts (text.drop (nameLength text)) := by
  cases text with
  | nil => exact absurd rfl hname
  | cons c rest =>
    obtain ⟨k, hk⟩ := Nat.exists_eq_succ_of_ne_zero hname
    rw [expressionParts, partsFrom, numberLength_of_numberless h, if_neg (by simp), hk,
      if_pos (by simp), partsFrom_eq]
    rfl

theorem expressionParts_other (h : Numberless (c :: rest)) (hname : nameLength (c :: rest) = 0) :
    expressionParts (c :: rest) = .other c :: expressionParts rest := by
  simp [expressionParts, partsFrom, numberLength_of_numberless h, hname]

/-- Induction along the parts of a text. -/
@[elab_as_elim]
theorem front_induction {motive : List Char → Prop} (nil : motive [])
    (number : ∀ t rest n, IsUnsigned t n → Ends t rest → motive rest → motive (t ++ rest))
    (name : ∀ text, Numberless text → nameLength text ≠ 0 →
      motive (text.drop (nameLength text)) → motive text)
    (other : ∀ c rest, Numberless (c :: rest) → nameLength (c :: rest) = 0 → motive rest →
      motive (c :: rest))
    (text : List Char) : motive text := by
  induction hlength : text.length using Nat.strongRecOn generalizing text with
  | _ length ih =>
    subst hlength
    obtain ⟨t, rest, n, rfl, unsigned, ends⟩ | numberless := front_cases text
    · have shorter : rest.length < (t ++ rest).length := by
        have := List.length_pos_iff.2 unsigned.ne_nil
        simp
        omega
      exact number t rest n unsigned ends (ih _ shorter rest rfl)
    · cases text with
      | nil => exact nil
      | cons c rest =>
        by_cases hname : nameLength (c :: rest) = 0
        · exact other c rest numberless hname (ih _ (by simp) rest rfl)
        · refine name _ numberless hname (ih _ ?_ _ rfl)
          simp
          omega

/-! ### Replacing names -/

theorem substitute_number (h : IsUnsigned t n) (ends : Ends t rest) :
    substitute valueOf (t ++ rest) = t ++ substitute valueOf rest := by
  rw [substitute, expressionParts_number h ends]
  rfl

theorem substitute_name (h : Numberless text) (hname : nameLength text ≠ 0) :
    substitute valueOf text =
      ' ' :: ((valueOf (String.ofList (text.take (nameLength text)))).rendered ++
        ' ' :: substitute valueOf (text.drop (nameLength text))) := by
  rw [substitute, expressionParts_name h hname]
  simp [substitutePart, substitute]

theorem substitute_other (h : Numberless (c :: rest)) (hname : nameLength (c :: rest) = 0) :
    substitute valueOf (c :: rest) = c :: substitute valueOf rest := by
  rw [substitute, expressionParts_other h hname]
  rfl

/-- A text begins as before, or with a blank. -/
theorem head?_substitute (valueOf : String → Number) (text : List Char) :
    ∀ c ∈ (substitute valueOf text).head?, c = ' ' ∨ c ∈ text.head? := by
  induction text using front_induction with
  | nil => simp [substitute, expressionParts, partsFrom]
  | number t rest n unsigned ends _ =>
    obtain ⟨d, others, rfl⟩ := List.exists_cons_of_ne_nil unsigned.ne_nil
    rw [substitute_number unsigned ends]
    simp
  | name text numberless hname _ =>
    rw [substitute_name numberless hname]
    simp
  | other c rest numberless hname _ =>
    rw [substitute_other numberless hname]
    simp

/-! ### Words from the front -/

theorem words?_number (h : IsUnsigned t n) (ends : Ends t rest) :
    words? (t ++ rest) = (words? rest).map (.number n :: ·) := by
  have whole : takeNumber? t = some (n, t, []) := by
    have nothing : Ends t [] := by simp [Ends]
    simpa using takeNumber?_of_isUnsigned h nothing
  rw [words?, expressionParts_number h ends, partWords?, ExpressionPart.words?, whole]
  rfl

theorem words?_name (h : Numberless text) (hname : nameLength text ≠ 0) :
    words? text = (words? (text.drop (nameLength text))).map
      (.name (String.ofList (text.take (nameLength text))) :: ·) := by
  rw [words?, expressionParts_name h hname, partWords?]
  rfl

theorem words?_blank (h : Numberless (c :: rest)) (hname : nameLength (c :: rest) = 0)
    (hblank : isBlank c = true) : words? (c :: rest) = words? rest := by
  rw [words?, expressionParts_other h hname, partWords?, ExpressionPart.words?, if_pos hblank]
  simp [words?]

theorem words?_symbol (h : Numberless (c :: rest)) (hname : nameLength (c :: rest) = 0)
    (hblank : isBlank c = false) :
    words? (c :: rest) =
      (symbolKind? c).bind fun kind => (words? rest).map (kind.lexeme :: ·) := by
  rw [words?, expressionParts_other h hname, partWords?, ExpressionPart.words?, hblank]
  cases symbolKind? c <;> rfl

/-! ### Texts without words -/

/-- No character of words is a blank. -/
theorem Text.isWord_of_isBlank (h : isBlank c = true) : isWord c = false := by
  have apart : ∀ n ∈ List.range' 9 5 ++ List.range' 28 5 ++ List.range' 8192 11 ++
      [133, 160, 5760, 8232, 8233, 8239, 8287, 12288], isWord (Char.ofNat n) = false := by
    decide +kernel
  rw [← Char.ofNat_toNat c]
  refine apart c.toNat ?_
  simp [isBlank] at h
  simp [List.mem_range'_1]
  omega

/-- The first character of a name is no blank. -/
theorem exists_not_blank_of_nameLength (h : nameLength text ≠ 0) : ∃ c ∈ text, isBlank c = false := by
  cases text with
  | nil => exact absurd rfl h
  | cons c rest =>
    refine ⟨c, by simp, ?_⟩
    cases hblank : isBlank c with
    | false => rfl
    | true =>
      have wordless : isNameStart c = false := by rw [isNameStart, isWord_of_isBlank hblank]; rfl
      exact absurd (by simp [nameLength, wordless]) h

/-- A text of blanks has no words. -/
theorem words?_of_blank (text : List Char) (h : ∀ c ∈ text, isBlank c = true) :
    words? text = some [] := by
  induction text using front_induction with
  | nil => rfl
  | number t rest n unsigned ends _ =>
    obtain ⟨c, others, rfl⟩ := List.exists_cons_of_ne_nil unsigned.ne_nil
    have unblank := unsigned.isBlank_of_mem (c := c) (by simp)
    rw [h c (by simp)] at unblank
    cases unblank
  | name text numberless hname _ =>
    obtain ⟨c, inside, unblank⟩ := exists_not_blank_of_nameLength hname
    rw [h c inside] at unblank
    cases unblank
  | other c rest numberless hname ih =>
    rw [words?_blank numberless hname (h c (by simp))]
    exact ih fun d hd => h d (by simp [hd])

/-! ### The tokens of words -/

/-- The tokens that a word becomes when names give way to numbers. -/
def Lexeme.expanded (valueOf : String → Number) : Lexeme → List TokenKind
  | .number n => [.number n]
  | .name s => (kinds? (valueOf s).rendered).getD []
  | .operator o => [.operator o]
  | .opener => [.opener]
  | .closer => [.closer]

/-- The tokens that words become. -/
def expandedWords (valueOf : String → Number) (words : List Lexeme) : List TokenKind :=
  words.flatMap (Lexeme.expanded valueOf)

theorem expanded_lexeme (valueOf : String → Number) (kind : TokenKind) :
    kind.lexeme.expanded valueOf = [kind] := by
  cases kind <;> rfl

theorem IsOperand.kinds?_eq {kinds : List TokenKind} {e : Expression} {d : Nat}
    (h : IsOperand t kinds e d) : kinds? t = some kinds := by
  simpa [kinds?_nil] using h.tokens [] (by simp [Closed])

/-- **The tokens of a text whose names are replaced** are those that its words become. -/
theorem kinds?_substitute (valueOf : String → Number) (text : List Char) :
    kinds? (substitute valueOf text) = (words? text).map (expandedWords valueOf) := by
  induction text using front_induction with
  | nil => rfl
  | number t rest n unsigned ends ih =>
    have ends' : Ends t (substitute valueOf rest) := by
      intro c hc
      obtain rfl | same := head?_substitute valueOf rest c hc
      · exact ⟨by decide, .inr (by decide)⟩
      · exact ends c same
    rw [substitute_number unsigned ends, kinds?_number unsigned ends', ih,
      words?_number unsigned ends]
    cases words? rest <;> rfl
  | name text numberless hname ih =>
    obtain ⟨kinds, e, d, operand, -⟩ :=
      (valueOf (String.ofList (text.take (nameLength text)))).isOperand_rendered
    have closed : Closed (' ' :: substitute valueOf (text.drop (nameLength text))) := by
      simp [Closed]
    rw [substitute_name numberless hname, kinds?_blank (by decide), operand.tokens _ closed,
      kinds?_blank (by decide), ih, words?_name numberless hname]
    cases words? (text.drop (nameLength text)) with
    | none => rfl
    | some words => simp [expandedWords, Lexeme.expanded, operand.kinds?_eq]
  | other c rest numberless hname ih =>
    rw [substitute_other numberless hname]
    by_cases hblank : isBlank c = true
    · rw [kinds?_blank hblank, ih, words?_blank numberless hname hblank]
    · have hblank : isBlank c = false := by simpa using hblank
      have numberless' : Numberless (c :: substitute valueOf rest) := by
        refine ⟨by simpa using numberless.1, ?_⟩
        rintro others equal d hd
        obtain ⟨rfl, rfl⟩ := List.cons.inj equal
        obtain rfl | same := head?_substitute valueOf rest d hd
        · decide
        · exact numberless.2 rest rfl d same
      rw [kinds?_symbol hblank numberless', ih, words?_symbol numberless hname hblank]
      cases symbolKind? c with
      | none => rfl
      | some kind =>
        cases words? rest with
        | none => rfl
        | some words => simp [expandedWords, expanded_lexeme]

end PatchScript
