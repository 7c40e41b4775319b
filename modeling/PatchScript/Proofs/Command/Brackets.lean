import PatchScript.Command.Arguments
import Mathlib.Data.List.Basic

/-!
# Balanced text

The readers of calls look for the end of a bracket and for bare separators, and they keep count of
quotes and brackets on the way. Text in which every quote and every bracket is closed again takes
them from where they stand back to where they stood. So what stands between two brackets is passed
over as a whole, whatever quotes, brackets and separators it is made of.

## Main definitions

* `Quotable` — text that may stand between two quotes
* `Balanced` — text in which everything is closed again
* `Nesting.Clear` — text in which no bare character separates

## Main results

* `closing?_bracketed` — where a bracket around balanced text ends
* `closingFrom_cons`, `closingFrom_front` — one step of the search, and what it reads
* `Nesting.run_balanced` — balanced text leaves the position as it is
* `Nesting.Clear.bracketed`, `Nesting.Clear.quoted` — text in brackets and in quotes is clear
* `Nesting.cut_clear`, `Nesting.cutComment_clear` — no piece ends in clear text, and no comment
  begins there
-/

namespace PatchScript

variable {quote opener c : Char} {text content inner rest : List Char}

/-! ### Characters -/

/-- Whether the character is neither a quote nor a bracket. -/
def isOrdinary (c : Char) : Bool := !isQuote c && !isOpener c && !isCloser c

theorem isOrdinary_iff :
    isOrdinary c = true ↔ isQuote c = false ∧ isOpener c = false ∧ isCloser c = false := by
  simp [isOrdinary, and_assoc]

/-- The quotes and the brackets. -/
def marks : List Char := ['"', '\'', '(', '[', '\x7b', ')', ']', '\x7d']

/-- A character with a property that no quote and no bracket has is ordinary. -/
theorem isOrdinary_of_not_marks {p : Char → Bool} (h : marks.any p = false) (hc : p c = true) :
    isOrdinary c = true := by
  by_contra marked
  refine List.any_eq_false.1 h c ?_ hc
  simp only [isOrdinary, isQuote, isOpener, isCloser, Bool.and_eq_true, Bool.not_eq_true',
    Bool.or_eq_false_iff, beq_eq_false_iff_ne] at marked
  simp only [marks, List.mem_cons, List.not_mem_nil, or_false]
  tauto

theorem ne_backslash_of_isQuote (h : isQuote quote = true) : quote ≠ '\\' := by
  rintro rfl
  cases h

theorem isOpener_iff : isOpener opener = true ↔ opener = '(' ∨ opener = '[' ∨ opener = '\x7b' := by
  simp [isOpener, or_assoc]

theorem isQuote_opener (h : isOpener opener = true) : isQuote opener = false := by
  rcases isOpener_iff.1 h with rfl | rfl | rfl <;> rfl

/-- The closing bracket of an opening one is one. -/
theorem closerOf_opener (h : isOpener opener = true) :
    isQuote (closerOf opener) = false ∧ isOpener (closerOf opener) = false ∧
      isCloser (closerOf opener) = true := by
  rcases isOpener_iff.1 h with rfl | rfl | rfl <;> exact ⟨rfl, rfl, rfl⟩

/-! ### Balanced text -/

/-- Text that may stand between two quotes: every quote of that kind is hidden by a backslash, and
no backslash is left over at the end. -/
inductive Quotable (quote : Char) : List Char → Prop
  | nil : Quotable quote []
  | char {c : Char} {rest : List Char} (other : c ≠ quote) (bare : c ≠ '\\')
      (quotable : Quotable quote rest) : Quotable quote (c :: rest)
  | escape {rest : List Char} (c : Char) (quotable : Quotable quote rest) :
      Quotable quote ('\\' :: c :: rest)

/-- Text in which every quote is closed by its like, and every bracket by its counterpart. -/
inductive Balanced : List Char → Prop
  | nil : Balanced []
  | ordinary {c : Char} {rest : List Char} (plain : isOrdinary c = true) (after : Balanced rest) :
      Balanced (c :: rest)
  | quoted {quote : Char} {content rest : List Char} (isQuote : isQuote quote = true)
      (quotable : Quotable quote content) (after : Balanced rest) :
      Balanced (quote :: (content ++ quote :: rest))
  | bracketed {opener : Char} {inner rest : List Char} (isOpener : isOpener opener = true)
      (inside : Balanced inner) (after : Balanced rest) :
      Balanced (opener :: (inner ++ closerOf opener :: rest))

namespace Balanced

theorem append {more : List Char} (h : Balanced text) (hmore : Balanced more) :
    Balanced (text ++ more) := by
  induction h with
  | nil => exact hmore
  | ordinary plain _ ih => exact .ordinary plain ih
  | quoted isQuote quotable _ ih =>
    rw [List.cons_append, List.append_assoc, List.cons_append]
    exact .quoted isQuote quotable ih
  | bracketed isOpener inside _ _ ih =>
    rw [List.cons_append, List.append_assoc, List.cons_append]
    exact .bracketed isOpener inside ih

theorem of_ordinary (h : ∀ c ∈ text, isOrdinary c = true) : Balanced text := by
  induction text with
  | nil => exact .nil
  | cons c rest ih => exact .ordinary (h c (by simp)) (ih fun d hd => h d (by simp [hd]))

end Balanced

/-- Balanced text in square brackets or braces. -/
def IsBracketed (text : List Char) : Prop :=
  ∃ opener inner, (opener = '[' ∨ opener = '\x7b') ∧ Balanced inner ∧
    text = opener :: (inner ++ [closerOf opener])

theorem isOpener_of_bracket (h : opener = '[' ∨ opener = '\x7b') : isOpener opener = true := by
  rcases h with rfl | rfl <;> rfl

theorem IsBracketed.ne_nil (h : IsBracketed text) : text ≠ [] := by
  obtain ⟨opener, inner, -, -, rfl⟩ := h
  exact List.cons_ne_nil _ _

theorem IsBracketed.balanced (h : IsBracketed text) : Balanced text := by
  obtain ⟨opener, inner, bracket, inside, rfl⟩ := h
  exact .bracketed (isOpener_of_bracket bracket) inside .nil

/-! ### The end of a bracket -/

/-- Behind a quote, text that does not close it is passed over. -/
theorem closingFrom_within (hq : isQuote quote = true) (h : Quotable quote content)
    (stack rest : List Char) :
    closingFrom stack (some quote) false (content ++ rest) =
      (closingFrom stack (some quote) false rest).map (· + content.length) := by
  have hb := ne_backslash_of_isQuote hq
  induction h with
  | nil => simp
  | char other bare _ ih =>
    simp [closingFrom, other, beq_eq_false_iff_ne.2 bare, ih, Function.comp_def, Nat.add_assoc]
  | escape c _ ih =>
    simp [closingFrom, hb.symm, ih, Function.comp_def, Nat.add_assoc]

theorem closingFrom_quotable (hq : isQuote quote = true) (h : Quotable quote content)
    (stack rest : List Char) :
    closingFrom stack (some quote) false (content ++ quote :: rest) =
      (closingFrom stack none false rest).map (· + (content.length + 1)) := by
  rw [closingFrom_within hq h]
  simp [closingFrom, beq_eq_false_iff_ne.2 (ne_backslash_of_isQuote hq), Function.comp_def,
    Nat.add_comm, Nat.add_left_comm]

/-- Inside brackets, balanced text is passed over. -/
theorem closingFrom_balanced (h : Balanced text) {stack : List Char} (inside : stack ≠ [])
    (rest : List Char) :
    closingFrom stack none false (text ++ rest) =
      (closingFrom stack none false rest).map (· + text.length) := by
  induction h generalizing stack rest with
  | nil => simp
  | ordinary plain _ ih =>
    obtain ⟨notQuote, notOpener, notCloser⟩ := isOrdinary_iff.1 plain
    simp [closingFrom, notQuote, notOpener, notCloser, ih inside, Function.comp_def, Nat.add_assoc]
  | quoted isQuote quotable _ ih =>
    simp [closingFrom, isQuote, closingFrom_quotable isQuote quotable, ih inside,
      Function.comp_def, Nat.add_assoc, Nat.add_comm, Nat.add_left_comm]
  | @bracketed opener inner after isOpener _ _ ihInner ih =>
    obtain ⟨notQuote, notOpener, isCloser⟩ := closerOf_opener isOpener
    -- the bracket goes on the stack, and after the text in it the stack is what it was
    have opened := ihInner (List.cons_ne_nil (closerOf opener) stack)
      (closerOf opener :: (after ++ rest))
    have back : closingFrom (closerOf opener :: stack) none false
        (closerOf opener :: (after ++ rest)) =
          (closingFrom stack none false (after ++ rest)).map (· + 1) := by
      simp [closingFrom, notQuote, notOpener, isCloser, inside]
    rw [back, ih inside] at opened
    simp [closingFrom, isQuote_opener isOpener, isOpener, opened, Function.comp_def,
      Nat.add_assoc, Nat.add_comm, Nat.add_left_comm]

/-- A bracket around balanced text ends behind it. -/
theorem closing?_bracketed (isOpener : isOpener opener = true) (h : Balanced inner)
    (rest : List Char) :
    closing? (opener :: (inner ++ closerOf opener :: rest)) = some (inner.length + 2) := by
  obtain ⟨notQuote, notOpener, isCloser⟩ := closerOf_opener isOpener
  have ends : closingFrom [closerOf opener] none false (closerOf opener :: rest) = some 1 := by
    simp [closingFrom, notQuote, notOpener, isCloser]
  have passed := closingFrom_balanced h (List.cons_ne_nil (closerOf opener) [])
    (closerOf opener :: rest)
  rw [ends] at passed
  simp [closing?, closingFrom, isQuote_opener isOpener, isOpener, passed]
  omega

/-! ### The search for the closing bracket -/

section

variable {stack : List Char} {quote : Option Char} {escaped : Bool}

/-- What a character does to the search for the closing bracket: the search goes on, fails, or ends
with that character. -/
theorem closingFrom_cons (stack : List Char) (escaped : Bool)
    (isQuote : ∀ q ∈ quote, isQuote q = true) (c : Char) :
    (∃ stack' quote' escaped', (∀ q ∈ quote', PatchScript.isQuote q = true) ∧
        (escaped' = true → c = '\\') ∧
        ∀ rest, closingFrom stack quote escaped (c :: rest) =
          (closingFrom stack' quote' escaped' rest).map (· + 1)) ∨
      (∀ rest, closingFrom stack quote escaped (c :: rest) = none) ∨
      ∀ rest, closingFrom stack quote escaped (c :: rest) = some 1 := by
  cases quote with
  | some q =>
    refine .inl ⟨stack, if !escaped && c == q then none else some q, !escaped && c == '\\', ?_, ?_,
      fun rest => rfl⟩
    · split
      · simp
      · exact isQuote
    · simp
  | none =>
    simp only [closingFrom]
    split_ifs with hq ho hc
    · exact .inl ⟨stack, some c, false, by simpa using hq, by simp, fun _ => rfl⟩
    · exact .inl ⟨closerOf c :: stack, none, false, by simp, by simp, fun _ => rfl⟩
    · cases stack with
      | nil => exact .inr (.inl fun _ => rfl)
      | cons expected others =>
        simp only
        split_ifs
        · exact .inr (.inl fun _ => rfl)
        · exact .inr (.inr fun _ => rfl)
        · exact .inl ⟨others, none, false, by simp, by simp, fun _ => rfl⟩
    · exact .inl ⟨stack, none, false, by simp, by simp, fun _ => rfl⟩

/-- Where the bracket is closed does not hang on what follows. -/
theorem closingFrom_front {n : Nat} (isQuote : ∀ q ∈ quote, isQuote q = true)
    (h : closingFrom stack quote escaped text = some n) (more : List Char) :
    closingFrom stack quote escaped (text.take n ++ more) = some n := by
  induction text generalizing stack quote escaped n with
  | nil => cases h
  | cons c rest ih =>
    obtain ⟨stack', quote', escaped', isQuote', -, further⟩ | fails | ends :=
      closingFrom_cons stack escaped isQuote c
    · rw [further, Option.map_eq_some_iff] at h
      obtain ⟨m, found, rfl⟩ := h
      rw [List.take_succ_cons, List.cons_append, further, ih isQuote' found]
      rfl
    · rw [fails] at h
      cases h
    · obtain rfl := Option.some.inj ((ends rest).symm.trans h)
      exact ends _

/-- A bracket is closed by a character of the text. -/
theorem closingFrom_bounds {n : Nat} (isQuote : ∀ q ∈ quote, isQuote q = true)
    (h : closingFrom stack quote escaped text = some n) : 0 < n ∧ n ≤ text.length := by
  induction text generalizing stack quote escaped n with
  | nil => cases h
  | cons c rest ih =>
    obtain ⟨stack', quote', escaped', isQuote', -, further⟩ | fails | ends :=
      closingFrom_cons stack escaped isQuote c
    · rw [further, Option.map_eq_some_iff] at h
      obtain ⟨m, found, rfl⟩ := h
      exact ⟨m.succ_pos, Nat.succ_le_succ (ih isQuote' found).2⟩
    · rw [fails] at h
      cases h
    · obtain rfl := Option.some.inj ((ends rest).symm.trans h)
      exact ⟨Nat.one_pos, Nat.succ_le_succ rest.length.zero_le⟩

/-- A line feed does nothing. -/
theorem closingFrom_lineFeed (isQuote : ∀ q ∈ quote, isQuote q = true) (rest : List Char) :
    closingFrom stack quote false ('\n' :: rest) =
      (closingFrom stack quote false rest).map (· + 1) := by
  cases quote with
  | none => simp [closingFrom, PatchScript.isQuote, isOpener, isCloser]
  | some q =>
    have other : ('\n' == q) = false := by
      rw [beq_eq_false_iff_ne]
      rintro rfl
      exact absurd (isQuote _ rfl) (by decide)
    simp [closingFrom, other]

end

/-! ### Positions -/

namespace Nesting

variable {separates : Char → Bool} {s : Nesting}

theorem step_ordinary (h : isOrdinary c = true) (d : Nat) :
    step { depth := d } c = { depth := d } := by
  obtain ⟨notQuote, notOpener, notCloser⟩ := isOrdinary_iff.1 h
  simp [step, notQuote, notOpener, notCloser]

theorem step_quote (h : isQuote quote = true) (d : Nat) :
    step { depth := d } quote = { quote := some quote, depth := d } := by
  simp [step, h]

theorem step_opener (h : isOpener opener = true) (d : Nat) :
    step { depth := d } opener = { depth := d + 1 } := by
  simp [step, isQuote_opener h, h]

theorem step_closer (h : isOpener opener = true) (d : Nat) :
    step { depth := d + 1 } (closerOf opener) = { depth := d } := by
  obtain ⟨notQuote, notOpener, isCloser⟩ := closerOf_opener h
  simp [step, notQuote, notOpener, isCloser]

theorem run_append (s : Nesting) (front back : List Char) :
    s.run (front ++ back) = (s.run front).run back := List.foldl_append

/-- Behind a quote, text that does not close it leaves the position as it is. -/
theorem run_within (h : Quotable quote content) (d : Nat) :
    run { quote := some quote, depth := d } content = { quote := some quote, depth := d } := by
  induction h with
  | nil => rfl
  | char other bare _ ih => simpa [run, step, other, bare] using ih
  | escape c _ ih => simpa [run, step] using ih

theorem run_quotable (hq : isQuote quote = true) (h : Quotable quote content) (d : Nat) :
    run { quote := some quote, depth := d } (content ++ [quote]) = { depth := d } := by
  rw [run_append, run_within h]
  simp [run, step, ne_backslash_of_isQuote hq]

/-- Balanced text leaves the position as it is. -/
theorem run_balanced (h : Balanced text) (d : Nat) : run { depth := d } text = { depth := d } := by
  induction h generalizing d with
  | nil => rfl
  | ordinary plain _ ih =>
    rw [run, List.foldl_cons, step_ordinary plain]
    exact ih d
  | @quoted quote content rest isQuote quotable _ ih =>
    have passed := run_quotable isQuote quotable d
    rw [run, List.foldl_cons, step_quote isQuote, ← run, List.append_cons, run_append,
      passed, ih]
  | @bracketed opener inner rest isOpener _ _ ihInner ih =>
    rw [run, List.foldl_cons, step_opener isOpener, ← run, run_append, ihInner, run,
      List.foldl_cons, step_closer isOpener]
    exact ih d

/-! ### Clear text -/

/-- No character of the text, read from a position, is bare and separates. -/
def Clear (separates : Char → Bool) : Nesting → List Char → Prop
  | _, [] => True
  | s, c :: rest => (s.isBare c && separates c) = false ∧ Clear separates (s.step c) rest

namespace Clear

theorem append {front back : List Char} (h : Clear separates s front)
    (hback : Clear separates (s.run front) back) : Clear separates s (front ++ back) := by
  induction front generalizing s with
  | nil => exact hback
  | cons c front ih => exact ⟨h.1, ih h.2 hback⟩

/-- Characters that do not separate. -/
theorem of_not_separates (h : ∀ c ∈ text, separates c = false) : Clear separates s text := by
  induction text generalizing s with
  | nil => trivial
  | cons c rest ih =>
    exact ⟨by simp [h c (List.mem_cons_self ..)], ih fun d hd => h d (List.mem_cons_of_mem c hd)⟩

/-- Quoted text. -/
theorem quotable (h : Quotable quote content) (d : Nat) :
    Clear separates { quote := some quote, depth := d } content := by
  induction h with
  | nil => trivial
  | char other bare _ ih =>
    refine ⟨by simp [isBare], ?_⟩
    simpa [step, other, bare] using ih
  | escape c _ ih =>
    refine ⟨by simp [isBare], by simp [isBare, step], ?_⟩
    simpa [step] using ih

/-- A quote, quoted text, and the quote again. -/
theorem quoted (hq : isQuote quote = true) (h : Quotable quote content) (d : Nat) :
    Clear separates { depth := d } (quote :: (content ++ [quote])) := by
  refine ⟨by simp [isBare, hq], ?_⟩
  rw [step_quote hq]
  exact (quotable h d).append ⟨by simp [isBare, hq], trivial⟩

/-- A bracket, clear text that is balanced, and the closing bracket. -/
theorem enclosed (isOpener : isOpener opener = true) (inside : Balanced inner) {d : Nat}
    (h : Clear separates { depth := d + 1 } inner) :
    Clear separates { depth := d } (opener :: (inner ++ [closerOf opener])) := by
  obtain ⟨-, -, isCloser⟩ := closerOf_opener isOpener
  refine ⟨by simp [isBare, isOpener], ?_⟩
  rw [step_opener isOpener]
  refine h.append ?_
  rw [run_balanced inside]
  exact ⟨by simp [isBare, isCloser], trivial⟩

/-- Balanced text inside brackets. -/
theorem balanced (h : Balanced text) (d : Nat) : Clear separates { depth := d + 1 } text := by
  induction h generalizing d with
  | nil => trivial
  | ordinary plain _ ih =>
    refine ⟨by simp [isBare], ?_⟩
    rw [step_ordinary plain]
    exact ih d
  | @quoted quote content rest isQuote quotable _ ih =>
    have closed : Balanced (quote :: (content ++ [quote])) := .quoted isQuote quotable .nil
    have whole : Clear separates { depth := d + 1 } ((quote :: (content ++ [quote])) ++ rest) :=
      (quoted isQuote quotable (d + 1)).append (by rw [run_balanced closed]; exact ih d)
    simpa using whole
  | @bracketed opener inner rest isOpener inside _ ihInner ih =>
    have closed : Balanced (opener :: (inner ++ [closerOf opener])) :=
      .bracketed isOpener inside .nil
    have whole : Clear separates { depth := d + 1 }
        ((opener :: (inner ++ [closerOf opener])) ++ rest) :=
      (enclosed isOpener inside (ihInner (d + 1))).append (by rw [run_balanced closed]; exact ih d)
    simpa using whole

/-- Text in square brackets or braces. -/
theorem bracketed (h : IsBracketed text) : Clear separates outside text := by
  obtain ⟨opener, inner, bracket, inside, rfl⟩ := h
  exact enclosed (isOpener_of_bracket bracket) inside (balanced inside 0)

end Clear

/-! ### Pieces -/

/-- Puts a text in front of the first of some pieces. -/
def glue (text : List Char) (pieces : List (List Char)) : List (List Char) :=
  text.foldr consPiece pieces

theorem glue_piece (text piece : List Char) (others : List (List Char)) :
    glue text (piece :: others) = (text ++ piece) :: others := by
  induction text with
  | nil => rfl
  | cons c text ih =>
    show consPiece c (glue text (piece :: others)) = _
    rw [ih, consPiece, List.cons_append]

/-- No piece ends in clear text. -/
theorem cut_clear (h : Clear separates s text) (rest : List Char) :
    cut separates s (text ++ rest) = glue text (cut separates (s.run text) rest) := by
  induction text generalizing s with
  | nil => rfl
  | cons c text ih =>
    rw [List.cons_append, cut, h.1, if_neg Bool.false_ne_true, ih h.2]
    rfl

/-- No comment begins in clear text. -/
theorem cutComment_clear (h : Clear (· == '#') s text) (afterBlank : Bool) :
    cutComment s afterBlank text = (text, none) := by
  induction text generalizing s afterBlank with
  | nil => rfl
  | cons c text ih =>
    rw [cutComment, h.1, Bool.false_and, if_neg Bool.false_ne_true, ih h.2]

end Nesting

end PatchScript
