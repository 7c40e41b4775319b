import PatchScript.Proofs.Command.Joining

/-!
# The closing bracket

Two readers pass over the same text. One looks for the bracket that closes the first one, and keeps
the closing brackets that it awaits; the other cuts what stands between the two at bare commas, and
counts open brackets whatever their kind. Here both are compared with the nesting of quotes and
brackets itself. From an opening bracket on, a text either holds balanced text and then the closing
bracket, or a wrong closing bracket comes first, or the text ends before. And where the bracket is
closed, the two readers agree at every place in between.

## Main definitions

* `Awaits` — texts after which certain closing brackets are awaited
* `Encloses`, `Mismatched`, `Unfinished` — what can become of an opening bracket
* `CutAtCommas` — the pieces of a text between its bare commas

## Main results

* `encloses_or` — one of the three becomes of every opening bracket
* `Awaits.closing?_eq` — the search goes on behind such a text
* `balanced_front_iff` — where the two readers agree
* `closing?_exact` — the search finds the closing bracket, and arguments are cut where they are due
-/

namespace PatchScript

open Text

variable {opener quote c : Char} {awaited text content inner front back rest : List Char}

/-! ### What becomes of an opening bracket -/

/-- Texts from an opening bracket on, after which closing brackets are awaited, the innermost
first. -/
inductive Awaits (opener : Char) : List Char → List Char → Prop
  | outer {inner : List Char} (inside : Balanced inner) :
      Awaits opener [closerOf opener] (opener :: inner)
  | nested {awaited text inner : List Char} {next : Char} (outside : Awaits opener awaited text)
      (isOpener : isOpener next = true) (inside : Balanced inner) :
      Awaits opener (closerOf next :: awaited) (text ++ next :: inner)

/-- Text behind a quote that is not closed in it; a backslash may stand last. -/
def StaysQuoted (quote : Char) (content : List Char) : Prop :=
  Quotable quote content ∨ ∃ body, Quotable quote body ∧ content = body ++ ['\\']

/-- The bracket is closed: balanced text follows it, and then its counterpart. -/
def Encloses (opener : Char) (text : List Char) : Prop :=
  ∃ inner behind, Balanced inner ∧ text = opener :: (inner ++ closerOf opener :: behind)

/-- A closing bracket comes that is not the one awaited. -/
def Mismatched (opener : Char) (text : List Char) : Prop :=
  ∃ front expected awaited c behind, Awaits opener (expected :: awaited) front ∧
    isCloser c = true ∧ c ≠ expected ∧ text = front ++ c :: behind

/-- The text ends while closing brackets are awaited, and maybe within quotes. -/
def Unfinished (opener : Char) (text : List Char) : Prop :=
  ∃ front awaited, Awaits opener awaited front ∧
    (text = front ∨ ∃ quote content, isQuote quote = true ∧ StaysQuoted quote content ∧
      text = front ++ quote :: content)

theorem Quotable.append {more : List Char} (h : Quotable quote content)
    (hmore : Quotable quote more) : Quotable quote (content ++ more) := by
  induction h with
  | nil => exact hmore
  | char other bare _ ih => exact .char other bare ih
  | escape c _ ih => exact .escape c ih

/-- A quote is still open after one more character, unless it is closed by it. -/
theorem StaysQuoted.snoc (h : StaysQuoted quote content) (c : Char) :
    StaysQuoted quote (content ++ [c]) ∨ (Quotable quote content ∧ c = quote) := by
  rcases h with quotable | ⟨body, quotable, rfl⟩
  · by_cases closes : c = quote
    · exact .inr ⟨quotable, closes⟩
    by_cases backslash : c = '\\'
    · exact .inl (.inr ⟨content, quotable, by rw [backslash]⟩)
    · exact .inl (.inl (quotable.append (.char closes backslash .nil)))
  · refine .inl (.inl ?_)
    rw [List.append_assoc]
    exact quotable.append (.escape c .nil)

namespace Awaits

theorem append {more : List Char} (h : Awaits opener awaited text) (hmore : Balanced more) :
    Awaits opener awaited (text ++ more) := by
  cases h with
  | outer inside => exact .outer (inside.append hmore)
  | nested outside isOpener inside =>
    rw [List.append_assoc, List.cons_append]
    exact .nested outside isOpener (inside.append hmore)

/-- The innermost bracket is the first one, or the others are still open when it is closed. -/
theorem close {expected : Char} (h : Awaits opener (expected :: awaited) text) :
    Encloses opener (text ++ [expected]) ∨ Awaits opener awaited (text ++ [expected]) := by
  cases h with
  | @outer inner inside => exact .inl ⟨inner, [], inside, by simp⟩
  | nested outside isOpener inside =>
    refine .inr ?_
    rw [List.append_assoc, List.cons_append]
    exact outside.append (.bracketed isOpener inside .nil)

/-- Where one closing bracket is awaited, the text behind the first bracket is balanced. -/
theorem balanced_of_length {inside : List Char} (h : Awaits opener awaited (opener :: inside))
    (one : awaited.length = 1) : Balanced inside := by
  generalize whole : opener :: inside = text at h
  cases h with
  | outer balanced => exact (List.cons.inj whole).2 ▸ balanced
  | nested outside =>
    cases outside <;> simp at one

theorem exists_cons (h : Awaits opener awaited text) :
    ∃ expected others, awaited = expected :: others := by
  cases h <;> exact ⟨_, _, rfl⟩

end Awaits

theorem Encloses.append (h : Encloses opener text) (more : List Char) :
    Encloses opener (text ++ more) := by
  obtain ⟨inner, behind, inside, rfl⟩ := h
  exact ⟨inner, behind ++ more, inside, by simp⟩

theorem Mismatched.append (h : Mismatched opener text) (more : List Char) :
    Mismatched opener (text ++ more) := by
  obtain ⟨front, expected, awaited, c, behind, awaits, isCloser, wrong, rfl⟩ := h
  exact ⟨front, expected, awaited, c, behind ++ more, awaits, isCloser, wrong, by simp⟩

/-- One more character behind a text that awaits closing brackets. -/
theorem Awaits.snoc (h : Awaits opener awaited text) (c : Char) :
    Encloses opener (text ++ [c]) ∨ Mismatched opener (text ++ [c]) ∨
      Unfinished opener (text ++ [c]) := by
  by_cases quoted : isQuote c = true
  · exact .inr (.inr ⟨text, awaited, h, .inr ⟨c, [], quoted, .inl .nil, rfl⟩⟩)
  by_cases opens : isOpener c = true
  · exact .inr (.inr ⟨_, _, h.nested opens .nil, .inl rfl⟩)
  by_cases closes : isCloser c = true
  · obtain ⟨expected, others, rfl⟩ := h.exists_cons
    by_cases same : c = expected
    · subst same
      exact h.close.imp id fun awaits => .inr ⟨_, _, awaits, .inl rfl⟩
    · exact .inr (.inl ⟨text, expected, others, c, [], h, closes, same, rfl⟩)
  · have ordinary : isOrdinary c = true := by simp [isOrdinary, quoted, opens, closes]
    exact .inr (.inr ⟨_, _, h.append (.ordinary ordinary .nil), .inl rfl⟩)

/-- **What becomes of an opening bracket**: it is closed, or a wrong closing bracket comes first, or
the text ends before. -/
theorem encloses_or (opener : Char) (rest : List Char) :
    Encloses opener (opener :: rest) ∨ Mismatched opener (opener :: rest) ∨
      Unfinished opener (opener :: rest) := by
  induction rest using List.reverseRecOn with
  | nil => exact .inr (.inr ⟨_, _, .outer .nil, .inl rfl⟩)
  | append_singleton rest c ih =>
    rw [← List.cons_append]
    obtain closed | wrong | ⟨front, awaited, awaits, ended⟩ := ih
    · exact .inl (closed.append [c])
    · exact .inr (.inl (wrong.append [c]))
    · obtain whole | ⟨quote, content, isQuote, quoted, whole⟩ := ended
      · rw [whole]
        exact awaits.snoc c
      · rw [whole, List.append_assoc, List.cons_append]
        obtain stays | ⟨quotable, rfl⟩ := quoted.snoc c
        · exact .inr (.inr ⟨front, awaited, awaits, .inr ⟨quote, _, isQuote, stays, rfl⟩⟩)
        · exact .inr (.inr ⟨_, _, awaits.append (.quoted isQuote quotable .nil), .inl rfl⟩)

/-! ### The search for the closing bracket -/

/-- The search does not come out of quotes that are not closed. -/
theorem closingFrom_staysQuoted (isQuote : isQuote quote = true)
    (h : StaysQuoted quote content) (stack : List Char) :
    closingFrom stack (some quote) false content = none := by
  rcases h with quotable | ⟨body, quotable, rfl⟩
  · have whole := closingFrom_within isQuote quotable stack []
    rwa [List.append_nil] at whole
  · rw [closingFrom_within isQuote quotable]
    simp [closingFrom]

/-- Behind a text that awaits closing brackets the search goes on with them. -/
theorem Awaits.closing?_eq (h : Awaits opener awaited text) (isOpener : isOpener opener = true)
    (rest : List Char) :
    closing? (text ++ rest) = (closingFrom awaited none false rest).map (· + text.length) := by
  induction h generalizing rest with
  | outer inside =>
    simp [closing?, closingFrom, isQuote_opener isOpener, isOpener,
      closingFrom_balanced inside (List.cons_ne_nil _ _), Function.comp_def, Nat.add_assoc]
  | @nested awaited text inner next _ opens inside ih =>
    rw [List.append_assoc, ih]
    simp [closingFrom, isQuote_opener opens, opens,
      closingFrom_balanced inside (List.cons_ne_nil _ _), Function.comp_def, Nat.add_assoc,
      Nat.add_comm, Nat.add_left_comm]

theorem Mismatched.closing?_eq (h : Mismatched opener text) (isOpener : isOpener opener = true) :
    closing? text = none := by
  obtain ⟨front, expected, awaited, c, behind, awaits, closes, wrong, rfl⟩ := h
  have marks : isQuote c = false ∧ PatchScript.isOpener c = false := by
    simp only [isCloser, Bool.or_eq_true, beq_iff_eq] at closes
    rcases closes with (rfl | rfl) | rfl <;> exact ⟨rfl, rfl⟩
  rw [awaits.closing?_eq isOpener]
  simp [closingFrom, marks, closes, wrong.symm]

theorem Unfinished.closing?_eq (h : Unfinished opener text) (isOpener : isOpener opener = true) :
    closing? text = none := by
  obtain ⟨front, awaited, awaits, rfl | ⟨quote, content, isQuote, quoted, rfl⟩⟩ := h
  · have whole := awaits.closing?_eq isOpener []
    rwa [List.append_nil] at whole
  · rw [awaits.closing?_eq isOpener]
    simp [closingFrom, isQuote, closingFrom_staysQuoted isQuote quoted]

/-- The search finds the closing bracket behind balanced text. -/
theorem closing?_eq_some_iff (isOpener : isOpener opener = true) {n : Nat} :
    closing? (opener :: rest) = some n ↔
      ∃ inner behind, Balanced inner ∧ rest = inner ++ closerOf opener :: behind ∧
        n = inner.length + 2 := by
  constructor
  · intro found
    obtain ⟨inner, behind, inside, whole⟩ | wrong | ended := encloses_or opener rest
    · obtain rfl := (List.cons.inj whole).2
      have same := closing?_bracketed isOpener inside behind
      exact ⟨inner, behind, inside, rfl, Option.some.inj (found.symm.trans same)⟩
    · cases (wrong.closing?_eq isOpener).symm.trans found
    · cases (ended.closing?_eq isOpener).symm.trans found
  · rintro ⟨inner, behind, inside, rfl, rfl⟩
    exact closing?_bracketed isOpener inside behind

/-- The search fails where a wrong closing bracket comes first, and where the text ends. -/
theorem closing?_eq_none_iff (isOpener : isOpener opener = true) :
    closing? (opener :: rest) = none ↔
      Mismatched opener (opener :: rest) ∨ Unfinished opener (opener :: rest) := by
  constructor
  · intro failed
    refine (encloses_or opener rest).resolve_left ?_
    rintro ⟨inner, behind, inside, whole⟩
    rw [whole, closing?_bracketed isOpener inside] at failed
    cases failed
  · rintro (wrong | ended)
    · exact wrong.closing?_eq isOpener
    · exact ended.closing?_eq isOpener

/-! ### Where the readers agree -/

namespace Nesting

theorem run_staysQuoted (h : StaysQuoted quote content) (d : Nat) :
    (run { quote := some quote, depth := d } content).quote = some quote := by
  rcases h with quotable | ⟨body, quotable, rfl⟩
  · rw [run_within quotable]
  · rw [run_append, run_within quotable]
    rfl

end Nesting

/-- Behind the first bracket the other reader counts the brackets that are open inside it. -/
theorem Awaits.run_eq (h : Awaits opener awaited text) :
    ∃ inside, text = opener :: inside ∧
      Nesting.outside.run inside = { depth := awaited.length - 1 } := by
  induction h with
  | @outer inner inside => exact ⟨inner, rfl, Nesting.run_balanced inside 0⟩
  | @nested awaited text inner next outside opens inside ih =>
    obtain ⟨before, rfl, position⟩ := ih
    obtain ⟨expected, others, rfl⟩ := outside.exists_cons
    refine ⟨before ++ next :: inner, rfl, ?_⟩
    rw [Nesting.run_append, position, Nesting.run, List.foldl_cons, Nesting.step_opener opens,
      ← Nesting.run, Nesting.run_balanced inside]
    rfl

/-- **The readers agree**: in balanced text, the reader that only counts brackets is outside of
everything exactly behind the fronts that are balanced. -/
theorem balanced_front_iff (h : Balanced (front ++ c :: back)) (ordinary : isOrdinary c = true) :
    Balanced front ↔ (Nesting.outside.run front).isBare c = true := by
  obtain ⟨notQuote, notOpener, notCloser⟩ := isOrdinary_iff.1 ordinary
  constructor
  · intro balanced
    rw [Nesting.outside, Nesting.run_balanced balanced]
    simp [Nesting.isBare, notQuote, notOpener, notCloser]
  · intro bare
    -- a bracket around the whole text is closed behind it, and not in it
    have opens : isOpener '(' = true := rfl
    have closed := closing?_bracketed opens h []
    obtain ⟨inner, behind, inside, whole⟩ | wrong | ⟨text, awaited, awaits, ended⟩ :=
      encloses_or '(' front
    · obtain rfl := (List.cons.inj whole).2
      have sooner := closing?_bracketed opens inside (behind ++ c :: back ++ [closerOf '('])
      simp only [List.append_assoc, List.cons_append] at closed sooner
      rw [sooner] at closed
      simp at closed
    · have fails := (wrong.append (c :: back ++ [closerOf '('])).closing?_eq opens
      simp only [List.append_assoc, List.cons_append] at closed fails
      cases fails.symm.trans closed
    · obtain ⟨inside, rfl, position⟩ := awaits.run_eq
      rcases ended with whole | ⟨quote, content, isQuote, quoted, whole⟩
      · obtain rfl := (List.cons.inj whole).2
        obtain ⟨expected, others, rfl⟩ := awaits.exists_cons
        refine awaits.balanced_of_length ?_
        simpa [position, Nesting.isBare, notQuote, notOpener, notCloser] using bare
      · obtain rfl : front = inside ++ quote :: content := by simpa using whole
        rw [Nesting.run_append, position, Nesting.run, List.foldl_cons, Nesting.step_quote isQuote,
          ← Nesting.run, Nesting.isBare, Nesting.run_staysQuoted quoted] at bare
        simp at bare

/-! ### Pieces between commas -/

/-- The pieces of a text between the commas that stand in no quotes and in no bracket of the text. A
comma of balanced text stands so where the text in front of it is balanced. -/
structure CutAtCommas (text : List Char) (pieces : List (List Char)) : Prop where
  some_piece : pieces ≠ []
  joined : [','].intercalate pieces = text
  exact : ∀ front back, text = front ++ ',' :: back →
    (Balanced front ↔ ∃ before behind, before ≠ [] ∧ behind ≠ [] ∧ pieces = before ++ behind ∧
      front = [','].intercalate before ∧ back = [','].intercalate behind)

theorem intercalate_cons {separator : List Char} {pieces : List (List Char)} (h : pieces ≠ [])
    (piece : List Char) :
    separator.intercalate (piece :: pieces) =
      piece ++ (separator ++ separator.intercalate pieces) := by
  obtain ⟨next, others, rfl⟩ := List.exists_cons_of_ne_nil h
  simp [List.intercalate]

theorem intercalate_consPiece {separator : List Char} {pieces : List (List Char)} (h : pieces ≠ [])
    (c : Char) :
    separator.intercalate (Nesting.consPiece c pieces) = c :: separator.intercalate pieces := by
  obtain ⟨piece, others, rfl⟩ := List.exists_cons_of_ne_nil h
  cases others <;> simp [Nesting.consPiece, List.intercalate]

namespace Nesting

variable {s : Nesting}

/-- The pieces make up the text. -/
theorem intercalate_cut (c : Char) (s : Nesting) (text : List Char) :
    [c].intercalate (cut (· == c) s text) = text := by
  induction text generalizing s with
  | nil => rfl
  | cons d rest ih =>
    rw [cut]
    split
    · next divides =>
      obtain rfl : d = c := by simpa using (Bool.and_eq_true_iff.1 divides).2
      rw [intercalate_cons (cut_ne_nil _ _ _), ih]
      rfl
    · rw [intercalate_consPiece (cut_ne_nil _ _ _), ih]

/-- Between two pieces stands a bare separator. -/
theorem exists_bare_of_cut {before behind : List (List Char)}
    (h : cut (· == c) s text = before ++ behind) (hbefore : before ≠ []) (hbehind : behind ≠ []) :
    ∃ back, text = [c].intercalate before ++ c :: back ∧
      (s.run ([c].intercalate before)).isBare c = true := by
  induction text generalizing s before with
  | nil =>
    have count := congrArg List.length h
    have first := List.length_pos_of_ne_nil hbefore
    have last := List.length_pos_of_ne_nil hbehind
    simp only [cut, List.length_append, List.length_singleton] at count
    omega
  | cons d rest ih =>
    obtain ⟨piece, others, rfl⟩ := List.exists_cons_of_ne_nil hbefore
    rw [cut] at h
    split at h
    · next divides =>
      obtain ⟨bare, separates⟩ := Bool.and_eq_true_iff.1 divides
      obtain rfl : d = c := by simpa using separates
      obtain ⟨rfl, later⟩ := List.cons.inj h
      by_cases last : others = []
      · subst last
        exact ⟨rest, by simp, by simpa [run] using bare⟩
      · obtain ⟨back, whole, here⟩ := ih later last
        rw [intercalate_cons last]
        refine ⟨back, by rw [whole]; simp, ?_⟩
        simpa [run, step_of_isBare bare] using here
    · obtain ⟨first, pieces, cut⟩ :=
        List.exists_cons_of_ne_nil (cut_ne_nil (· == c) (s.step d) rest)
      rw [cut, consPiece] at h
      obtain ⟨rfl, rfl⟩ := List.cons.inj h
      obtain ⟨back, whole, here⟩ := ih cut (List.cons_ne_nil first others)
      have glued : [c].intercalate ((d :: first) :: others) =
          d :: [c].intercalate (first :: others) :=
        intercalate_consPiece (List.cons_ne_nil first others) d
      rw [glued]
      exact ⟨back, by rw [whole]; rfl, here⟩

end Nesting

/-- Balanced text is cut at its commas. -/
theorem cutAtCommas_cut (h : Balanced text) :
    CutAtCommas text (Nesting.cut (· == ',') .outside text) where
  some_piece := Nesting.cut_ne_nil _ _ _
  joined := Nesting.intercalate_cut ',' _ text
  exact := by
    rintro front back rfl
    rw [balanced_front_iff h rfl]
    constructor
    · intro bare
      exact ⟨_, _, Nesting.cut_ne_nil _ _ _, Nesting.cut_ne_nil _ _ _, Nesting.cut_bare bare rfl _,
        (Nesting.intercalate_cut ',' _ front).symm, (Nesting.intercalate_cut ',' _ back).symm⟩
    · rintro ⟨before, behind, hbefore, hbehind, pieces, rfl, rfl⟩
      obtain ⟨back, -, bare⟩ := Nesting.exists_bare_of_cut pieces hbefore hbehind
      exact bare

/-- What becomes of the pieces between commas: a blank text has no arguments, and where it is not
blank no piece may be blank. -/
theorem splitArguments_balanced (h : Balanced text) :
    ∃ pieces, CutAtCommas text pieces ∧
      splitArguments text =
        if trim text = [] then .ok []
        else if ∃ p ∈ pieces, trim p = [] then .error (.emptyArgument (String.ofList text))
        else .ok (pieces.map trim) := by
  refine ⟨_, cutAtCommas_cut h, ?_⟩
  have unquoted : (Nesting.outside.run text).quote.isSome = false := by
    rw [Nesting.outside, Nesting.run_balanced h]
    rfl
  have blank : ((Nesting.outside.cut (· == ',') text).map trim).any List.isEmpty = true ↔
      ∃ p ∈ Nesting.outside.cut (· == ',') text, trim p = [] := by simp
  simp only [splitArguments, unquoted, List.isEmpty_iff, Bool.false_eq_true, if_false, blank]

/-- **The closing bracket is found exactly.** From an opening bracket on, the search finds a place
exactly where the text up to it is balanced and the bracket there closes the first one, and it fails
exactly where a wrong closing bracket comes first or the text ends. Where it finds a place, no quote
is left open in between, and arguments are cut at exactly the commas that stand in no quotes and in
no other bracket. -/
theorem closing?_exact {o : Nat} (here : text[o]? = some opener)
    (isOpener : isOpener opener = true) :
    (∀ n, closing? (text.drop o) = some n ↔
      ∃ inner behind, Balanced inner ∧
        text.drop o = opener :: (inner ++ closerOf opener :: behind) ∧ n = inner.length + 2) ∧
    (closing? (text.drop o) = none ↔
      Mismatched opener (text.drop o) ∨ Unfinished opener (text.drop o)) ∧
    ∀ n, closing? (text.drop o) = some n →
      let inner := ((text.drop o).take n).tail.dropLast
      ∃ pieces, CutAtCommas inner pieces ∧
        splitArguments inner =
          if trim inner = [] then .ok []
          else if ∃ p ∈ pieces, trim p = [] then .error (.emptyArgument (String.ofList inner))
          else .ok (pieces.map trim) := by
  obtain ⟨inside, begins⟩ := List.getElem?_eq_some_iff.1 here
  have whole : text.drop o = opener :: text.drop (o + 1) := by
    rw [List.drop_eq_getElem_cons inside, begins]
  rw [whole]
  refine ⟨fun n => ?_, closing?_eq_none_iff isOpener, fun n found => ?_⟩
  · simpa using closing?_eq_some_iff isOpener
  · obtain ⟨inner, behind, balanced, rest, rfl⟩ := (closing?_eq_some_iff isOpener).1 found
    have taken : ((opener :: text.drop (o + 1)).take (inner.length + 2)).tail.dropLast = inner := by
      rw [rest]
      simp [List.take_append, List.take_of_length_le]
    rw [taken]
    exact splitArguments_balanced balanced

/-- Quoted brackets and commas, a quote hidden by a backslash, brackets of all kinds, and a bracket
too many behind the one that is found. -/
theorem closing?_exact_marks :
    let text := "f('a,\\')', [1, \x7b,\x7d], b) )".toList
    let inner := "'a,\\')', [1, \x7b,\x7d], b".toList
    text[1]? = some '(' ∧ isOpener '(' = true ∧ closing? (text.drop 1) = some 22 ∧
      Balanced inner ∧ ∃ pieces, CutAtCommas inner pieces ∧
        pieces.map trim = ["'a,\\')'".toList, "[1, \x7b,\x7d]".toList, "b".toList] := by
  intro text inner
  have here : text[1]? = some '(' := by decide
  have found : closing? (text.drop 1) = some 22 := by decide
  obtain ⟨exact, -, agree⟩ := closing?_exact here rfl
  obtain ⟨inside, behind, balanced, whole, length⟩ := (exact 22).1 found
  have same : inside = inner := by
    have count : inside.length = 20 := by omega
    have taken : inside = (text.drop 2).take 20 := by
      rw [show text.drop 2 = inside ++ closerOf '(' :: behind from (List.cons.inj whole).2, ← count,
        List.take_left]
    rw [taken]
    decide
  obtain ⟨pieces, cut, arguments⟩ := agree 22 found
  have read : splitArguments inner =
      .ok ["'a,\\')'".toList, "[1, \x7b,\x7d]".toList, "b".toList] := by rfl
  have some_text : trim inner ≠ [] := by decide
  refine ⟨here, rfl, found, same ▸ balanced, pieces, cut, ?_⟩
  change splitArguments inner = if trim inner = [] then _ else _ at arguments
  rw [read, if_neg some_text] at arguments
  split at arguments
  · cases arguments
  · exact (Except.ok.inj arguments).symm

end PatchScript
