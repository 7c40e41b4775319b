import PatchScript.Command.Literal
import PatchScript.Proofs.Text.Trim
import Mathlib.Data.List.Infix

/-!
# Escapes in quoted text

Between single quotes a backslash, a line feed, a tab and the quote are written with a backslash in
front. The escapes are replaced one kind after the other, over the whole text, and the doubled
backslash comes last. So where a backslash of the text stands before an `n`, its second half and the
`n` are taken for a line feed, and likewise for a tab. This is the only thing that goes wrong: a
backslash before the quote, before another one or before a line feed is read as it was meant.

## Main definitions

* `escaped` — a text as it is written between single quotes
* `misread` — a text with a line feed or a tab in place of each `n` or `t` behind a backslash

## Main results

* `unquote_escaped` — what the escapes of a text are read as
* `readLiteral_escaped_iff` — when that is the text itself
-/

namespace PatchScript

namespace Text

variable {part replacement : List Char} {a b c : Char}

/-! ### Replacing from the left -/

/-- An occurrence at the front is replaced. -/
theorem replaceAll_pair (a b : Char) (replacement rest : List Char) :
    replaceAll [a, b] replacement (a :: b :: rest) =
      replacement ++ replaceAll [a, b] replacement rest := by
  simp [replaceAll, replaceFrom, List.isPrefixOf]

/-- A character with which no occurrence begins is kept. -/
theorem replaceAll_cons {rest : List Char} (h : ¬ part <+: c :: rest) :
    replaceAll part replacement (c :: rest) = c :: replaceAll part replacement rest := by
  have start : part.isPrefixOf (c :: rest) = false := by
    rwa [← Bool.not_eq_true, List.isPrefixOf_iff_prefix]
  rw [replaceAll, replaceFrom, if_neg (by simp [start])]
  rfl

theorem replaceAll_cons_of_ne (h : c ≠ a) (rest : List Char) :
    replaceAll [a, b] replacement (c :: rest) = c :: replaceAll [a, b] replacement rest :=
  replaceAll_cons fun start => h (List.cons_prefix_cons.1 start).1.symm

theorem replaceAll_cons_of_head {rest : List Char} (h : rest.head? ≠ some b) :
    replaceAll [a, b] replacement (c :: rest) = c :: replaceAll [a, b] replacement rest := by
  refine replaceAll_cons fun start => ?_
  obtain ⟨after, rfl⟩ := (List.cons_prefix_cons.1 start).2
  exact h rfl

/-- Two characters that are no occurrence, and of which the second begins none, are kept. -/
theorem replaceAll_keep {d : Char} (pair : ¬ (c = a ∧ d = b)) (second : d ≠ a) (rest : List Char) :
    replaceAll [a, b] replacement (c :: d :: rest) =
      c :: d :: replaceAll [a, b] replacement rest := by
  by_cases first : c = a
  · have other : d ≠ b := fun equal => pair ⟨first, equal⟩
    rw [replaceAll_cons_of_head (by simpa using other), replaceAll_cons_of_ne second]
  · rw [replaceAll_cons_of_ne first, replaceAll_cons_of_ne second]

/-- A text that begins otherwise than with `d` still does so after replacing. -/
theorem head_replaceAll {r d : Char} {text : List Char} (new : r ≠ d) (old : text.head? ≠ some d) :
    (replaceAll part [r] text).head? ≠ some d := by
  cases text with
  | nil => simp [replaceAll, replaceFrom]
  | cons c rest =>
    rw [replaceAll, replaceFrom]
    split
    · simpa using new
    · simpa using old

end Text

/-! ### Writing and reading -/

/-- A character as it is written between single quotes. -/
def escapedChar (c : Char) : List Char :=
  if c = '\\' then ['\\', '\\']
  else if c = '\n' then ['\\', 'n']
  else if c = '\t' then ['\\', 't']
  else if c = '\'' then ['\\', '\'']
  else [c]

/-- A text as it is written between single quotes. -/
def escaped (s : List Char) : List Char := s.flatMap escapedChar

/-- A text with a line feed in place of each `n` that stands directly behind a backslash, and a tab
in place of each such `t`. -/
def misread : List Char → List Char
  | '\\' :: 'n' :: rest => '\\' :: '\n' :: misread rest
  | '\\' :: 't' :: rest => '\\' :: '\t' :: misread rest
  | c :: rest => c :: misread rest
  | [] => []

variable {s : List Char} {c d : Char}

theorem escaped_cons (c : Char) (s : List Char) : escaped (c :: s) = escapedChar c ++ escaped s :=
  List.flatMap_cons

/-- What is written begins with a backslash or with the first character of the text, and never with
the quote. -/
theorem head_escaped (hd : d ≠ '\\') (h : d = '\'' ∨ s.head? ≠ some d) :
    (escaped s).head? ≠ some d := by
  cases s with
  | nil => simp [escaped]
  | cons c s =>
    rw [escaped_cons, escapedChar]
    split_ifs with backslash lineFeed tab quote
    · simpa using hd.symm
    · simpa using hd.symm
    · simpa using hd.symm
    · simpa using hd.symm
    · rintro same
      obtain rfl : c = d := by simpa using same
      exact h.elim quote fun other => other rfl

/-! ### Reading one character after the other -/

/-- A backslash that stands neither before an `n` nor before a `t` is read as it was meant. -/
theorem unquote_backslash (lineFeed : s.head? ≠ some 'n') (tab : s.head? ≠ some 't') :
    unquote '\'' ('\\' :: '\\' :: escaped s) = '\\' :: unquote '\'' (escaped s) := by
  have noFeed := head_escaped (by decide) (.inr lineFeed)
  have noTab : (Text.replaceAll ['\\', 'n'] ['\n'] (escaped s)).head? ≠ some 't' :=
    Text.head_replaceAll (by decide) (head_escaped (by decide) (.inr tab))
  have noQuote : (Text.replaceAll ['\\', 't'] ['\t']
      (Text.replaceAll ['\\', 'n'] ['\n'] (escaped s))).head? ≠ some '\'' :=
    Text.head_replaceAll (by decide)
      (Text.head_replaceAll (by decide) (head_escaped (by decide) (.inl rfl)))
  simp only [unquote]
  rw [Text.replaceAll_cons_of_head (by simp), Text.replaceAll_cons_of_head noFeed,
    Text.replaceAll_cons_of_head (by simp), Text.replaceAll_cons_of_head noTab,
    Text.replaceAll_cons_of_head (by simp), Text.replaceAll_cons_of_head noQuote,
    Text.replaceAll_pair]
  rfl

/-- The other characters are read as they were meant. -/
theorem unquote_escapedChar (h : c ≠ '\\') (text : List Char) :
    unquote '\'' (escapedChar c ++ text) = c :: unquote '\'' text := by
  rw [escapedChar, if_neg h]
  split_ifs with lineFeed tab quote
  · subst lineFeed
    simp only [unquote, List.cons_append, List.nil_append]
    rw [Text.replaceAll_pair, List.singleton_append, Text.replaceAll_cons_of_ne (by decide),
      Text.replaceAll_cons_of_ne (by decide), Text.replaceAll_cons_of_ne (by decide)]
  · subst tab
    simp only [unquote, List.cons_append, List.nil_append]
    rw [Text.replaceAll_keep (by decide) (by decide), Text.replaceAll_pair, List.singleton_append,
      Text.replaceAll_cons_of_ne (by decide), Text.replaceAll_cons_of_ne (by decide)]
  · subst quote
    simp only [unquote, List.cons_append, List.nil_append]
    rw [Text.replaceAll_keep (by decide) (by decide), Text.replaceAll_keep (by decide) (by decide),
      Text.replaceAll_pair, List.singleton_append, Text.replaceAll_cons_of_ne (by decide)]
  · simp only [unquote, List.singleton_append]
    rw [Text.replaceAll_cons_of_ne h, Text.replaceAll_cons_of_ne h, Text.replaceAll_cons_of_ne h,
      Text.replaceAll_cons_of_ne h]

/-- The second half of a doubled backslash is taken together with an `n` behind it. -/
theorem unquote_backslash_n (text : List Char) :
    unquote '\'' ('\\' :: '\\' :: 'n' :: text) = '\\' :: '\n' :: unquote '\'' text := by
  simp only [unquote]
  rw [Text.replaceAll_cons_of_head (by simp), Text.replaceAll_pair, List.singleton_append,
    Text.replaceAll_keep (by decide) (by decide), Text.replaceAll_keep (by decide) (by decide),
    Text.replaceAll_keep (by decide) (by decide)]

/-- It is taken together with a `t` likewise. -/
theorem unquote_backslash_t (text : List Char) :
    unquote '\'' ('\\' :: '\\' :: 't' :: text) = '\\' :: '\t' :: unquote '\'' text := by
  simp only [unquote]
  rw [Text.replaceAll_cons_of_head (by simp), Text.replaceAll_keep (by decide) (by decide),
    Text.replaceAll_cons_of_head (by simp), Text.replaceAll_pair, List.singleton_append,
    Text.replaceAll_keep (by decide) (by decide), Text.replaceAll_keep (by decide) (by decide)]

/-! ### Reading a whole text -/

theorem misread_cons_of_ne (h : c ≠ '\\') (s : List Char) : misread (c :: s) = c :: misread s := by
  rw [misread]
  · rintro rest rfl
    exact absurd rfl h
  · rintro rest rfl
    exact absurd rfl h

theorem misread_backslash (lineFeed : s.head? ≠ some 'n') (tab : s.head? ≠ some 't') :
    misread ('\\' :: s) = '\\' :: misread s := by
  rw [misread]
  · rintro rest - rfl
    exact lineFeed rfl
  · rintro rest - rfl
    exact tab rfl

/-- What the escapes of a text are read as. -/
theorem unquote_escaped (s : List Char) : unquote '\'' (escaped s) = misread s := by
  induction s using misread.induct with
  | case1 rest ih =>
    rw [misread, ← ih]
    exact unquote_backslash_n (escaped rest)
  | case2 rest ih =>
    rw [misread, ← ih]
    exact unquote_backslash_t (escaped rest)
  | case3 c rest notFeed notTab ih =>
    by_cases backslash : c = '\\'
    · subst backslash
      have lineFeed : rest.head? ≠ some 'n' := by
        intro first
        obtain ⟨others, rfl⟩ := List.head?_eq_some_iff.1 first
        exact notFeed others rfl rfl
      have tab : rest.head? ≠ some 't' := by
        intro first
        obtain ⟨others, rfl⟩ := List.head?_eq_some_iff.1 first
        exact notTab others rfl rfl
      rw [misread_backslash lineFeed tab, ← ih]
      exact unquote_backslash lineFeed tab
    · rw [misread_cons_of_ne backslash, ← ih, escaped_cons]
      exact unquote_escapedChar backslash (escaped rest)
  | case4 => rfl

/-- A text is misread exactly where a backslash stands before an `n` or a `t`. -/
theorem misread_eq_self_iff (s : List Char) :
    misread s = s ↔ ¬ ['\\', 'n'] <:+: s ∧ ¬ ['\\', 't'] <:+: s := by
  induction s using misread.induct with
  | case1 rest ih => simp [misread, List.infix_cons_iff]
  | case2 rest ih => simp [misread, List.infix_cons_iff]
  | case3 c rest notFeed notTab ih =>
    have here (x : Char) (other : ∀ others, c = '\\' → rest = x :: others → False) :
        ['\\', x] <:+: c :: rest ↔ ['\\', x] <:+: rest := by
      rw [List.infix_cons_iff, or_iff_right]
      intro start
      obtain ⟨equal, after, rfl⟩ := List.cons_prefix_cons.1 start
      exact other after equal.symm rfl
    rw [misread, here 'n' notFeed, here 't' notTab, ← ih]
    · simp
    · exact notFeed
    · exact notTab
  | case4 => simp [misread]

/-- Between single quotes the escapes of a text are read as the text with each `n` or `t` behind a
backslash misread. -/
theorem readLiteral_escaped (s : List Char) :
    readLiteral ('\'' :: escaped s ++ ['\'']) = .ok (.text (String.ofList (misread s))) := by
  have trimmed : Text.trim ('\'' :: escaped s ++ ['\'']) = '\'' :: escaped s ++ ['\''] := by
    rw [Text.trim_eq_self_iff, List.getLast?_concat]
    simp
    decide
  have quoted : quoted? ('\'' :: escaped s ++ ['\'']) = some ('\'', escaped s) := by
    simp [quoted?]
  rw [readLiteral, trimmed, quoted]
  simp [unquote_escaped]

/-- **A text is read back from its escapes** exactly where no backslash in it stands directly before
an `n` or a `t`. -/
theorem readLiteral_escaped_iff (s : String) :
    readLiteral ('\'' :: escaped s.toList ++ ['\'']) = .ok (.text s) ↔
      ¬ ['\\', 'n'] <:+: s.toList ∧ ¬ ['\\', 't'] <:+: s.toList := by
  rw [readLiteral_escaped, ← misread_eq_self_iff]
  constructor
  · intro read
    obtain same : String.ofList (misread s.toList) = s := by simpa using read
    rw [← String.toList_ofList (l := misread s.toList), same]
  · intro same
    rw [same, String.ofList_toList]

/-- Each of the characters that are escaped, the quote and a line feed behind a backslash, and
doubled backslashes. -/
example : readLiteral ('\'' :: escaped "a\\\\\'\n\\\n\t'".toList ++ ['\'']) =
    .ok (.text "a\\\\\'\n\\\n\t'") := by decide

/-- A backslash before an `n` is read as a line feed behind a backslash. -/
theorem backslash_n_misread :
    ¬ ∀ s : String, readLiteral ('\'' :: escaped s.toList ++ ['\'']) = .ok (.text s) := by
  intro readBack
  have read := readBack "\\n"
  revert read
  decide

end PatchScript
