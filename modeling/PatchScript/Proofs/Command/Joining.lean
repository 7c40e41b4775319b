import PatchScript.Proofs.Command.Brackets
import PatchScript.Proofs.Text.Trim

/-!
# Joined texts

Splitting undoes joining. A text that is read from outside of everything back to there, and in which
no bare character separates, is one piece: at its end the reader stands as at its beginning, so it
goes on with the next piece as if it were the first. This holds of arguments between commas and of
words between blanks, and a comment may follow the words.

## Main definitions

* `SelfContained` — a text that is a piece of its own
* `JoinedBy` — texts in a row with separators between them

## Main results

* `splitArguments_joined` — arguments with commas between them are split into them
* `splitWords_joined`, `splitWords_joined_comment` — so are words with blanks between them, without
  and with a comment behind them
* `split_undoes_joining` — all of these
-/

namespace PatchScript

open Text

variable {c : Char} {text front rest : List Char} {separates : Char → Bool}

/-! ### Positions that are reached -/

theorem isOrdinary_of_isBlank (h : isBlank c = true) : isOrdinary c = true :=
  isOrdinary_of_not_marks (by decide) h

namespace Nesting

variable {s : Nesting} {afterBlank : Bool}

/-- A position at which only a quote may be open, and only in quotes a character is hidden. -/
structure Regular (s : Nesting) : Prop where
  isQuote : ∀ q ∈ s.quote, isQuote q = true
  escaped : s.quote = none → s.escaped = false

theorem regular_outside : Regular .outside := ⟨by simp [outside], fun _ => rfl⟩

theorem Regular.step (h : s.Regular) (c : Char) : (s.step c).Regular := by
  obtain ⟨quote, escaped, depth⟩ := s
  cases quote with
  | some q =>
    have isQuote := h.isQuote
    simp only [Nesting.step]
    split_ifs with hidden backslash closes
    · exact ⟨isQuote, by simp⟩
    · exact ⟨isQuote, by simp⟩
    · exact ⟨by simp, fun _ => by simpa using hidden⟩
    · exact ⟨isQuote, by simp⟩
  | none =>
    have bare : escaped = false := h.escaped rfl
    simp only [Nesting.step]
    split_ifs with quote
    · exact ⟨by simpa using quote, fun _ => bare⟩
    all_goals exact ⟨by simp, fun _ => bare⟩

theorem Regular.run (h : s.Regular) (text : List Char) : (s.run text).Regular := by
  induction text generalizing s with
  | nil => exact h
  | cons c rest ih => exact ih (h.step c)

theorem Regular.eq_outside (h : s.Regular) (quote : s.quote = none) (depth : s.depth = 0) :
    s = .outside := by
  obtain ⟨_, escaped, _⟩ := s
  obtain rfl : escaped = false := h.escaped quote
  obtain rfl := quote
  obtain rfl := depth
  rfl

/-- A blank that is not bare leaves no bare character behind it. -/
theorem Regular.isBare_step_blank (h : s.Regular) (blank : isBlank c = true)
    (hidden : s.isBare c = false) (d : Char) : (s.step c).isBare d = false := by
  obtain ⟨notQuote, notOpener, notCloser⟩ := isOrdinary_iff.1 (isOrdinary_of_isBlank blank)
  obtain ⟨quote, escaped, depth⟩ := s
  cases quote with
  | none =>
    have inside : depth ≠ 0 := by simpa [isBare, notQuote, notOpener, notCloser] using hidden
    simp [Nesting.step, isBare, notQuote, notOpener, notCloser, inside]
  | some q =>
    have other : c ≠ q := by
      rintro rfl
      rw [h.isQuote c rfl] at notQuote
      cases notQuote
    simp only [Nesting.step, if_neg other]
    split_ifs <;> rfl

theorem isBare_outside_blank (blank : isBlank c = true) : outside.isBare c = true := by
  obtain ⟨notQuote, notOpener, notCloser⟩ := isOrdinary_iff.1 (isOrdinary_of_isBlank blank)
  simp [isBare, outside, notQuote, notOpener, notCloser]

/-! ### Comments -/

/-- Where no comment begins in a text, it is looked for in what follows. -/
theorem cutComment_append (h : (cutComment s afterBlank front).2 = none) (rest : List Char) :
    cutComment s afterBlank (front ++ rest) =
      let (before, comment) :=
        cutComment (s.run front) ((front.getLast?.map isBlank).getD afterBlank) rest
      (front ++ before, comment) := by
  induction front generalizing s afterBlank with
  | nil => rfl
  | cons c front ih =>
    rw [cutComment] at h
    split at h
    · cases h
    · next none =>
      rw [List.cons_append, cutComment, if_neg none, ih h]
      have last : (front.getLast?.map isBlank).getD (isBlank c) =
          (((c :: front).getLast?).map isBlank).getD afterBlank := by
        rw [List.getLast?_cons]
        cases front.getLast? <;> rfl
      rw [last]
      rfl

/-- A text without a comment is kept as a whole. -/
theorem cutComment_eq (h : (cutComment s afterBlank text).2 = none) :
    cutComment s afterBlank text = (text, none) := by
  have whole := cutComment_append h []
  simpa [cutComment] using whole

/-- In a text without bare blanks no comment begins, except at its front. -/
theorem Regular.cutComment_clear (h : s.Regular) (clear : Clear isBlank s text)
    (start : afterBlank = true → text.head? = some '#' → s.isBare '#' = false) :
    (cutComment s afterBlank text).2 = none := by
  induction text generalizing s afterBlank with
  | nil => rfl
  | cons c rest ih =>
    rw [cutComment, if_neg]
    · refine ih (h.step c) clear.2 fun blank _ => h.isBare_step_blank blank ?_ '#'
      simpa [blank] using clear.1
    · intro comment
      simp only [Bool.and_eq_true, beq_iff_eq] at comment
      obtain ⟨⟨bare, rfl⟩, blank⟩ := comment
      rw [start blank rfl] at bare
      cases bare

/-! ### Pieces -/

instance decidableClear (separates : Char → Bool) :
    (s : Nesting) → (text : List Char) → Decidable (Clear separates s text)
  | _, [] => isTrue trivial
  | s, c :: rest =>
    have := decidableClear separates (s.step c) rest
    inferInstanceAs (Decidable (_ ∧ _))

theorem step_of_isBare (h : s.isBare c = true) : s.step c = s := by
  obtain ⟨quote, escaped, depth⟩ := s
  simp only [isBare, Bool.and_eq_true, Option.isNone_iff_eq_none, Bool.not_eq_true'] at h
  obtain ⟨⟨⟨⟨rfl, -⟩, notQuote⟩, notOpener⟩, notCloser⟩ := h
  simp [step, notQuote, notOpener, notCloser]

theorem cut_ne_nil (separates : Char → Bool) (s : Nesting) (text : List Char) :
    cut separates s text ≠ [] := by
  cases text with
  | nil => simp [cut]
  | cons c rest =>
    rw [cut]
    split
    · simp
    · cases cut separates (s.step c) rest <;> simp [consPiece]

/-- The pieces end at a bare character that separates, and begin again behind it. -/
theorem cut_bare (bare : (s.run front).isBare c = true) (separator : separates c = true)
    (rest : List Char) :
    cut separates s (front ++ c :: rest) =
      cut separates s front ++ cut separates (s.run front) rest := by
  induction front generalizing s with
  | nil =>
    have here : s.isBare c = true := bare
    simp [cut, here, separator, run]
  | cons d front ih =>
    rw [List.cons_append, cut, cut, ih bare]
    split
    · next divides =>
      have stays := step_of_isBare (Bool.and_eq_true_iff.1 divides).1
      have whole := ih (by simpa [run, stays] using bare)
      simp only [whole]
      simp [run, stays]
    · obtain ⟨piece, others, pieces⟩ :=
        List.exists_cons_of_ne_nil (cut_ne_nil separates (s.step d) front)
      rw [pieces]
      rfl

end Nesting

/-! ### Texts that are pieces -/

/-- A text that is a piece of its own: it is not empty, no blank stands at its ends, read alone it
ends outside of quotes and brackets, and no bare character in it separates. -/
structure SelfContained (separates : Char → Bool) (text : List Char) : Prop where
  ne_nil : text ≠ []
  trim_eq : trim text = text
  unquoted : (Nesting.outside.run text).quote = none
  level : (Nesting.outside.run text).depth = 0
  clear : Nesting.Clear separates .outside text

instance (text : List Char) : Decidable (SelfContained separates text) :=
  decidable_of_iff (text ≠ [] ∧ trim text = text ∧ (Nesting.outside.run text).quote = none ∧
      (Nesting.outside.run text).depth = 0 ∧ Nesting.Clear separates .outside text)
    ⟨fun ⟨some_text, trimmed, unquoted, level, clear⟩ =>
        ⟨some_text, trimmed, unquoted, level, clear⟩,
      fun h => ⟨h.ne_nil, h.trim_eq, h.unquoted, h.level, h.clear⟩⟩

/-- Texts in a row, with one separator between any two. -/
inductive JoinedBy (IsSeparator : List Char → Prop) : List (List Char) → List Char → Prop
  | single (text : List Char) : JoinedBy IsSeparator [text] text
  | cons {text separator joined : List Char} {others : List (List Char)}
      (separates : IsSeparator separator) (rest : JoinedBy IsSeparator others joined) :
      JoinedBy IsSeparator (text :: others) (text ++ (separator ++ joined))

/-- Some blanks. -/
def IsBlanks (text : List Char) : Prop := text ≠ [] ∧ ∀ c ∈ text, isBlank c = true

instance : DecidablePred IsBlanks := fun text =>
  -- no quantifier over characters is left, so that deciding goes through the text alone
  decidable_of_iff (text ≠ [] ∧ text.all isBlank = true) (by rw [IsBlanks, List.all_eq_true])

/-- A comma with any blanks around it. -/
def IsComma (text : List Char) : Prop :=
  ∃ left right, (∀ c ∈ left, isBlank c = true) ∧ (∀ c ∈ right, isBlank c = true) ∧
    text = left ++ ',' :: right

theorem isComma_spaced : IsComma [',', ' '] :=
  ⟨[], [' '], List.forall_mem_nil _, List.forall_mem_singleton.2 rfl, rfl⟩

variable {IsSeparator : List Char → Prop} {texts : List (List Char)} {joined : List Char}

/-- Texts are joined by one separator. -/
theorem joinedBy_intercalate {separator : List Char} (h : IsSeparator separator)
    (some_text : texts ≠ []) : JoinedBy IsSeparator texts (separator.intercalate texts) := by
  induction texts with
  | nil => exact absurd rfl some_text
  | cons text others ih =>
    cases others with
    | nil => simpa using JoinedBy.single text
    | cons next others =>
      have rest := ih (by simp)
      have step : JoinedBy IsSeparator (text :: next :: others) _ := .cons h rest
      simpa [List.intercalate] using step

theorem run_blanks (blanks : ∀ c ∈ text, isBlank c = true) :
    Nesting.outside.run text = .outside :=
  Nesting.run_balanced (.of_ordinary fun c hc => isOrdinary_of_isBlank (blanks c hc)) 0

namespace SelfContained

theorem run_eq (h : SelfContained separates text) : Nesting.outside.run text = .outside :=
  (Nesting.regular_outside.run text).eq_outside h.unquoted h.level

/-- The last character of a piece is no blank. -/
theorem endsBlank_eq (h : SelfContained separates text) (afterBlank : Bool) :
    (text.getLast?.map isBlank).getD afterBlank = false := by
  have last := (trim_eq_self_iff.1 h.trim_eq).2
  rw [List.getLast?_eq_some_getLast h.ne_nil] at last ⊢
  exact last _ rfl

theorem trim_append_ne_nil (h : SelfContained separates text) (rest : List Char) :
    trim (text ++ rest) ≠ [] := by
  intro blanks
  obtain ⟨c, more, rfl⟩ := List.exists_cons_of_ne_nil h.ne_nil
  have solid := (trim_eq_self_iff.1 h.trim_eq).1 c rfl
  rw [trim_eq_nil_iff.1 blanks c (by simp)] at solid
  cases solid

theorem cut_eq (h : SelfContained separates text) :
    Nesting.cut separates .outside text = [text] := by
  have alone := Nesting.cut_clear h.clear []
  rwa [List.append_nil, Nesting.cut, Nesting.glue_piece, List.append_nil] at alone

/-- Blanks before and behind a text that no blank cuts up are parts of its piece. -/
theorem cut_padded {left right : List Char} (h : SelfContained separates text)
    (keeps : ∀ c, isBlank c = true → separates c = false) (hleft : ∀ c ∈ left, isBlank c = true)
    (hright : ∀ c ∈ right, isBlank c = true) :
    Nesting.cut separates .outside (left ++ text ++ right) = [left ++ text ++ right] := by
  have clear : Nesting.Clear separates .outside (left ++ text ++ right) := by
    refine ((Nesting.Clear.of_not_separates fun c hc => keeps c (hleft c hc)).append ?_).append
      (.of_not_separates fun c hc => keeps c (hright c hc))
    rw [run_blanks hleft]
    exact h.clear
  have alone := Nesting.cut_clear clear []
  rwa [List.append_nil, Nesting.cut, Nesting.glue_piece, List.append_nil] at alone

end SelfContained

/-! ### Arguments -/

/-- A blank is no other character. -/
theorem beq_of_isBlank {d : Char} (other : isBlank d = false) (c : Char) (h : isBlank c = true) :
    (c == d) = false := by
  rw [beq_eq_false_iff_ne]
  rintro rfl
  cases h.symm.trans other

/-- Joined texts are read back to outside of everything. -/
theorem JoinedBy.run_eq (h : JoinedBy IsSeparator texts joined)
    (ordinary : ∀ separator, IsSeparator separator → ∀ c ∈ separator, isOrdinary c = true)
    (whole : ∀ t ∈ texts, SelfContained separates t) : Nesting.outside.run joined = .outside := by
  induction h with
  | single text => exact (whole text (by simp)).run_eq
  | @cons text separator joined others hseparator _ ih =>
    obtain ⟨here, later⟩ := List.forall_mem_cons.1 whole
    have passed : Nesting.outside.run separator = .outside :=
      Nesting.run_balanced (.of_ordinary (ordinary separator hseparator)) 0
    rw [Nesting.run_append, here.run_eq, Nesting.run_append, passed, ih later]

/-- The pieces of joined arguments are the arguments, but for blanks around them. -/
theorem JoinedBy.map_trim_cut (h : JoinedBy IsComma texts joined)
    (whole : ∀ t ∈ texts, SelfContained (· == ',') t) {left : List Char}
    (hleft : ∀ c ∈ left, isBlank c = true) :
    (Nesting.cut (· == ',') .outside (left ++ joined)).map trim = texts := by
  induction h generalizing left with
  | single text =>
    have here := whole text (by simp)
    have alone := here.cut_padded (beq_of_isBlank rfl) hleft (List.forall_mem_nil _)
    have trimmed := trim_append_blanks hleft (List.forall_mem_nil _) here.trim_eq here.ne_nil
    rw [List.append_nil] at alone trimmed
    rw [alone, List.map_singleton, trimmed]
  | @cons text separator joined others hseparator rest ih =>
    obtain ⟨here, later⟩ := List.forall_mem_cons.1 whole
    obtain ⟨before, behind, hbefore, hbehind, rfl⟩ := hseparator
    have position : Nesting.outside.run (left ++ text ++ before) = .outside := by
      rw [Nesting.run_append, Nesting.run_append, run_blanks hleft, here.run_eq,
        run_blanks hbefore]
    have bare : (Nesting.outside.run (left ++ text ++ before)).isBare ',' = true := by
      rw [position]
      rfl
    have pieces :
        Nesting.cut (· == ',') .outside (left ++ text ++ before ++ ',' :: (behind ++ joined)) =
          [left ++ text ++ before] ++ Nesting.cut (· == ',') .outside (behind ++ joined) := by
      rw [Nesting.cut_bare bare rfl, position, here.cut_padded (beq_of_isBlank rfl) hleft hbefore]
    have spelled : left ++ (text ++ (before ++ ',' :: behind ++ joined)) =
        left ++ text ++ before ++ ',' :: (behind ++ joined) := by simp
    rw [spelled, pieces, List.map_append, ih later hbehind, List.map_singleton,
      trim_append_blanks hleft hbefore here.trim_eq here.ne_nil, List.singleton_append]

theorem JoinedBy.trim_ne_nil (h : JoinedBy IsSeparator texts joined)
    (whole : ∀ t ∈ texts, SelfContained separates t) : trim joined ≠ [] := by
  cases h with
  | single => simpa using (whole joined (by simp)).trim_append_ne_nil []
  | cons => exact (whole _ (by simp)).trim_append_ne_nil _

/-- **Arguments with commas between them are split into them.** -/
theorem splitArguments_joined (h : JoinedBy IsComma texts joined)
    (whole : ∀ t ∈ texts, SelfContained (· == ',') t) : splitArguments joined = .ok texts := by
  have ordinary (separator : List Char) (comma : IsComma separator) (c : Char)
      (hc : c ∈ separator) : isOrdinary c = true := by
    obtain ⟨left, right, hleft, hright, rfl⟩ := comma
    rcases List.mem_append.1 hc with before | behind
    · exact isOrdinary_of_isBlank (hleft c before)
    · rcases List.mem_cons.1 behind with rfl | behind
      · rfl
      · exact isOrdinary_of_isBlank (hright c behind)
  have position := h.run_eq ordinary whole
  have pieces : (Nesting.cut (· == ',') .outside joined).map trim = texts :=
    h.map_trim_cut whole (List.forall_mem_nil _)
  have filled : texts.any List.isEmpty = false :=
    List.any_eq_false.2 fun t ht => by simpa using (whole t ht).ne_nil
  have unquoted : (Nesting.outside.run joined).quote.isSome = false := by rw [position]; rfl
  have some_text : (trim joined).isEmpty = false := by simpa using h.trim_ne_nil whole
  simp only [splitArguments, some_text, unquoted, pieces, filled, Bool.false_eq_true, if_false]

/-! ### Words -/

/-- The pieces that are left of a text that is cut at bare blanks. -/
def pieceWords (text : List Char) : List (List Char) :=
  ((Nesting.cut isBlank .outside text).map trim).filter (!·.isEmpty)

theorem pieceWords_blanks (blanks : ∀ c ∈ front, isBlank c = true) (text : List Char) :
    pieceWords (front ++ text) = pieceWords text := by
  induction front with
  | nil => rfl
  | cons c front ih =>
    obtain ⟨blank, others⟩ := List.forall_mem_cons.1 blanks
    rw [← ih others, pieceWords, List.cons_append, Nesting.cut, Nesting.isBare_outside_blank blank,
      blank, Bool.and_true, if_pos rfl]
    rfl

/-- A word ends where blanks begin. -/
theorem pieceWords_word {separator : List Char} (h : SelfContained isBlank text)
    (blanks : IsBlanks separator) (rest : List Char) :
    pieceWords (text ++ (separator ++ rest)) = text :: pieceWords rest := by
  obtain ⟨some_blank, blank⟩ := blanks
  obtain ⟨c, others, rfl⟩ := List.exists_cons_of_ne_nil some_blank
  obtain ⟨first, later⟩ := List.forall_mem_cons.1 blank
  have bare : (Nesting.outside.run text).isBare c = true := by
    rw [h.run_eq]
    exact Nesting.isBare_outside_blank first
  have pieces := Nesting.cut_bare bare first (others ++ rest)
  rw [h.run_eq, h.cut_eq] at pieces
  have filled : text.isEmpty = false := by simpa using h.ne_nil
  rw [pieceWords, List.cons_append, pieces, ← pieceWords_blanks later, pieceWords, List.map_append,
    List.filter_append, List.map_singleton, h.trim_eq]
  simp [filled]

/-- The words of joined words, with any blanks behind them. -/
theorem JoinedBy.pieceWords_eq (h : JoinedBy IsBlanks texts joined)
    (whole : ∀ t ∈ texts, SelfContained isBlank t) {right : List Char}
    (hright : ∀ c ∈ right, isBlank c = true) : pieceWords (joined ++ right) = texts := by
  have none : pieceWords [] = [] := rfl
  induction h with
  | single text =>
    have here := whole text (by simp)
    cases right with
    | nil => simp [pieceWords, here.cut_eq, here.trim_eq, here.ne_nil]
    | cons c right =>
      have only := pieceWords_word here ⟨by simp, hright⟩ []
      rwa [List.append_nil, none] at only
  | cons hseparator _ ih =>
    obtain ⟨here, later⟩ := List.forall_mem_cons.1 whole
    rw [List.append_assoc, List.append_assoc, pieceWords_word here hseparator, ih later]

/-- No comment begins in joined words none of which begins with a number sign. -/
theorem JoinedBy.cutComment_eq (h : JoinedBy IsBlanks texts joined)
    (whole : ∀ t ∈ texts, SelfContained isBlank t) (plain : ∀ t ∈ texts, t.head? ≠ some '#') :
    (Nesting.outside.cutComment true joined).2 = none := by
  have word {t : List Char} (ht : SelfContained isBlank t) (first : t.head? ≠ some '#') :
      (Nesting.outside.cutComment true t).2 = none :=
    Nesting.regular_outside.cutComment_clear ht.clear fun _ same => absurd same first
  induction h with
  | single text => exact word (whole text (by simp)) (plain text (by simp))
  | @cons text separator joined others hseparator _ ih =>
    obtain ⟨here, later⟩ := List.forall_mem_cons.1 whole
    obtain ⟨first, others⟩ := List.forall_mem_cons.1 plain
    obtain ⟨some_blank, blanks⟩ := hseparator
    have clear : Nesting.Clear (· == '#') .outside separator :=
      .of_not_separates fun c hc => beq_of_isBlank rfl c (blanks c hc)
    have last : (separator.getLast?.map isBlank).getD false = true := by
      rw [List.getLast?_eq_some_getLast some_blank]
      exact blanks _ (List.getLast_mem some_blank)
    have passed : (Nesting.outside.cutComment false separator).2 = none := by
      rw [Nesting.cutComment_clear clear]
    rw [Nesting.cutComment_append (word here first), here.run_eq, here.endsBlank_eq,
      Nesting.cutComment_append passed, run_blanks blanks, last]
    exact ih later others

theorem JoinedBy.run_words (h : JoinedBy IsBlanks texts joined)
    (whole : ∀ t ∈ texts, SelfContained isBlank t) : Nesting.outside.run joined = .outside :=
  h.run_eq (fun _ blanks c hc => isOrdinary_of_isBlank (blanks.2 c hc)) whole

/-- **Words with blanks between them are split into them**, and there is no comment. -/
theorem splitWords_joined (h : JoinedBy IsBlanks texts joined)
    (whole : ∀ t ∈ texts, SelfContained isBlank t) (plain : ∀ t ∈ texts, t.head? ≠ some '#') :
    splitWords joined = .ok (texts, none) := by
  have words := h.pieceWords_eq whole (List.forall_mem_nil _)
  rw [List.append_nil] at words
  rw [splitWords, Nesting.cutComment_eq (h.cutComment_eq whole plain)]
  simp only [h.run_words whole]
  exact congrArg (fun words => Except.ok (words, none)) words

/-- **A comment behind the words is what follows its number sign**, without blanks around it. -/
theorem splitWords_joined_comment (h : JoinedBy IsBlanks texts joined)
    (whole : ∀ t ∈ texts, SelfContained isBlank t) (plain : ∀ t ∈ texts, t.head? ≠ some '#')
    (comment : List Char) :
    splitWords (joined ++ ' ' :: '#' :: comment) = .ok (texts, some (trim comment)) := by
  have words := h.pieceWords_eq whole (List.forall_mem_singleton.2 (rfl : isBlank ' ' = true))
  have body : Nesting.outside.cutComment true (joined ++ ' ' :: '#' :: comment) =
      (joined ++ [' '], some comment) := by
    rw [Nesting.cutComment_append (h.cutComment_eq whole plain), h.run_words whole]
    rfl
  have position : Nesting.outside.run (joined ++ [' ']) = .outside := by
    rw [Nesting.run_append, h.run_words whole]
    rfl
  rw [splitWords, body]
  simp only [position]
  exact congrArg (fun words => Except.ok (words, some (trim comment))) words

/-- **Splitting undoes joining.** Arguments that are pieces of their own, with a comma and a blank
between any two, are split into them. So are words with blanks between them, none of which begins
with a number sign, also where a comment follows. -/
theorem split_undoes_joining :
    (∀ arguments, arguments ≠ [] → (∀ a ∈ arguments, SelfContained (· == ',') a) →
      splitArguments ([',', ' '].intercalate arguments) = .ok arguments) ∧
    ∀ words text, (∀ w ∈ words, SelfContained isBlank w ∧ w.head? ≠ some '#') →
      JoinedBy IsBlanks words text →
        splitWords text = .ok (words, none) ∧ ∀ comment,
          splitWords (text ++ ' ' :: '#' :: comment) = .ok (words, some (trim comment)) := by
  refine ⟨fun arguments some_argument whole =>
    splitArguments_joined (joinedBy_intercalate isComma_spaced some_argument) whole, ?_⟩
  intro words text each joined
  have whole := fun w hw => (each w hw).1
  have plain := fun w hw => (each w hw).2
  exact ⟨splitWords_joined joined whole plain, splitWords_joined_comment joined whole plain⟩

/-- Separators, number signs, blanks and brackets in quotes and in brackets, a quote hidden by a
backslash, a bracket too many, and blanks of several kinds in a row. -/
theorem split_undoes_joining_marks :
    let arguments := ["'a, (b'".toList, "[1, \x7b\"x\": 2\x7d]".toList, "c d)".toList, "#".toList]
    let words := ["'a # \\' b'".toList, "\x7bx # y, z\x7d".toList, "c#d]".toList]
    let text := "'a # \\' b' \t \x7bx # y, z\x7d\u3000c#d]".toList
    (arguments ≠ [] ∧ ∀ a ∈ arguments, SelfContained (· == ',') a) ∧
      splitArguments "'a, (b', [1, \x7b\"x\": 2\x7d], c d), #".toList = .ok arguments ∧
      (∀ w ∈ words, SelfContained isBlank w ∧ w.head? ≠ some '#') ∧ JoinedBy IsBlanks words text ∧
      splitWords text = .ok (words, none) ∧
      splitWords (text ++ " #  e # f ".toList) = .ok (words, some "e # f".toList) := by
  intro arguments words text
  have some_argument : arguments ≠ [] := by simp [arguments]
  have argument : ∀ a ∈ arguments, SelfContained (· == ',') a := by decide
  have word : ∀ w ∈ words, SelfContained isBlank w ∧ w.head? ≠ some '#' := by decide
  have joined : JoinedBy IsBlanks words text :=
    @JoinedBy.cons _ _ [' ', '\t', ' '] _ _ (by decide) <|
      @JoinedBy.cons _ _ ['\u3000'] _ _ (by decide) (.single _)
  obtain ⟨args, line⟩ := split_undoes_joining
  obtain ⟨bare, commented⟩ := line words text word joined
  exact ⟨⟨some_argument, argument⟩, args arguments some_argument argument, word, joined, bare,
    commented "  e # f ".toList⟩

end PatchScript
