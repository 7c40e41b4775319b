import PatchScript.Proofs.Command.Arguments
import PatchScript.Proofs.Command.Blocks
import PatchScript.Proofs.Command.Calls
import PatchScript.Proofs.Expression.Names
import PatchScript.Proofs.Session.Pieces

/-!
# A request alone in a text

A line or a call may be all that a text holds. With the default settings nothing else is found in
it then: no block begins in it, the call is no line, and the line holds no call, not even where its
path looks like the front of one.

## Main definitions

* `IsArgument`, `IsLineWord`, `IsPathWord` — what an argument of a call, a word of a line and the
  path of a line are made of
* `lineText`, `callText` — the texts of requests

## Main results

* `readText_callText` — a text that is one call
* `readText_lineText` — a text that is one line
-/

namespace PatchScript

open Text Settings

/-- The settings where none are given. -/
abbrev Settings.defaults : Settings := {}

variable {text path first : List Char} {words others : List (List Char)}

/-! ### Words and arguments -/

/-- What is decided of each character of a text, rather than of each character there is. -/
theorem Text.forall_mem_of_all {p : Char → Prop} [DecidablePred p]
    (h : text.all (p ·) = true) : ∀ c ∈ text, p c := by
  simpa using h

/-- Solid text of one line in which no block begins. -/
structure IsArgument (text : List Char) : Prop where
  solid : IsSolid text
  oneLine : ∀ c ∈ text, isLineBreak c = false
  noOpening : ¬ defaults.grammar.markers.opening <:+: text

/-- An argument in which no call begins. -/
structure IsLineWord (text : List Char) : Prop extends IsArgument text where
  noReceiver : ¬ defaults.grammar.receiver <:+: text

/-- Whether the character is a letter, a number character, an underscore, a point, a slash or a
hyphen. -/
def isPathChar (c : Char) : Bool := isWord c || c == '.' || c == '/' || c == '-'

/-- A path that is one word of such characters. -/
structure IsPathWord (path : List Char) : Prop where
  some_character : path ≠ []
  chars : ∀ c ∈ path, isPathChar c = true

instance (path : List Char) : Decidable (IsPathWord path) :=
  decidable_of_iff (path ≠ [] ∧ path.all isPathChar = true)
    ⟨fun h => ⟨h.1, List.all_eq_true.1 h.2⟩, fun h => ⟨h.1, List.all_eq_true.2 h.2⟩⟩

theorem isBlank_of_isLineBreak {c : Char} (h : isLineBreak c = true) : isBlank c = true := by
  simp only [isLineBreak, isBlank] at *
  grind

theorem isBlank_of_isPathChar {c : Char} (h : isPathChar c = true) : isBlank c = false := by
  by_contra blank
  have blank : isBlank c = true := Bool.not_eq_false _ ▸ blank
  simp only [isPathChar, isWord_of_isBlank blank, Bool.false_or, Bool.or_eq_true, beq_iff_eq] at h
  rcases h with (rfl | rfl) | rfl <;> cases blank

/-- No mark is such a character, and no divider or bracket of a block. -/
theorem isPathChar_of_foreign : ∀ c ∈ marks ++ [',', '#', '<'], isPathChar c = false :=
  forall_mem_of_all (by decide)

theorem isOrdinary_of_isPathChar {c : Char} (h : isPathChar c = true) : isOrdinary c = true := by
  have unmarked : marks.any isPathChar = false := List.any_eq_false.2 fun c hc => by
    simp [isPathChar_of_foreign c (List.mem_append_left _ hc)]
  exact isOrdinary_of_not_marks unmarked h

theorem IsPathWord.isArgument (h : IsPathWord path) : IsArgument path := by
  have lacks {c : Char} (foreign : c ∈ [',', '#', '<']) : c ∉ path := fun hc => by
    have here := h.chars c hc
    rw [isPathChar_of_foreign c (List.mem_append_right _ foreign)] at here
    cases here
  have notBlank (c : Char) (hc : c ∈ path) : isBlank c = false :=
    isBlank_of_isPathChar (h.chars c hc)
  refine ⟨.plain h.some_character (fun c hc => ?_) fun c hc => ?_, fun c hc => ?_, fun occurs => ?_⟩
  · exact isOrdinary_of_isPathChar (h.chars c hc)
  · have comma : c ≠ ',' := by rintro rfl; exact lacks (by decide) hc
    have sign : c ≠ '#' := by rintro rfl; exact lacks (by decide) hc
    simp [isDivider, notBlank c hc, comma, sign]
  · by_contra breaks
    have blank := isBlank_of_isLineBreak (Bool.not_eq_false _ ▸ breaks)
    rw [notBlank c hc] at blank
    cases blank
  · exact lacks (by decide) (occurs.subset (List.mem_cons_self .. : '<' ∈ _))

/-- The name of a verb is such a path, and so is the front of a call. -/
theorem LineVerb.isPathWord_name (verb : LineVerb) : IsPathWord verb.name.toList := by
  cases verb <;> decide +kernel

theorem CallMethod.isPathWord_front (method : CallMethod) :
    IsPathWord (defaults.grammar.receiver ++ method.name.toList) := by
  cases method <;> decide +kernel

/-! ### Texts in a row -/

section Rows

variable {marker separator : List Char}

/-- Texts around a separator that shares no character with the marker. -/
theorem not_infix_append_separator (hm : marker ≠ []) (hs : separator ≠ [])
    (lacks : ∀ c ∈ separator, c ∉ marker) (hfront : ¬ marker <:+: first)
    (hback : ¬ marker <:+: text) : ¬ marker <:+: first ++ (separator ++ text) := by
  induction separator generalizing first with
  | nil => exact absurd rfl hs
  | cons c separator ih =>
    obtain ⟨here, later⟩ := List.forall_mem_cons.1 lacks
    refine not_infix_append_cons here hfront ?_
    cases separator with
    | nil => exact hback
    | cons d separator =>
      have blank : ¬ marker <:+: [] := by simpa using hm
      exact ih (List.cons_ne_nil _ _) later blank

theorem not_infix_following (hm : marker ≠ []) (hs : separator ≠ [])
    (lacks : ∀ c ∈ separator, c ∉ marker) (hfirst : ¬ marker <:+: first)
    (hothers : ∀ t ∈ others, ¬ marker <:+: t) :
    ¬ marker <:+: first ++ following separator others := by
  induction others generalizing first with
  | nil => simpa [following] using hfirst
  | cons text others ih =>
    obtain ⟨here, later⟩ := List.forall_mem_cons.1 hothers
    rw [following_cons]
    exact not_infix_append_separator hm hs lacks hfirst (ih here later)

theorem forall_mem_following {p : Char → Prop} (hs : ∀ c ∈ separator, p c)
    (hothers : ∀ t ∈ others, ∀ c ∈ t, p c) : ∀ c ∈ following separator others, p c := by
  intro c hc
  obtain ⟨text, mem, hc⟩ := List.mem_flatMap.1 hc
  exact (List.mem_append.1 hc).elim (hs c) (hothers text mem c)

end Rows

/-! ### A call -/

/-- The text of a call with its arguments, the first of them apart. -/
def callText (method : CallMethod) (first : List Char) (others : List (List Char)) : List Char :=
  defaults.grammar.receiver ++ method.name.toList ++
    '(' :: (first ++ following [',', ' '] others ++ [')'])

section Call

variable {method : CallMethod} (hfirst : IsArgument first) (hothers : ∀ a ∈ others, IsArgument a)
include hfirst hothers

/-- No block begins in the text of a call. -/
theorem scanBlocks_callText :
    scanBlocks defaults.grammar.markers true (callText method first others) =
      ⟨[], callText method first others⟩ := by
  have blank : ¬ defaults.grammar.markers.opening <:+: [] := by decide
  have head : ¬ defaults.grammar.markers.opening <:+:
      defaults.grammar.receiver ++ method.name.toList :=
    method.isPathWord_front.isArgument.noOpening
  have arguments : ¬ defaults.grammar.markers.opening <:+:
      first ++ following [',', ' '] others :=
    not_infix_following (by decide) (by decide) (forall_mem_of_all (by decide)) hfirst.noOpening
      fun a ha => (hothers a ha).noOpening
  exact scanBlocks_of_not_infix (not_infix_append_cons (by decide) head
    (not_infix_append_cons (by decide) arguments blank))

/-- A call is no line. -/
theorem readLines_callText :
    readLines defaults.grammar.lineOpening (callText method first others) = Reading.empty := by
  funext n
  have oneLine : ∀ c ∈ callText method first others, isLineBreak c = false := by
    have head : ∀ c ∈ defaults.grammar.receiver ++ method.name.toList, isLineBreak c = false :=
      method.isPathWord_front.isArgument.oneLine
    have later : ∀ c ∈ following [',', ' '] others, isLineBreak c = false :=
      forall_mem_following (forall_mem_of_all (by decide)) fun a ha => (hothers a ha).oneLine
    simp only [callText, List.forall_mem_append, List.forall_mem_cons]
    exact ⟨List.forall_mem_append.1 head, rfl, ⟨hfirst.oneLine, later⟩, rfl, by simp⟩
  have start : ∃ rest, callText method first others = '_' :: rest := ⟨_, rfl⟩
  obtain ⟨rest, equal⟩ := start
  have prose : lineParts? [] (callText method first others) = none := by
    rw [equal]
    exact lineParts?_of_foreign (by decide) (by decide) _
  rw [readLines, lines_of_not_isLineBreak (by simp [equal]) oneLine, readEach, readLine,
    show defaults.grammar.lineOpening = [] from rfl, prose]
  rfl

/-- A call is the only one in its text. -/
theorem callSites_callText :
    callSites defaults.grammar.receiver (callText method first others) =
      [.closed method (callText method first others) (first ++ following [',', ' '] others)] := by
  have balanced : Balanced (first ++ following [',', ' '] others) :=
    hfirst.solid.balanced.append
      (balanced_following (.ordinary rfl (.ordinary rfl .nil)) fun a ha => (hothers a ha).solid)
  refine callSites_of_whole rfl ?_ balanced
  cases method <;> rfl

/-- A text that is one call is read as that call. -/
theorem readText_callText (n : Nat) :
    readText defaults.grammar true (callText method first others) n =
      readCall (.closed method (callText method first others)
        (first ++ following [',', ' '] others)) n := by
  rw [readText_of_scan (scanBlocks_callText hfirst hothers)]
  simp only [readEach, readLines_callText hfirst hothers, readCalls,
    callSites_callText hfirst hothers, Reading.empty_andThen]
  exact Reading.andThen_empty _

end Call

/-! ### A path in front of words -/

/-- A path may look like the front of a call, but no parenthesis follows it. -/
theorem callFront?_of_path {back : List Char} (chars : ∀ c ∈ path, isPathChar c = true)
    (noParenthesis : (back.dropWhile isBlank).head? ≠ some '(')
    (blank : ∀ c ∈ back.head?, c = ' ') :
    callFront? defaults.grammar.receiver (path ++ back) = none := by
  refine List.findSome?_eq_none_iff.2 fun method _ => ?_
  rw [methodFront?]
  set head := defaults.grammar.receiver ++ method.name.toList
  have noBlank : ' ' ∉ head := fun hc =>
    absurd (isBlank_of_isPathChar (method.isPathWord_front.chars _ hc)) (by decide)
  cases found : head.isPrefixOf? (path ++ back) with
  | none => rfl
  | some after =>
    -- the front ends inside the path, because it has no blank
    obtain ⟨more, hmore, rfl⟩ :
        ∃ more, (∀ c ∈ more, isPathChar c = true) ∧ after = more ++ back := by
      have equal := List.isPrefixOf?_eq_some_iff_append_eq.1 found
      rcases List.append_eq_append_iff.1 equal with ⟨more, rfl, rfl⟩ | ⟨more, rest, rfl⟩
      · exact ⟨more, (List.forall_mem_append.1 chars).2, rfl⟩
      · cases more with
        | nil => exact ⟨[], by simp, rfl⟩
        | cons c more =>
          obtain rfl := blank c rfl
          exact absurd (by rw [rest]; simp) noBlank
    have next : ((more ++ back).dropWhile isBlank).head? ≠ some '(' := by
      cases more with
      | nil => exact noParenthesis
      | cons c more =>
        have here := hmore c (List.mem_cons_self ..)
        rw [List.cons_append, List.dropWhile_cons_of_neg (by simp [isBlank_of_isPathChar here])]
        rintro equal
        obtain rfl := Option.some.inj equal
        exact absurd (isOrdinary_of_isPathChar here) (by decide)
    dsimp only
    split
    · next rest opened => exact absurd (by rw [opened]; rfl) next
    · rfl

/-! ### A line -/

/-- The text of a line: its verb, its path, and the words after it. -/
def lineText (verb : LineVerb) (path : List Char) (words : List (List Char)) : List Char :=
  verb.name.toList ++ ' ' :: (path ++ following [' '] words)

section Line

variable {verb : LineVerb} (hpath : IsPathWord path) (hwords : ∀ w ∈ words, IsLineWord w)
include hpath hwords

/-- No block begins in the text of a line. -/
theorem scanBlocks_lineText :
    scanBlocks defaults.grammar.markers true (lineText verb path words) =
      ⟨[], lineText verb path words⟩ := by
  have head : ¬ defaults.grammar.markers.opening <:+: verb.name.toList :=
    verb.isPathWord_name.isArgument.noOpening
  have rest : ¬ defaults.grammar.markers.opening <:+: path ++ following [' '] words :=
    not_infix_following (by decide) (by decide) (forall_mem_of_all (by decide))
      hpath.isArgument.noOpening fun w hw => (hwords w hw).noOpening
  exact scanBlocks_of_not_infix (not_infix_append_cons (by decide) head rest)

/-- The text of a line is one line. -/
theorem readLines_lineText :
    readLines defaults.grammar.lineOpening (lineText verb path words) =
      readLine [] (lineText verb path words) := by
  funext n
  have oneLine : ∀ c ∈ lineText verb path words, isLineBreak c = false := by
    have head : ∀ c ∈ verb.name.toList, isLineBreak c = false :=
      verb.isPathWord_name.isArgument.oneLine
    have later : ∀ c ∈ following [' '] words, isLineBreak c = false :=
      forall_mem_following (forall_mem_of_all (by decide)) fun w hw => (hwords w hw).oneLine
    simp only [lineText, List.forall_mem_append, List.forall_mem_cons]
    exact ⟨head, rfl, hpath.isArgument.oneLine, later⟩
  rw [readLines, lines_of_not_isLineBreak (by simp [lineText]) oneLine, readEach,
    show defaults.grammar.lineOpening = [] from rfl]
  exact Reading.andThen_empty _

/-- A line holds no call. -/
theorem callSites_lineText :
    callSites defaults.grammar.receiver (lineText verb path words) = [] := by
  have verbless : '_' ∉ verb.name.toList ++ [' '] := by cases verb <;> decide
  have head (rest : List Char) (suffix : rest <:+ verb.name.toList ++ [' ']) (h : rest ≠ []) :
      callFront? defaults.grammar.receiver (rest ++ (path ++ following [' '] words)) = none := by
    obtain ⟨c, rest, rfl⟩ := List.exists_cons_of_ne_nil h
    refine callFront?_eq_none fun front => ?_
    have begins : '_' = c := (List.cons_prefix_cons.1 front).1
    exact verbless (suffix.subset (begins ▸ List.mem_cons_self ..))
  have noParenthesis : ((following [' '] words).dropWhile isBlank).head? ≠ some '(' := by
    cases words with
    | nil => simp [following]
    | cons word words =>
      have solid := (hwords word (List.mem_cons_self ..)).solid
      obtain ⟨c, rest, rfl⟩ := List.exists_cons_of_ne_nil solid.ne_nil
      have notBlank := (trim_eq_self_iff.1 solid.trim_eq).1 c rfl
      have next : (following [' '] ((c :: rest) :: words)).dropWhile isBlank =
          c :: (rest ++ following [' '] words) := by
        rw [following_cons, List.cons_append, List.nil_append, List.dropWhile_cons_of_pos rfl,
          List.cons_append, List.dropWhile_cons_of_neg (by simp [notBlank])]
      rw [next]
      exact solid.head?_ne (by decide) (.inl rfl)
  have blank : ∀ c ∈ (following [' '] words).head?, c = ' ' := by
    cases words with
    | nil => simp [following]
    | cons word words => simp [following_cons]
  have ofPath (rest : List Char) (suffix : rest <:+ path) (_ : rest ≠ []) :
      callFront? defaults.grammar.receiver (rest ++ following [' '] words) = none :=
    callFront?_of_path (fun c hc => hpath.chars c (suffix.subset hc)) noParenthesis blank
  have ofWords : ¬ defaults.grammar.receiver <:+: [] ++ following [' '] words :=
    not_infix_following (by decide) (by decide) (forall_mem_of_all (by decide)) (by decide)
      fun w hw => (hwords w hw).noReceiver
  have text : lineText verb path words =
      (verb.name.toList ++ [' ']) ++ (path ++ following [' '] words) := by simp [lineText]
  rw [text, callSites_append head, callSites_append ofPath]
  exact callSites_of_not_infix ofWords

/-- A text that is one line is read as that line. -/
theorem readText_lineText (n : Nat) :
    readText defaults.grammar true (lineText verb path words) n =
      readLine [] (lineText verb path words) n := by
  have noCalls : readCalls defaults.grammar.receiver (lineText verb path words) =
      Reading.empty := by
    funext n
    rw [readCalls, callSites_lineText hpath hwords]
    rfl
  rw [readText_of_scan (scanBlocks_lineText hpath hwords)]
  simp only [readEach, readLines_lineText hpath hwords, noCalls, Reading.empty_andThen]
  exact Reading.andThen_empty _

omit hpath hwords in
/-- The verb at the front of a line, where a blank and no other one follows it. -/
theorem verbParts?_lineText {rest : List Char} (trimmed : trim rest = rest) (filled : rest ≠ []) :
    verbParts? (verb.name.toList ++ ' ' :: rest) = some (verb, rest) := by
  have letters (c : Char) (hc : c ∈ verb.name.toList) : isBlank c = false :=
    isBlank_of_isPathChar (verb.isPathWord_name.chars c hc)
  have left : trimLeft (verb.name.toList ++ ' ' :: rest) = verb.name.toList ++ ' ' :: rest := by
    cases verb <;> rfl
  have word : (verb.name.toList ++ ' ' :: rest).takeWhile (!isBlank ·) = verb.name.toList := by
    rw [List.takeWhile_append_of_pos fun c hc => by simp [letters c hc],
      List.takeWhile_cons_of_neg (by decide), List.append_nil]
  have known : LineVerb.ofName? verb.name = some verb := by cases verb <;> decide
  have behind : trim (' ' :: rest) = rest := trimmed
  rw [verbParts?, left, word, List.drop_left, behind, String.ofList_toList, known]
  obtain ⟨c, rest, rfl⟩ := List.exists_cons_of_ne_nil filled
  rfl

/-- The verb of a line, and what follows it. -/
theorem lineParts?_lineText :
    lineParts? [] (lineText verb path words) = some (verb, path ++ following [' '] words) := by
  have first := hpath.isArgument.solid
  have trimmed : trim (path ++ following [' '] words) = path ++ following [' '] words :=
    trim_following first fun w hw => (hwords w hw).solid
  have filled : path ++ following [' '] words ≠ [] := by simp [hpath.some_character]
  have noBlank : (lineText verb path words).takeWhile isBlank = [] := by cases verb <;> rfl
  rw [lineParts?, noBlank]
  simp only [List.length_nil, Nat.zero_add, List.range_one, List.reverse_singleton,
    List.findSome?_singleton, List.drop_zero, List.isPrefixOf?, Option.bind_some]
  exact verbParts?_lineText trimmed filled

/-- No blank stands before or behind a line. -/
theorem trim_lineText : trim (lineText verb path words) = lineText verb path words := by
  have solidVerb : IsSolid verb.name.toList := verb.isPathWord_name.isArgument.solid
  have solid : ∀ w ∈ path :: words, IsSolid w :=
    List.forall_mem_cons.2 ⟨hpath.isArgument.solid, fun w hw => (hwords w hw).solid⟩
  have row : lineText verb path words = verb.name.toList ++ following [' '] (path :: words) := by
    simp [lineText, following_cons]
  rw [row, trim_following solidVerb solid]

/-- The path and the values of a line, where no word is left out. -/
theorem read_lineText {values : List Value} (noFiller : withoutFiller words = words)
    (read : words.mapM readLiteral = .ok values) :
    LineWords.read verb (path ++ following [' '] words) =
      .ok ⟨String.ofList path, words, values, none⟩ := by
  have split := splitWords_following hpath.isArgument.solid fun w hw => (hwords w hw).solid
  simp only [LineWords.read, split, ok_bind, noFiller, read]
  rfl

end Line

end PatchScript
