import PatchScript.Proofs.Command.BlankLines
import PatchScript.Proofs.Command.Blocks
import PatchScript.Proofs.Session.Release

/-!
# Blocks among lines

The commands of a text are ordered by the surface on which they are given and not by their places:
first those of all blocks, then those of all lines, then all calls. So it does not matter where
among the lines the blocks stand. Cutting a block out leaves a line feed where a line starts, which
is an empty line; the lines are the same otherwise, and so are the calls that lie within one line.

## Main definitions

* `Interleaves` — the texts that are made of given blocks and lines
* `readGrouped` — the blocks, the lines and the calls, one surface after the other

## Main results

* `Interleaves.scanBlocks_eq` — the blocks of such a text, and its lines with empty ones among them
* `commands_readText_interleaved` — all of these texts give the same commands
-/

namespace PatchScript

open TextStream (usualGrammar)

variable {m : Markers} {body text : List Char} {bodies lines : List (List Char)}

/-! ### Blocks and lines at the front of a text -/

namespace Markers

/-- The text of a block: its body between the markers. -/
def enclose (m : Markers) (body : List Char) : List Char := m.opening ++ (body ++ m.closing)

/-- Whether the closing marker behind a body is the first one. -/
def Closes (m : Markers) (body : List Char) : Prop :=
  Text.cut? m.closing (body ++ m.closing) = some (body, [])

instance (m : Markers) (body : List Char) : Decidable (m.Closes body) :=
  inferInstanceAs (Decidable (_ = _))

theorem nextBlock?_enclose (hm : m.opening ≠ []) (closes : m.Closes body) (text : List Char) :
    m.nextBlock? (m.enclose body ++ text) = some (⟨[], body⟩, text) := by
  refine nextBlock?_eq_some_iff.2 ⟨body ++ m.closing ++ text, ?_, ?_⟩
  · rw [enclose, List.append_assoc]
    exact Text.cut?_marker_append hm _
  · exact Text.cut?_append closes text

theorem nextBlock?_line {line : List Char} (hline : '\n' ∉ m.opening)
    (outside : ¬ m.opening <:+: line) (text : List Char) :
    m.nextBlock? (line ++ '\n' :: text) =
      (m.nextBlock? text).map fun found =>
        (⟨line ++ '\n' :: found.1.before, found.1.body⟩, found.2) := by
  rw [nextBlock?, nextBlock?, Text.cut?_append_cons hline outside]
  cases Text.cut? m.opening text with
  | none => rfl
  | some found =>
    obtain ⟨before, opened⟩ := found
    cases h : Text.cut? m.closing opened <;> simp [h]

end Markers

/-- A block at the front leaves a line feed. -/
theorem scanBlocks_enclose (hm : m.opening ≠ []) (closes : m.Closes body) (text : List Char) :
    scanBlocks m true (m.enclose body ++ text) =
      ⟨body :: (scanBlocks m true text).bodies, '\n' :: (scanBlocks m true text).remainder⟩ := by
  rw [scanBlocks_eq, scanBlocks_eq,
    Markers.closedBlocks_of_some hm (Markers.nextBlock?_enclose hm closes text)]
  simp [joinLines_cons]

/-- A line at the front stays there. -/
theorem scanBlocks_line {line : List Char} (hline : '\n' ∉ m.opening)
    (outside : ¬ m.opening <:+: line) (text : List Char) :
    scanBlocks m true (line ++ '\n' :: text) =
      ⟨(scanBlocks m true text).bodies, line ++ '\n' :: (scanBlocks m true text).remainder⟩ := by
  have hm : m.opening ≠ [] := fun empty => outside (empty ▸ List.nil_infix)
  have next := Markers.nextBlock?_line hline outside text
  rw [scanBlocks_eq, scanBlocks_eq]
  cases found : m.nextBlock? text with
  | none =>
    rw [found] at next
    have opened : Text.cut? m.opening (line ++ '\n' :: text) = _ :=
      Text.cut?_append_cons hline outside
    rw [Markers.closedBlocks_of_none next, Markers.closedBlocks_of_none found, openBodies,
      closedFront, opened, openBodies, closedFront]
    cases Text.cut? m.opening text <;> simp [joinLines]
  | some found' =>
    obtain ⟨b, rest⟩ := found'
    rw [found] at next
    rw [Markers.closedBlocks_of_some hm next, Markers.closedBlocks_of_some hm found]
    simp [joinLines_cons]

/-! ### Interleaved texts -/

/-- The text is made of blocks with the given bodies and of the given lines, each in their order. A
block stands where a line starts. What comes next follows it at once, or starts a line of its
own. -/
inductive Interleaves (m : Markers) : List (List Char) → List (List Char) → List Char → Prop
  | nil : Interleaves m [] [] []
  | block {bodies lines : List (List Char)} {text : List Char} (body : List Char) :
      Interleaves m bodies lines text →
        Interleaves m (body :: bodies) lines (m.enclose body ++ text)
  | blockLine {bodies lines : List (List Char)} {text : List Char} (body : List Char) :
      Interleaves m bodies lines text →
        Interleaves m (body :: bodies) lines (m.enclose body ++ '\n' :: text)
  | line {bodies lines : List (List Char)} {text : List Char} (line : List Char) :
      Interleaves m bodies lines text → Interleaves m bodies (line :: lines) (line ++ '\n' :: text)

/-- The text of lines, each with its line feed. -/
def proseText (lines : List (List Char)) : List Char := lines.flatMap (· ++ ['\n'])

theorem proseText_cons (line : List Char) (lines : List (List Char)) :
    proseText (line :: lines) = line ++ '\n' :: proseText lines := by
  simp [proseText]

/-- The second list has further empty lines. -/
inductive WithBlankLines : List (List Char) → List (List Char) → Prop
  | nil : WithBlankLines [] []
  | line {lines lines' : List (List Char)} (line : List Char) :
      WithBlankLines lines lines' → WithBlankLines (line :: lines) (line :: lines')
  | blank {lines lines' : List (List Char)} :
      WithBlankLines lines lines' → WithBlankLines lines ([] :: lines')

/-- Cut out, the blocks leave the lines with empty ones among them. -/
theorem Interleaves.scanBlocks_eq (interleaved : Interleaves m bodies lines text)
    (hm : m.opening ≠ []) (hline : '\n' ∉ m.opening) (closed : ∀ body ∈ bodies, m.Closes body)
    (outside : ∀ line ∈ lines, ¬ m.opening <:+: line) :
    ∃ lines', WithBlankLines lines lines' ∧
      scanBlocks m true text = ⟨bodies, proseText lines'⟩ := by
  induction interleaved with
  | nil => exact ⟨[], .nil, scanBlocks_of_not_infix (by simpa using hm)⟩
  | block body _ ih =>
    obtain ⟨closes, closed⟩ := List.forall_mem_cons.1 closed
    obtain ⟨lines', blank, scan⟩ := ih closed outside
    refine ⟨[] :: lines', .blank blank, ?_⟩
    rw [scanBlocks_enclose hm closes, scan, proseText_cons]
    rfl
  | blockLine body _ ih =>
    obtain ⟨closes, closed⟩ := List.forall_mem_cons.1 closed
    obtain ⟨lines', blank, scan⟩ := ih closed outside
    have feed := scanBlocks_line hline (show ¬ m.opening <:+: [] by simpa using hm)
    refine ⟨[] :: [] :: lines', .blank (.blank blank), ?_⟩
    rw [scanBlocks_enclose hm closes, ← List.nil_append ('\n' :: _), feed, scan, proseText_cons,
      proseText_cons]
    rfl
  | line line _ ih =>
    obtain ⟨here, outside⟩ := List.forall_mem_cons.1 outside
    obtain ⟨lines', blank, scan⟩ := ih closed outside
    exact ⟨line :: lines', .line line blank, by
      rw [scanBlocks_line hline here, scan, proseText_cons]⟩

/-! ### Empty lines among the lines -/

theorem Spaced.append {x y : List Char} (spaced : Spaced true x y) (start : Bool)
    (line : List Char) : Spaced start (line ++ '\n' :: x) (line ++ '\n' :: y) := by
  induction line generalizing start with
  | nil => exact .char '\n' spaced
  | cons c line ih => exact .char c (ih _)

theorem WithBlankLines.spaced {lines' : List (List Char)} (blank : WithBlankLines lines lines') :
    Spaced true (proseText lines) (proseText lines') := by
  induction blank with
  | nil => exact .nil true
  | line line _ ih =>
    rw [proseText_cons, proseText_cons]
    exact ih.append true line
  | blank _ ih =>
    rw [proseText_cons]
    exact .blank ih

/-- An empty line is no command. -/
theorem readLine_nil (opening : List Char) (n : Nat) : readLine opening [] n = .empty n := by
  have prose : lineParts? opening [] = none := by
    cases opening <;> simp [lineParts?, verbParts?, Text.trim, Text.trimLeft, Text.trimRight]
  rw [readLine, prose]

theorem WithBlankLines.readLines_eq {lines' : List (List Char)}
    (blank : WithBlankLines lines lines') (opening : List Char) (n : Nat) :
    readLines opening (proseText lines') n = readLines opening (proseText lines) n := by
  induction blank generalizing n with
  | nil => rfl
  | line line _ ih =>
    simp only [readLines, proseText_cons] at ih ⊢
    rw [Text.lines_append_lineFeed line (proseText _),
      Text.lines_append_lineFeed line (proseText _), readEach_append, readEach_append]
    exact congrArg _ (funext ih)
  | blank _ ih =>
    simp only [readLines, proseText_cons] at ih ⊢
    rw [Text.lines_append_lineFeed, readEach_append]
    simp [Text.lines, readEach, readLine_nil, ih, Text.isLineBreak]

/-! ### The order of the commands -/

/-- Reads the blocks, then the lines of a text, then its calls. -/
def readGrouped (g : TextGrammar) (bodies : List (List Char)) (prose : List Char) (n : Nat) :
    Reading :=
  ((readEach (readBlock g.atomicLists) bodies n).andThen (readLines g.lineOpening prose)).andThen
    (readCalls g.receiver prose)

/-- **The order of the commands does not hang on their places.** However closed blocks stand among
lines that hold no opening marker and in which every closed call lies within one line, the text
gives the commands of the blocks, then those of the lines, then those of the calls. -/
theorem commands_readText_interleaved
    (interleaved : Interleaves usualGrammar.markers bodies lines text)
    (closed : ∀ body ∈ bodies, usualGrammar.markers.Closes body)
    (outside : ∀ line ∈ lines, ¬ usualGrammar.markers.opening <:+: line)
    (within : ∀ site ∈ callSites usualGrammar.receiver (proseText lines), site.OnOneLine)
    (n : Nat) :
    (readText usualGrammar true text n).commands =
      (readGrouped usualGrammar bodies (proseText lines) n).commands := by
  obtain ⟨lines', blank, scan⟩ :=
    interleaved.scanBlocks_eq (by decide) (by decide) closed outside
  rw [readText, scan, readGrouped]
  simp only [Reading.andThen, blank.readLines_eq]
  rw [commands_readCalls_spaced (by decide) (by decide) blank.spaced within]

/-- A block between two lines, the second of which holds a call. -/
theorem commands_readText_block_between_lines :
    let body := "[\x7b\"op\":\"remove\",\"path\":\"a\"\x7d]".toList
    let lines := ["set b 1".toList, "see _.add('c', 2)".toList]
    let text := lines[0] ++ '\n' :: (usualGrammar.markers.enclose body ++ (lines[1] ++ ['\n']))
    (∀ line ∈ lines, ¬ usualGrammar.markers.opening <:+: line) ∧
      (readText usualGrammar true text 0).commands =
        (readGrouped usualGrammar [body] (proseText lines) 0).commands := by
  intro body lines text
  have outside : ∀ line ∈ lines, ¬ usualGrammar.markers.opening <:+: line := by decide
  have interleaved : Interleaves usualGrammar.markers [body] lines text :=
    .line _ (.block body (.line _ .nil))
  exact ⟨outside, commands_readText_interleaved interleaved (by decide) outside (by decide) 0⟩

end PatchScript
