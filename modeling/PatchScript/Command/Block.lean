import PatchScript.Command.Basic
import PatchScript.Json.Reader
import PatchScript.Operation.Form
import PatchScript.Text.Find
import PatchScript.Text.Word

/-!
# Blocks

A block stands between an opening and a closing marker. The first opening marker opens a block, and
the first closing marker after it closes it. An opening marker that is never closed opens a block
that runs to the end of the text. Every other part of the text is outside the blocks.

The body of a block is JSON: an operation, a list of operations, or a mapping with a list of
operations. A list is a batch. From a batch of all or nothing no item may be missing, so one that is
invalid drops them all.

## Main definitions

* `Block`, `closedBlocks`: the closed blocks of a text.
* `BlockScan`, `scanBlocks`: the bodies of all blocks, and the rest of the text.
* `readBlock`: the commands of a block.
-/

namespace PatchScript

/-! ### Markers -/

/-- What opens and closes a block. -/
structure Markers where
  opening : List Char
  closing : List Char
deriving DecidableEq

/-- A closed block, and the text before it up to the block before. -/
structure Block where
  before : List Char
  body : List Char
deriving DecidableEq

namespace Markers

/-- The length of a block with its markers. -/
def span (m : Markers) (b : Block) : Nat :=
  m.opening.length + b.body.length + m.closing.length

/-- The first closed block of a text, and the text after it. -/
def nextBlock? (m : Markers) (text : List Char) : Option (Block × List Char) :=
  match Text.cut? m.opening text with
  | none => none
  | some (before, opened) =>
    match Text.cut? m.closing opened with
    | none => none
    | some (body, rest) => some (⟨before, body⟩, rest)

/-- Cutting out a block loses nothing. -/
theorem length_of_nextBlock? {m : Markers} {text rest : List Char} {b : Block}
    (h : m.nextBlock? text = some (b, rest)) :
    text.length = b.before.length + m.span b + rest.length := by
  unfold nextBlock? at h
  split at h
  · cases h
  · next before opened hopen =>
    split at h
    · cases h
    · next body after hclose =>
      simp only [Option.some.injEq, Prod.mk.injEq] at h
      obtain ⟨rfl, rfl⟩ := h
      have hopen := congrArg List.length (Text.eq_append_of_cut? hopen)
      have hclose := congrArg List.length (Text.eq_append_of_cut? hclose)
      simp only [List.length_append] at hopen hclose
      simp only [span]
      omega

/-- The closed blocks of a text, and the text after the last one. Without an opening marker there
are none. -/
def closedBlocks (m : Markers) (text : List Char) : List Block × List Char :=
  if m.opening = [] then ([], text)
  else
    match _found : m.nextBlock? text with
    | none => ([], text)
    | some (b, rest) =>
      let (blocks, tail) := closedBlocks m rest
      (b :: blocks, tail)
termination_by text.length
decreasing_by
  have := length_of_nextBlock? _found
  have : 0 < m.opening.length := List.length_pos_iff.2 ‹_›
  simp only [span] at *
  omega

end Markers

/-- The bodies of the blocks of a text, and the text without the blocks. -/
structure BlockScan where
  bodies : List (List Char)
  remainder : List Char
deriving DecidableEq

/-- The pieces with a line feed between neighbours. -/
def joinLines : List (List Char) → List Char
  | [] => []
  | [piece] => piece
  | piece :: rest => piece ++ '\n' :: joinLines rest

/-- Takes the blocks out of a text. With `flush` the block that is open at the end counts as one;
without it the block is left out altogether. -/
def scanBlocks (m : Markers) (flush : Bool) (text : List Char) : BlockScan :=
  let (blocks, tail) := m.closedBlocks text
  let bodies := blocks.map Block.body
  let pieces := blocks.map Block.before
  match Text.cut? m.opening tail with
  | none => ⟨bodies, joinLines (pieces ++ [tail])⟩
  | some (before, opened) =>
    ⟨if flush then bodies ++ [opened] else bodies, joinLines (pieces ++ [before])⟩

/-! ### Bodies -/

/-- The marks of a fence. -/
def fenceMark : List Char := "```".toList

/-- The content of fenced text: the marks stand at both ends, and the name of a language may follow
the first ones. -/
def fenced? (content : List Char) : Option (List Char) :=
  match fenceMark.isPrefixOf? content with
  | none => none
  | some named =>
    let inner := (named.dropWhile fun c => Text.isWord c || c == '-').dropWhile Text.isBlank
    Text.withoutSuffix? fenceMark inner

/-- The body of a block without the blanks and the fence around it. -/
def blockContent (body : List Char) : List Char :=
  let content := Text.trim body
  match fenced? content with
  | some inner => Text.trim inner
  | none => content

/-- Reads the items of a block as operations. An item that is invalid is dropped, and with it the
whole batch if that is all or nothing. -/
def readItems (source : List Char) (tag : Option BatchTag) (items : List Value) (next : Nat) :
    Reading :=
  let read (item : Value × Nat) : Nat → Reading :=
    match Operation.ofValue item.1 with
    | .ok o => Reading.found .block source tag [o]
    | .error problems =>
      Reading.dropped .block (Json.print item.1)
        ("invalid operation #" ++ toString item.2 ++ " (" ++ toString problems.length ++
          " error(s))")
  let isValid (item : Value × Nat) : Bool := (Operation.ofValue item.1).isOk
  if (tag.map (·.atomic)).getD false then
    match items.zipIdx.find? (!isValid ·) with
    | none => readEach read items.zipIdx next
    | some item => (read item next).andThen (Reading.dropped .block source "atomic batch dropped")
  else readEach read items.zipIdx next

/-- Reads the body of a block. A blank one holds nothing. -/
def readBlock (atomicLists : Bool) (body : List Char) (next : Nat) : Reading :=
  let content := blockContent body
  let batch (items : List Value) (atomic : Bool) : Reading :=
    readItems content (some ⟨next, atomic⟩) items (next + 1)
  let unexpected : Reading :=
    Reading.dropped .block content
      "expected an operation, a list of operations or an operations object" next
  if content.isEmpty then .empty next
  else
    match Json.read content with
    | .error e => .dropped .block content ("malformed JSON (" ++ e.message ++ ")") next
    | .ok (.list items) => batch items atomicLists
    | .ok (.mapping m) =>
      if Mapping.hasKey m "op" then readItems content none [.mapping m] next
      else
        match Mapping.get? m "operations" with
        | some (.list items) =>
          batch items (((Mapping.get? m "atomic").map Value.isTruthy).getD false)
        | _ => unexpected
    | .ok _ => unexpected

end PatchScript
