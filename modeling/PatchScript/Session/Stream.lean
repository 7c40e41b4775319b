import PatchScript.Command.Text

/-!
# Streams

A text may arrive in pieces. A block takes effect as soon as it is closed, unless every command is
to wait for the end; lines and calls always wait, because a line may still be growing. Meanwhile
only text outside the blocks is shown, up to the first marker that opens a block and without an end
that may turn out to be the beginning of such a marker.

## Main definitions

* `Markers.shown`, `Markers.shownSoFar`: the text to show.
* `TextStream`: a text of which more may arrive.
* `TextStream.feed`, `TextStream.finish`: a piece arrives, and the text ends.
-/

namespace PatchScript

/-! ### What is shown -/

namespace Markers

/-- The text without its closed blocks. -/
def withoutBlocks (m : Markers) (text : List Char) : List Char :=
  let (blocks, tail) := m.closedBlocks text
  (blocks.map Block.before).flatten ++ tail

/-- The text without the longest ending that is a beginning of the opening marker, but not all of
it. -/
def withoutPartial (m : Markers) (text : List Char) : List Char :=
  let lengths := (List.range (min (m.opening.length - 1) text.length)).reverse
  (lengths.findSome? fun n => Text.withoutSuffix? (m.opening.take (n + 1)) text).getD text

/-- The text to show when no more of it will arrive. -/
def shown (m : Markers) (text : List Char) : List Char :=
  let outside := m.withoutBlocks text
  match Text.cut? m.opening outside with
  | some (before, _) => before
  | none => outside

/-- The text to show while more of it may arrive. -/
def shownSoFar (m : Markers) (text : List Char) : List Char :=
  let outside := m.withoutBlocks text
  match Text.cut? m.opening outside with
  | some (before, _) => before
  | none => m.withoutPartial outside

end Markers

/-! ### Streams -/

/-- A text of which more may arrive. -/
structure TextStream where
  /-- Whether blocks take effect before the end. -/
  applyBlocks : Bool := true
  /-- All that has arrived. -/
  text : List Char := []
  /-- The texts in front of the blocks that have taken effect. -/
  pieces : List (List Char) := []
  /-- The text after the last block that has taken effect. -/
  pending : List Char := []
  finished : Bool := false
deriving DecidableEq

/-- Why a piece of text is not accepted. -/
inductive StreamFault where
  | finished
deriving DecidableEq

/-- The wording of a fault. -/
def StreamFault.message : StreamFault → String
  | .finished => "stream already finished"

/-- What a delivery shows, and what is read from it. -/
structure Delivery where
  shown : List Char
  reading : Reading
deriving DecidableEq

namespace TextStream

/-- The stream with more text. -/
def push (s : TextStream) (piece : List Char) : TextStream :=
  { s with text := s.text ++ piece, pending := s.pending ++ piece }

/-- A piece of text arrives. Blocks that are closed now take effect. -/
def feed (g : TextGrammar) (s : TextStream) (piece : List Char) (next : Nat) :
    Except StreamFault (TextStream × Delivery) :=
  if s.finished then .error .finished
  else
    let s := s.push piece
    let shown := g.markers.shownSoFar s.text
    if s.applyBlocks then
      let (blocks, tail) := g.markers.closedBlocks s.pending
      let reading := readEach (readBlock g.atomicLists) (blocks.map Block.body) next
      .ok ({ s with pieces := s.pieces ++ blocks.map Block.before, pending := tail },
        ⟨shown, reading⟩)
    else .ok (s, ⟨shown, .empty next⟩)

/-- The text that has not taken effect yet. The places of the blocks that have count as ends of
lines. -/
def remaining (s : TextStream) : List Char := joinLines (s.pieces ++ [s.pending])

/-- The text ends. All that has not taken effect yet is read. -/
def finish (g : TextGrammar) (s : TextStream) (next : Nat) : TextStream × Delivery :=
  ({ s with finished := true }, ⟨g.markers.shown s.text, readText g true s.remaining next⟩)

end TextStream

end PatchScript
