import PatchScript.Command.Block
import PatchScript.Command.Call
import PatchScript.Session.Settings

/-!
# Commands of a text

All blocks of a text come first, then the lines and then the calls of what is left of it. The places
of the blocks count as ends of lines.

## Main definitions

* `TextGrammar`: how commands are written, as the settings say.
* `readText`: the commands of a text.
-/

namespace PatchScript

/-- How commands are written. -/
structure TextGrammar where
  markers : Markers
  lineOpening : List Char
  receiver : List Char
  atomicLists : Bool
deriving DecidableEq

/-- How commands are written according to the settings. -/
def Settings.grammar (s : Settings) : TextGrammar :=
  { markers := ⟨s.blockStart.toList, s.blockEnd.toList⟩
    lineOpening := s.lineOpening.toList
    receiver := s.receiver.toList
    atomicLists := s.atomicBlocks }

/-- Reads the commands of a text. -/
def readText (g : TextGrammar) (flush : Bool) (text : List Char) (next : Nat) : Reading :=
  let scan := scanBlocks g.markers flush text
  ((readEach (readBlock g.atomicLists) scan.bodies next).andThen
    (readLines g.lineOpening scan.remainder)).andThen
    (readCalls g.receiver scan.remainder)

end PatchScript
