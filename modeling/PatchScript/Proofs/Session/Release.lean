import PatchScript.Proofs.Session.Pieces
import Mathlib.Data.List.Perm.Subperm

/-!
# What a stream releases

A host may feed a stream and finish it as often as it likes, in any order. What the calls release
together should be no more than the commands of the text that has arrived, each of them once.

Feeding keeps this up: a block takes effect when it is closed, and never again. Finishing does not
remember that it has released what was left, so every further time releases the same commands
again. A stream therefore releases commands twice exactly when it is finished more than once and
something was left. (Where a line feed stands in the opening marker, the line feeds between the
pieces that are left may complete a marker that the text does not have, and then already the first
time may release too much.)

Batches are numbered anew whenever something is read again, so commands are compared without these
numbers.

## Main definitions

* `StreamCall`, `TextStream.serve` — what hosts do with a stream, and what it releases
* `Command.unnumbered`, `Reading.unnumbered` — commands without the number of their batch
* `TextStream.ReleasesOnce` — no command is released twice

## Main results

* `unnumbered_readText` — a text has the same commands whatever the batches are numbered from
* `TextStream.serve_eq` — the commands of the blocks that were closed, and what is left, once for
  every time the stream is finished
* `TextStream.releasesOnce_iff` — the headline: when no command is released twice
-/

namespace PatchScript

/-! ### Commands without numbers -/

/-- A command without the number of its batch. -/
def Command.unnumbered (c : Command) : Command :=
  { c with batch := c.batch.map fun tag => { tag with group := 0 } }

/-- The commands of a reading without the numbers of their batches. -/
def Reading.unnumbered (r : Reading) : List Command := r.commands.map Command.unnumbered

namespace Reading

theorem unnumbered_andThen (r : Reading) (more : Nat → Reading) :
    (r.andThen more).unnumbered = r.unnumbered ++ (more r.next).unnumbered := by
  simp [unnumbered, andThen]

theorem unnumbered_empty (n : Nat) : (Reading.empty n).unnumbered = [] := rfl

theorem unnumbered_found (surface : Surface) (source : List Char) (i j : Nat) (atomic : Bool)
    (operations : List Operation) (n m : Nat) :
    (Reading.found surface source (some ⟨i, atomic⟩) operations n).unnumbered =
      (Reading.found surface source (some ⟨j, atomic⟩) operations m).unnumbered := by
  simp [unnumbered, found, Command.unnumbered]

theorem unnumbered_request (surface : Surface) (source : List Char) (operations : List Operation)
    (n m : Nat) :
    (Reading.request surface source operations n).unnumbered =
      (Reading.request surface source operations m).unnumbered := by
  rw [request, request]
  split
  · rfl
  · exact unnumbered_found surface source n m true operations _ _

end Reading

/-- Where every part has the same commands, the whole list has. -/
theorem unnumbered_readEach {α : Type} {read read' : α → Nat → Reading}
    (h : ∀ a n m, (read a n).unnumbered = (read' a m).unnumbered) (l : List α) (n m : Nat) :
    (readEach read l n).unnumbered = (readEach read' l m).unnumbered := by
  induction l generalizing n m with
  | nil => rfl
  | cons a rest ih =>
    rw [readEach, readEach, Reading.unnumbered_andThen, Reading.unnumbered_andThen, h a n m]
    exact congrArg _ (ih _ _)

theorem unnumbered_readItem (source : List Char) {tag tag' : Option BatchTag}
    (h : tag.map (·.atomic) = tag'.map (·.atomic)) (item : Value × Nat) (n m : Nat) :
    (readItem source tag item n).unnumbered = (readItem source tag' item m).unnumbered := by
  rw [readItem, readItem]
  cases Operation.ofValue item.1 with
  | error problems => rfl
  | ok o =>
    cases tag with
    | none =>
      obtain rfl : tag' = none := by simpa using h.symm
      rfl
    | some t =>
      obtain ⟨t', rfl, atomic⟩ : ∃ t', tag' = some t' ∧ t'.atomic = t.atomic := by
        simpa using h.symm
      obtain ⟨i, a⟩ := t
      obtain ⟨j, a'⟩ := t'
      obtain rfl : a' = a := atomic
      exact Reading.unnumbered_found .block source i j a' [o] n m

theorem unnumbered_readItems (source : List Char) (tag tag' : Option BatchTag)
    (h : tag.map (·.atomic) = tag'.map (·.atomic)) (items : List Value) (n m : Nat) :
    (readItems source tag items n).unnumbered = (readItems source tag' items m).unnumbered := by
  rw [readItems_eq, readItems_eq, h]
  split
  · split
    · exact unnumbered_readEach (unnumbered_readItem source h) _ n m
    · rw [Reading.unnumbered_andThen, Reading.unnumbered_andThen, unnumbered_readItem source h]
      rfl
  · exact unnumbered_readEach (unnumbered_readItem source h) _ n m

theorem unnumbered_readBlock (atomicLists : Bool) (body : List Char) (n m : Nat) :
    (readBlock atomicLists body n).unnumbered = (readBlock atomicLists body m).unnumbered := by
  rw [readBlock_eq, readBlock_eq]
  cases BlockContent.ofBody atomicLists body with
  | blank => rfl
  | unusable message => rfl
  | operation item => exact unnumbered_readItems _ none none rfl [item] n m
  | batch items atomic =>
    exact unnumbered_readItems _ (some ⟨n, atomic⟩) (some ⟨m, atomic⟩) rfl items (n + 1) (m + 1)

theorem unnumbered_readLine (opening line : List Char) (n m : Nat) :
    (readLine opening line n).unnumbered = (readLine opening line m).unnumbered := by
  rw [readLine, readLine]
  cases lineParts? opening line with
  | none => rfl
  | some parts =>
    dsimp only
    cases lineRequest parts.1 parts.2 with
    | error fault => rfl
    | ok operations => exact Reading.unnumbered_request ..

theorem unnumbered_readCall (site : CallSite) (n m : Nat) :
    (readCall site n).unnumbered = (readCall site m).unnumbered := by
  cases site with
  | unterminated text => rfl
  | closed method source text =>
    simp only [readCall]
    split
    · rfl
    · exact Reading.unnumbered_request ..
    · exact Reading.unnumbered_found ..

/-- The commands of the lines and calls of a text. -/
def readProse (g : TextGrammar) (text : List Char) (n : Nat) : Reading :=
  (readLines g.lineOpening text n).andThen (readCalls g.receiver text)

theorem unnumbered_readProse (g : TextGrammar) (text : List Char) (n m : Nat) :
    (readProse g text n).unnumbered = (readProse g text m).unnumbered := by
  rw [readProse, readProse, Reading.unnumbered_andThen, Reading.unnumbered_andThen, readLines,
    readLines, readCalls, readCalls,
    unnumbered_readEach (unnumbered_readLine g.lineOpening) _ n m,
    unnumbered_readEach unnumbered_readCall _ _ (readEach (readLine g.lineOpening) _ m).next]

/-- The commands of the bodies of blocks. -/
def blockCommands (g : TextGrammar) (bodies : List (List Char)) : List Command :=
  (readEach (readBlock g.atomicLists) bodies 0).unnumbered

theorem unnumbered_readBlocks (g : TextGrammar) (bodies : List (List Char)) (n : Nat) :
    (readEach (readBlock g.atomicLists) bodies n).unnumbered = blockCommands g bodies :=
  unnumbered_readEach (unnumbered_readBlock g.atomicLists) bodies n 0

theorem blockCommands_append (g : TextGrammar) (front back : List (List Char)) :
    blockCommands g (front ++ back) = blockCommands g front ++ blockCommands g back := by
  rw [blockCommands, readEach_append, Reading.unnumbered_andThen, unnumbered_readBlocks,
    unnumbered_readBlocks]

/-- The commands of a text, whatever its batches are numbered from. -/
def textCommands (g : TextGrammar) (text : List Char) : List Command :=
  (readText g true text 0).unnumbered

theorem unnumbered_readText (g : TextGrammar) (text : List Char) (n : Nat) :
    (readText g true text n).unnumbered = textCommands g text := by
  have scan (n : Nat) : (readText g true text n).unnumbered =
      blockCommands g (scanBlocks g.markers true text).bodies ++
        (readProse g (scanBlocks g.markers true text).remainder 0).unnumbered := by
    have parts := readText_of_scan (g := g) (show scanBlocks g.markers true text = ⟨_, _⟩ from rfl)
    rw [parts, Reading.unnumbered_andThen, unnumbered_readBlocks]
    exact congrArg _ (unnumbered_readProse g _ _ 0)
  rw [scan, textCommands, scan]

/-- The commands of a text are those of its blocks, and then those of its lines and calls. -/
theorem textCommands_of_scan {g : TextGrammar} {text rest : List Char} {bodies : List (List Char)}
    (h : scanBlocks g.markers true text = ⟨bodies, rest⟩) :
    textCommands g text = blockCommands g bodies ++ (readProse g rest 0).unnumbered := by
  rw [textCommands, readText_of_scan h, Reading.unnumbered_andThen, unnumbered_readBlocks]
  exact congrArg _ (unnumbered_readProse g rest _ 0)

/-! ### Calls of a host -/

/-- What a host does with a stream. -/
inductive StreamCall where
  | feed (piece : List Char)
  | finish
deriving DecidableEq

/-- How often a stream is finished. -/
def StreamCall.finishes : List StreamCall → Nat
  | [] => 0
  | .feed _ :: rest => finishes rest
  | .finish :: rest => finishes rest + 1

/-- The text that arrives before a stream is finished. -/
def StreamCall.arriving : List StreamCall → List Char
  | .feed piece :: rest => piece ++ arriving rest
  | _ => []

namespace TextStream

/-- Serves the calls of a host. The result is the stream after them, and the commands that they
released, in order; a piece that is not accepted releases none. -/
def serve (g : TextGrammar) (stream : TextStream) : List StreamCall → Nat → TextStream × List Command
  | [], _ => (stream, [])
  | .feed piece :: rest, next =>
    match stream.feed g piece next with
    | .error _ => serve g stream rest next
    | .ok (stream, delivery) =>
      let (stream, released) := serve g stream rest delivery.reading.next
      (stream, delivery.reading.commands ++ released)
  | .finish :: rest, next =>
    let (stream, delivery) := stream.finish g next
    let (stream, released) := serve g stream rest delivery.reading.next
    (stream, delivery.reading.commands ++ released)

variable {g : TextGrammar} {stream : TextStream}

/-- The bodies of the blocks that take effect while `more` arrives. -/
def blocksAhead (g : TextGrammar) (stream : TextStream) (more : List Char) : List (List Char) :=
  if stream.applyBlocks then
    (g.markers.closedBlocks (stream.pending ++ more)).1.map Block.body
  else []

/-- The text that is left for the end once `more` has arrived. -/
def leftBehind (g : TextGrammar) (stream : TextStream) (more : List Char) : List Char :=
  if stream.applyBlocks then
    joinLines (stream.pieces ++
      (g.markers.closedBlocks (stream.pending ++ more)).1.map Block.before ++
        [(g.markers.closedBlocks (stream.pending ++ more)).2])
  else joinLines (stream.pieces ++ [stream.pending ++ more])

/-- A piece releases the blocks that it closes, and leaves the others ahead. -/
theorem feed_releases (h : stream.Waiting g) (piece : List Char) (n : Nat) :
    ∃ stream' delivery, stream.feed g piece n = .ok (stream', delivery) ∧ stream'.Waiting g ∧
      stream'.text = stream.text ++ piece ∧
      ∀ more, blockCommands g (stream.blocksAhead g (piece ++ more)) =
          delivery.reading.unnumbered ++ blockCommands g (stream'.blocksAhead g more) ∧
        stream.leftBehind g (piece ++ more) = stream'.leftBehind g more := by
  cases happly : stream.applyBlocks with
  | false =>
    refine ⟨stream.push piece, ⟨g.markers.shownSoFar (stream.push piece).text, .empty n⟩, ?_,
      ⟨h.finished_eq, by simp [push, happly]⟩, rfl, fun more => ⟨?_, ?_⟩⟩
    · simp [feed, h.finished_eq, push, happly]
    · simp [blocksAhead, push, happly, Reading.unnumbered_empty]
    · simp [leftBehind, push, happly]
  | true =>
    refine ⟨stream.advance g piece,
      ⟨g.markers.shownSoFar (stream.push piece).text, readEach (readBlock g.atomicLists)
        ((g.markers.closedBlocks (stream.pending ++ piece)).1.map Block.body) n⟩,
      ?_, ⟨rfl, fun _ => Markers.closedBlocks_tail g.markers _⟩, rfl, fun more => ⟨?_, ?_⟩⟩
    · simp [feed, h.finished_eq, push, happly, advance]
    · rw [unnumbered_readBlocks, ← blockCommands_append, blocksAhead, if_pos happly,
        ← List.append_assoc, Markers.closedBlocks_append, List.map_append]
      rfl
    · rw [leftBehind, if_pos happly, ← List.append_assoc, Markers.closedBlocks_append,
        List.map_append, ← List.append_assoc]
      rfl

/-- What is left is what the end reads. -/
theorem leftBehind_nil (h : stream.Waiting g) : stream.leftBehind g [] = stream.remaining := by
  rw [leftBehind, remaining, List.append_nil]
  split
  · simp [h.closedBlocks_pending ‹_›]
  · rfl

theorem blocksAhead_nil (h : stream.Waiting g) : stream.blocksAhead g [] = [] := by
  rw [blocksAhead, List.append_nil]
  split
  · simp [h.closedBlocks_pending ‹_›]
  · rfl

/-- A stream that is finished refuses every piece, and releases what was left once more whenever it
is finished again. -/
theorem serve_finished (h : stream.finished = true) (calls : List StreamCall) (n : Nat) :
    (stream.serve g calls n).1 = stream ∧
      (stream.serve g calls n).2.map Command.unnumbered =
        (List.replicate (StreamCall.finishes calls) (textCommands g stream.remaining)).flatten := by
  induction calls generalizing n with
  | nil => exact ⟨rfl, rfl⟩
  | cons call rest ih =>
    cases call with
    | feed piece =>
      have refused : stream.feed g piece n = .error .finished := by simp [feed, h]
      simpa only [serve, refused, StreamCall.finishes] using ih n
    | finish =>
      have same : { stream with finished := true } = stream := by
        rw [← h]
      obtain ⟨left, again⟩ := ih (stream.finish g n).2.reading.next
      have first : (stream.finish g n).2.reading.commands.map Command.unnumbered =
          textCommands g stream.remaining := unnumbered_readText g stream.remaining n
      have hfinish : (stream.finish g n).1 = stream := same
      refine ⟨?_, ?_⟩
      · simpa only [serve, hfinish] using left
      · rw [StreamCall.finishes, List.replicate_succ, List.flatten_cons, ← again, ← first,
          ← List.map_append]
        simp only [serve, hfinish]

/-- **What calls release**: the commands of the blocks that were closed, and then those of what is
left, once for every time that the stream is finished. -/
theorem serve_eq (h : stream.Waiting g) (calls : List StreamCall) (n : Nat) :
    (stream.serve g calls n).1.text = stream.text ++ StreamCall.arriving calls ∧
      (stream.serve g calls n).2.map Command.unnumbered =
        blockCommands g (stream.blocksAhead g (StreamCall.arriving calls)) ++
          (List.replicate (StreamCall.finishes calls)
            (textCommands g (stream.leftBehind g (StreamCall.arriving calls)))).flatten := by
  induction calls generalizing stream n with
  | nil => simp [serve, StreamCall.arriving, StreamCall.finishes, blocksAhead_nil h, blockCommands,
      readEach, Reading.unnumbered_empty]
  | cons call rest ih =>
    cases call with
    | feed piece =>
      obtain ⟨stream', delivery, hfeed, waiting, text, releases⟩ := feed_releases h piece n
      obtain ⟨arrived, others⟩ := ih waiting delivery.reading.next
      obtain ⟨ahead, left⟩ := releases (StreamCall.arriving rest)
      simp only [serve, hfeed, StreamCall.arriving, StreamCall.finishes]
      refine ⟨?_, ?_⟩
      · rw [arrived, text, List.append_assoc]
      · rw [List.map_append, others, ahead, left, List.append_assoc]
        rfl
    | finish =>
      have done : (stream.finish g n).1.finished = true := rfl
      obtain ⟨left, again⟩ := serve_finished (g := g) done rest (stream.finish g n).2.reading.next
      have first : (stream.finish g n).2.reading.commands.map Command.unnumbered =
          textCommands g stream.remaining := unnumbered_readText g stream.remaining n
      have remaining : (stream.finish g n).1.remaining = stream.remaining := rfl
      refine ⟨?_, ?_⟩
      · simp only [serve, left, StreamCall.arriving, List.append_nil]
        rfl
      · simp only [serve, List.map_append, again, first, remaining, StreamCall.arriving,
          StreamCall.finishes, leftBehind_nil h, blocksAhead_nil h, List.replicate_succ,
          List.flatten_cons, blockCommands, readEach, Reading.unnumbered_empty, List.nil_append]

/-! ### Released once -/

/-- The commands of a text that do not take effect before its end: all of them where blocks wait,
and otherwise those of the block that is left open, of the lines and of the calls. -/
def laterCommands (g : TextGrammar) (applyBlocks : Bool) (text : List Char) : List Command :=
  if applyBlocks then
    blockCommands g (openBodies g.markers (g.markers.closedBlocks text).2) ++
      (readProse g (scanBlocks g.markers true text).remainder 0).unnumbered
  else textCommands g text

/-- The commands that a new stream releases whenever it is finished. -/
def finalCommands (g : TextGrammar) (applyBlocks : Bool) (text : List Char) : List Command :=
  textCommands g (TextStream.leftBehind g { applyBlocks } text)

/-- The commands that the calls of a host release are among those of the text that has arrived, and
none is released more often than it stands there. -/
def ReleasesOnce (g : TextGrammar) (applyBlocks : Bool) (calls : List StreamCall) (n : Nat) : Prop :=
  ((TextStream.serve g { applyBlocks } calls n).2.map Command.unnumbered).Subperm
    (textCommands g (TextStream.serve g { applyBlocks } calls n).1.text)

/-- The commands of a text are those that take effect at once, and those that wait. -/
theorem textCommands_eq (g : TextGrammar) (applyBlocks : Bool) (text : List Char) :
    textCommands g text = blockCommands g (TextStream.blocksAhead g { applyBlocks } text) ++
      laterCommands g applyBlocks text := by
  cases applyBlocks with
  | false => rfl
  | true =>
    have scan := scanBlocks_eq g.markers text
    rw [textCommands_of_scan scan, blockCommands_append, List.append_assoc, laterCommands, if_pos rfl,
      scan]
    rfl

/-- Without a line feed in the opening marker, finishing releases what has waited. -/
theorem finalCommands_eq (applyBlocks : Bool)
    (hline : applyBlocks = true → '\n' ∉ g.markers.opening) (text : List Char) :
    finalCommands g applyBlocks text = laterCommands g applyBlocks text := by
  cases applyBlocks with
  | false => rfl
  | true => exact textCommands_of_scan (scanBlocks_joinLines g.markers (hline rfl) text)

/-- No command is released twice exactly when those released by finishing are among those that have
waited. -/
theorem releasesOnce_iff_subperm (g : TextGrammar) (applyBlocks : Bool) (calls : List StreamCall)
    (n : Nat) :
    ReleasesOnce g applyBlocks calls n ↔
      (List.replicate (StreamCall.finishes calls)
          (finalCommands g applyBlocks (StreamCall.arriving calls))).flatten.Subperm
        (laterCommands g applyBlocks (StreamCall.arriving calls)) := by
  obtain ⟨text, released⟩ := serve_eq (waiting_new (g := g) applyBlocks) calls n
  have whole := textCommands_eq g applyBlocks (StreamCall.arriving calls)
  rw [ReleasesOnce, text, released, List.nil_append, whole, List.subperm_append_left]
  rfl

/-- A list is repeated among its own items only when it is repeated once, or empty. -/
theorem flatten_replicate_subperm_iff {α : Type} (k : Nat) (l : List α) :
    (List.replicate k l).flatten.Subperm l ↔ k ≤ 1 ∨ l = [] := by
  match k with
  | 0 => simp
  | 1 => simp [List.Subperm.refl]
  | k + 2 =>
    refine ⟨fun h => .inr ?_, ?_⟩
    · have := h.length_le
      simp only [List.replicate_succ, List.flatten_cons, List.length_append] at this
      exact List.eq_nil_of_length_eq_zero (by omega)
    · rintro (few | rfl)
      · omega
      · simp

/-- **No command is released twice** exactly when finishing releases no more than what has waited.
Where the opening marker has no line feed, or blocks wait for the end, this is so exactly when the
stream is finished at most once, or nothing has waited. -/
theorem releasesOnce_iff (g : TextGrammar) (applyBlocks : Bool) (calls : List StreamCall)
    (n : Nat) :
    (ReleasesOnce g applyBlocks calls n ↔
        (List.replicate (StreamCall.finishes calls)
            (finalCommands g applyBlocks (StreamCall.arriving calls))).flatten.Subperm
          (laterCommands g applyBlocks (StreamCall.arriving calls))) ∧
      ((applyBlocks = true → '\n' ∉ g.markers.opening) →
        (ReleasesOnce g applyBlocks calls n ↔
          StreamCall.finishes calls ≤ 1 ∨
            laterCommands g applyBlocks (StreamCall.arriving calls) = [])) := by
  refine ⟨releasesOnce_iff_subperm g applyBlocks calls n, fun hline => ?_⟩
  rw [releasesOnce_iff_subperm, finalCommands_eq applyBlocks hline, flatten_replicate_subperm_iff]

/-- The grammar of the settings that hold where none is chosen. -/
def usualGrammar : TextGrammar := Settings.grammar {}

/-- A line, in two pieces, takes effect when the stream is finished for the first time. -/
theorem finished_once_releases_once :
    (true = true → '\n' ∉ usualGrammar.markers.opening) ∧
      ReleasesOnce usualGrammar true [.feed "rem".toList, .feed "ove a".toList, .finish] 1 := by
  have hline : true = true → '\n' ∉ usualGrammar.markers.opening := by decide
  exact ⟨hline, ((releasesOnce_iff usualGrammar true _ 1).2 hline).2 (.inl (by decide))⟩

/-! ### Released twice -/

/-- A line that is left when the text ends. -/
def removalLine : List Char := "remove a".toList

theorem laterCommands_removalLine : laterCommands usualGrammar true removalLine ≠ [] := by
  have closed : usualGrammar.markers.closedBlocks removalLine = ([], removalLine) :=
    Markers.closedBlocks_of_none (by decide)
  have remainder : (scanBlocks usualGrammar.markers true removalLine).remainder = removalLine := by
    rw [scanBlocks_eq, closed]
    decide
  rw [laterCommands, if_pos rfl, closed, remainder]
  decide

/-- A grammar whose opening marker has a line feed. -/
def lineFeedGrammar : TextGrammar := Settings.grammar { blockStart := "X\nY", blockEnd := "E" }

/-- An operation between the ends of two markers. -/
def seamTail : List Char := "Y\x7b\"op\":\"remove\",\"path\":\"b\"\x7dE".toList

/-- A text whose only block is blank. The pieces around the block are the beginning and the end of
an opening marker, but for its line feed. -/
def seamText : List Char := "XX\nYE".toList ++ seamTail

theorem closedBlocks_seamText :
    lineFeedGrammar.markers.closedBlocks seamText = ([⟨['X'], []⟩], seamTail) := by
  have block : lineFeedGrammar.markers.nextBlock? seamText = some (⟨['X'], []⟩, seamTail) := by
    decide
  rw [Markers.closedBlocks_of_some (by decide) block, Markers.closedBlocks_of_none (by decide)]

theorem laterCommands_seamText : laterCommands lineFeedGrammar true seamText = [] := by
  have remainder : (scanBlocks lineFeedGrammar.markers true seamText).remainder =
      "X\n".toList ++ seamTail := by
    rw [scanBlocks_eq, closedBlocks_seamText]
    decide
  rw [laterCommands, if_pos rfl, closedBlocks_seamText, remainder]
  decide

theorem finalCommands_seamText : finalCommands lineFeedGrammar true seamText ≠ [] := by
  have left : TextStream.leftBehind lineFeedGrammar {} seamText = "X\n".toList ++ seamTail := by
    have pending : ({} : TextStream).pending ++ seamText = seamText := rfl
    rw [leftBehind, if_pos rfl, List.nil_append, pending, closedBlocks_seamText]
    rfl
  have block : lineFeedGrammar.markers.nextBlock? ("X\n".toList ++ seamTail) =
      some (⟨[], (seamTail.drop 1).dropLast⟩, []) := by decide
  have found : blockCommands lineFeedGrammar [(seamTail.drop 1).dropLast] ≠ [] := by
    decide +kernel
  rw [finalCommands, left, textCommands_of_scan (scanBlocks_eq _ _),
    Markers.closedBlocks_of_some (by decide) block, Markers.closedBlocks_nil]
  intro none
  obtain ⟨blocks, -⟩ := List.append_eq_nil_iff.1 none
  exact found blocks

/-- **Commands are released too often** by a stream that is finished twice, and by one whose opening
marker is completed by the line feed between two pieces that are left. -/
theorem commands_released_too_often :
    ¬ ReleasesOnce usualGrammar true [.feed removalLine, .finish, .finish] 1 ∧
      ¬ ReleasesOnce lineFeedGrammar true [.feed seamText, .finish] 1 := by
  constructor
  · rw [releasesOnce_iff_subperm, finalCommands_eq true (by decide), flatten_replicate_subperm_iff]
    rintro (few | none)
    · revert few
      decide
    · exact laterCommands_removalLine none
  · rw [releasesOnce_iff_subperm]
    change ¬ (List.replicate 1 (finalCommands lineFeedGrammar true (seamText ++ []))).flatten.Subperm
      (laterCommands lineFeedGrammar true (seamText ++ []))
    rw [List.append_nil, laterCommands_seamText, List.subperm_nil]
    simpa using finalCommands_seamText

end TextStream

end PatchScript
