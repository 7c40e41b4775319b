import PatchScript.Session.Basic
import PatchScript.Proofs.Command.Batches
import PatchScript.Proofs.Command.Blocks

/-!
# Texts in pieces

A text may be taken in whole or as a stream of pieces. The pieces do not matter: however the text is
cut, and whether blocks take effect at once or at the end, the same commands are found, with the
same diagnostics, and they have the same results and leave the same session.

What a stream still has to read is a reading of its own (`TextStream.outstanding`), stated for any
state of the stream and any text to come. One delivery takes its own part off the front of that
reading, which is the step that the induction on the pieces uses. Between two deliveries the stream
is `TextStream.Waiting`: no block that is closed is left over.

## Main definitions

* `Session.takeInPieces` — a stream from its first piece to its end
* `TextStream.outstanding` — what a stream still has to read
* `TextStream.Waiting` — what every delivery keeps up

## Main results

* `Session.runReading_andThen` — two readings in a row take effect like one
* `TextStream.outstanding_feed` — what one delivery takes off
* `Session.takeInPieces_eq_runReading` — a stream takes effect like what it has to read
* `Session.takeInPieces_eq_process` — the headline: pieces do not matter
-/

namespace PatchScript

/-- What several deliveries brought, as one report. -/
def Report.joined (reports : List Report) : Report :=
  ⟨reports.flatMap (·.commands), reports.flatMap (·.results), reports.flatMap (·.diagnostics)⟩

theorem Report.joined_cons (report : Report) (reports : List Report) :
    joined (report :: reports) =
      ⟨report.commands ++ (joined reports).commands, report.results ++ (joined reports).results,
        report.diagnostics ++ (joined reports).diagnostics⟩ := by
  simp [joined]

theorem Report.joined_singleton (report : Report) : joined [report] = report := by
  simp [joined]

namespace Session

/-- Takes in a stream: every piece, and then the end. The reports are those of the deliveries, in
order. -/
def takeInPieces (s : Session) (stream : TextStream) :
    List String → Except StreamFault (Session × List Report)
  | [] =>
    let (s, _, progress) := s.finish stream
    .ok (s, [progress.report])
  | piece :: rest => do
    let (s, stream, progress) ← s.feed stream piece
    let (s, reports) ← takeInPieces s stream rest
    return (s, progress.report :: reports)

/-! ### Readings in a row -/

variable {s : Session}

/-- The number of the next batch is of no concern to a group. -/
theorem runGroup_withNext (s : Session) (g : CommandGroup) (n : Nat) :
    runGroup { s with nextBatch := n } g =
      ({ (s.runGroup g).1 with nextBatch := n }, (s.runGroup g).2) := by
  simp only [runGroup]
  split <;> rfl

theorem runGroups_withNext (s : Session) (gs : List CommandGroup) (n : Nat) :
    runGroups { s with nextBatch := n } gs =
      ({ (s.runGroups gs).1 with nextBatch := n }, (s.runGroups gs).2) := by
  induction gs generalizing s with
  | nil => rfl
  | cons g gs ih => simp only [runGroups, runGroup_withNext, ih]

theorem settings_runGroup (s : Session) (g : CommandGroup) :
    (s.runGroup g).1.settings = s.settings := by
  simp only [runGroup]
  split <;> rfl

theorem settings_runGroups (s : Session) (gs : List CommandGroup) :
    (s.runGroups gs).1.settings = s.settings := by
  induction gs generalizing s with
  | nil => rfl
  | cons g gs ih => simp only [runGroups, ih, settings_runGroup]

theorem runGroups_append (s : Session) (front back : List CommandGroup) :
    s.runGroups (front ++ back) =
      (((s.runGroups front).1.runGroups back).1,
        (s.runGroups front).2 ++ ((s.runGroups front).1.runGroups back).2) := by
  induction front generalizing s with
  | nil => rfl
  | cons g front ih => simp [runGroups, ih]

/-- Commands take effect when the session is enabled and updates by itself. -/
def TakesEffect (s : Session) : Prop := s.settings.enabled = true ∧ s.settings.autoUpdate = true

theorem runReading_eq (h : s.TakesEffect) (r : Reading) :
    s.runReading r =
      ({ (s.runGroups (groupCommands r.commands)).1 with nextBatch := r.next },
        ⟨r.commands, (s.runGroups (groupCommands r.commands)).2, r.diagnostics⟩) := by
  simp [runReading, h.1, h.2, runGroups_withNext]

theorem settings_runReading (h : s.TakesEffect) (r : Reading) :
    (s.runReading r).1.settings = s.settings := by
  rw [runReading_eq h]
  exact settings_runGroups s _

theorem nextBatch_runReading (h : s.TakesEffect) (r : Reading) :
    (s.runReading r).1.nextBatch = r.next := by
  rw [runReading_eq h]

theorem takesEffect_runReading (h : s.TakesEffect) (r : Reading) :
    (s.runReading r).1.TakesEffect := by
  rwa [TakesEffect, settings_runReading h]

theorem takeIn_eq (h : s.TakesEffect) (d : Delivery) :
    s.takeIn d = ((s.runReading d.reading).1, ⟨d.shown, (s.runReading d.reading).2⟩) := by
  rw [takeIn, if_pos h.1]

/-- **Two readings in a row take effect like one**, because no group reaches from the first into
the second. -/
theorem runReading_andThen (h : s.TakesEffect) {first : Nat} {r : Reading}
    {more : Nat → Reading} (hr : r.NumberedFrom first)
    (hmore : (more r.next).NumberedFrom r.next) :
    s.runReading (r.andThen more) =
      (((s.runReading r).1.runReading (more r.next)).1,
        .joined [(s.runReading r).2, ((s.runReading r).1.runReading (more r.next)).2]) := by
  have groups : groupCommands (r.andThen more).commands =
      groupCommands r.commands ++ groupCommands (more r.next).commands :=
    groupCommands_append (sameBatch_eq_false hr hmore)
  rw [runReading_eq h, runReading_eq (takesEffect_runReading h r), groups, runReading_eq h,
    runGroups_append]
  simp only [runGroups_withNext]
  simp [Report.joined, Reading.andThen]

end Session

/-! ### What a stream still has to read -/

/-- The commands of a text, from its blocks and the rest of it. -/
theorem readText_of_scan {g : TextGrammar} {flush : Bool} {text rest : List Char}
    {bodies : List (List Char)} (h : scanBlocks g.markers flush text = ⟨bodies, rest⟩) :
    readText g flush text = fun n =>
      (readEach (readBlock g.atomicLists) bodies n).andThen fun n =>
        (readLines g.lineOpening rest n).andThen (readCalls g.receiver rest) := by
  funext n
  simp only [readText, h, Reading.andThen_assoc]

/-- What a stream still has to read when `more` is the text to come: the blocks that will be
closed, and at the end all that is left. -/
def TextStream.outstanding (g : TextGrammar) (stream : TextStream) (more : List Char) (n : Nat) :
    Reading :=
  if stream.applyBlocks then
    let (blocks, tail) := g.markers.closedBlocks (stream.pending ++ more)
    (readEach (readBlock g.atomicLists) (blocks.map Block.body) n).andThen
      (readText g true (joinLines (stream.pieces ++ blocks.map Block.before ++ [tail])))
  else readText g true (joinLines (stream.pieces ++ [stream.pending ++ more])) n

namespace TextStream

open Markers (closedBlocks_append closedBlocks_nil closedBlocks_tail)

variable {g : TextGrammar} {stream : TextStream}

/-- Where blocks take effect at once, those that will be closed come first. -/
theorem outstanding_of_applyBlocks (h : stream.applyBlocks = true) (more : List Char) :
    stream.outstanding g more = fun n =>
      (readEach (readBlock g.atomicLists)
        ((g.markers.closedBlocks (stream.pending ++ more)).1.map Block.body) n).andThen
        (readText g true (joinLines (stream.pieces ++
          (g.markers.closedBlocks (stream.pending ++ more)).1.map Block.before ++
            [(g.markers.closedBlocks (stream.pending ++ more)).2]))) := by
  funext n
  simp only [outstanding, h, if_true]

/-- A new stream still has to read the commands of the whole text. -/
theorem outstanding_new (hline : '\n' ∉ g.markers.opening) (applyBlocks : Bool)
    (text : List Char) (n : Nat) :
    TextStream.outstanding g { applyBlocks } text n = readText g true text n := by
  cases applyBlocks with
  | false => rfl
  | true =>
    rw [outstanding_of_applyBlocks rfl]
    simp only [List.nil_append]
    rw [readText_of_scan (scanBlocks_joinLines g.markers hline text),
      readText_of_scan (scanBlocks_eq g.markers text)]
    simp only [scanBlocks_eq, readEach_append, Reading.andThen_assoc]

theorem numberedFrom_outstanding (g : TextGrammar) (stream : TextStream) (more : List Char)
    (n : Nat) : (stream.outstanding g more n).NumberedFrom n := by
  rw [outstanding]
  split
  · exact (numberedFrom_readEach (numberedFrom_readBlock g.atomicLists) _ n).andThen
      (numberedFrom_readText ..)
  · exact numberedFrom_readText ..

/-- A stream between two deliveries: it goes on, and where blocks take effect at once, none that is
closed is left over. -/
structure Waiting (g : TextGrammar) (stream : TextStream) : Prop where
  finished_eq : stream.finished = false
  closedBlocks_pending : stream.applyBlocks = true →
    g.markers.closedBlocks stream.pending = ([], stream.pending)

theorem waiting_new (applyBlocks : Bool) : Waiting g { applyBlocks } :=
  ⟨rfl, fun _ => closedBlocks_nil g.markers⟩

/-- The stream after a piece whose blocks take effect at once. -/
def advance (g : TextGrammar) (stream : TextStream) (piece : List Char) : TextStream where
  applyBlocks := true
  text := stream.text ++ piece
  pieces := stream.pieces ++ (g.markers.closedBlocks (stream.pending ++ piece)).1.map Block.before
  pending := (g.markers.closedBlocks (stream.pending ++ piece)).2

/-- **A delivery takes its own part off** the front of what is outstanding. -/
theorem outstanding_feed (h : stream.Waiting g) (piece : List Char) (n : Nat) :
    ∃ stream' delivery, stream.feed g piece n = .ok (stream', delivery) ∧ stream'.Waiting g ∧
      delivery.reading.NumberedFrom n ∧
      ∀ more, stream.outstanding g (piece ++ more) n =
        delivery.reading.andThen (stream'.outstanding g more) := by
  cases happly : stream.applyBlocks with
  | false =>
    refine ⟨stream.push piece, ⟨g.markers.shownSoFar (stream.push piece).text, .empty n⟩, ?_,
      ⟨h.finished_eq, ?_⟩, .empty, fun more => ?_⟩
    · simp [feed, h.finished_eq, push, happly]
    · simp [push, happly]
    · simp [outstanding, push, happly]
  | true =>
    refine ⟨stream.advance g piece,
      ⟨g.markers.shownSoFar (stream.push piece).text, readEach (readBlock g.atomicLists)
        ((g.markers.closedBlocks (stream.pending ++ piece)).1.map Block.body) n⟩,
      ?_, ⟨rfl, fun _ => closedBlocks_tail g.markers _⟩,
      numberedFrom_readEach (numberedFrom_readBlock g.atomicLists) _ n, fun more => ?_⟩
    · simp [feed, h.finished_eq, push, happly, advance]
    · rw [outstanding_of_applyBlocks happly, outstanding_of_applyBlocks rfl,
        ← List.append_assoc, closedBlocks_append]
      simp only [advance, List.map_append, readEach_append, Reading.andThen_assoc,
        List.append_assoc]

/-- The end of the text reads what is outstanding without more text to come. -/
theorem outstanding_finish (h : stream.Waiting g) (n : Nat) :
    (stream.finish g n).2.reading = stream.outstanding g [] n := by
  rw [finish, outstanding, remaining, List.append_nil]
  split
  · simp [h.closedBlocks_pending ‹_›, readEach]
  · rfl

end TextStream

/-! ### The whole stream -/

namespace Session

variable {s : Session} {stream : TextStream}

/-- A stream takes effect like what it still has to read. -/
theorem takeInPieces_eq_runReading (h : s.TakesEffect)
    (hstream : stream.Waiting s.settings.grammar) (pieces : List String) :
    ∃ reports, s.takeInPieces stream pieces =
        .ok ((s.runReading (stream.outstanding s.settings.grammar (String.join pieces).toList
          s.nextBatch)).1, reports) ∧
      Report.joined reports =
        (s.runReading (stream.outstanding s.settings.grammar (String.join pieces).toList
          s.nextBatch)).2 := by
  rw [String.toList_join]
  induction pieces generalizing s stream with
  | nil =>
    refine ⟨[(s.runReading (stream.outstanding s.settings.grammar [] s.nextBatch)).2], ?_,
      Report.joined_singleton _⟩
    simp only [takeInPieces, finish, takeIn_eq h, TextStream.outstanding_finish hstream,
      List.flatMap_nil]
  | cons piece pieces ih =>
    obtain ⟨stream', delivery, hfeed, hstream', numbered, front⟩ :=
      TextStream.outstanding_feed hstream piece.toList s.nextBatch
    -- the rest of the stream is taken in by the session that the first piece leaves
    have settings := settings_runReading h delivery.reading
    have next := nextBatch_runReading h delivery.reading
    obtain ⟨reports, hrest, joined⟩ :=
      ih (takesEffect_runReading h delivery.reading) (settings ▸ hstream')
    rw [settings, next] at hrest joined
    have whole := runReading_andThen h numbered
      (stream'.numberedFrom_outstanding s.settings.grammar (pieces.flatMap String.toList) _)
    refine ⟨(s.runReading delivery.reading).2 :: reports, ?_, ?_⟩
    · rw [takeInPieces, feed, hfeed, List.flatMap_cons, front, whole]
      simp only [bind, Except.bind, pure, Except.pure, takeIn_eq h, hrest]
    · rw [List.flatMap_cons, front, whole, Report.joined_cons, joined]
      simp [Report.joined]

/-- **Pieces do not matter.** A text that arrives in pieces, in a session whose commands take
effect, has the same commands, results and diagnostics as the whole text, in the same order, and
leaves the same session. -/
theorem takeInPieces_eq_process (s : Session) (enabled : s.settings.enabled = true)
    (autoUpdate : s.settings.autoUpdate = true) (hline : '\n' ∉ s.settings.blockStart.toList)
    (pieces : List String) :
    ∃ reports, s.takeInPieces s.openStream pieces =
        .ok ((s.process (String.join pieces)).1, reports) ∧
      Report.joined reports = (s.process (String.join pieces)).2 := by
  have taken := takeInPieces_eq_runReading (s := s) ⟨enabled, autoUpdate⟩
    (TextStream.waiting_new (s.settings.updateMode = .streaming)) pieces
  rw [TextStream.outstanding_new hline] at taken
  rwa [process, if_pos enabled]

/-- A block may be cut inside its markers, and a line between its words. -/
theorem takeInPieces_cut_markers :
    ('\n' ∉ (start {} []).settings.blockStart.toList) ∧
      ∃ reports, (start {} []).takeInPieces (start {} []).openStream
          ["_.add('a', 1) <Variable", "", "Patch>[]</Vari", "ablePatch>\n_.se", "t('a', 2)"] =
        .ok (((start {} []).process
          "_.add('a', 1) <VariablePatch>[]</VariablePatch>\n_.set('a', 2)").1, reports) ∧
        Report.joined reports = ((start {} []).process
          "_.add('a', 1) <VariablePatch>[]</VariablePatch>\n_.set('a', 2)").2 :=
  ⟨by decide, takeInPieces_eq_process (start {} []) rfl rfl (by decide)
    ["_.add('a', 1) <Variable", "", "Patch>[]</Vari", "ablePatch>\n_.se", "t('a', 2)"]⟩

end Session

end PatchScript
