import PatchScript.Operation.Series
import PatchScript.Session.Stream
import PatchScript.Subscription

/-!
# Sessions

A session is a store together with settings and observers. It runs operations, takes in texts with
commands, whole or as streams, and tells its observers of every change that is recorded, even of
one that is taken back together with its series later.

What governs the operations is taken over from the settings only when they are updated without a
problem; how commands are written follows the settings at once.

## Main definitions

* `Session`: the state of a session.
* `Report`, `GroupResult`: what became of a text.
* `Session.execute`, `executeSeries`: operations run directly.
* `Session.process`, `feed`, `finish`: texts taken in.
* `Session.updateSettings`: new settings.
-/

namespace PatchScript

/-- What the settings say about operations. -/
def Settings.regime (s : Settings) : Regime :=
  ⟨s.schemaValidation, ⟨s.maxExpressionLength, s.maxExpressionDepth⟩⟩

/-! ### Reports -/

/-- What became of a group of commands. -/
inductive GroupResult where
  | single (outcome : Outcome)
  | series (report : SeriesReport)
deriving DecidableEq

namespace GroupResult

/-- Whether nothing failed. -/
def isSuccess : GroupResult → Bool
  | .single outcome => outcome.isSuccess
  | .series report => report.isSuccess

/-- The changes that were recorded, even if they were taken back. -/
def recordedChanges : GroupResult → List Change
  | .single outcome => outcome.change?.toList
  | .series report => report.changes

/-- The changes that are in force. -/
def changes : GroupResult → List Change
  | .single outcome => outcome.change?.toList
  | .series report => if report.rollback then [] else report.changes

end GroupResult

/-- What was found in a text and what became of it. -/
structure Report where
  commands : List Command := []
  results : List GroupResult := []
  diagnostics : List Diagnostic := []
deriving DecidableEq

namespace Report

/-- Whether nothing failed. -/
def isSuccess (r : Report) : Bool := r.results.all GroupResult.isSuccess

/-- The changes that are in force. -/
def changes (r : Report) : List Change := r.results.flatMap GroupResult.changes

/-- The changes that were recorded, even if they were taken back. -/
def recordedChanges (r : Report) : List Change := r.results.flatMap GroupResult.recordedChanges

end Report

/-! ### Sessions -/

/-- The state of a session. -/
structure Session where
  store : Store
  settings : Settings
  regime : Regime
  observers : Observers := {}
  /-- The number of the next batch that is read. -/
  nextBatch : Nat := 1

namespace Session

/-- A new session. -/
def start (settings : Settings) (data : Mapping) : Session :=
  { store := .ofData data, settings, regime := settings.regime }

/-- A new session whose settings are given as a value; what is not truthy stands for the
defaults. -/
def ofValue (settings : Value) (data : Mapping) : Checked Session :=
  if settings.isTruthy then (Settings.ofValue settings).map (start · data)
  else .ok (start {} data)

/-! ### Operations -/

/-- Runs an operation that may be invalid. -/
def execute (s : Session) (o : Checked Operation) : Session × Outcome :=
  let (store, outcome) := o.run s.regime s.store
  ({ s with store }, outcome)

/-- Runs a series of operations. -/
def executeSeries (s : Session) (atomic : Bool) (series : Series) : Session × SeriesReport :=
  let (store, report) := series.run s.regime atomic s.store
  ({ s with store }, report)

/-! ### Texts -/

/-- Runs one group of commands. -/
def runGroup (s : Session) (g : CommandGroup) : Session × GroupResult :=
  let operations := g.commands.map fun c => (.ok c.operation : Checked Operation)
  match g.batched, operations with
  | false, [o] =>
    let (s, outcome) := s.execute o
    (s, .single outcome)
  | _, _ =>
    let (s, report) := s.executeSeries g.atomic operations
    (s, .series report)

/-- Runs groups of commands one after the other. -/
def runGroups (s : Session) : List CommandGroup → Session × List GroupResult
  | [] => (s, [])
  | g :: rest =>
    let (s, result) := s.runGroup g
    let (s, results) := runGroups s rest
    (s, result :: results)

/-- Runs what was read from a text, if commands are to take effect. -/
def runReading (s : Session) (r : Reading) : Session × Report :=
  let s := { s with nextBatch := r.next }
  if s.settings.enabled && s.settings.autoUpdate then
    let (s, results) := s.runGroups (groupCommands r.commands)
    (s, ⟨r.commands, results, r.diagnostics⟩)
  else (s, ⟨r.commands, [], r.diagnostics⟩)

/-- Takes in a whole text. -/
def process (s : Session) (text : String) : Session × Report :=
  if s.settings.enabled then
    s.runReading (readText s.settings.grammar true text.toList s.nextBatch)
  else (s, {})

/-- A stream of text. When blocks take effect is settled here. -/
def openStream (s : Session) : TextStream :=
  { applyBlocks := s.settings.updateMode = .streaming }

/-- What became of a delivery, and the text that it shows. -/
structure Progress where
  shown : List Char
  report : Report

/-- Runs what a delivery brought. A session that is disabled reports nothing. -/
def takeIn (s : Session) (d : Delivery) : Session × Progress :=
  if s.settings.enabled then
    let (s, report) := s.runReading d.reading
    (s, ⟨d.shown, report⟩)
  else ({ s with nextBatch := d.reading.next }, ⟨d.shown, {}⟩)

/-- A piece of a stream arrives. -/
def feed (s : Session) (stream : TextStream) (piece : String) :
    Except StreamFault (Session × TextStream × Progress) := do
  let (stream, delivery) ← stream.feed s.settings.grammar piece.toList s.nextBatch
  let (s, progress) := s.takeIn delivery
  return (s, stream, progress)

/-- A stream ends. -/
def finish (s : Session) (stream : TextStream) : Session × TextStream × Progress :=
  let (stream, delivery) := stream.finish s.settings.grammar s.nextBatch
  let (s, progress) := s.takeIn delivery
  (s, stream, progress)

/-! ### Settings -/

/-- Assigns settings one by one until one of them has a problem. What governs the operations changes
only when none has. -/
def updateSettings (s : Session) (changes : Mapping) : Session × List FormProblem :=
  match s.settings.assignAll changes with
  | (settings, []) => ({ s with settings, regime := settings.regime }, [])
  | (settings, problems) => ({ s with settings }, problems)

end Session

end PatchScript
