import PatchScript.Proofs.Series
import PatchScript.Proofs.Session.Pieces

/-!
# Batches of all or nothing in a text

A block may hold a batch that is to be taken as a whole. Wherever it stands in a text, and whatever
else the text holds, either every item of it is an operation that was run and did not fail, or the
store is left as it was found.

What comes before the block in the text and what comes after it are readings of their own, and no
group reaches from one into the other. So the batch can be looked at alone, in the session that the
front of the text leaves.

## Main definitions

* `wholeBatch?` — the items of a block that is to be taken as a whole
* `Session.Passes` — a text that takes effect part after part
* `Session.AppliesAll` — every item of a batch takes effect

## Main results

* `Series.run_whole` — a series run as a whole
* `Session.runReading_whole` — the reading of a batch, alone
* `Session.process_whole_batch` — the headline: the batch in its text
-/

namespace PatchScript

/-- The items of the batch in the body of a block, if it holds one that is to be taken as a
whole. -/
def wholeBatch? (atomicLists : Bool) (body : List Char) : Option (List Value) :=
  let whole (items : List Value) (atomic : Bool) : Option (List Value) :=
    if atomic then some items else none
  match Json.read (blockContent body) with
  | .ok (.list items) => whole items atomicLists
  | .ok (.mapping m) =>
    match Mapping.hasKey m "op", Mapping.get? m "operations" with
    | false, some (.list items) =>
      whole items (((Mapping.get? m "atomic").map Value.isTruthy).getD false)
    | _, _ => none
  | _ => none

theorem ofBody_of_wholeBatch? {atomicLists : Bool} {body : List Char} {items : List Value}
    (h : wholeBatch? atomicLists body = some items) :
    BlockContent.ofBody atomicLists body = .batch items true := by
  have filled : (blockContent body).isEmpty = false := by
    cases content : blockContent body with
    | nil =>
      rw [wholeBatch?, content] at h
      cases h
    | cons c rest => rfl
  rw [wholeBatch?] at h
  rw [BlockContent.ofBody, filled, if_neg Bool.false_ne_true]
  split at h
  · next items' read =>
    obtain ⟨rfl, rfl⟩ : atomicLists = true ∧ items' = items := by simpa using h
    rw [read]
  · next m read =>
    rw [read]
    split at h
    · next items' noOp operations =>
      obtain ⟨atomic, rfl⟩ : ((Mapping.get? m "atomic").map Value.isTruthy).getD false = true ∧
        items' = items := by simpa using h
      simp only [noOp, operations, atomic, Bool.false_eq_true, if_false]
    · cases h
  · cases h

/-- The items are read as one batch with the next number. -/
theorem readBlock_of_wholeBatch? {atomicLists : Bool} {body : List Char} {items : List Value}
    (h : wholeBatch? atomicLists body = some items) (n : Nat) :
    readBlock atomicLists body n =
      readItems (blockContent body) (some ⟨n, true⟩) items (n + 1) := by
  rw [readBlock_eq, ofBody_of_wholeBatch? h]

/-! ### Series run as a whole -/

namespace Series

variable {regime : Regime} {s : Store} {series : Series}

theorem length_outcomesBelow (regime : Regime) (s : Store) (series : Series) :
    (outcomesBelow regime s series series.length).length = series.length := by
  induction series generalizing s with
  | nil => rfl
  | cons o rest ih => rw [List.length_cons, outcomesBelow_cons_succ, List.length_cons, ih]

/-- Where there is no first failure, there is none at all. -/
theorem isSuccess_of_mem_outcomesBelow (h : firstError? regime s series = none) {outcome : Outcome}
    (mem : outcome ∈ outcomesBelow regime s series series.length) : outcome.isSuccess = true := by
  obtain ⟨i, hi, run⟩ := List.mem_filterMap.1 mem
  have noError : errorAt? regime s series i = none := List.findSome?_eq_none_iff.1 h i hi
  obtain ⟨o, ho, rfl⟩ := Option.map_eq_some_iff.1 run
  rw [errorAt?, ho, Option.bind_some, Option.map_eq_none_iff] at noError
  rw [Outcome.isSuccess, noError, Option.isNone_none]

/-- A series run as a whole runs every operation and none fails, or it leaves the store as it
was. -/
theorem run_whole (regime : Regime) (s : Store) (series : Series) :
    (run regime true s series =
        (storeAfter regime s series series.length,
          ⟨outcomesBelow regime s series series.length, [], false⟩) ∧
      ∀ outcome ∈ outcomesBelow regime s series series.length, outcome.isSuccess = true) ∨
    (run regime true s series).1 = s := by
  cases first : firstError? regime s series with
  | none =>
    have noErrors := (errorsBelow_length_eq_nil_iff s series).2 first
    rw [← errorsFrom_runAll, runAll_eq] at noErrors
    refine .inl ⟨?_, fun outcome => isSuccess_of_mem_outcomesBelow first⟩
    simp [run, runWhile_of_firstError?_eq_none first, runAll_eq, noErrors]
  | some e =>
    have errors := (runWhile_of_firstError?_eq_some first).2
    exact .inr (by simp [run, errors])

end Series

/-! ### A batch alone -/

namespace Session

variable {s : Session} {items : List Value} {own : Reading}

/-- Every item of a batch takes effect in a session: each is read as one command, all of them are
one group, and each is run on the store that the ones before it leave, and does not fail. -/
structure AppliesAll (s : Session) (items : List Value) (own : Reading) : Prop where
  /-- The commands are the items, one for one and in order. -/
  commands : own.commands.map (fun c => .ok c.operation) = items.map Operation.ofValue
  /-- They are one group. -/
  grouped : groupCommands own.commands = [⟨own.commands, true, true⟩]
  /-- The outcomes reported are those of every item, and nothing is taken back. -/
  results : (s.runReading own).2.results =
    [.series ⟨Series.outcomesBelow s.regime s.store (items.map Operation.ofValue) items.length,
      [], false⟩]
  /-- There is an outcome for every item. -/
  attempted : (Series.outcomesBelow s.regime s.store (items.map Operation.ofValue)
    items.length).length = items.length
  /-- None of them fails. -/
  success : ∀ outcome ∈ Series.outcomesBelow s.regime s.store (items.map Operation.ofValue)
    items.length, outcome.isSuccess = true
  /-- The store is the one that the last item leaves. -/
  store : (s.runReading own).1.store =
    Series.storeAfter s.regime s.store (items.map Operation.ofValue) items.length

theorem runGroup_batch (s : Session) (commands : List Command) (atomic : Bool) :
    s.runGroup ⟨commands, true, atomic⟩ =
      ({ s with store := (Series.run s.regime atomic s.store
          (commands.map fun c => .ok c.operation)).1 },
        .series (Series.run s.regime atomic s.store (commands.map fun c => .ok c.operation)).2) :=
  rfl

theorem runReading_of_commands_eq_nil (h : s.TakesEffect) (none_read : own.commands = []) :
    (s.runReading own).1.store = s.store := by
  rw [runReading_eq h, none_read]
  rfl

/-- A batch that is to be taken as a whole takes effect with all its items, or it leaves the store
as it was. -/
theorem runReading_whole (h : s.TakesEffect) {source : List Char} {group n : Nat}
    (read : own = readItems source (some ⟨group, true⟩) items n) :
    s.AppliesAll items own ∨ (s.runReading own).1.store = s.store := by
  by_cases invalid : ∃ item ∈ items, (Operation.ofValue item).isOk = false
  · obtain ⟨item, mem, bad⟩ := invalid
    exact .inr (runReading_of_commands_eq_nil h (read ▸ commands_readItems_of_invalid mem bad n))
  obtain ⟨operations, valid⟩ : ∃ operations : List Operation,
      items.map Operation.ofValue = operations.map .ok :=
    exists_operations_of_valid (by simpa using invalid)
  rw [readItems_of_valid valid] at read
  have commands : own.commands.map (fun c => .ok c.operation) = items.map Operation.ofValue := by
    rw [read, valid]
    simp [Reading.found]
  by_cases some_command : own.commands = []
  · exact .inr (runReading_of_commands_eq_nil h some_command)
  have tagged : ∀ c ∈ own.commands, c.batch = some ⟨group, true⟩ := by
    rw [read]
    simp [Reading.found]
  have grouped := groupCommands_of_batch some_command tagged
  have ran := runReading_eq h own
  rw [grouped] at ran
  simp only [runGroups, runGroup_batch, commands] at ran
  have length : (items.map Operation.ofValue).length = items.length := List.length_map _
  rcases Series.run_whole s.regime s.store (items.map Operation.ofValue) with
    ⟨whole, success⟩ | kept
  · rw [length] at whole success
    refine .inl ⟨commands, grouped, ?_, ?_, success, ?_⟩
    · rw [ran, whole]
    · have := Series.length_outcomesBelow s.regime s.store (items.map Operation.ofValue)
      rwa [length] at this
    · rw [ran, whole]
  · exact .inr (by rw [ran]; exact kept)

/-! ### A batch in its text -/

end Session

/-- What is read from a text before one of its blocks: the blocks in front of it. -/
def TextGrammar.readBefore (g : TextGrammar) (text : List Char) (i n : Nat) : Reading :=
  readEach (readBlock g.atomicLists) ((scanBlocks g.markers true text).bodies.take i) n

/-- What is read from a text after one of its blocks: the blocks behind it, the lines and the
calls. -/
def TextGrammar.readAfter (g : TextGrammar) (text : List Char) (i n : Nat) : Reading :=
  let scan := scanBlocks g.markers true text
  ((readEach (readBlock g.atomicLists) (scan.bodies.drop (i + 1)) n).andThen
    (readLines g.lineOpening scan.remainder)).andThen (readCalls g.receiver scan.remainder)

/-- A text is read up to a block, then the block is read, and then the rest. -/
theorem readText_around {g : TextGrammar} {text body : List Char} {i : Nat}
    (block : (scanBlocks g.markers true text).bodies[i]? = some body) (n : Nat) :
    readText g true text n = (g.readBefore text i n).andThen fun n =>
      (readBlock g.atomicLists body n).andThen (g.readAfter text i) := by
  obtain ⟨hi, here⟩ := List.getElem?_eq_some_iff.1 block
  have bodies : (scanBlocks g.markers true text).bodies =
      (scanBlocks g.markers true text).bodies.take i ++
        body :: (scanBlocks g.markers true text).bodies.drop (i + 1) := by
    rw [← here, ← List.drop_eq_getElem_cons hi, List.take_append_drop]
  have after : g.readAfter text i = fun n =>
      (readEach (readBlock g.atomicLists)
        ((scanBlocks g.markers true text).bodies.drop (i + 1)) n).andThen fun n =>
          (readLines g.lineOpening (scanBlocks g.markers true text).remainder n).andThen
            (readCalls g.receiver (scanBlocks g.markers true text).remainder) :=
    funext fun n => Reading.andThen_assoc ..
  rw [readText, bodies, after]
  simp only [readEach_append, readEach, Reading.andThen_assoc]
  rfl

theorem numberedFrom_readAfter (g : TextGrammar) (text : List Char) (i n : Nat) :
    (g.readAfter text i n).NumberedFrom n :=
  ((numberedFrom_readEach (numberedFrom_readBlock g.atomicLists) _ n).andThen
    (numberedFrom_readEach (numberedFrom_readLine g.lineOpening) _ _)).andThen
    (numberedFrom_readEach numberedFrom_readCall _ _)

namespace Session

variable {s : Session} {items : List Value}

/-- The commands of a text take effect part after part: what is read first, what is read next, and
what is read at last. No group reaches from one part into another. -/
structure Passes (s : Session) (text : String) (front own back : Reading) : Prop where
  /-- Every part runs in the session that the one before leaves. -/
  process : s.process text =
    ((((s.runReading front).1.runReading own).1.runReading back).1,
      .joined [(s.runReading front).2, ((s.runReading front).1.runReading own).2,
        (((s.runReading front).1.runReading own).1.runReading back).2])
  /-- The groups are those of the parts. -/
  groups : groupCommands (s.process text).2.commands =
    groupCommands front.commands ++ groupCommands own.commands ++ groupCommands back.commands

theorem passes_of_readText {text : String} {front : Reading} {ownAt backAt : Nat → Reading}
    (h : s.TakesEffect)
    (read : readText s.settings.grammar true text.toList s.nextBatch =
      front.andThen fun n => (ownAt n).andThen backAt)
    (hfront : front.NumberedFrom s.nextBatch) (hown : ∀ n, (ownAt n).NumberedFrom n)
    (hback : ∀ n, (backAt n).NumberedFrom n) :
    s.Passes text front (ownAt front.next) (backAt (ownAt front.next).next) := by
  have later : ((ownAt front.next).andThen backAt).NumberedFrom front.next :=
    (hown _).andThen (hback _)
  have processed : s.process text =
      s.runReading (front.andThen fun n => (ownAt n).andThen backAt) := by
    rw [process, if_pos h.1, read]
  constructor
  · rw [processed, runReading_andThen h hfront later,
      runReading_andThen (takesEffect_runReading h front) (hown _) (hback _)]
    simp [Report.joined]
  · rw [processed, runReading_eq h, List.append_assoc,
      ← groupCommands_append (sameBatch_eq_false (hown _) (hback _))]
    exact groupCommands_append (sameBatch_eq_false hfront later)

/-- **A batch of all or nothing in its text.** Every block of a text that holds such a batch takes
effect with all its items, as one group, or its group is never formed, or the store that its group
leaves is the one that it found. If any item is no valid operation, the block gives no command. -/
theorem process_whole_batch (enabled : s.settings.enabled = true)
    (autoUpdate : s.settings.autoUpdate = true) {text : String} {i : Nat} {body : List Char}
    (block : (scanBlocks s.settings.grammar.markers true text.toList).bodies[i]? = some body)
    (whole : wholeBatch? s.settings.grammar.atomicLists body = some items) :
    let front := s.settings.grammar.readBefore text.toList i s.nextBatch
    let own := readBlock s.settings.grammar.atomicLists body front.next
    let before := (s.runReading front).1
    s.Passes text front own (s.settings.grammar.readAfter text.toList i own.next) ∧
      (before.AppliesAll items own ∨ groupCommands own.commands = [] ∨
        (before.runReading own).1.store = before.store) ∧
      ((∃ item ∈ items, (Operation.ofValue item).isOk = false) → own.commands = []) := by
  intro front own before
  have h : s.TakesEffect := ⟨enabled, autoUpdate⟩
  have read := readBlock_of_wholeBatch? whole front.next
  refine ⟨passes_of_readText h (readText_around block s.nextBatch)
    (numberedFrom_readEach (numberedFrom_readBlock _) _ _) (numberedFrom_readBlock _ body)
    (numberedFrom_readAfter _ _ i), ?_, ?_⟩
  · exact (runReading_whole (takesEffect_runReading h front) read).imp_right .inr
  · rintro ⟨item, mem, invalid⟩
    change (readBlock s.settings.grammar.atomicLists body front.next).commands = []
    rw [read, commands_readItems_of_invalid mem invalid]

/-- A batch in a block that is left open, behind another block and a line. Its second item fails. -/
theorem process_open_batch :
    let s := start { blockStart := "<<", blockEnd := ">>", atomicBlocks := true } [("a", .null)]
    let g := s.settings.grammar
    let body := "[\x7b\"op\": \"add\", \"path\": \"b\", \"value\": \"]\"\x7d, " ++
      "\x7b\"op\": \"test\", \"path\": \"b\", \"value\": 2\x7d]"
    let text := "remove a\n<<[]>><<" ++ body
    let items : List Value :=
      [.mapping [("op", .text "add"), ("path", .text "b"), ("value", .text "]")],
        .mapping [("op", .text "test"), ("path", .text "b"), ("value", .int 2)]]
    s.settings.enabled = true ∧ s.settings.autoUpdate = true ∧
      (scanBlocks g.markers true text.toList).bodies[1]? = some body.toList ∧
      wholeBatch? g.atomicLists body.toList = some items ∧
      let front := g.readBefore text.toList 1 s.nextBatch
      let own := readBlock g.atomicLists body.toList front.next
      let before := (s.runReading front).1
      s.Passes text front own (g.readAfter text.toList 1 own.next) ∧
        (before.AppliesAll items own ∨ groupCommands own.commands = [] ∨
          (before.runReading own).1.store = before.store) ∧
        ((∃ item ∈ items, (Operation.ofValue item).isOk = false) → own.commands = []) := by
  intro s g body text items
  have closed : g.markers.nextBlock? text.toList =
      some (⟨"remove a\n".toList, "[]".toList⟩, ("<<" ++ body).toList) := by
    decide +kernel
  have left_open : g.markers.nextBlock? ("<<" ++ body).toList = none := by
    decide +kernel
  have block : (scanBlocks g.markers true text.toList).bodies[1]? = some body.toList := by
    rw [scanBlocks_eq, Markers.closedBlocks_of_some (by decide) closed,
      Markers.closedBlocks_of_none left_open]
    decide +kernel
  have whole : wholeBatch? g.atomicLists body.toList = some items := by decide +kernel
  exact ⟨rfl, rfl, block, whole, process_whole_batch rfl rfl block whole⟩

end Session

end PatchScript
