import PatchScript.Proofs.Json.Literal
import PatchScript.Proofs.Session.Requests
import PatchScript.Proofs.Session.WholeBatch

/-!
# A batch as a block and as a call

A batch may be written as a block or as a call. The block is found by its markers, and its body is
JSON as a whole. The call is found by its receiver; its end and its two arguments are found by
keeping count of quotes and brackets, and each of them is JSON. Both are read as the same batch, so
they have the same effect, whatever quotes, brackets and commas the operations hold.

Each of the two texts is followed through the three surfaces: a block leaves no line and no call
behind, and a call holds no block and is no line.

## Main definitions

* `Json.Writes` — a text that a writer of JSON gives for a value
* `Settings.defaults` — the settings where none are given
* `Settings.blockText`, `Settings.batchCallText` — the two texts of a batch
* `Reading.IsBatch` — what is read is one batch and nothing else

## Main results

* `readText_blockText`, `readText_batchCallText` — what the two texts are read as
* `Session.runReading_of_isBatch` — the effect of what is one batch
* `Session.process_blockText_eq_batchCallText` — the headline: both texts do the same
-/

namespace PatchScript

/-- Whether the character is a printable one of ASCII. -/
def Text.isPrintableAscii (c : Char) : Bool := 32 ≤ c.toNat && c.toNat < 127

theorem Text.isLineBreak_of_isPrintableAscii {c : Char} (h : isPrintableAscii c = true) :
    isLineBreak c = false := by
  simp only [isPrintableAscii, Bool.and_eq_true, decide_eq_true_eq] at h
  simp only [isLineBreak, Bool.or_eq_false_iff, Bool.and_eq_false_iff, decide_eq_false_iff_not,
    beq_eq_false_iff_ne]
  omega

/-- The text is JSON of the value, in printable ASCII characters and without blanks around it. -/
structure Json.Writes (text : String) (v : Value) : Prop where
  /-- Reading undoes the writing. -/
  reads : Json.read text.toList = .ok v
  /-- Other characters are escaped. -/
  printable : ∀ c ∈ text.toList, Text.isPrintableAscii c = true
  /-- No blank stands at an end. -/
  trimmed : Text.trim text.toList = text.toList

namespace Settings

/-- The text of a block with a body. -/
def blockText (s : Settings) (body : String) : String :=
  s.blockStart ++ body ++ s.blockEnd

/-- The text of the call for a batch: its operations and its options. -/
def batchCallText (s : Settings) (list options : String) : String :=
  s.receiver ++ "batch(" ++ list ++ ", " ++ options ++ ")"

end Settings

open Settings (defaults)

/-- What is read is one batch of the operations, in their order, and nothing is dropped. -/
structure Reading.IsBatch (r : Reading) (operations : List Operation) (tag : BatchTag) : Prop where
  operations_eq : r.commands.map Command.operation = operations
  batch_eq : ∀ c ∈ r.commands, c.batch = some tag
  diagnostics_eq : r.diagnostics = []
  next_eq : r.next = tag.group + 1

theorem Reading.isBatch_found (surface : Surface) (source : List Char) (tag : BatchTag)
    (operations : List Operation) :
    (found surface source (some tag) operations (tag.group + 1)).IsBatch operations tag where
  operations_eq := by simp [found, Function.comp_def]
  batch_eq := by simp [found]
  diagnostics_eq := rfl
  next_eq := rfl

variable {items : List Value} {operations : List Operation} {atomic : Bool}
  {body list options : String} {v : Value}

namespace Json.Writes

variable {text : String}

theorem isBracketed (h : Writes text v) (container : v.isContainer = true) :
    IsBracketed text.toList :=
  isBracketed_of_read h.reads container h.trimmed

theorem blockContent_eq (h : Writes text v) (container : v.isContainer = true) :
    blockContent text.toList = text.toList := by
  obtain ⟨opener, inner, bracket, -, equal⟩ := h.isBracketed container
  have notFenced : fenced? text.toList = none := by
    rw [equal]
    rcases bracket with rfl | rfl <;> rfl
  rw [blockContent, h.trimmed, notFenced]

end Json.Writes

/-! ### The block -/

/-- The body of a block with all its operations is read as one batch. -/
theorem readBlock_of_writes
    (writes : Json.Writes body (.mapping [("operations", .list items), ("atomic", .bool atomic)]))
    (valid : items.map Operation.ofValue = operations.map .ok) (atomicLists : Bool) (n : Nat) :
    readBlock atomicLists body.toList n =
      .found .block body.toList (some ⟨n, atomic⟩) operations (n + 1) := by
  have filled : body.toList.isEmpty = false := by
    have := (writes.isBracketed rfl).ne_nil
    simpa using this
  rw [readBlock, writes.blockContent_eq rfl, filled, if_neg Bool.false_ne_true, writes.reads]
  exact readItems_of_valid valid (n + 1)

/-- A block of the default settings leaves nothing for the other surfaces. -/
theorem readText_blockText
    (writes : Json.Writes body (.mapping [("operations", .list items), ("atomic", .bool atomic)]))
    (valid : items.map Operation.ofValue = operations.map .ok)
    (noClosing : ¬ defaults.grammar.markers.closing <:+: body.toList) (n : Nat) :
    readText defaults.grammar true (defaults.blockText body).toList n =
      .found .block body.toList (some ⟨n, atomic⟩) operations (n + 1) := by
  set m := defaults.grammar.markers with markers
  have text : (defaults.blockText body).toList = m.opening ++ (body.toList ++ m.closing) := by
    simp [Settings.blockText, markers, Settings.grammar]
  -- the body ends with a bracket, which no marker has
  obtain ⟨opener, inner, bracket, -, equal⟩ := writes.isBracketed rfl
  have lacks : closerOf opener ∉ m.closing := by
    rcases bracket with rfl | rfl <;> decide
  have closed : Text.cut? m.closing (body.toList ++ m.closing) = some (body.toList, []) := by
    rw [equal, ← List.cons_append] at noClosing ⊢
    have := Text.cut?_concat_marker (by decide) lacks noClosing []
    rwa [List.append_nil] at this
  have scan : scanBlocks m true (defaults.blockText body).toList = ⟨[body.toList], ['\n']⟩ := by
    rw [text, scanBlocks_closed (by decide) closed]
  have noLines : readLines defaults.grammar.lineOpening ['\n'] = Reading.empty := rfl
  have noCalls : readCalls defaults.grammar.receiver ['\n'] = Reading.empty := rfl
  have own : readEach (readBlock defaults.grammar.atomicLists) [body.toList] n =
      .found .block body.toList (some ⟨n, atomic⟩) operations (n + 1) := by
    rw [readEach, readBlock_of_writes writes valid]
    exact Reading.andThen_empty _
  rw [readText_of_scan scan]
  simp only [own, noLines, noCalls, Reading.empty_andThen]
  exact Reading.andThen_empty _

/-! ### The call -/

/-- A JSON text in brackets is one argument of a call. -/
theorem Json.Writes.isArgument {text : String} (h : Writes text v)
    (noOpening : ¬ defaults.grammar.markers.opening <:+: text.toList) : IsArgument text.toList where
  solid := isSolid_of_read h.reads h.trimmed
  oneLine c hc := Text.isLineBreak_of_isPrintableAscii (h.printable c hc)
  noOpening := noOpening

/-- The text of a call for a batch, with the default settings. -/
theorem toList_batchCallText (list options : String) :
    (defaults.batchCallText list options).toList =
      callText .batch list.toList [options.toList] := by
  simp [Settings.batchCallText, callText, following, CallMethod.name, Settings.grammar]

/-- A call for a batch is read as that batch. -/
theorem readCall_batch (writesList : Json.Writes list (.list items))
    (writesOptions : Json.Writes options (.mapping [("atomic", .bool atomic)]))
    (valid : items.map Operation.ofValue = operations.map .ok) (source : List Char) (n : Nat) :
    readCall (.closed .batch source
        (list.toList ++ following [',', ' '] [options.toList])) n =
      .found .call source (some ⟨n, atomic⟩) operations (n + 1) := by
  have bracketsList := writesList.isBracketed rfl
  have bracketsOptions := writesOptions.isBracketed rfl
  have arguments : splitArguments (list.toList ++ following [',', ' '] [options.toList]) =
      .ok [list.toList, options.toList] :=
    splitArguments_following (.bracketed bracketsList) (by simpa using .bracketed bracketsOptions)
  have values : [list.toList, options.toList].mapM readLiteral =
      .ok [.list items, .mapping [("atomic", .bool atomic)]] := by
    simp only [List.mapM_cons, List.mapM_nil,
      Json.readLiteral_of_isBracketed bracketsList writesList.trimmed writesList.reads,
      Json.readLiteral_of_isBracketed bracketsOptions writesOptions.trimmed writesOptions.reads]
    rfl
  have request : callRequest .batch [.list items, .mapping [("atomic", .bool atomic)]] =
      .ok (.batch operations atomic) := by
    have read := mapM_ofValue_of_valid valid
    simp only [callRequest, callBatch, List.headD, read]
    rfl
  simp only [readCall, arguments, bind, Except.bind, values, request]

/-- A call of the default settings is read as its batch, and nothing else is read. -/
theorem readText_batchCallText (writesList : Json.Writes list (.list items))
    (writesOptions : Json.Writes options (.mapping [("atomic", .bool atomic)]))
    (valid : items.map Operation.ofValue = operations.map .ok)
    (noOpeningList : ¬ defaults.grammar.markers.opening <:+: list.toList)
    (noOpeningOptions : ¬ defaults.grammar.markers.opening <:+: options.toList) (n : Nat) :
    readText defaults.grammar true (defaults.batchCallText list options).toList n =
      .found .call (defaults.batchCallText list options).toList (some ⟨n, atomic⟩) operations
        (n + 1) := by
  have others : ∀ a ∈ [options.toList], IsArgument a := by
    simpa using writesOptions.isArgument noOpeningOptions
  rw [toList_batchCallText, readText_callText (writesList.isArgument noOpeningList) others,
    readCall_batch writesList writesOptions valid]

/-! ### Both texts -/

namespace Session

variable {s : Session} {r : Reading} {tag : BatchTag}

/-- What is one batch is run as one series. -/
theorem runReading_of_isBatch (h : s.TakesEffect) (batch : r.IsBatch operations tag)
    (some_operation : operations ≠ []) :
    s.runReading r =
      ({ s with
          store := (Series.run s.regime tag.atomic s.store (operations.map .ok)).1
          nextBatch := tag.group + 1 },
        ⟨r.commands, [.series (Series.run s.regime tag.atomic s.store (operations.map .ok)).2],
          []⟩) := by
  have commands : r.commands.map (fun c => (.ok c.operation : Checked Operation)) =
      operations.map .ok := by
    rw [← batch.operations_eq, List.map_map]
    rfl
  have some_command : r.commands ≠ [] := by
    rintro nothing
    have := batch.operations_eq
    rw [nothing] at this
    exact some_operation this.symm
  rw [runReading_eq h, groupCommands_of_batch some_command batch.batch_eq, batch.diagnostics_eq,
    batch.next_eq]
  simp only [runGroups, runGroup_batch, commands]

/-- **A batch does the same as a block and as a call.** With the default settings both texts are
read as one batch of the same operations, in the same order, and nothing is dropped. So they leave
the same session and have the same results, which are those of the operations run as one series. -/
theorem process_blockText_eq_batchCallText (some_item : items ≠ [])
    (valid : items.map Operation.ofValue = operations.map .ok)
    (writesBody :
      Json.Writes body (.mapping [("operations", .list items), ("atomic", .bool atomic)]))
    (writesList : Json.Writes list (.list items))
    (writesOptions : Json.Writes options (.mapping [("atomic", .bool atomic)]))
    (noClosing : ¬ defaults.grammar.markers.closing <:+: body.toList)
    (noOpeningList : ¬ defaults.grammar.markers.opening <:+: list.toList)
    (noOpeningOptions : ¬ defaults.grammar.markers.opening <:+: options.toList) :
    let block := defaults.blockText body
    let call := defaults.batchCallText list options
    (∀ n, (readText defaults.grammar true block.toList n).IsBatch operations ⟨n, atomic⟩ ∧
      (readText defaults.grammar true call.toList n).IsBatch operations ⟨n, atomic⟩) ∧
    ∀ s : Session, s.settings = defaults →
      let run := Series.run s.regime atomic s.store (operations.map .ok)
      (s.process block).1 = (s.process call).1 ∧
      (s.process block).2.results = (s.process call).2.results ∧
      (s.process block).1.store = run.1 ∧ (s.process block).2.results = [.series run.2] := by
  intro block call
  have batchBlock (n : Nat) :
      (readText defaults.grammar true block.toList n).IsBatch operations ⟨n, atomic⟩ := by
    rw [readText_blockText writesBody valid noClosing]
    exact Reading.isBatch_found ..
  have batchCall (n : Nat) :
      (readText defaults.grammar true call.toList n).IsBatch operations ⟨n, atomic⟩ := by
    rw [readText_batchCallText writesList writesOptions valid noOpeningList noOpeningOptions]
    exact Reading.isBatch_found ..
  refine ⟨fun n => ⟨batchBlock n, batchCall n⟩, fun s default => ?_⟩
  have h : s.TakesEffect := by rw [TakesEffect, default]; exact ⟨rfl, rfl⟩
  have some_operation : operations ≠ [] := by
    rintro rfl
    exact some_item (by simpa using valid)
  have ran := runReading_of_isBatch h (batchBlock s.nextBatch) some_operation
  have ran' := runReading_of_isBatch h (batchCall s.nextBatch) some_operation
  simp only [process, default, ran, ran']
  exact ⟨rfl, rfl, rfl, rfl⟩

/-- The text that is added holds both quotes, a comma, a backslash, brackets that close nothing and
the front of another call. -/
theorem process_marks_in_value :
    let text := "it's, \")]\x7d\\ _.set("
    let written := "[\x7b\"op\": \"add\", \"path\": \"a\", \"value\": " ++
      "\"it's, \\\")]\x7d\\\\ _.set(\"\x7d, \x7b\"op\": \"remove\", \"path\": \"a\"\x7d]"
    let options := "\x7b\"atomic\": true\x7d"
    let body := "\x7b\"operations\": " ++ written ++ ", \"atomic\": true\x7d"
    let items : List Value :=
      [.mapping [("op", .text "add"), ("path", .text "a"), ("value", .text text)],
        .mapping [("op", .text "remove"), ("path", .text "a")]]
    let operations : List Operation :=
      [{ path := "a", tagged := true, body := .add (some (.text text)) },
        { path := "a", tagged := true, body := .remove none }]
    let s := start defaults []
    items ≠ [] ∧ items.map Operation.ofValue = operations.map .ok ∧
      Json.Writes body (.mapping [("operations", .list items), ("atomic", .bool true)]) ∧
      Json.Writes written (.list items) ∧
      Json.Writes options (.mapping [("atomic", .bool true)]) ∧
      ¬ defaults.grammar.markers.closing <:+: body.toList ∧
      ¬ defaults.grammar.markers.opening <:+: written.toList ∧
      ¬ defaults.grammar.markers.opening <:+: options.toList ∧
      (readText defaults.grammar true (defaults.blockText body).toList 0).IsBatch operations
        ⟨0, true⟩ ∧
      (readText defaults.grammar true (defaults.batchCallText written options).toList 0).IsBatch
        operations ⟨0, true⟩ ∧
      (s.process (defaults.blockText body)).1 =
        (s.process (defaults.batchCallText written options)).1 := by
  intro text written options body items operations s
  have some_item : items ≠ [] := by simp [items]
  have valid : items.map Operation.ofValue = operations.map .ok := by decide +kernel
  have writesBody :
      Json.Writes body (.mapping [("operations", .list items), ("atomic", .bool true)]) :=
    ⟨by decide +kernel, List.all_eq_true.1 (by decide +kernel), by decide +kernel⟩
  have writesList : Json.Writes written (.list items) :=
    ⟨by decide +kernel, List.all_eq_true.1 (by decide +kernel), by decide +kernel⟩
  have writesOptions : Json.Writes options (.mapping [("atomic", .bool true)]) :=
    ⟨by decide +kernel, List.all_eq_true.1 (by decide +kernel), by decide +kernel⟩
  have noClosing : ¬ defaults.grammar.markers.closing <:+: body.toList := by decide +kernel
  have noOpeningList : ¬ defaults.grammar.markers.opening <:+: written.toList := by decide +kernel
  have noOpeningOptions : ¬ defaults.grammar.markers.opening <:+: options.toList := by
    decide +kernel
  obtain ⟨read, same⟩ := process_blockText_eq_batchCallText some_item valid writesBody writesList
    writesOptions noClosing noOpeningList noOpeningOptions
  exact ⟨some_item, valid, writesBody, writesList, writesOptions, noClosing, noOpeningList,
    noOpeningOptions, (read 0).1, (read 0).2, (same s rfl).1⟩

end Session

end PatchScript
