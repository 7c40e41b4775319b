import PatchScript.Proofs.Command.Batches

/-!
# The parts of a text

A text is read part by part: the bodies of its blocks, then the lines and then the calls of what is
left. What holds of the commands of a text is therefore said about one part and carried over to a
list of parts. The commands of one part have one source, and they belong to one new batch or are a
single command without a batch.

## Main definitions

* `TextPart`, `TextGrammar.parts`, `TextGrammar.readPart` — the parts of a text, and how one is read

## Main results

* `readText_eq_readEach` — a text is read part by part
* `commands_readItems_of_not_atomic` — a list of items gives those that are operations
* `TextGrammar.exists_found_readPart` — the commands of one part
-/

namespace PatchScript

/-! ### Parts -/

/-- A part of a text that is read by itself. -/
inductive TextPart where
  | block (body : List Char)
  | line (text : List Char)
  | call (site : CallSite)
deriving DecidableEq

namespace TextPart

/-- The surface of a part. -/
def surface : TextPart → Surface
  | .block _ => .block
  | .line _ => .line
  | .call _ => .call

/-- The text that the commands of a part come from. -/
def source : TextPart → List Char
  | .block body => blockContent body
  | .line text => Text.trim text
  | .call (.closed _ source _) => source
  | .call (.unterminated text) => text

end TextPart

namespace TextGrammar

/-- Reads one part. -/
def readPart (g : TextGrammar) : TextPart → Nat → Reading
  | .block body => readBlock g.atomicLists body
  | .line line => readLine g.lineOpening line
  | .call site => readCall site

/-- The parts of a text, in the order in which they are read. -/
def parts (g : TextGrammar) (flush : Bool) (text : List Char) : List TextPart :=
  let scan := scanBlocks g.markers flush text
  scan.bodies.map .block ++ (Text.lines scan.remainder).map .line ++
    (callSites g.receiver scan.remainder).map .call

end TextGrammar

theorem readEach_map {α β : Type} (read : β → Nat → Reading) (f : α → β) (l : List α) (n : Nat) :
    readEach read (l.map f) n = readEach (fun a => read (f a)) l n := by
  induction l generalizing n with
  | nil => rfl
  | cons a rest ih =>
    rw [List.map_cons, readEach, readEach]
    exact congrArg _ (funext ih)

/-- A text is read part by part. -/
theorem readText_eq_readEach (g : TextGrammar) (flush : Bool) (text : List Char) (n : Nat) :
    readText g flush text n = readEach g.readPart (g.parts flush text) n := by
  rw [TextGrammar.parts, readEach_append, readEach_append]
  simp only [Reading.andThen, readEach_map]
  rfl

/-! ### Items -/

/-- The items that are operations, in order. -/
def validItems (items : List Value) : List Operation :=
  items.filterMap fun item => (Operation.ofValue item).toOption

theorem commands_readEach_readItem (source : List Char) (tag : Option BatchTag)
    (items : List Value) (i n : Nat) :
    (readEach (readItem source tag) (items.zipIdx i) n).commands =
      (Reading.found .block source tag (validItems items) n).commands := by
  induction items generalizing i n with
  | nil => rfl
  | cons item rest ih =>
    rw [List.zipIdx_cons, readEach, Reading.andThen, readItem]
    simp only [ih, validItems, List.filterMap_cons]
    cases Operation.ofValue item <;> rfl

/-- Where one invalid item does not drop them all, the commands are those of the valid items. -/
theorem commands_readItems_of_not_atomic {tag : Option BatchTag}
    (h : (tag.map (·.atomic)).getD false = false) (source : List Char) (items : List Value)
    (n : Nat) :
    (readItems source tag items n).commands =
      (Reading.found .block source tag (validItems items) n).commands := by
  rw [readItems_eq, h, if_neg Bool.false_ne_true, commands_readEach_readItem]

/-- The commands of the items of a block are operations found together. -/
theorem exists_found_readItems (source : List Char) (tag : Option BatchTag) (items : List Value)
    (n : Nat) :
    ∃ operations : List Operation, operations.length ≤ items.length ∧
      (readItems source tag items n).commands =
        (Reading.found .block source tag operations n).commands := by
  cases h : (tag.map (·.atomic)).getD false with
  | false =>
    exact ⟨validItems items, List.length_filterMap_le ..,
      commands_readItems_of_not_atomic h source items n⟩
  | true =>
    obtain ⟨⟨group, atomic⟩, rfl, rfl⟩ : ∃ t, tag = some t ∧ t.atomic = true := by
      cases tag with
      | none => cases h
      | some t => exact ⟨t, rfl, h⟩
    by_cases invalid : ∃ item ∈ items, (Operation.ofValue item).isOk = false
    · obtain ⟨item, mem, bad⟩ := invalid
      exact ⟨[], Nat.zero_le _, commands_readItems_of_invalid mem bad n⟩
    · obtain ⟨operations, valid⟩ := exists_operations_of_valid (by simpa using invalid)
      have length := congrArg List.length valid
      rw [List.length_map, List.length_map] at length
      exact ⟨operations, Nat.le_of_eq length.symm,
        congrArg Reading.commands (readItems_of_valid valid n)⟩

/-! ### One part -/

namespace TextGrammar

theorem numberedFrom_readPart (g : TextGrammar) (part : TextPart) (n : Nat) :
    (g.readPart part n).NumberedFrom n :=
  match part with
  | .block body => numberedFrom_readBlock g.atomicLists body n
  | .line line => numberedFrom_readLine g.lineOpening line n
  | .call site => numberedFrom_readCall site n

end TextGrammar

/-- Whether commands may be those of one part under a tag: without one there is at most one command,
and a tag has the next number. A line has one only where it stands for several operations. -/
def TextPart.MayTag (part : TextPart) (n : Nat) (operations : List Operation) :
    Option BatchTag → Prop
  | none => operations.length ≤ 1
  | some tag => tag.group = n ∧ ∀ line, part = .line line → 1 < operations.length

theorem TextPart.exists_found_request (part : TextPart) (operations : List Operation) (n : Nat) :
    ∃ tag, part.MayTag n operations tag ∧
      (Reading.request part.surface part.source operations n).commands =
        (Reading.found part.surface part.source tag operations n).commands := by
  rw [Reading.request]
  split
  · next few => exact ⟨none, few, rfl⟩
  · next several => exact ⟨some ⟨n, true⟩, ⟨rfl, fun _ _ => Nat.lt_of_not_le several⟩, rfl⟩

/-- **The commands of one part** are operations found together: they have one source, and belong to
one new batch or are a single command without a batch. -/
theorem TextGrammar.exists_found_readPart (g : TextGrammar) (part : TextPart) (n : Nat) :
    ∃ tag operations, part.MayTag n operations tag ∧
      (g.readPart part n).commands =
        (Reading.found part.surface part.source tag operations n).commands := by
  have nothing : part.MayTag n [] none := Nat.zero_le 1
  cases part with
  | block body =>
    rw [readPart, readBlock_eq]
    cases BlockContent.ofBody g.atomicLists body with
    | blank => exact ⟨none, [], nothing, rfl⟩
    | unusable message => exact ⟨none, [], nothing, rfl⟩
    | operation item =>
      obtain ⟨operations, few, found⟩ := exists_found_readItems (blockContent body) none [item] n
      exact ⟨none, operations, few, found⟩
    | batch items atomic =>
      obtain ⟨operations, -, found⟩ :=
        exists_found_readItems (blockContent body) (some ⟨n, atomic⟩) items (n + 1)
      refine ⟨some ⟨n, atomic⟩, operations, ⟨rfl, ?_⟩, found⟩
      rintro line ⟨⟩
  | line line =>
    rw [readPart, readLine]
    cases lineParts? g.lineOpening line with
    | none => exact ⟨none, [], nothing, rfl⟩
    | some parts =>
      dsimp only
      cases lineRequest parts.1 parts.2 with
      | error fault => exact ⟨none, [], nothing, rfl⟩
      | ok operations =>
        obtain ⟨tag, tagged, found⟩ :=
          TextPart.exists_found_request (.line line) operations n
        exact ⟨tag, operations, tagged, found⟩
  | call site =>
    cases site with
    | unterminated text => exact ⟨none, [], nothing, rfl⟩
    | closed method source text =>
      rw [readPart, readCall]
      cases (splitArguments text >>= (·.mapM readLiteral)) >>= callRequest method with
      | error fault => exact ⟨none, [], nothing, rfl⟩
      | ok request =>
        cases request with
        | operations operations =>
          obtain ⟨tag, tagged, found⟩ :=
            TextPart.exists_found_request (.call (.closed method source text)) operations n
          exact ⟨tag, operations, tagged, found⟩
        | batch operations atomic =>
          refine ⟨some ⟨n, atomic⟩, operations, ⟨rfl, ?_⟩, rfl⟩
          rintro line ⟨⟩

end PatchScript
