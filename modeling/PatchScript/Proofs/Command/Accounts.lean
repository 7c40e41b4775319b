import PatchScript.Proofs.Command.Parts
import Mathlib.Data.List.Forall2

/-!
# Nothing recognized is lost

What a text holds for a reader to recognize is either used or reported, and never both. A line with
a verb and a call give commands or one diagnostic; a block with one operation gives that command or
one diagnostic; from a list of operations each item is a command or a diagnostic, unless the batch
is all or nothing and dropped as a whole. The only thing that is recognized and gives neither is a
call for a batch of no operations.

## Main definitions

* `Reading.IsSettled`, `IsSingle`, `IsSilent` — what a part gives
* `CallSite.isEmptyBatch` — a call for a batch of no operations
* `BlockContent.Accounts`, `TextPart.Accounts` — a part is used or reported

## Main results

* `lineRequest_ne_ok_nil`, `methodRequest_ne_ok_nil` — a request is for at least one operation
* `accounts_readItems` — the items of a block
* `TextGrammar.accounts_readPart` — one part of a text
* `readText_accounts` — the headline
-/

namespace PatchScript

/-! ### What a part gives -/

namespace Reading

/-- Commands without a diagnostic, or one diagnostic without a command. -/
def IsSettled (r : Reading) : Prop :=
  (r.commands ≠ [] ∧ r.diagnostics = []) ∨ (r.commands = [] ∧ r.diagnostics.length = 1)

/-- One command or one diagnostic. -/
def IsSingle (r : Reading) : Prop := r.commands.length + r.diagnostics.length = 1

/-- Neither commands nor diagnostics. -/
def IsSilent (r : Reading) : Prop := r.commands = [] ∧ r.diagnostics = []

theorem isSettled_dropped (surface : Surface) (text : List Char) (message : String) (n : Nat) :
    (Reading.dropped surface text message n).IsSettled := .inr ⟨rfl, rfl⟩

theorem isSettled_found {operations : List Operation} (h : operations ≠ []) (surface : Surface)
    (source : List Char) (tag : Option BatchTag) (n : Nat) :
    (Reading.found surface source tag operations n).IsSettled :=
  .inl ⟨fun none => h (List.map_eq_nil_iff.1 none), rfl⟩

theorem isSettled_request {operations : List Operation} (h : operations ≠ []) (surface : Surface)
    (source : List Char) (n : Nat) :
    (Reading.request surface source operations n).IsSettled := by
  rw [Reading.request]
  split
  · exact isSettled_found h ..
  · exact isSettled_found h ..

end Reading

/-- Whether the arguments of a batch ask for no operations: the list is empty, and the options are a
mapping if there are any. -/
def asksForNothing : List Value → Bool
  | [.list []] => true
  | .list [] :: .mapping _ :: _ => true
  | _ => false

/-- Whether a call asks for a batch of no operations. -/
def CallSite.isEmptyBatch : CallSite → Bool
  | .closed .batch _ text =>
    ((splitArguments text >>= (·.mapM readLiteral)).toOption.map asksForNothing).getD false
  | _ => false

/-- What the body of a block gives. A list gives one command or diagnostic for each item, unless it
is all or nothing: then one item that is no operation drops them all, and that is said besides. -/
def BlockContent.Accounts : BlockContent → Reading → Prop
  | .blank, r => r.IsSilent
  | .unusable _, r => r.IsSingle
  | .operation _, r => r.IsSingle
  | .batch items false, r =>
    r.commands.map (·.operation) = validItems items ∧
      r.commands.length + r.diagnostics.length = items.length
  | .batch items true, r =>
    (r.commands.map (·.operation) = validItems items ∧ r.commands.length = items.length ∧
      r.diagnostics = []) ∨ (r.commands = [] ∧ r.diagnostics.length = 2)

/-- What a part of a text gives: whatever is recognized is used or reported. -/
def TextPart.Accounts (g : TextGrammar) : TextPart → Reading → Prop
  | .block body, r => (BlockContent.ofBody g.atomicLists body).Accounts r
  | .line text, r => if (lineParts? g.lineOpening text).isSome then r.IsSettled else r.IsSilent
  | .call site, r => if site.isEmptyBatch then r.IsSilent else r.IsSettled

/-! ### Requests -/

section

variable {α β : Type}

theorem bind_ne_ok_nil {x : Except CommandFault α} {f : α → Except CommandFault (List β)}
    (h : ∀ a, f a ≠ .ok []) : (x >>= f) ≠ .ok [] := by
  intro ok
  obtain ⟨a, -, nil⟩ := bind_eq_ok_iff.1 ok
  exact h a nil

theorem length_of_mapM_eq_ok {f : α → Except CommandFault β} {l : List α} {l' : List β}
    (h : l.mapM f = .ok l') : l'.length = l.length := by
  induction l generalizing l' with
  | nil =>
    cases h
    rfl
  | cons a rest ih =>
    rw [List.mapM_cons] at h
    obtain ⟨b, -, h⟩ := bind_eq_ok_iff.1 h
    obtain ⟨bs, tail, h⟩ := bind_eq_ok_iff.1 h
    cases h
    rw [List.length_cons, ih tail, List.length_cons]

theorem pure_singleton_ne_ok_nil (b : β) : (pure [b] : Except CommandFault (List β)) ≠ .ok [] := by
  intro ok
  cases ok

end

theorem checkedReplace_ne_nil (path : String) (expected value : Value) (reason : Option String) :
    Shorthand.checkedReplace path expected value reason ≠ [] := List.cons_ne_nil _ _

theorem lineSetting_ne_ok_nil (w : LineWords) : lineSetting w ≠ .ok [] := by
  rw [lineSetting]
  split
  · exact pure_singleton_ne_ok_nil _
  · split
    · exact fun ok => checkedReplace_ne_nil _ _ _ _ (Except.ok.inj ok)
    · nofun
  · nofun

/-- A line that is understood asks for an operation. -/
theorem lineRequest_ne_ok_nil (verb : LineVerb) (rest : List Char) :
    lineRequest verb rest ≠ .ok [] := by
  cases verb with
  | set => exact bind_ne_ok_nil lineSetting_ne_ok_nil
  | evaluate => exact bind_ne_ok_nil fun _ => pure_singleton_ne_ok_nil _
  | insert =>
    exact bind_ne_ok_nil fun _ => bind_ne_ok_nil fun _ => bind_ne_ok_nil fun _ =>
      pure_singleton_ne_ok_nil _
  | _ => exact bind_ne_ok_nil fun _ => bind_ne_ok_nil fun _ => pure_singleton_ne_ok_nil _

/-- A call of a method with a path that is understood asks for an operation. -/
theorem methodRequest_ne_ok_nil (method : CallMethod) (path : String) (values : List Value) :
    methodRequest method path values ≠ .ok [] := by
  unfold methodRequest
  split
  all_goals first
    | exact pure_singleton_ne_ok_nil _
    | exact bind_ne_ok_nil fun _ => pure_singleton_ne_ok_nil _
    | exact fun ok => checkedReplace_ne_nil _ _ _ _ (Except.ok.inj ok)
    | nofun

/-- A batch asks for as many operations as its list has items, if it is understood. -/
theorem callBatch_eq (arguments : List Value) :
    (∃ fault, callBatch arguments = .error fault ∧ asksForNothing arguments = false) ∨
      ∃ operations atomic, callBatch arguments = .ok (.batch operations atomic) ∧
        asksForNothing arguments = operations.isEmpty := by
  cases understood : callBatch arguments with
  | error fault =>
    refine .inl ⟨fault, rfl, ?_⟩
    rw [← Bool.not_eq_true]
    intro nothing
    unfold asksForNothing at nothing
    split at nothing <;> cases nothing <;> cases understood
  | ok request =>
    right
    unfold callBatch at understood
    split at understood
    · next items options =>
      split at understood
      · next m usable =>
        obtain ⟨operations, valid, made⟩ := bind_eq_ok_iff.1 understood
        cases made
        have length := length_of_mapM_eq_ok valid
        refine ⟨operations, _, rfl, ?_⟩
        cases operations with
        | cons o rest =>
          cases items with
          | nil => cases length
          | cons item others => rfl
        | nil =>
          obtain rfl : items = [] := List.eq_nil_of_length_eq_zero length.symm
          cases options with
          | nil => rfl
          | cons v others =>
            obtain rfl : v = .mapping m := usable
            rfl
      · cases understood
    · cases understood

/-- A call that is understood and no batch asks for operations. -/
theorem callRequest_ok {method : CallMethod} {arguments : List Value} {request : CallRequest}
    (other : method ≠ .batch) (h : callRequest method arguments = .ok request) :
    ∃ operations, request = .operations operations ∧ operations ≠ [] := by
  unfold callRequest at h
  split at h
  · exact absurd rfl other
  · obtain ⟨operation, -, made⟩ := bind_eq_ok_iff.1 h
    cases made
    exact ⟨[operation], rfl, List.cons_ne_nil _ _⟩
  · cases h
  · cases h
  · obtain ⟨operations, understood, made⟩ := bind_eq_ok_iff.1 h
    cases made
    refine ⟨operations, rfl, ?_⟩
    rintro rfl
    exact methodRequest_ne_ok_nil _ _ _ understood

/-- A call is used or reported, unless it asks for a batch of no operations. -/
theorem accounts_readCall (site : CallSite) (n : Nat) :
    if site.isEmptyBatch then (readCall site n).IsSilent else (readCall site n).IsSettled := by
  cases site with
  | unterminated text => exact Reading.isSettled_dropped ..
  | closed method source text =>
    rw [readCall]
    by_cases batch : method = .batch
    · subst batch
      rw [CallSite.isEmptyBatch]
      cases read : splitArguments text >>= (·.mapM readLiteral) with
      | error fault => exact Reading.isSettled_dropped ..
      | ok arguments =>
        have asked : (Except.ok arguments >>= callRequest .batch) = callBatch arguments := rfl
        have given : (Except.ok arguments : Except CommandFault _).toOption = some arguments := rfl
        rw [asked, given, Option.map_some, Option.getD_some]
        obtain ⟨fault, refused, some_operation⟩ | ⟨operations, atomic, understood, nothing⟩ :=
          callBatch_eq arguments
        · rw [refused, some_operation]
          exact Reading.isSettled_dropped ..
        · rw [understood, nothing]
          cases operations with
          | nil => exact ⟨rfl, rfl⟩
          | cons o rest => exact Reading.isSettled_found (List.cons_ne_nil _ _) ..
    · have empty : (CallSite.closed method source text).isEmptyBatch = false := by
        cases method <;> first | rfl | exact absurd rfl batch
      rw [empty, if_neg Bool.false_ne_true]
      cases read : (splitArguments text >>= (·.mapM readLiteral)) >>= callRequest method with
      | error fault => exact Reading.isSettled_dropped ..
      | ok request =>
        obtain ⟨arguments, -, understood⟩ := bind_eq_ok_iff.1 read
        obtain ⟨operations, rfl, some_operation⟩ := callRequest_ok batch understood
        exact Reading.isSettled_request some_operation ..

/-- A line with a verb is used or reported, and any other line is prose. -/
theorem accounts_readLine (opening text : List Char) (n : Nat) :
    if (lineParts? opening text).isSome then (readLine opening text n).IsSettled
    else (readLine opening text n).IsSilent := by
  rw [readLine]
  cases lineParts? opening text with
  | none => exact ⟨rfl, rfl⟩
  | some parts =>
    rw [Option.isSome_some, if_pos rfl]
    cases request : lineRequest parts.1 parts.2 with
    | error fault =>
      simp only [request]
      exact Reading.isSettled_dropped ..
    | ok operations =>
      simp only [request]
      refine Reading.isSettled_request ?_ ..
      rintro rfl
      exact lineRequest_ne_ok_nil _ _ request

/-! ### Items -/

theorem isSingle_readItem (source : List Char) (tag : Option BatchTag) (item : Value × Nat)
    (n : Nat) : (readItem source tag item n).IsSingle := by
  rw [readItem]
  split <;> rfl

/-- Each item is a command or a diagnostic. -/
theorem length_readEach_readItem (source : List Char) (tag : Option BatchTag)
    (items : List (Value × Nat)) (n : Nat) :
    (readEach (readItem source tag) items n).commands.length +
      (readEach (readItem source tag) items n).diagnostics.length = items.length := by
  induction items generalizing n with
  | nil => rfl
  | cons item rest ih =>
    have first := isSingle_readItem source tag item n
    have others := ih (readItem source tag item n).next
    simp only [Reading.IsSingle] at first
    simp only [readEach, Reading.andThen, List.length_append, List.length_cons]
    omega

theorem operation_found (surface : Surface) (source : List Char) (tag : Option BatchTag)
    (operations : List Operation) (n : Nat) :
    (Reading.found surface source tag operations n).commands.map (·.operation) = operations := by
  rw [Reading.found, List.map_map]
  exact List.map_id' _

theorem validItems_of_valid {items : List Value} {operations : List Operation}
    (valid : items.map Operation.ofValue = operations.map .ok) : validItems items = operations := by
  have outcomes : validItems items = (items.map Operation.ofValue).filterMap Except.toOption := by
    rw [validItems, List.filterMap_map]
    rfl
  rw [outcomes, valid, List.filterMap_map]
  exact List.filterMap_some

/-- The items of a block are used or reported. -/
theorem accounts_readItems (source : List Char) (group : Nat) (items : List Value) (atomic : Bool)
    (n : Nat) :
    (BlockContent.batch items atomic).Accounts
      (readItems source (some ⟨group, atomic⟩) items n) := by
  cases atomic with
  | false =>
    have commands : (readItems source (some ⟨group, false⟩) items n).commands = _ :=
      commands_readItems_of_not_atomic rfl source items n
    refine ⟨?_, ?_⟩
    · rw [commands, operation_found]
    · rw [readItems_eq, if_neg (by simp)]
      simpa using length_readEach_readItem source _ items.zipIdx n
  | true =>
    cases first : items.zipIdx.find? fun item => !(Operation.ofValue item.1).isOk with
    | some item =>
      obtain ⟨problems, invalid⟩ : ∃ problems, Operation.ofValue item.1 = .error problems :=
        isOk_eq_false_iff.1 (by simpa using List.find?_some first)
      right
      rw [readItems_eq, if_pos (by rfl), first]
      simp only [readItem, invalid]
      exact ⟨rfl, rfl⟩
    | none =>
      have each : ∀ item ∈ items, (Operation.ofValue item).isOk = true := by
        intro item hitem
        obtain ⟨i, hi⟩ := List.mem_iff_getElem?.1 hitem
        simpa using List.find?_eq_none.1 first (item, i) (List.mem_zipIdx_iff_getElem?.2 hi)
      obtain ⟨operations, valid⟩ := exists_operations_of_valid each
      have length : items.length = operations.length := by
        simpa using congrArg List.length valid
      left
      rw [readItems_of_valid valid n, validItems_of_valid valid, length]
      exact ⟨operation_found .., List.length_map .., rfl⟩

/-! ### Parts -/

/-- A block is used or reported. -/
theorem accounts_readBlock (atomicLists : Bool) (body : List Char) (n : Nat) :
    (BlockContent.ofBody atomicLists body).Accounts (readBlock atomicLists body n) := by
  rw [readBlock_eq]
  cases BlockContent.ofBody atomicLists body with
  | blank => exact ⟨rfl, rfl⟩
  | unusable message => exact rfl
  | operation item =>
    dsimp only
    rw [readItems_eq]
    exact length_readEach_readItem _ _ _ n
  | batch items atomic => exact accounts_readItems ..

/-- One part of a text is used or reported. -/
theorem TextGrammar.accounts_readPart (g : TextGrammar) (part : TextPart) (n : Nat) :
    part.Accounts g (g.readPart part n) :=
  match part with
  | .block body => accounts_readBlock g.atomicLists body n
  | .line text => accounts_readLine g.lineOpening text n
  | .call site => accounts_readCall site n

/-- The parts that are read one after the other give what the whole gives. -/
theorem exists_readings_of_readEach {α : Type} (read : α → Nat → Reading) (l : List α) (n : Nat) :
    ∃ readings : List Reading, List.Forall₂ (fun a r => ∃ k, r = read a k) l readings ∧
      (readEach read l n).commands = readings.flatMap Reading.commands ∧
      (readEach read l n).diagnostics = readings.flatMap Reading.diagnostics := by
  induction l generalizing n with
  | nil => exact ⟨[], .nil, rfl, rfl⟩
  | cons a rest ih =>
    obtain ⟨readings, read_rest, commands, diagnostics⟩ := ih (read a n).next
    refine ⟨read a n :: readings, .cons ⟨n, rfl⟩ read_rest, ?_, ?_⟩
    · rw [readEach, Reading.andThen, commands, List.flatMap_cons]
    · rw [readEach, Reading.andThen, diagnostics, List.flatMap_cons]

/-- **Nothing recognized is lost.** A text gives what its parts give, in order, and each part is
used or reported: a line with a verb and a call give commands or exactly one diagnostic, except that
a call for a batch of no operations gives neither; a block gives what its content demands. -/
theorem readText_accounts (g : TextGrammar) (flush : Bool) (text : List Char) (n : Nat) :
    ∃ readings : List Reading,
      List.Forall₂ (fun part r => (∃ k, r = g.readPart part k) ∧ part.Accounts g r)
        (g.parts flush text) readings ∧
      (readText g flush text n).commands = readings.flatMap Reading.commands ∧
      (readText g flush text n).diagnostics = readings.flatMap Reading.diagnostics := by
  rw [readText_eq_readEach]
  obtain ⟨readings, read, commands, diagnostics⟩ :=
    exists_readings_of_readEach g.readPart (g.parts flush text) n
  refine ⟨readings, read.imp ?_, commands, diagnostics⟩
  rintro part r ⟨k, rfl⟩
  exact ⟨⟨k, rfl⟩, g.accounts_readPart part k⟩

/-- A batch with an empty list is reported where its options are no mapping, and a block whose
mapping has a kind is that operation, also where it has a list of no operations besides. -/
theorem readText_empty_list_reported_or_used :
    let grammar := Settings.grammar {}
    let call := "_.batch([], 5)".toList
    let body := "\x7b\"op\":\"remove\",\"path\":\"a\",\"operations\":[]\x7d".toList
    let block := grammar.markers.opening ++ body ++ grammar.markers.closing
    (grammar.parts true call).getLast? = some (.call (.closed .batch call "[], 5".toList)) ∧
      splitArguments "[], 5".toList >>= (·.mapM readLiteral) = .ok [.list [], .int 5] ∧
      (readText grammar true call 1).commands = [] ∧
      (readText grammar true call 1).diagnostics.length = 1 ∧
      (grammar.parts true block).head? = some (.block body) ∧
      Json.read body = .ok (.mapping
        [("op", .text "remove"), ("path", .text "a"), ("operations", .list [])]) ∧
      (readText grammar true block 1).commands.length = 1 ∧
      (readText grammar true block 1).diagnostics = [] := by
  decide +kernel

end PatchScript
