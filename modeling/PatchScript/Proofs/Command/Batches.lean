import PatchScript.Command.Text
import PatchScript.Proofs.Except
import Mathlib.Data.List.Basic

/-!
# Numbers of batches

Readings compose: reading two lists of parts is reading the first and then the second. Every
reading numbers its batches from the number that it was given, below the number that it ends with,
so two readings in a row never share a batch. Therefore grouping commands commutes with putting
readings one after the other, which is what lets a text take effect piece by piece.

## Main definitions

* `Reading.NumberedFrom` — the batches of a reading have numbers of its own
* `BlockContent` — what the body of a block holds

## Main results

* `numberedFrom_readEach`, `numberedFrom_readBlock`, `numberedFrom_readText`
* `readItems_of_valid`, `commands_readItems_of_invalid` — what the items of a block are read as
* `readBlock_eq` — a block is read by what it holds
* `groupCommands_append` — no group reaches over the seam of two readings
* `groupCommands_of_batch` — the commands of one batch run together
-/

namespace PatchScript

/-! ### One reading after the other -/

namespace Reading

@[simp] theorem empty_andThen (n : Nat) (more : Nat → Reading) :
    (Reading.empty n).andThen more = more n := by
  simp [Reading.empty, andThen]

@[simp] theorem andThen_empty (r : Reading) : r.andThen Reading.empty = r := by
  simp [Reading.empty, andThen]

theorem andThen_assoc (r : Reading) (f g : Nat → Reading) :
    (r.andThen f).andThen g = r.andThen fun n => (f n).andThen g := by
  simp [andThen, List.append_assoc]

end Reading

theorem readEach_append {α : Type} (read : α → Nat → Reading) (xs ys : List α) (n : Nat) :
    readEach read (xs ++ ys) n = (readEach read xs n).andThen (readEach read ys) := by
  induction xs generalizing n with
  | nil => simp [readEach]
  | cons x xs ih =>
    rw [List.cons_append, readEach, readEach, Reading.andThen_assoc]
    exact congrArg _ (funext ih)

/-! ### Numbers -/

/-- The batches of a reading have numbers from `first` on, below that of the next batch. -/
structure Reading.NumberedFrom (first : Nat) (r : Reading) : Prop where
  /-- The number of the next batch does not fall back. -/
  le_next : first ≤ r.next
  /-- Every batch has a number in between. -/
  group_mem : ∀ c ∈ r.commands, ∀ tag, c.batch = some tag → first ≤ tag.group ∧ tag.group < r.next

namespace Reading.NumberedFrom

variable {first : Nat} {surface : Surface} {source : List Char}

/-- A reading whose commands belong to no batch. -/
theorem of_batch_eq_none {r : Reading} (le : first ≤ r.next)
    (h : ∀ c ∈ r.commands, c.batch = none) : r.NumberedFrom first :=
  ⟨le, by
    intro c hc tag htag
    rw [h c hc] at htag
    cases htag⟩

/-- A reading whose commands all belong to one new batch. -/
theorem of_batch_eq_some {r : Reading} (atomic : Bool) (le : first + 1 ≤ r.next)
    (h : ∀ c ∈ r.commands, c.batch = some ⟨first, atomic⟩) : r.NumberedFrom first :=
  ⟨by omega, by
    intro c hc tag htag
    obtain rfl : (⟨first, atomic⟩ : BatchTag) = tag := by simpa [h c hc] using htag
    exact ⟨Nat.le_refl first, le⟩⟩

theorem empty : (Reading.empty first).NumberedFrom first :=
  of_batch_eq_none (Nat.le_refl _) (by simp [Reading.empty])

theorem dropped {text : List Char} {message : String} :
    (Reading.dropped surface text message first).NumberedFrom first :=
  of_batch_eq_none (Nat.le_refl _) (by simp [Reading.dropped])

theorem request {operations : List Operation} :
    (Reading.request surface source operations first).NumberedFrom first := by
  rw [Reading.request]
  split
  · exact of_batch_eq_none (Nat.le_refl _) (by simp [Reading.found])
  · exact of_batch_eq_some true (Nat.le_refl _) (by simp [Reading.found])

theorem andThen {r : Reading} {more : Nat → Reading} (hr : r.NumberedFrom first)
    (hmore : (more r.next).NumberedFrom r.next) : (r.andThen more).NumberedFrom first := by
  refine ⟨Nat.le_trans hr.le_next hmore.le_next, fun c hc tag htag => ?_⟩
  rcases List.mem_append.1 hc with front | back
  · have := hr.group_mem c front tag htag
    exact ⟨this.1, Nat.lt_of_lt_of_le this.2 hmore.le_next⟩
  · have := hmore.group_mem c back tag htag
    exact ⟨Nat.le_trans hr.le_next this.1, this.2⟩

end Reading.NumberedFrom

theorem numberedFrom_readEach {α : Type} {read : α → Nat → Reading}
    (h : ∀ a n, (read a n).NumberedFrom n) (l : List α) (n : Nat) :
    (readEach read l n).NumberedFrom n := by
  induction l generalizing n with
  | nil => exact .empty
  | cons a rest ih => exact (h a n).andThen (ih _)

/-- What every part keeps to, the whole list keeps to. -/
theorem forall_mem_commands_readEach {α : Type} {read : α → Nat → Reading} {P : Command → Prop}
    {l : List α} (h : ∀ a ∈ l, ∀ n, ∀ c ∈ (read a n).commands, P c) (n : Nat) :
    ∀ c ∈ (readEach read l n).commands, P c := by
  induction l generalizing n with
  | nil => simp [readEach, Reading.empty]
  | cons a rest ih =>
    intro c hc
    rcases List.mem_append.1 hc with front | back
    · exact h a (by simp) n c front
    · exact ih (fun b hb => h b (by simp [hb])) _ c back

/-- Parts that use up no number use up none together. -/
theorem next_readEach {α : Type} {read : α → Nat → Reading} {l : List α}
    (h : ∀ a ∈ l, ∀ n, (read a n).next = n) (n : Nat) : (readEach read l n).next = n := by
  induction l generalizing n with
  | nil => rfl
  | cons a rest ih =>
    change (readEach read rest (read a n).next).next = n
    rw [h a (by simp) n]
    exact ih (fun b hb => h b (by simp [hb])) n

/-! ### The items of a block -/

/-- The reading of one item of a block. -/
def readItem (source : List Char) (tag : Option BatchTag) (item : Value × Nat) (n : Nat) :
    Reading :=
  match Operation.ofValue item.1 with
  | .ok o => .found .block source tag [o] n
  | .error problems =>
    .dropped .block (Json.print item.1)
      ("invalid operation #" ++ toString item.2 ++ " (" ++ toString problems.length ++
        " error(s))") n

theorem readItems_eq (source : List Char) (tag : Option BatchTag) (items : List Value) (n : Nat) :
    readItems source tag items n =
      if (tag.map (·.atomic)).getD false then
        match items.zipIdx.find? fun item => !(Operation.ofValue item.1).isOk with
        | none => readEach (readItem source tag) items.zipIdx n
        | some item =>
          (readItem source tag item n).andThen
            (Reading.dropped .block source "atomic batch dropped")
      else readEach (readItem source tag) items.zipIdx n := by
  have item : readItem source tag = fun item => match Operation.ofValue item.1 with
      | .ok o => Reading.found .block source tag [o]
      | .error problems => Reading.dropped .block (Json.print item.1)
        ("invalid operation #" ++ toString item.2 ++ " (" ++ toString problems.length ++
          " error(s))") := by
    funext item n
    rw [readItem]
    cases Operation.ofValue item.1 <;> rfl
  rw [item]
  rfl

theorem next_readItem (source : List Char) (tag : Option BatchTag) (item : Value × Nat)
    (n : Nat) : (readItem source tag item n).next = n := by
  rw [readItem]
  split <;> rfl

theorem batch_of_mem_readItem {source : List Char} {tag : Option BatchTag} {item : Value × Nat}
    {n : Nat} {c : Command} (hc : c ∈ (readItem source tag item n).commands) : c.batch = tag := by
  rw [readItem] at hc
  split at hc
  · obtain rfl : c = _ := by simpa [Reading.found] using hc
    rfl
  · simp [Reading.dropped] at hc

theorem next_readItems (source : List Char) (tag : Option BatchTag) (items : List Value)
    (n : Nat) : (readItems source tag items n).next = n := by
  have all := next_readEach (fun item (_ : item ∈ items.zipIdx) => next_readItem source tag item) n
  rw [readItems_eq]
  split
  · split
    · exact all
    · exact next_readItem ..
  · exact all

theorem batch_of_mem_readItems {source : List Char} {tag : Option BatchTag} {items : List Value}
    {n : Nat} {c : Command} (hc : c ∈ (readItems source tag items n).commands) :
    c.batch = tag := by
  have all : ∀ c ∈ (readEach (readItem source tag) items.zipIdx n).commands, c.batch = tag :=
    forall_mem_commands_readEach (fun _ _ _ _ => batch_of_mem_readItem) n
  rw [readItems_eq] at hc
  split at hc
  · split at hc
    · exact all c hc
    · -- what is said about the batch that is dropped holds no command
      rw [Reading.andThen, Reading.dropped, List.append_nil] at hc
      exact batch_of_mem_readItem hc
  · exact all c hc

theorem readItem_of_ok {source : List Char} {tag : Option BatchTag} {item : Value × Nat}
    {o : Operation} (h : Operation.ofValue item.1 = .ok o) (n : Nat) :
    readItem source tag item n = .found .block source tag [o] n := by
  rw [readItem, h]

theorem commands_readItem_of_error {source : List Char} {tag : Option BatchTag}
    {item : Value × Nat} (h : (Operation.ofValue item.1).isOk = false) (n : Nat) :
    (readItem source tag item n).commands = [] := by
  obtain ⟨problems, invalid⟩ := isOk_eq_false_iff.1 h
  rw [readItem, invalid]
  rfl

/-- Items that are all valid are read as one command each, in order, whether or not the batch is to
be taken as a whole. -/
theorem readItems_of_valid {source : List Char} {tag : Option BatchTag} {items : List Value}
    {operations : List Operation} (valid : items.map Operation.ofValue = operations.map .ok)
    (n : Nat) : readItems source tag items n = .found .block source tag operations n := by
  have each (first : Nat) : readEach (readItem source tag) (items.zipIdx first) n =
      .found .block source tag operations n := by
    induction operations generalizing items first with
    | nil =>
      obtain rfl : items = [] := by simpa using valid
      rfl
    | cons o operations ih =>
      obtain ⟨item, rest, rfl, head, tail⟩ := List.map_eq_cons_iff.1 valid
      rw [List.zipIdx_cons, readEach, readItem_of_ok head, Reading.andThen]
      rw [show (Reading.found .block source tag [o] n).next = n from rfl, ih tail]
      rfl
  have none_invalid : items.zipIdx.find? (fun item => !(Operation.ofValue item.1).isOk) = none := by
    simp only [List.find?_eq_none, Bool.not_eq_true', Bool.not_eq_false, Prod.forall]
    intro item i hmem
    have ok : Operation.ofValue item ∈ operations.map Except.ok :=
      valid ▸ List.mem_map_of_mem (List.fst_mem_of_mem_zipIdx hmem)
    obtain ⟨o, -, ho⟩ := List.mem_map.1 ok
    rw [← ho]
    rfl
  rw [readItems_eq, none_invalid, each 0, ite_self]

/-- Items of which none is invalid are operations. -/
theorem exists_operations_of_valid {items : List Value}
    (h : ∀ item ∈ items, (Operation.ofValue item).isOk = true) :
    ∃ operations : List Operation, items.map Operation.ofValue = operations.map .ok := by
  induction items with
  | nil => exact ⟨[], rfl⟩
  | cons item rest ih =>
    obtain ⟨operations, tail⟩ := ih fun item hmem => h item (by simp [hmem])
    obtain ⟨o, head⟩ := isOk_eq_true_iff.1 (h item (by simp))
    exact ⟨o :: operations, by rw [List.map_cons, head, tail, List.map_cons]⟩

/-- From a batch to be taken as a whole one invalid item drops them all. -/
theorem commands_readItems_of_invalid {source : List Char} {group : Nat} {items : List Value}
    {item : Value} (mem : item ∈ items) (invalid : (Operation.ofValue item).isOk = false)
    (n : Nat) : (readItems source (some ⟨group, true⟩) items n).commands = [] := by
  have found : items.zipIdx.find? (fun item => !(Operation.ofValue item.1).isOk) ≠ none := by
    obtain ⟨i, hi⟩ := List.mem_iff_getElem?.1 mem
    rw [ne_eq, List.find?_eq_none]
    intro allValid
    exact absurd invalid (by simpa using allValid (item, i) (List.mem_zipIdx_iff_getElem?.2 hi))
  rw [readItems_eq, Option.map_some, Option.getD_some, if_pos rfl]
  cases first : items.zipIdx.find? (fun item => !(Operation.ofValue item.1).isOk) with
  | none => exact absurd first found
  | some item =>
    have bad : (Operation.ofValue item.1).isOk = false := by simpa using List.find?_some first
    change (readItem source (some ⟨group, true⟩) item n).commands ++ [] = []
    rw [commands_readItem_of_error bad, List.append_nil]

/-! ### Blocks, lines and calls -/

/-- What the body of a block holds. -/
inductive BlockContent where
  | blank
  | unusable (message : String)
  | operation (item : Value)
  | batch (items : List Value) (atomic : Bool)

/-- What the body of a block holds. A mapping with a kind is one operation; the list of another
mapping is a batch, and so is a list on its own. -/
def BlockContent.ofBody (atomicLists : Bool) (body : List Char) : BlockContent :=
  let unexpected : BlockContent :=
    .unusable "expected an operation, a list of operations or an operations object"
  if (blockContent body).isEmpty then .blank
  else
    match Json.read (blockContent body) with
    | .error e => .unusable ("malformed JSON (" ++ e.message ++ ")")
    | .ok (.list items) => .batch items atomicLists
    | .ok (.mapping m) =>
      if Mapping.hasKey m "op" then .operation (.mapping m)
      else
        match Mapping.get? m "operations" with
        | some (.list items) =>
          .batch items (((Mapping.get? m "atomic").map Value.isTruthy).getD false)
        | _ => unexpected
    | .ok _ => unexpected

/-- A block is read by what it holds. -/
theorem readBlock_eq (atomicLists : Bool) (body : List Char) (n : Nat) :
    readBlock atomicLists body n =
      match BlockContent.ofBody atomicLists body with
      | .blank => .empty n
      | .unusable message => .dropped .block (blockContent body) message n
      | .operation item => readItems (blockContent body) none [item] n
      | .batch items atomic =>
        readItems (blockContent body) (some ⟨n, atomic⟩) items (n + 1) := by
  simp only [readBlock, BlockContent.ofBody]
  split
  · rfl
  · cases Json.read (blockContent body) with
    | error e => rfl
    | ok v =>
      cases v with
      | mapping m =>
        dsimp only
        split
        · rfl
        · cases Mapping.get? m "operations" with
          | none => rfl
          | some v => cases v <;> rfl
      | _ => rfl

theorem numberedFrom_readBlock (atomicLists : Bool) (body : List Char) (n : Nat) :
    (readBlock atomicLists body n).NumberedFrom n := by
  rw [readBlock_eq]
  cases BlockContent.ofBody atomicLists body with
  | blank => exact .empty
  | unusable message => exact .dropped
  | operation item =>
    exact .of_batch_eq_none (Nat.le_of_eq (next_readItems ..).symm) fun c hc =>
      batch_of_mem_readItems hc
  | batch items atomic =>
    exact .of_batch_eq_some atomic (Nat.le_of_eq (next_readItems ..).symm) fun c hc =>
      batch_of_mem_readItems hc

theorem numberedFrom_readLine (opening line : List Char) (n : Nat) :
    (readLine opening line n).NumberedFrom n := by
  unfold readLine
  split
  · exact .empty
  · split
    · exact .request
    · exact .dropped

theorem numberedFrom_readCall (site : CallSite) (n : Nat) : (readCall site n).NumberedFrom n := by
  unfold readCall
  split
  · exact .dropped
  · split
    · exact .dropped
    · exact .request
    · next operations atomic _ =>
      exact .of_batch_eq_some atomic (Nat.le_refl _) (by simp [Reading.found])

theorem numberedFrom_readText (g : TextGrammar) (flush : Bool) (text : List Char) (n : Nat) :
    (readText g flush text n).NumberedFrom n :=
  ((numberedFrom_readEach (numberedFrom_readBlock g.atomicLists) _ n).andThen
    (numberedFrom_readEach (numberedFrom_readLine g.lineOpening) _ _)).andThen
    (numberedFrom_readEach numberedFrom_readCall _ _)

/-! ### Groups -/

/-- The group of a command that runs with no neighbour. -/
def CommandGroup.ofCommand (c : Command) : CommandGroup :=
  ⟨[c], c.batch.isSome, (c.batch.map (·.atomic)).getD false⟩

theorem groupCommands_singleton (c : Command) : groupCommands [c] = [.ofCommand c] := rfl

theorem groupCommands_cons {c d : Command} {rest : List Command} {g : CommandGroup}
    {groups : List CommandGroup} (h : groupCommands (d :: rest) = g :: groups) :
    groupCommands (c :: d :: rest) =
      if sameBatch c d then
        ⟨c :: g.commands, true, (c.batch.map (·.atomic)).getD false⟩ :: groups
      else .ofCommand c :: g :: groups := by
  conv => lhs; unfold groupCommands
  rw [h]
  rfl

theorem groupCommands_ne_nil (c : Command) (rest : List Command) :
    ∃ g groups, groupCommands (c :: rest) = g :: groups := by
  induction rest generalizing c with
  | nil => exact ⟨_, _, groupCommands_singleton c⟩
  | cons d rest ih =>
    obtain ⟨g, groups, h⟩ := ih d
    rw [groupCommands_cons h]
    split <;> exact ⟨_, _, rfl⟩

/-- No group reaches over a seam where the batches change. -/
theorem groupCommands_append {front back : List Command}
    (h : ∀ c ∈ front, ∀ d ∈ back, sameBatch c d = false) :
    groupCommands (front ++ back) = groupCommands front ++ groupCommands back := by
  induction front with
  | nil => rfl
  | cons c front ih =>
    have others := ih fun c' hc => h c' (by simp [hc])
    cases front with
    | nil =>
      cases back with
      | nil => rfl
      | cons d back =>
        obtain ⟨g, groups, hd⟩ := groupCommands_ne_nil d back
        have seam := h c (by simp) d (by simp)
        rw [groupCommands_singleton, List.singleton_append, groupCommands_cons hd, seam, hd]
        rfl
    | cons d front =>
      obtain ⟨g, groups, hd⟩ := groupCommands_ne_nil d front
      rw [hd] at others
      have longer := groupCommands_cons (c := c) (List.cons_append .. ▸ others)
      rw [List.cons_append, List.cons_append, longer, groupCommands_cons hd]
      split <;> rfl

/-- The commands of one batch run together. -/
theorem groupCommands_of_batch {tag : BatchTag} {commands : List Command}
    (some_command : commands ≠ []) (batch : ∀ c ∈ commands, c.batch = some tag) :
    groupCommands commands = [⟨commands, true, tag.atomic⟩] := by
  induction commands with
  | nil => exact absurd rfl some_command
  | cons c rest ih =>
    have head := batch c (by simp)
    cases rest with
    | nil => simp [groupCommands_singleton, CommandGroup.ofCommand, head]
    | cons d rest =>
      have next := batch d (by simp)
      have others := ih (by simp) fun e he => batch e (List.mem_cons_of_mem c he)
      rw [groupCommands_cons others, sameBatch, head, next]
      simp

/-- Two readings in a row share no batch. -/
theorem sameBatch_eq_false {r r' : Reading} {first : Nat} (hr : r.NumberedFrom first)
    (hr' : r'.NumberedFrom r.next) :
    ∀ c ∈ r.commands, ∀ d ∈ r'.commands, sameBatch c d = false := by
  intro c hc d hd
  rw [sameBatch]
  split
  · next s t hs ht =>
    have := (hr.group_mem c hc s hs).2
    have := (hr'.group_mem d hd t ht).1
    simp only [beq_eq_false_iff_ne, ne_eq]
    omega
  · rfl

end PatchScript
