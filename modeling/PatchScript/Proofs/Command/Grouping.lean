import PatchScript.Proofs.Command.Parts

/-!
# Grouping restores the batches

The commands of a text are a flat list, in which a batch is nothing but a number that its commands
share. Grouping folds the list and compares neighbours only. Still it restores exactly the batches:
every part of a text takes new numbers, larger than those before, so that the commands with one
number stand side by side and all come from one part.

## Main definitions

* `Command.group?`, `batchCommands` — the number of a command's batch, and the commands of a batch
* `TextGrammar.ReadTogether` — the commands of a batch come from one part of a text
* `CommandGroup.IsExact` — a group is a single command, or all commands of one batch

## Main results

* `flatMap_commands_groupCommands` — grouping loses and reorders nothing
* `groupCommands_readText_exact` — the headline: the numbers, the batches and the groups of a text
-/

namespace PatchScript

/-- The number of the batch of a command. -/
def Command.group? (c : Command) : Option Nat := c.batch.map (·.group)

/-- The commands of the batch with a number. -/
def batchCommands (commands : List Command) (id : Nat) : List Command :=
  commands.filter (·.group? == some id)

/-- The numbers of the batches, once for each of their commands. -/
def batchNumbers (commands : List Command) : List Nat := commands.filterMap Command.group?

/-- The commands of the batch with a number come from one part of a text: they are what that part
gives, they stand side by side, and nothing else has their number. A line has a batch only where it
stands for several operations. -/
structure TextGrammar.ReadTogether (g : TextGrammar) (front : List TextPart) (part : TextPart)
    (back : List TextPart) (n : Nat) (commands : List Command) (tag : BatchTag) : Prop where
  contiguous : commands =
    (readEach g.readPart front n).commands ++ batchCommands commands tag.group ++
      (readEach g.readPart back (g.readPart part (readEach g.readPart front n).next).next).commands
  whole : batchCommands commands tag.group =
    (g.readPart part (readEach g.readPart front n).next).commands
  alike : ∀ c ∈ batchCommands commands tag.group, c.batch = some tag ∧ c.surface = part.surface ∧
    c.source = String.ofList part.source
  expanded : ∀ line, part = .line line → 1 < (batchCommands commands tag.group).length

/-- A group is a single command without a batch, or all the commands of one batch, and it is marked
accordingly. -/
inductive CommandGroup.IsExact (commands : List Command) : CommandGroup → Prop
  | single (c : Command) (alone : c.batch = none) : IsExact commands ⟨[c], false, false⟩
  | batch (tag : BatchTag) (some_command : batchCommands commands tag.group ≠ [])
      (alike : ∀ c ∈ batchCommands commands tag.group, c.batch = some tag) :
      IsExact commands ⟨batchCommands commands tag.group, true, tag.atomic⟩

/-! ### Groups of a list -/

/-- Grouping loses nothing and reorders nothing. -/
theorem flatMap_commands_groupCommands (commands : List Command) :
    (groupCommands commands).flatMap CommandGroup.commands = commands := by
  induction commands with
  | nil => rfl
  | cons c rest ih =>
    cases rest with
    | nil => rfl
    | cons d rest =>
      obtain ⟨g, groups, hd⟩ := groupCommands_ne_nil d rest
      rw [hd, List.flatMap_cons] at ih
      rw [groupCommands_cons hd]
      split
      · rw [List.flatMap_cons, List.cons_append, ih]
      · rw [List.flatMap_cons, List.flatMap_cons, ih]
        rfl

/-! ### Lists of parts -/

section

variable {α : Type} {read : α → Nat → Reading} {l : List α} {n : Nat}

/-- A list of parts is read up to one of them, then that one is read, and then the rest. -/
theorem commands_readEach_around (read : α → Nat → Reading) (front : List α) (a : α)
    (back : List α) (n : Nat) :
    (readEach read (front ++ a :: back) n).commands =
      (readEach read front n).commands ++ (read a (readEach read front n).next).commands ++
        (readEach read back (read a (readEach read front n).next).next).commands := by
  rw [readEach_append]
  exact (List.append_assoc ..).symm

/-- Every group of a list of parts is a group of one of them. -/
theorem exists_part_of_mem_groupCommands (h : ∀ a n, (read a n).NumberedFrom n) {G : CommandGroup}
    (mem : G ∈ groupCommands (readEach read l n).commands) :
    ∃ front a back, l = front ++ a :: back ∧
      G ∈ groupCommands (read a (readEach read front n).next).commands := by
  induction l generalizing n with
  | nil => cases mem
  | cons a rest ih =>
    have seam := sameBatch_eq_false (h a n) (numberedFrom_readEach h rest (read a n).next)
    change G ∈ groupCommands
      ((read a n).commands ++ (readEach read rest (read a n).next).commands) at mem
    rw [groupCommands_append seam] at mem
    rcases List.mem_append.1 mem with first | later
    · exact ⟨[], a, rest, rfl, first⟩
    · obtain ⟨front, b, back, rfl, found⟩ := ih later
      exact ⟨a :: front, b, back, rfl, found⟩

/-- Every command of a list of parts is one of a single part. -/
theorem exists_part_of_mem_commands {c : Command} (mem : c ∈ (readEach read l n).commands) :
    ∃ front a back, l = front ++ a :: back ∧
      c ∈ (read a (readEach read front n).next).commands := by
  induction l generalizing n with
  | nil => cases mem
  | cons a rest ih =>
    rcases List.mem_append.1 mem with first | later
    · exact ⟨[], a, rest, rfl, first⟩
    · obtain ⟨front, b, back, rfl, found⟩ := ih later
      exact ⟨a :: front, b, back, rfl, found⟩

theorem batchNumbers_append (front back : List Command) :
    batchNumbers (front ++ back) = batchNumbers front ++ batchNumbers back :=
  List.filterMap_append ..

theorem mem_batchNumbers {commands : List Command} {id : Nat} :
    id ∈ batchNumbers commands ↔ ∃ c ∈ commands, ∃ tag, c.batch = some tag ∧ tag.group = id := by
  simp [batchNumbers, Command.group?, Option.map_eq_some_iff]

/-- Numbers do not decrease from part to part, if they do not within the parts. -/
theorem pairwise_batchNumbers_readEach (h : ∀ a n, (read a n).NumberedFrom n)
    (each : ∀ a n, (batchNumbers (read a n).commands).Pairwise (· ≤ ·)) (l : List α) (n : Nat) :
    (batchNumbers (readEach read l n).commands).Pairwise (· ≤ ·) := by
  induction l generalizing n with
  | nil => exact List.Pairwise.nil
  | cons a rest ih =>
    change (batchNumbers
      ((read a n).commands ++ (readEach read rest (read a n).next).commands)).Pairwise _
    rw [batchNumbers_append, List.pairwise_append]
    refine ⟨each a n, ih _, fun i hi j hj => ?_⟩
    obtain ⟨c, hc, s, hs, rfl⟩ := mem_batchNumbers.1 hi
    obtain ⟨d, hd, t, ht, rfl⟩ := mem_batchNumbers.1 hj
    have := ((h a n).group_mem c hc s hs).2
    have := ((numberedFrom_readEach h rest _).group_mem d hd t ht).1
    omega

end

/-! ### Commands found together -/

section

variable {surface : Surface} {source : List Char} {operations : List Operation} {n : Nat}

theorem batch_of_mem_found {tag : Option BatchTag} {c : Command}
    (hc : c ∈ (Reading.found surface source tag operations n).commands) :
    c.batch = tag ∧ c.surface = surface ∧ c.source = String.ofList source := by
  obtain ⟨o, -, rfl⟩ := List.mem_map.1 hc
  exact ⟨rfl, rfl, rfl⟩

/-- The commands of a batch are those with its number. -/
theorem batchCommands_found (tag : BatchTag) :
    batchCommands (Reading.found surface source (some tag) operations n).commands tag.group =
      (Reading.found surface source (some tag) operations n).commands := by
  refine List.filter_eq_self.2 fun c hc => ?_
  simp [Command.group?, (batch_of_mem_found hc).1]

end

/-- Where no command has a number, none is in that batch. -/
theorem batchCommands_eq_nil {commands : List Command} {id : Nat} (h : id ∉ batchNumbers commands) :
    batchCommands commands id = [] := by
  refine List.filter_eq_nil_iff.2 fun c hc same => h ?_
  exact List.mem_filterMap.2 ⟨c, hc, by simpa using same⟩

/-! ### One part in its text -/

namespace TextGrammar

variable {g : TextGrammar} {front back : List TextPart} {part : TextPart} {n : Nat}

theorem pairwise_batchNumbers_readPart (g : TextGrammar) (part : TextPart) (n : Nat) :
    (batchNumbers (g.readPart part n).commands).Pairwise (· ≤ ·) := by
  obtain ⟨tag, operations, tagged, found⟩ := g.exists_found_readPart part n
  refine List.pairwise_of_forall_mem_list fun i hi j hj => ?_
  rw [found] at hi hj
  obtain ⟨c, hc, s, hs, rfl⟩ := mem_batchNumbers.1 hi
  obtain ⟨d, hd, t, ht, rfl⟩ := mem_batchNumbers.1 hj
  rw [(batch_of_mem_found hc).1] at hs
  rw [(batch_of_mem_found hd).1, hs] at ht
  exact Nat.le_of_eq (congrArg BatchTag.group (Option.some.inj ht))

/-- The batch that a part gives is read together. -/
theorem readTogether_of_found (back : List TextPart) {tag : BatchTag} {operations : List Operation}
    (tagged : part.MayTag (readEach g.readPart front n).next operations (some tag))
    (found : (g.readPart part (readEach g.readPart front n).next).commands =
      (Reading.found part.surface part.source (some tag) operations
        (readEach g.readPart front n).next).commands)
    (some_command : operations ≠ []) :
    g.ReadTogether front part back n (readEach g.readPart (front ++ part :: back) n).commands
      tag := by
  obtain ⟨group, expanded⟩ := tagged
  have first := numberedFrom_readEach g.numberedFrom_readPart front n
  have own := g.numberedFrom_readPart part (readEach g.readPart front n).next
  have last := numberedFrom_readEach g.numberedFrom_readPart back
    (g.readPart part (readEach g.readPart front n).next).next
  -- the numbers before the part are smaller, and those behind it are larger
  have before : tag.group ∉ batchNumbers (readEach g.readPart front n).commands := by
    intro hid
    obtain ⟨c, hc, t, ht, same⟩ := mem_batchNumbers.1 hid
    have := (first.group_mem c hc t ht).2
    omega
  have below : tag.group < (g.readPart part (readEach g.readPart front n).next).next := by
    obtain ⟨o, rest, rfl⟩ := List.exists_cons_of_ne_nil some_command
    exact (own.group_mem ⟨o, part.surface, some tag, String.ofList part.source⟩
      (by rw [found]; exact List.mem_cons_self ..) tag rfl).2
  have behind : tag.group ∉ batchNumbers (readEach g.readPart back
      (g.readPart part (readEach g.readPart front n).next).next).commands := by
    intro hid
    obtain ⟨c, hc, t, ht, same⟩ := mem_batchNumbers.1 hid
    have := (last.group_mem c hc t ht).1
    omega
  have around := commands_readEach_around g.readPart front part back n
  have whole : batchCommands (readEach g.readPart (front ++ part :: back) n).commands tag.group =
      (g.readPart part (readEach g.readPart front n).next).commands := by
    rw [around, batchCommands, List.filter_append, List.filter_append, ← batchCommands,
      ← batchCommands, ← batchCommands, batchCommands_eq_nil before, batchCommands_eq_nil behind,
      found, batchCommands_found, List.nil_append, List.append_nil]
  refine ⟨by rw [whole, around], whole, fun c hc => ?_, fun line hline => ?_⟩
  · rw [whole, found] at hc
    exact batch_of_mem_found hc
  · rw [whole, found, Reading.found, List.length_map]
    exact expanded line hline

/-- Every number of a batch is that of one part. -/
theorem exists_readTogether {parts : List TextPart} {id : Nat}
    (hid : id ∈ batchNumbers (readEach g.readPart parts n).commands) :
    ∃ front part back tag, parts = front ++ part :: back ∧ tag.group = id ∧
      g.ReadTogether front part back n (readEach g.readPart parts n).commands tag := by
  obtain ⟨c, hc, tag, htag, rfl⟩ := mem_batchNumbers.1 hid
  obtain ⟨front, part, back, rfl, own⟩ := exists_part_of_mem_commands hc
  obtain ⟨tag', operations, tagged, found⟩ :=
    g.exists_found_readPart part (readEach g.readPart front n).next
  rw [found] at own
  obtain rfl : some tag = tag' := htag.symm.trans (batch_of_mem_found own).1
  have some_command : operations ≠ [] := by
    rintro rfl
    cases own
  exact ⟨front, part, back, tag, rfl, rfl, readTogether_of_found back tagged found some_command⟩

/-- Every group is a single command, or one batch. -/
theorem isExact_of_mem_groupCommands {parts : List TextPart} {G : CommandGroup}
    (hG : G ∈ groupCommands (readEach g.readPart parts n).commands) :
    G.IsExact (readEach g.readPart parts n).commands := by
  obtain ⟨front, part, back, rfl, own⟩ :=
    exists_part_of_mem_groupCommands g.numberedFrom_readPart hG
  obtain ⟨tag, operations, tagged, found⟩ :=
    g.exists_found_readPart part (readEach g.readPart front n).next
  rw [found] at own
  cases tag with
  | none =>
    cases operations with
    | nil => cases own
    | cons o rest =>
      obtain rfl : rest = [] := by simpa [TextPart.MayTag] using tagged
      obtain rfl := List.mem_singleton.1 own
      exact .single _ rfl
  | some tag =>
    have some_command : operations ≠ [] := by
      rintro rfl
      cases own
    have together := readTogether_of_found back tagged found some_command
    have whole := found.symm.trans together.whole.symm
    have commands : (Reading.found part.surface part.source (some tag) operations
        (readEach g.readPart front n).next).commands ≠ [] := by
      simpa [Reading.found] using some_command
    rw [groupCommands_of_batch commands fun c hc => (batch_of_mem_found hc).1] at own
    rw [whole] at own commands
    obtain rfl := List.mem_singleton.1 own
    exact .batch tag commands fun c hc => (together.alike c hc).1

end TextGrammar

/-- **Grouping restores exactly the batches of a text.** The numbers of the batches do not decrease
and are new; the commands with one number are what one part of the text gives, and they share their
tag, their surface and their source; and the groups follow one another without a gap, each of them a
single command without a batch or all the commands of one batch. -/
theorem groupCommands_readText_exact (g : TextGrammar) (flush : Bool) (text : List Char) (n : Nat) :
    let read := readText g flush text n
    (batchNumbers read.commands).Pairwise (· ≤ ·) ∧
      (∀ id ∈ batchNumbers read.commands, n ≤ id ∧ id < read.next) ∧
      (∀ id ∈ batchNumbers read.commands, ∃ front part back tag,
        g.parts flush text = front ++ part :: back ∧ tag.group = id ∧
          g.ReadTogether front part back n read.commands tag) ∧
      (groupCommands read.commands).flatMap CommandGroup.commands = read.commands ∧
      ∀ G ∈ groupCommands read.commands, G.IsExact read.commands := by
  intro read
  have parts : read = readEach g.readPart (g.parts flush text) n :=
    readText_eq_readEach g flush text n
  have numbered : read.NumberedFrom n := numberedFrom_readText g flush text n
  rw [parts] at numbered ⊢
  refine ⟨?_, ?_, ?_, flatMap_commands_groupCommands _, ?_⟩
  · exact pairwise_batchNumbers_readEach g.numberedFrom_readPart g.pairwise_batchNumbers_readPart ..
  · intro id hid
    obtain ⟨c, hc, tag, htag, rfl⟩ := mem_batchNumbers.1 hid
    exact numbered.group_mem c hc tag htag
  · intro id hid
    exact TextGrammar.exists_readTogether hid
  · intro G hG
    exact TextGrammar.isExact_of_mem_groupCommands hG

end PatchScript
