import PatchScript.Operation.Basic

/-!
# Commands

A text gives its commands on three surfaces: blocks of JSON between markers, lines, and calls. A
command is an operation with the surface where it was found, the text that it comes from, and the
batch to which it belongs, if any. What is recognized but cannot be used is dropped with a
diagnostic.

Batches are numbered in the order in which they are met. A reading therefore starts with the number
of the next batch and ends with one.

## Main definitions

* `Surface`, `BatchTag`, `Command`, `Diagnostic`: what a text yields.
* `Reading`, `Reading.andThen`, `readEach`: what is read from a text, in order.
* `CommandGroup`, `groupCommands`: the commands that run together.
-/

namespace PatchScript

/-- The surfaces on which commands are given. -/
inductive Surface where
  | block
  | line
  | call
deriving DecidableEq

/-- The name of a surface. -/
def Surface.name : Surface → String
  | .block => "block"
  | .line => "line"
  | .call => "call"

/-- The batch of a command: its number, and whether it is all or nothing. -/
structure BatchTag where
  group : Nat
  atomic : Bool
deriving DecidableEq

/-- An operation found in a text. -/
structure Command where
  operation : Operation
  surface : Surface
  batch : Option BatchTag
  source : String
deriving DecidableEq

/-- Something that was recognized in a text and dropped. -/
structure Diagnostic where
  surface : Surface
  text : String
  message : String
deriving DecidableEq

/-- A diagnostic in one line. -/
def Diagnostic.line (d : Diagnostic) : String :=
  "[" ++ d.surface.name ++ "] " ++ d.message ++ ": " ++ d.text

/-! ### Readings -/

/-- What is read from a text, and the number of the next batch. -/
structure Reading where
  commands : List Command
  diagnostics : List Diagnostic
  next : Nat
deriving DecidableEq

namespace Reading

/-- Nothing. -/
def empty (next : Nat) : Reading := ⟨[], [], next⟩

/-- Something that was dropped. The text is shown without the blanks around it. -/
def dropped (surface : Surface) (text : List Char) (message : String) (next : Nat) : Reading :=
  ⟨[], [⟨surface, String.ofList (Text.trim text), message⟩], next⟩

/-- Goes on reading after something was read. -/
def andThen (r : Reading) (more : Nat → Reading) : Reading :=
  let m := more r.next
  ⟨r.commands ++ m.commands, r.diagnostics ++ m.diagnostics, m.next⟩

/-- The commands of operations that were found together. -/
def found (surface : Surface) (source : List Char) (tag : Option BatchTag)
    (operations : List Operation) (next : Nat) : Reading :=
  ⟨operations.map fun o => ⟨o, surface, tag, String.ofList source⟩, [], next⟩

/-- The commands of one request. Several operations make sense only together, so they are a batch
of all or nothing. -/
def request (surface : Surface) (source : List Char) (operations : List Operation) (next : Nat) :
    Reading :=
  if operations.length ≤ 1 then found surface source none operations next
  else found surface source (some ⟨next, true⟩) operations (next + 1)

end Reading

/-- Reads the parts of a text one after the other. -/
def readEach {α : Type} (read : α → Nat → Reading) : List α → Nat → Reading
  | [], next => .empty next
  | a :: rest, next => (read a next).andThen (readEach read rest)

/-! ### Groups -/

/-- Commands that run together. -/
structure CommandGroup where
  commands : List Command
  batched : Bool
  atomic : Bool
deriving DecidableEq

/-- Whether two neighbours belong to one batch. -/
def sameBatch (a b : Command) : Bool :=
  match a.batch, b.batch with
  | some s, some t => s.group == t.group
  | _, _ => false

/-- The groups of commands: neighbours of one batch run together, and a command without a batch runs
alone. -/
def groupCommands : List Command → List CommandGroup
  | [] => []
  | c :: rest =>
    match rest, groupCommands rest with
    | d :: _, g :: groups =>
      if sameBatch c d then
        ⟨c :: g.commands, true, (c.batch.map (·.atomic)).getD false⟩ :: groups
      else ⟨[c], c.batch.isSome, (c.batch.map (·.atomic)).getD false⟩ :: g :: groups
    | _, groups => ⟨[c], c.batch.isSome, (c.batch.map (·.atomic)).getD false⟩ :: groups

end PatchScript
