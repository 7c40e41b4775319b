import PatchScript.Json.Printer

/-!
# Entries given as a value

The entries of a mapping can be given by the mapping itself, or one by one as a sequence of pairs.
A list, a text and the keys of a mapping are sequences. A key that is no text stands for its JSON
text, but a container is no key.

## Main definitions

* `Value.sequence?`, `Value.keyText?`: a value as a sequence and as a key.
* `EntriesFault`: why a value does not give entries.
* `Mapping.putAll`: the entries that a value gives, put into a mapping.
-/

namespace PatchScript

namespace Value

/-- The items of a sequence. -/
def sequence? : Value → Option (List Value)
  | .list items => some items
  | .text s => some (s.toList.map fun c => .text (String.singleton c))
  | .mapping entries => some (entries.map fun (key, _) => .text key)
  | _ => none

/-- A value as a key. -/
def keyText? : Value → Option String
  | .text s => some s
  | .list _ | .mapping _ => none
  | v => some (Json.text v)

end Value

/-- Why a value does not give entries. -/
inductive EntriesFault where
  /-- A value that is no sequence, or a key that is a container. -/
  | notEntries
  /-- The item at a position is a sequence of another length than two. -/
  | notPair (position length : Nat)
deriving DecidableEq

/-- The wording of the fault, where it has one. -/
def EntriesFault.message? : EntriesFault → Option String
  | .notEntries => none
  | .notPair position length =>
    some ("dictionary update sequence element #" ++ toString position ++ " has length " ++
      toString length ++ "; 2 is required")

/-- The entry that an item of a sequence gives. -/
def Value.pair? (position : Nat) (item : Value) : Except EntriesFault (String × Value) :=
  match item.sequence? with
  | some [key, value] =>
    match key.keyText? with
    | some k => .ok (k, value)
    | none => .error .notEntries
  | some items => .error (.notPair position items.length)
  | none => .error .notEntries

namespace Mapping

/-- Puts the entries that the items of a sequence give into a mapping, up to the first item that
gives none. -/
def putPairs (m : Mapping) (position : Nat) : List Value → Mapping × Option EntriesFault
  | [] => (m, none)
  | item :: rest =>
    match item.pair? position with
    | .ok (key, value) => putPairs (m.put key value) (position + 1) rest
    | .error fault => (m, some fault)

/-- Puts the entries that a value gives into a mapping. -/
def putAll (m : Mapping) : Value → Mapping × Option EntriesFault
  | .mapping entries => (m.merge entries, none)
  | v =>
    match v.sequence? with
    | some items => m.putPairs 0 items
    | none => (m, some .notEntries)

end Mapping

end PatchScript
