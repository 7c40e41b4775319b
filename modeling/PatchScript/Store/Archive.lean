import PatchScript.Store.Basic

/-!
# Saved snapshots

An archive is a store together with snapshots saved under names. A saved snapshot is a copy. When
it is restored, however, the store and the snapshot share the containers at the root: a later
change *inside* one of them is a change of both, until the root entry is given another value,
removed, or the snapshot is no longer the one restored last.

## Main definitions

* `Loan`: the root keys that the store shares with a snapshot.
* `Archive`: a store with its saved snapshots.
* `Archive.save`, `restore`, and the changes of a store lifted to archives.
-/

namespace PatchScript

/-- The root keys of each projection whose values are shared with the snapshot called `name`. -/
structure Loan where
  name : String
  keys : Source → List String

/-- A store with saved snapshots. -/
structure Archive where
  store : Store
  saved : List (String × Store) := []
  loan : Option Loan := none

namespace Archive

/-- The snapshot saved under a name. -/
def snapshot? (a : Archive) (name : String) : Option Store := a.saved.lookup name

/-- Saves a copy of the store under a name. A snapshot saved there before is replaced, and what it
shared with the store is shared no longer. -/
def save (a : Archive) (name : String) : Archive :=
  { a with
    saved := (name, a.store) :: a.saved.filter (·.1 != name)
    loan := a.loan.filter (·.name != name) }

/-- Restores a saved snapshot and shares its containers. -/
def restore (a : Archive) (name : String) : Archive :=
  match a.snapshot? name with
  | some store =>
    { a with
      store := store
      loan := some ⟨name, fun source =>
        ((store.projection source).filter (·.2.isContainer)).map Prod.fst⟩ }
  | none => a

/-- Gives a snapshot the current values of the entries that it shares with the store. -/
def carry (store : Store) (loan : Loan) (snapshot : Store) : Store :=
  [Source.stat, .display, .delta].foldl
    (fun snapshot source =>
      snapshot.withProjection source <|
        (loan.keys source).foldl
          (fun m key =>
            match (store.projection source).get? key with
            | some v => m.put key v
            | none => m)
          (snapshot.projection source))
    snapshot

/-- Takes over a changed store: the loan ends for the keys that `rebound` names in each projection,
and the snapshot follows for the others. -/
def take (a : Archive) (store : Store) (rebound : Source → String → Bool) : Archive :=
  match a.loan with
  | none => { a with store := store }
  | some loan =>
    let loan : Loan := ⟨loan.name, fun source => (loan.keys source).filter (!rebound source ·)⟩
    { store := store
      saved := a.saved.map fun (name, snapshot) =>
        (name, if name = loan.name then carry store loan snapshot else snapshot)
      loan := some loan }

/-- Whether a write gives a root entry another value instead of changing its container. Nothing can
be appended to the root. -/
def rebinds (force : Bool) (m : Mapping) (path : Path) (key : String) : Bool :=
  match path with
  | [] | .append :: _ => false
  | [s] => s.label == key
  | s :: t :: _ =>
    s.label == key &&
      match (Value.mapping m).way force s t with
      | .anew => true
      | _ => false

/-- Writes a value into one projection. -/
def set (a : Archive) (path : Path) (value : Value) (source : Source) :
    Archive × Option WriteFault :=
  let (store, fault) := a.store.set path value source
  (a.take store fun s key => s == source && rebinds false (a.store.projection s) path key, fault)

/-- Writes a live value, keeping the description of a described leaf. -/
def assign (a : Archive) (path : Path) (value : Value) : Archive × Option WriteFault :=
  let (store, fault) := a.store.assign path value
  (a.take store fun s key => s == .stat && rebinds false a.store.stat path key, fault)

/-- Removes the value at a path of one projection. -/
def delete (a : Archive) (path : Path) (source : Source) : Archive × Bool :=
  let (store, removed) := a.store.delete path source
  let rebound (s : Source) (key : String) : Bool :=
    s == source && path.length == 1 && (path.map Segment.label).contains key
  (a.take store rebound, removed)

/-- Writes a text into both projections of annotations. The second is left alone when the first
write fails. -/
def annotate (a : Archive) (path : Path) (text : String) : Archive × Option WriteFault :=
  let (store, fault) := a.store.annotate path text
  let both := (a.store.write .display true path (.text text)).2.isNone
  let written (s : Source) : Bool := s == .display || (s == .delta && both)
  (a.take store fun s key => written s && rebinds true (a.store.projection s) path key, fault)

/-- Annotates both projections with a change. -/
def record (a : Archive) (change : Change) : Archive × Option WriteFault :=
  a.annotate (Path.parse change.path) change.displayText

/-- Forgets the annotations since the last clearing. -/
def clearDelta (a : Archive) : Archive := a.take a.store.clearDelta fun s _ => s == .delta

/-- Replaces every projection that a snapshot given as a mapping holds. A fault ends this; the
projections after it are left alone. -/
def load (a : Archive) (snapshot : Mapping) : Archive × Option EntriesFault :=
  let (store, fault) := a.store.load snapshot
  let replaced := Store.replaced (Store.replacements snapshot)
  (a.take store fun source _ => replaced.contains source, fault)

end Archive

end PatchScript
