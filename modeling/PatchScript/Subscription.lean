import PatchScript.Store.Change

/-!
# Observers

Observers are told of every change that has been recorded, in the order in which they subscribed.
What an observer does with the news never affects the store. A subscription ends through the
handle that it gave; subscribing again under a name replaces the handle of that name and leaves the
earlier subscription in force.

## Main definitions

* `Observers`: the subscriptions in force.
* `Observers.subscribe`, `unsubscribe`: starting and ending a subscription.
* `Observers.notices`: the news about a list of changes.
-/

namespace PatchScript

/-- What one observer is told. -/
structure Notice where
  observer : String
  path : String
  display : String
deriving DecidableEq

/-- The subscriptions in force, each with its number, and the handle of each name. -/
structure Observers where
  active : List (Nat × String) := []
  handles : List (String × Nat) := []
  next : Nat := 0

namespace Observers

/-- Starts a subscription. -/
def subscribe (o : Observers) (name : String) : Observers :=
  { active := o.active ++ [(o.next, name)]
    handles := (name, o.next) :: o.handles
    next := o.next + 1 }

/-- Ends the subscription that the handle of a name stands for. -/
def unsubscribe (o : Observers) (name : String) : Observers :=
  match o.handles.lookup name with
  | some number => { o with active := o.active.filter (·.1 != number) }
  | none => o

/-- The news about changes: every observer is told of one change before anyone of the next. -/
def notices (o : Observers) (changes : List Change) : List Notice :=
  changes.flatMap fun c =>
    o.active.map fun (_, name) => ⟨name, c.path, c.displayText⟩

end Observers

end PatchScript
