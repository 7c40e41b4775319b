import PatchScript.Command.Arguments
import PatchScript.Command.Line
import PatchScript.Command.Literal
import PatchScript.Command.Shorthand

/-!
# Calls

A call is a receiver, a method, and arguments in parentheses. It may stand anywhere in a text, but
not inside another call. Its arguments end where the parenthesis is closed; a call that is never
closed is dropped, and what follows its parenthesis is searched for calls again.

## Main definitions

* `CallMethod`: the methods.
* `CallSite`, `callSites`: the calls of a text.
* `callRequest`: the operations of a call.
* `readCall`, `readCalls`: the commands of calls.
-/

namespace PatchScript

/-- The methods of calls. -/
inductive CallMethod where
  | set
  | add
  | assign
  | push
  | insert
  | remove
  | move
  | copy
  | evaluate
  | modify
  | operation
  | batch
deriving DecidableEq

namespace CallMethod

/-- The spelling of a method. -/
def name : CallMethod → String
  | .set => "set"
  | .add => "add"
  | .assign => "assign"
  | .push => "push"
  | .insert => "insert"
  | .remove => "remove"
  | .move => "move"
  | .copy => "copy"
  | .evaluate => "calc"
  | .modify => "modify"
  | .operation => "op"
  | .batch => "batch"

/-- All methods. -/
def all : List CallMethod :=
  [.set, .add, .assign, .push, .insert, .remove, .move, .copy, .evaluate, .modify, .operation,
    .batch]

end CallMethod

/-! ### Recognition -/

/-- The front of a call: its method, its text before the parenthesis, and the text from there on. -/
structure CallFront where
  method : CallMethod
  head : List Char
  opened : List Char
deriving DecidableEq

/-- The front of a call with a given method at the front of a text. -/
def methodFront? (receiver text : List Char) (method : CallMethod) : Option CallFront :=
  let head := receiver ++ method.name.toList
  match head.isPrefixOf? text with
  | none => none
  | some after =>
    match after.dropWhile Text.isBlank with
    | '(' :: rest => some ⟨method, head ++ after.takeWhile Text.isBlank, '(' :: rest⟩
    | _ => none

/-- The front of a call at the front of a text. -/
def callFront? (receiver text : List Char) : Option CallFront :=
  CallMethod.all.findSome? (methodFront? receiver text)

/-- A call in a text. -/
inductive CallSite where
  /-- A call that is closed: its method, its whole text, and the text between the parentheses. -/
  | closed (method : CallMethod) (source arguments : List Char)
  /-- A call that is never closed, with the text from there on. -/
  | unterminated (text : List Char)
deriving DecidableEq

/-- The calls of a text. The number counts the characters that belong to the call before and are to
be passed over. -/
def callSitesFrom (receiver : List Char) : (skip : Nat) → List Char → List CallSite
  | _, [] => []
  | skip + 1, _ :: rest => callSitesFrom receiver skip rest
  | 0, c :: rest =>
    match callFront? receiver (c :: rest) with
    | none => callSitesFrom receiver 0 rest
    | some front =>
      match closing? front.opened with
      | none => .unterminated (c :: rest) :: callSitesFrom receiver front.head.length rest
      | some n =>
        .closed front.method (front.head ++ front.opened.take n)
            ((front.opened.take n).tail.dropLast) ::
          callSitesFrom receiver (front.head.length + n - 1) rest

/-- The calls of a text. -/
def callSites (receiver text : List Char) : List CallSite := callSitesFrom receiver 0 text

/-! ### Meaning -/

/-- What a call asks for: operations, or a batch of them. -/
inductive CallRequest where
  | operations (operations : List Operation)
  | batch (operations : List Operation) (atomic : Bool)
deriving DecidableEq

/-- The batch that a list of operations and its options describe. -/
def callBatch (arguments : List Value) : Except CommandFault CallRequest := do
  match arguments with
  | .list items :: options =>
    match options.headD (.mapping []) with
    | .mapping m =>
      let operations ← items.mapM Shorthand.ofValue
      return .batch operations (((Mapping.get? m "atomic").map Value.isTruthy).getD false)
    | _ => .error (.wrongForm "batch options must be an object")
  | _ => .error (.wrongForm "batch takes a list of operations")

/-- The segment that an argument names: an integer is an index, and a text is a key as it stands. -/
def childSegment : Value → Except CommandFault Segment
  | .number (.int i) => .ok (.index i)
  | .text k => .ok (.key k)
  | _ => .error (.wrongForm "key must be a string or an index")

/-- The operations of a method with a path and the values after it. -/
def methodRequest (method : CallMethod) (path : String) (values : List Value) :
    Except CommandFault (List Operation) :=
  match method, values with
  | .set, [value] => .ok [Shorthand.replace path value none]
  | .set, [old, value] => .ok (Shorthand.checkedReplace path old value none)
  | .set, [old, value, reason] => .ok (Shorthand.checkedReplace path old value (some reason.shown))
  | .set, _ =>
    .error (.wrongForm "set takes (path, value), (path, old, new) or (path, old, new, reason)")
  | .add, [value] => .ok [Shorthand.add path value none]
  | .add, [value, reason] => .ok [Shorthand.add path value (some reason.shown)]
  | .add, _ => .error (.wrongForm "add takes (path, value[, reason])")
  | .assign, [value] => .ok [Shorthand.addValue (Shorthand.endOf path) value]
  | .assign, [key, value] => do
    return [Shorthand.addValue (Path.extend path [← childSegment key]) value]
  | .assign, _ => .error (.wrongForm "assign takes (path, value) or (path, key_or_index, value)")
  | .push, [value] => .ok [Shorthand.addValue (Shorthand.endOf path) value]
  | .insert, [index, value] => do
    return [← Shorthand.modify path (.text EditAction.insert.name) value (some index) none]
  | .remove, [] => .ok [{ path, body := .remove none }]
  | .remove, [.number (.int i)] =>
    .ok [{ path := Path.extend path [.index i], body := .remove none }]
  | .remove, [.text k] => .ok [{ path, body := .remove (some (some (.key k))) }]
  | .remove, [_] => .error (.wrongForm "remove key must be a string or an index")
  | .remove, _ => .error (.wrongForm "remove takes (path[, key_or_index])")
  | .move, [target] => .ok [{ path := target.shown, body := .move path }]
  | .copy, [target] => .ok [{ path := target.shown, body := .copy path }]
  | .evaluate, [expression] => .ok [{ path, body := .evaluate expression.shown }]
  | .modify, [action, value] => do
    return [← Shorthand.modify path action value (some .null) none]
  | .modify, [action, value, index] => do
    return [← Shorthand.modify path action value (some index) none]
  | .modify, _ => .error (.wrongForm "modify takes (path, action, value[, index])")
  | .insert, _ => .error (.wrongCount method.name 2 values.length)
  | _, _ => .error (.wrongCount method.name 1 values.length)

/-- What a call with given arguments asks for. -/
def callRequest (method : CallMethod) (arguments : List Value) :
    Except CommandFault CallRequest := do
  match method, arguments with
  | .batch, _ => callBatch arguments
  | .operation, [v] => return .operations [← Shorthand.ofValue v]
  | .operation, _ => .error (.wrongForm "op takes one operation object")
  | _, [] => .error (.missingPath method.name)
  | _, path :: values => return .operations (← methodRequest method path.shown values)

/-! ### Reading -/

/-- The number of characters that a diagnostic shows of a call that is never closed. -/
def unterminatedShown : Nat := 80

/-- Reads one call. -/
def readCall (site : CallSite) (next : Nat) : Reading :=
  match site with
  | .unterminated text =>
    .dropped .call (text.take unterminatedShown) "unterminated call" next
  | .closed method source text =>
    match (splitArguments text >>= (·.mapM readLiteral)) >>= callRequest method with
    | .error fault => .dropped .call source fault.firstLine next
    | .ok (.operations operations) => .request .call source operations next
    | .ok (.batch operations atomic) =>
      .found .call source (some ⟨next, atomic⟩) operations (next + 1)

/-- Reads every call of a text. -/
def readCalls (receiver text : List Char) (next : Nat) : Reading :=
  readEach readCall (callSites receiver text) next

end PatchScript
