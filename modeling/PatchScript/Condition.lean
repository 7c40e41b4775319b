import PatchScript.Pattern.Reader
import PatchScript.Store.Basic
import PatchScript.Value.Equality

/-!
# Conditions

A condition is written as a value. Mappings with the key `and`, `or` or `not` combine conditions;
any other mapping is a *leaf*, which reads the value at its `path` and holds when every comparison
on it does, or, without comparisons, when that value is truthy. A value that is not truthy, such as
null or an empty mapping, always holds, and whatever is malformed never does.

Conditions and comparisons are checked one after the other until the answer is settled. A mishap
with a pattern ends the check without an answer, unless the answer was settled before.

## Main definitions

* `Comparator`, `Comparator.holds`: one comparison of a value with an operand.
* `Condition`, `Condition.ofValue`: the conditions, and the condition that a value writes.
* `Condition.holds`: the meaning of a condition.
-/

namespace PatchScript

/-! ### Comparisons -/

/-- The comparisons of a leaf. -/
inductive Comparator where
  | present
  | equal
  | unequal
  | above
  | atLeast
  | below
  | atMost
  | oneOf
  | noneOf
  | pattern
  | exactly
deriving DecidableEq

namespace Comparator

/-- The key of a comparator on a leaf. -/
def name : Comparator → String
  | .present => "exists"
  | .equal => "eq"
  | .unequal => "neq"
  | .above => "gt"
  | .atLeast => "gte"
  | .below => "lt"
  | .atMost => "lte"
  | .oneOf => "in"
  | .noneOf => "nin"
  | .pattern => "match"
  | .exactly => "value"

/-- All comparators, in the order in which a leaf is checked. -/
def all : List Comparator :=
  [.present, .equal, .unequal, .above, .atLeast, .below, .atMost, .oneOf, .noneOf, .pattern,
    .exactly]

/-- The comparator of a key. -/
def ofName? (key : String) : Option Comparator := all.find? (·.name == key)

/-- Compares two values as numbers; other values are in no order. -/
def ordered (compare : Number → Number → Bool) : Value → Value → Bool
  | .number a, .number b => compare a b
  | _, _ => false

/-- Whether a value is the same as an item of a list; an operand that is no list has no answer. -/
def member? (value : Value) : Value → Option Bool
  | .list options => some (options.any value.same)
  | _ => none

/-- Whether a pattern given as a value occurs in a text given as a value. The pattern is read even
if the value is no text. -/
def occurs (value : Value) : Value → Except PatternMishap Bool
  | .text written => do
    match ← Pattern.ofText written.toList, value with
    | some p, .text s => return p.occursIn s.toList
    | _, _ => return false
  | _ => .ok false

/-- Whether a comparison holds. A missing value is given as null. -/
def holds (value : Value) (operand : Value) : Comparator → Except PatternMishap Bool
  | .present => .ok ((value != .null) == operand.isTruthy)
  | .equal => .ok (value.same operand)
  | .unequal => .ok (!value.same operand)
  | .above => .ok (ordered (fun a b => b.lt a) value operand)
  | .atLeast => .ok (ordered (fun a b => b.le a) value operand)
  | .below => .ok (ordered Number.lt value operand)
  | .atMost => .ok (ordered Number.le value operand)
  | .oneOf => .ok ((member? value operand).getD false)
  | .noneOf => .ok (member? value operand == some false)
  | .pattern => occurs value operand
  | .exactly => .ok (value.strictlySame operand)

end Comparator

/-- A comparison with its operand. -/
abbrev Comparison := Comparator × Value

/-- The comparisons among the entries of a leaf, in the order in which they are checked. -/
def comparisonsOf (leaf : Mapping) : List Comparison :=
  Comparator.all.filterMap fun c => (leaf.get? c.name).map (c, ·)

/-! ### Conditions -/

/-- A condition. -/
inductive Condition where
  | always
  | never
  | all (conditions : List Condition)
  | any (conditions : List Condition)
  | negation (condition : Condition)
  | leaf (address : Address) (comparisons : List Comparison)

namespace Condition

/-- The condition of a mapping without combining keys. -/
def leafOf (entries : Mapping) : Condition :=
  match entries.get? "path" with
  | some path => .leaf (Address.ofValue path) (comparisonsOf entries)
  | none => .never

mutual

/-- The condition that a value writes. -/
def ofValue : Value → Condition
  | .mapping entries =>
    if entries.isEmpty then .always
    else
      match listUnder "and" entries with
      | some (some conditions) => .all conditions
      | some none => .never
      | none =>
        match listUnder "or" entries with
        | some (some conditions) => .any conditions
        | some none => .never
        | none =>
          match mappingUnder "not" entries with
          | some (some condition) => .negation condition
          | some none => .never
          | none => leafOf entries
  | v => if v.isTruthy then .never else .always

/-- The conditions of the list under a key: `none` without the key, and `some none` where it does
not hold a list. -/
def listUnder (key : String) : List (String × Value) → Option (Option (List Condition))
  | [] => none
  | (k, v) :: rest =>
    if k = key then
      some (match v with
        | .list items => some (ofItems items)
        | _ => none)
    else listUnder key rest

/-- The condition of the mapping under a key: `none` without the key, and `some none` where it does
not hold a mapping. -/
def mappingUnder (key : String) : List (String × Value) → Option (Option Condition)
  | [] => none
  | (k, v) :: rest =>
    if k = key then
      some (match v with
        | .mapping entries => some (ofValue (.mapping entries))
        | _ => none)
    else mappingUnder key rest

/-- The conditions that the items of a list write. -/
def ofItems : List Value → List Condition
  | [] => []
  | v :: rest => ofValue v :: ofItems rest

end

/-- Whether every comparison of a list holds for a value. -/
def eachHolds (value : Value) : List Comparison → Except PatternMishap Bool
  | [] => .ok true
  | (c, operand) :: rest => do
    if ← c.holds value operand then eachHolds value rest else return false

/-- Whether every comparison holds for a value; without comparisons, whether it is truthy. -/
def comparisonsHold (value : Value) (comparisons : List Comparison) : Except PatternMishap Bool :=
  if comparisons.isEmpty then .ok value.isTruthy else eachHolds value comparisons

mutual

/-- Whether a condition holds of a store. -/
def holds (store : Store) : Condition → Except PatternMishap Bool
  | .always => .ok true
  | .never => .ok false
  | .all conditions => allHold store conditions
  | .any conditions => anyHolds store conditions
  | .negation condition => (holds store condition).map (!·)
  | .leaf address comparisons => comparisonsHold (store.get address.path) comparisons

/-- Whether every condition of a list holds. -/
def allHold (store : Store) : List Condition → Except PatternMishap Bool
  | [] => .ok true
  | c :: rest => do if ← holds store c then allHold store rest else return false

/-- Whether some condition of a list holds. -/
def anyHolds (store : Store) : List Condition → Except PatternMishap Bool
  | [] => .ok false
  | c :: rest => do if ← holds store c then return true else anyHolds store rest

end

/-- Whether the condition that a value writes holds of a store. -/
def valueHolds (store : Store) (value : Value) : Except PatternMishap Bool :=
  (ofValue value).holds store

end Condition

end PatchScript
