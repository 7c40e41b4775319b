import PatchScript.Value.Basic

/-!
# Equality of values

Two values are the same when they have the same shape and their scalars are the same. Numbers are
compared by value, so an integer can be the same as a binary64 number, but truth values are not
numbers, and what is not a number is not even the same as itself. The order of keys is no part of
a mapping's shape.

## Main definitions

* `Value.same`: equality of values.
* `Value.strictlySame`: equality that also tells the two kinds of numbers apart.
-/

namespace PatchScript.Value

mutual

/-- Equality of values, at every depth. -/
def same : Value → Value → Bool
  | .null, .null => true
  | .bool a, .bool b => a == b
  | .number a, .number b => a.same b
  | .text a, .text b => a == b
  | .list xs, .list ys => sameItems xs ys
  | .mapping m, .mapping n => m.length == n.length && sameEntries m n
  | _, _ => false

/-- Lists are the same item by item. -/
def sameItems : List Value → List Value → Bool
  | [], [] => true
  | x :: xs, y :: ys => same x y && sameItems xs ys
  | _, _ => false

/-- Whether every entry has its counterpart under the same key of the other mapping. -/
def sameEntries : List (String × Value) → Mapping → Bool
  | [], _ => true
  | (k, x) :: rest, other =>
    (match Mapping.get? other k with
      | some y => same x y
      | none => false) && sameEntries rest other

end

/-- Equality that tells an integer from a binary64 number where the two values themselves are
numbers. -/
def strictlySame : Value → Value → Bool
  | .number (.int _), .number (.float _) => false
  | .number (.float _), .number (.int _) => false
  | a, b => same a b

end PatchScript.Value
