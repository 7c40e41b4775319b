import PatchScript.Number.Basic

/-!
# Values

The values of a document are those of JSON. A mapping is the list of its entries in the order in
which they were put there; a well-formed value has no key twice in a mapping. A list of two items
whose second is a text is a *described leaf*: a value together with its description.

## Main definitions

* `Value`, `Mapping`: the values.
* `Mapping.get?`, `put`, `erase`, `merge`: reading and changing a mapping.
* `Value.wellFormed`: no key twice, at any depth.
* `Value.isTruthy`: the truth of a value used as a condition.
* `Value.description?`, `Value.plain`: the parts of a described leaf.
-/

namespace PatchScript

/-- A JSON value. -/
inductive Value where
  | null
  | bool (b : Bool)
  | number (n : Number)
  | text (s : String)
  | list (items : List Value)
  | mapping (entries : List (String × Value))

/-- The entries of a mapping, in order. -/
abbrev Mapping := List (String × Value)

instance : Inhabited Value := ⟨.null⟩

/-! ### Mappings -/

namespace Mapping

/-- The value under a key. -/
def get? : Mapping → String → Option Value
  | [], _ => none
  | (k, v) :: rest, key => if k = key then some v else get? rest key

/-- The keys, in order. -/
def keys (m : Mapping) : List String := m.map Prod.fst

/-- Whether there is an entry under the key. -/
def hasKey (m : Mapping) (key : String) : Bool := (m.get? key).isSome

/-- Puts a value under a key: in place when the key is there, at the end otherwise. -/
def put : Mapping → String → Value → Mapping
  | [], key, value => [(key, value)]
  | (k, v) :: rest, key, value =>
    if k = key then (k, value) :: rest else (k, v) :: put rest key value

/-- Removes the entry under a key. -/
def erase : Mapping → String → Mapping
  | [], _ => []
  | (k, v) :: rest, key => if k = key then rest else (k, v) :: erase rest key

/-- Puts every entry of the second mapping into the first. -/
def merge (m other : Mapping) : Mapping := other.foldl (fun acc e => acc.put e.1 e.2) m

end Mapping

namespace Value

/-! ### Decidable equality -/

mutual

/-- Equality of data is decidable. -/
def decEq : (a b : Value) → Decidable (a = b)
  | .null, .null => isTrue rfl
  | .bool a, .bool b => decidable_of_iff (a = b) (by simp)
  | .number a, .number b => decidable_of_iff (a = b) (by simp)
  | .text a, .text b => decidable_of_iff (a = b) (by simp)
  | .list a, .list b => @decidable_of_iff _ (a = b) (by simp) (decEqItems a b)
  | .mapping a, .mapping b => @decidable_of_iff _ (a = b) (by simp) (decEqEntries a b)
  | .null, .bool _ | .null, .number _ | .null, .text _ | .null, .list _ | .null, .mapping _ =>
    isFalse (by simp)
  | .bool _, .null | .bool _, .number _ | .bool _, .text _ | .bool _, .list _
  | .bool _, .mapping _ => isFalse (by simp)
  | .number _, .null | .number _, .bool _ | .number _, .text _ | .number _, .list _
  | .number _, .mapping _ => isFalse (by simp)
  | .text _, .null | .text _, .bool _ | .text _, .number _ | .text _, .list _
  | .text _, .mapping _ => isFalse (by simp)
  | .list _, .null | .list _, .bool _ | .list _, .number _ | .list _, .text _
  | .list _, .mapping _ => isFalse (by simp)
  | .mapping _, .null | .mapping _, .bool _ | .mapping _, .number _ | .mapping _, .text _
  | .mapping _, .list _ => isFalse (by simp)

/-- Equality of lists of values is decidable. -/
def decEqItems : (a b : List Value) → Decidable (a = b)
  | [], [] => isTrue rfl
  | [], _ :: _ => isFalse (by simp)
  | _ :: _, [] => isFalse (by simp)
  | x :: xs, y :: ys =>
    match decEq x y, decEqItems xs ys with
    | isTrue h, isTrue t => isTrue (by rw [h, t])
    | isFalse h, _ => isFalse (by simp [h])
    | _, isFalse t => isFalse (by simp [t])

/-- Equality of entry lists is decidable. -/
def decEqEntries : (a b : List (String × Value)) → Decidable (a = b)
  | [], [] => isTrue rfl
  | [], _ :: _ => isFalse (by simp)
  | _ :: _, [] => isFalse (by simp)
  | (k, x) :: xs, (l, y) :: ys =>
    match decEq x y, decEqEntries xs ys with
    | isTrue h, isTrue t =>
      if e : k = l then isTrue (by rw [h, t, e]) else isFalse (by simp [e])
    | isFalse h, _ => isFalse (by simp [h])
    | _, isFalse t => isFalse (by simp [t])

end

instance : DecidableEq Value := decEq

/-! ### Well-formed values -/

mutual

/-- Whether no mapping in the value has a key twice. -/
def wellFormed : Value → Bool
  | .list items => wellFormedItems items
  | .mapping entries => wellFormedEntries entries
  | _ => true

/-- `wellFormed` for every value of a list. -/
def wellFormedItems : List Value → Bool
  | [] => true
  | x :: rest => wellFormed x && wellFormedItems rest

/-- `wellFormed` for every value of an entry list, whose keys are distinct too. -/
def wellFormedEntries : List (String × Value) → Bool
  | [] => true
  | (k, x) :: rest => wellFormed x && !Mapping.hasKey rest k && wellFormedEntries rest

end

/-! ### Views of a value -/

/-- An integer value. -/
def int (n : Int) : Value := .number (.int n)

/-- A binary64 value. -/
def float (x : Binary64) : Value := .number (.float x)

/-- The truth of a value used as a condition: everything holds but null, false, zero and what is
empty. -/
def isTruthy : Value → Bool
  | .null => false
  | .bool b => b
  | .number n => !n.isZero
  | .text s => s != ""
  | .list items => !items.isEmpty
  | .mapping entries => !entries.isEmpty

/-- Whether the value is a list or a mapping. -/
def isContainer : Value → Bool
  | .list _ | .mapping _ => true
  | _ => false

/-- The entries of a mapping; other values have none. -/
def entries : Value → Mapping
  | .mapping m => m
  | _ => []

/-- The short name of a value's type. -/
def typeName : Value → String
  | .null => "NoneType"
  | .bool _ => "bool"
  | .number (.int _) => "int"
  | .number (.float _) => "float"
  | .text _ => "str"
  | .list _ => "list"
  | .mapping _ => "dict"

/-! ### Described leaves -/

/-- The description of a described leaf. -/
def description? : Value → Option String
  | .list [_, .text d] => some d
  | _ => none

/-- Whether the value is a described leaf. -/
def isDescribed (v : Value) : Bool := v.description?.isSome

/-- The value of a described leaf, and any other value itself. -/
def plain : Value → Value
  | .list [v, .text _] => v
  | v => v

end Value

end PatchScript
