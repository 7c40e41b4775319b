import PatchScript.Value.Basic
import PatchScript.Value.Literal

/-!
# JSON text

The JSON text of a value has a blank after each comma and colon. Inside strings only the quote, the
backslash and control characters are escaped. Numbers that JSON cannot express are written `NaN`,
`Infinity` and `-Infinity`.

## Main definitions

* `Json.quote`: a JSON string.
* `Json.print`: the JSON text of a value.
-/

namespace PatchScript.Json

/-- A character inside a JSON string. -/
def escape (c : Char) : List Char :=
  if c = '"' || c = '\\' then ['\\', c]
  else if c = '\n' then ['\\', 'n']
  else if c = '\r' then ['\\', 'r']
  else if c = '\t' then ['\\', 't']
  else if c = '\x08' then ['\\', 'b']
  else if c = '\x0c' then ['\\', 'f']
  else if c.toNat < 32 then '\\' :: 'u' :: hexDigits 4 c.toNat
  else [c]

/-- A text as a JSON string. -/
def quote (text : List Char) : List Char := '"' :: text.flatMap escape ++ ['"']

/-- The JSON text of a number. -/
def printNumber : Number → List Char
  | .float .nan => "NaN".toList
  | .float (.infinite negative) => Binary64.signed negative "Infinity".toList
  | n => n.text

mutual

/-- The JSON text of a value. -/
def print : Value → List Char
  | .null => "null".toList
  | .bool b => (if b then "true" else "false").toList
  | .number n => printNumber n
  | .text s => quote s.toList
  | .list items => '[' :: printItems items ++ [']']
  | .mapping entries => '\x7b' :: printEntries entries ++ ['\x7d']

/-- The JSON texts of the items of a list, separated by commas. -/
def printItems : List Value → List Char
  | [] => []
  | [x] => print x
  | x :: rest => print x ++ ',' :: ' ' :: printItems rest

/-- The JSON texts of the entries of a mapping, separated by commas. -/
def printEntries : List (String × Value) → List Char
  | [] => []
  | [(k, x)] => quote k.toList ++ ':' :: ' ' :: print x
  | (k, x) :: rest => quote k.toList ++ ':' :: ' ' :: print x ++ ',' :: ' ' :: printEntries rest

end

/-- The JSON text of a value as a string. -/
def text (v : Value) : String := String.ofList (print v)

end PatchScript.Json
