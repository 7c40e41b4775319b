import PatchScript.Value.Basic
import PatchScript.Text.Printable

/-!
# Literal forms

Messages show values in literal form: texts stand in quotes, with everything that does not print
escaped, and the constants are written `None`, `True` and `False`.

## Main definitions

* `quoteLiteral`: the literal form of a text.
* `Value.literal`: the literal form of a value.
* `Value.shown`: the literal form, except that a text stands for itself.
-/

namespace PatchScript

/-- The last `width` hexadecimal digits of a number. -/
def hexDigits : (width : Nat) → (n : Nat) → List Char
  | 0, _ => []
  | width + 1, n => hexDigits width (n / 16) ++ [Nat.digitChar (n % 16)]

/-- A character inside a literal with the given quote. -/
def escapeLiteral (quote c : Char) : List Char :=
  if c = quote || c = '\\' then ['\\', c]
  else if c = '\n' then ['\\', 'n']
  else if c = '\r' then ['\\', 'r']
  else if c = '\t' then ['\\', 't']
  else if Text.isPrintable c then [c]
  else if c.toNat < 256 then '\\' :: 'x' :: hexDigits 2 c.toNat
  else if c.toNat < 65536 then '\\' :: 'u' :: hexDigits 4 c.toNat
  else '\\' :: 'U' :: hexDigits 8 c.toNat

/-- A text in single quotes, or in double quotes where it holds single but no double ones. -/
def quoteLiteral (text : List Char) : List Char :=
  let quote := if text.contains '\'' && !text.contains '"' then '"' else '\''
  quote :: text.flatMap (escapeLiteral quote) ++ [quote]

namespace Value

mutual

/-- The literal form of a value. -/
def literal : Value → List Char
  | .null => "None".toList
  | .bool b => (if b then "True" else "False").toList
  | .number n => n.text
  | .text s => quoteLiteral s.toList
  | .list items => '[' :: literalItems items ++ [']']
  | .mapping entries => '\x7b' :: literalEntries entries ++ ['\x7d']

/-- The literal forms of the items of a list, separated by commas. -/
def literalItems : List Value → List Char
  | [] => []
  | [x] => literal x
  | x :: rest => literal x ++ ',' :: ' ' :: literalItems rest

/-- The literal forms of the entries of a mapping, separated by commas. -/
def literalEntries : List (String × Value) → List Char
  | [] => []
  | [(k, x)] => quoteLiteral k.toList ++ ':' :: ' ' :: literal x
  | (k, x) :: rest =>
    quoteLiteral k.toList ++ ':' :: ' ' :: literal x ++ ',' :: ' ' :: literalEntries rest

end

/-- The literal form as a string. -/
def literalText (v : Value) : String := String.ofList v.literal

/-- A text itself, and any other value in literal form. -/
def shown : Value → String
  | .text s => s
  | v => v.literalText

end Value

end PatchScript
