import PatchScript.Value.Basic

/-!
# Reading JSON text

A text is read from the left, and the first problem met is the one reported. A number written with
a point or an exponent is a binary64 number, any other an integer; `NaN`, `Infinity` and
`-Infinity` are numbers too. Of several entries with one key the first gives the position and the
last the value.

## Main definitions

* `Json.Error`: the problems, with their wording.
* `Json.readString`, `readNumber`, `readValue`: readers that return what follows.
* `Json.read`: the value that a whole text denotes.
-/

namespace PatchScript.Json

/-- Why a text is not JSON. -/
inductive Error where
  | expectedValue
  | expectedName
  | expectedColon
  | expectedComma
  | unterminatedString
  | controlCharacter
  | badEscape
  | badUnicodeEscape
  | extraData
  | byteOrderMark
deriving DecidableEq

/-- The wording of a problem. -/
def Error.message : Error → String
  | .expectedValue => "Expecting value"
  | .expectedName => "Expecting property name enclosed in double quotes"
  | .expectedColon => "Expecting ':' delimiter"
  | .expectedComma => "Expecting ',' delimiter"
  | .unterminatedString => "Unterminated string starting at"
  | .controlCharacter => "Invalid control character at"
  | .badEscape => "Invalid \\escape"
  | .badUnicodeEscape => "Invalid \\uXXXX escape"
  | .extraData => "Extra data"
  | .byteOrderMark => "Unexpected UTF-8 BOM (decode using utf-8-sig)"

/-- Whether the character may stand between the parts of a JSON text. -/
def isSpace (c : Char) : Bool := c == ' ' || c == '\t' || c == '\n' || c == '\r'

/-- Removes the white space at the front. -/
def skipSpace (text : List Char) : List Char := text.dropWhile isSpace

/-! ### Strings -/

/-- The value of a hexadecimal digit. -/
def hexValue? (c : Char) : Option Nat :=
  if '0'.val ≤ c.val ∧ c.val ≤ '9'.val then some (c.toNat - '0'.toNat)
  else if 'a'.val ≤ c.val ∧ c.val ≤ 'f'.val then some (c.toNat - 'a'.toNat + 10)
  else if 'A'.val ≤ c.val ∧ c.val ≤ 'F'.val then some (c.toNat - 'A'.toNat + 10)
  else none

/-- The value of four hexadecimal digits. -/
def hexFour? (a b c d : Char) : Option Nat := do
  let a ← hexValue? a
  let b ← hexValue? b
  let c ← hexValue? c
  let d ← hexValue? d
  return ((a * 16 + b) * 16 + c) * 16 + d

/-- The character that a letter after a backslash stands for. -/
def shortEscape? : Char → Option Char
  | '"' => some '"'
  | '\\' => some '\\'
  | '/' => some '/'
  | 'b' => some '\x08'
  | 'f' => some '\x0c'
  | 'n' => some '\n'
  | 'r' => some '\r'
  | 't' => some '\t'
  | _ => none

/-- Whether a code unit is the first half of a surrogate pair. -/
def isHighSurrogate (n : Nat) : Bool := 0xD800 ≤ n && n ≤ 0xDBFF

/-- Whether a code unit is the second half of a surrogate pair. -/
def isLowSurrogate (n : Nat) : Bool := 0xDC00 ≤ n && n ≤ 0xDFFF

/-- The character of a code that is no part of a pair; half a pair has none and is replaced. -/
def codeChar (n : Nat) : Char :=
  if isHighSurrogate n || isLowSurrogate n then '\ufffd' else Char.ofNat n

/-- The character of a surrogate pair. -/
def pairChar (high low : Nat) : Char :=
  Char.ofNat (0x10000 + (high - 0xD800) * 0x400 + (low - 0xDC00))

/-- The text of a list of codes, with surrogate pairs joined. -/
def ofCodes : List Nat → List Char
  | [] => []
  | [n] => [codeChar n]
  | m :: n :: rest =>
    if isHighSurrogate m && isLowSurrogate n then pairChar m n :: ofCodes rest
    else codeChar m :: ofCodes (n :: rest)

/-- Reads the rest of a string after its opening quote; returns the codes of its content and what
follows its closing quote. Something must follow an escape by code unit. -/
def readCodes : List Char → Except Error (List Nat × List Char)
  | [] => .error .unterminatedString
  | '"' :: rest => .ok ([], rest)
  | ['\\'] => .error .unterminatedString
  | '\\' :: 'u' :: a :: b :: c :: d :: next :: rest =>
    match hexFour? a b c d with
    | none => .error .badUnicodeEscape
    | some unit => do
      let (codes, after) ← readCodes (next :: rest)
      return (unit :: codes, after)
  | '\\' :: 'u' :: _ => .error .badUnicodeEscape
  | '\\' :: c :: rest =>
    match shortEscape? c with
    | none => .error .badEscape
    | some x => do
      let (codes, after) ← readCodes rest
      return (x.toNat :: codes, after)
  | c :: rest =>
    if c.toNat < 32 then .error .controlCharacter
    else do
      let (codes, after) ← readCodes rest
      return (c.toNat :: codes, after)

/-- Reads the rest of a string after its opening quote; returns its content and what follows. -/
def readString (text : List Char) : Except Error (List Char × List Char) := do
  let (codes, after) ← readCodes text
  return (ofCodes codes, after)

/-! ### Numbers -/

/-- The digits before the point: a zero alone, or digits that do not begin with zero. -/
def takeWhole (text : List Char) : List Nat × List Char :=
  match text with
  | '0' :: rest => ([0], rest)
  | _ => Text.takeDigits Text.asciiDigit? text

/-- A point with the digits after it; a point without digits is not taken. -/
def takeFraction (text : List Char) : Option (List Nat) × List Char :=
  match text with
  | '.' :: rest =>
    match Text.takeDigits Text.asciiDigit? rest with
    | ([], _) => (none, text)
    | (digits, after) => (some digits, after)
  | _ => (none, text)

/-- The value of a numeral: an integer when it is written as one. -/
def numeralValue (n : Numeral) : Value :=
  if n.isInteger then .int n.toInt else .float n.toBinary64

/-- Reads a number at the front of a text. -/
def readNumber (text : List Char) : Except Error (Value × List Char) :=
  let (negative, unsigned) := takeSign false text
  match takeWhole unsigned with
  | ([], _) => .error .expectedValue
  | (whole, afterWhole) =>
    let (fraction, afterFraction) := takeFraction afterWhole
    let (power, rest) := takePower Text.asciiDigit? afterFraction
    .ok (numeralValue ⟨negative, whole, fraction, power⟩, rest)

/-! ### Values -/

/-- The words that denote values. -/
def words : List (List Char × Value) :=
  [("null".toList, .null), ("true".toList, .bool true), ("false".toList, .bool false),
    ("NaN".toList, .float .nan), ("Infinity".toList, .float (.infinite false)),
    ("-Infinity".toList, .float (.infinite true))]

/-- Reads a word at the front of a text. -/
def readWord? (text : List Char) : Option (Value × List Char) :=
  words.findSome? fun (word, value) => (word.isPrefixOf? text).map (value, ·)

mutual

/-- Reads a value at the front of a text. The number bounds the depth of the reading and is never
used up when it exceeds the length of the text. -/
def readValue : Nat → List Char → Except Error (Value × List Char)
  | 0, _ => .error .expectedValue
  | fuel + 1, text =>
    match text with
    | '"' :: rest => do
      let (content, after) ← readString rest
      return (.text (String.ofList content), after)
    | '\x7b' :: rest =>
      match skipSpace rest with
      | '\x7d' :: after => .ok (.mapping [], after)
      | start => do
        let (entries, after) ← readEntries fuel [] start
        return (.mapping entries, after)
    | '[' :: rest =>
      match skipSpace rest with
      | ']' :: after => .ok (.list [], after)
      | start => do
        let (items, after) ← readItems fuel start
        return (.list items, after)
    | _ =>
      match readWord? text with
      | some found => .ok found
      | none => readNumber text

/-- Reads the items of a list up to its closing bracket. -/
def readItems : Nat → List Char → Except Error (List Value × List Char)
  | 0, _ => .error .expectedValue
  | fuel + 1, text => do
    let (item, after) ← readValue fuel text
    match skipSpace after with
    | ']' :: rest => return ([item], rest)
    | ',' :: rest => do
      let (items, after) ← readItems fuel (skipSpace rest)
      return (item :: items, after)
    | _ => .error .expectedComma

/-- Reads the entries of a mapping up to its closing brace, adding them to `found`. -/
def readEntries : Nat → Mapping → List Char → Except Error (Mapping × List Char)
  | 0, _, _ => .error .expectedValue
  | fuel + 1, found, text =>
    match text with
    | '"' :: rest => do
      let (name, afterName) ← readString rest
      match skipSpace afterName with
      | ':' :: afterColon => do
        let (value, afterValue) ← readValue fuel (skipSpace afterColon)
        let found := found.put (String.ofList name) value
        match skipSpace afterValue with
        | '\x7d' :: rest => return (found, rest)
        | ',' :: rest => readEntries fuel found (skipSpace rest)
        | _ => .error .expectedComma
      | _ => .error .expectedColon
    | _ => .error .expectedName

end

/-- The value that a text denotes. -/
def read (text : List Char) : Except Error Value :=
  match text with
  | '\ufeff' :: _ => .error .byteOrderMark
  | _ => do
    let (value, after) ← readValue (2 * text.length + 2) (skipSpace text)
    if (skipSpace after).isEmpty then return value else .error .extraData

end PatchScript.Json
