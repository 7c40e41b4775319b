import PatchScript.Form.Problem
import PatchScript.Number.Numeral
import PatchScript.Text.Blank

/-!
# Fields of a form

A field of a form is given as a value and taken as a value of its own type. Values that plainly
mean one of that type are converted: a truth value, a whole number and the text of an integer are
integers, and a few words are truth values.

## Main definitions

* `FieldReader`: how the value of a field is taken.
* `FieldReader.text`, `flag`, `integer`, `choice`, …: the types of fields.
* `FieldReader.either`: a field of one of two types.
* `required`, `optional`: a field of a form under one of its names.
-/

namespace PatchScript

/-- Takes the value of a field. The place of a problem starts at the field. -/
abbrev FieldReader (α : Type) := Value → Checked α

namespace FieldReader

/-- A field with one fault. -/
def fault {α : Type} (f : FieldFault) : Checked α := .error [⟨[], f⟩]

/-! ### Texts, mappings and choices -/

/-- Any value. -/
def any : FieldReader Value := .ok

/-- A text. -/
def text : FieldReader String
  | .text s => .ok s
  | _ => fault .notText

/-- A text that is not empty. -/
def nonemptyText : FieldReader String
  | .text s => if s = "" then fault .emptyText else .ok s
  | _ => fault .notText

/-- A mapping. -/
def mapping : FieldReader Mapping
  | .mapping m => .ok m
  | _ => fault .notMapping

/-- Null, or a field of some type. -/
def nullable {α : Type} (reader : FieldReader α) : FieldReader (Option α)
  | .null => .ok none
  | v => (reader v).map some

/-- One of the names in a table. -/
def choice {α : Type} (options : List (String × α)) : FieldReader α := fun v =>
  match v with
  | .text s =>
    match options.lookup s with
    | some a => .ok a
    | none => fault (.notOneOf (options.map Prod.fst))
  | _ => fault (.notOneOf (options.map Prod.fst))

/-- A list whose items are all of one type. The place of a problem is the position of the item. -/
def listOf {α : Type} (reader : FieldReader α) : FieldReader (List α)
  | .list items =>
    (items.zipIdx).foldr
      (fun (item, i) rest =>
        (Checked.ap (.ok List.cons) (Checked.within (toString i) (reader item))).ap rest)
      (.ok [])
  | _ => fault .notList

/-! ### Integers -/

/-- Whether a character begins the part of an integer that stays: a digit other than zero, or a
minus sign. -/
def startsInteger (c : Char) : Bool := c == '-' || ('1' ≤ c && c ≤ '9')

/-- Removes zeros in front, also with underscores among them, up to the first character that stays
or the last of them before a point or the end. -/
def withoutLeadingZeros (text : List Char) : Option (List Char) :=
  match text with
  | '0' :: rest =>
    let isZero (c : Char) : Bool := c == '0' || c == '_'
    let lastZero := ('0' :: rest.takeWhile isZero).getLast?.toList
    match rest.dropWhile isZero with
    | [] => some lastZero
    | c :: after =>
      if c == '.' then some (lastZero ++ c :: after)
      else if startsInteger c then some (c :: after)
      else none
  | c :: rest => if startsInteger c then some (c :: rest) else none
  | [] => none

/-- Removes a point with nothing but zeros, and at least one of them, after it. -/
def withoutZeroFraction (text : List Char) : List Char :=
  match text.dropWhile (· != '.') with
  | '.' :: fraction =>
    if !fraction.isEmpty && fraction.all (· == '0') then text.takeWhile (· != '.') else text
  | _ => text

/-- Whether two underscores stand side by side. -/
def hasDoubleUnderscore : List Char → Bool
  | a :: b :: rest => (a == '_' && b == '_') || hasDoubleUnderscore (b :: rest)
  | _ => false

/-- Removes single underscores inside a text; `none` where there are others. -/
def withoutUnderscores? (text : List Char) : Option (List Char) :=
  if text.head? == some '_' || text.getLast? == some '_' || hasDoubleUnderscore text then none
  else some (text.filter (· != '_'))

/-- The integer that a text without superfluous characters denotes. -/
def plainInteger? (text : List Char) : Option Int :=
  let (negative, digits) := takeSign false text
  match digits with
  | '0' :: _ :: _ => none
  | _ => (Text.natural? Text.asciiDigit? digits).map fun n => if negative then -(n : Int) else n

/-- Splits off one sign; no other sign may follow it. -/
def takeOneSign? (text : List Char) : Option (Bool × List Char) :=
  let (negative, rest) := takeSign true text
  if rest.length = text.length then some (false, text)
  else
    match rest with
    | '+' :: _ | '-' :: _ => none
    | _ => some (negative, rest)

/-- The integer that a text denotes: white space around it, a sign, zeros in front, a fraction of
zeros, and single underscores between digits are allowed. -/
def integerOfText? (text : List Char) : Option Int := do
  let (negative, unsigned) ← takeOneSign? (Text.trimSpace text)
  let digits := withoutZeroFraction (← withoutLeadingZeros unsigned)
  let plain ← withoutUnderscores? digits
  plainInteger? (if negative then '-' :: plain else plain)

/-- The integer that a binary64 number is, if it is one that fits 64 bits and is not the least of
those. -/
def wholeInt64? (x : Binary64) : Option Int :=
  x.toInt?.filter fun n => decide (-Number.int64End < n) && Number.isInt64 n

/-- An integer: itself, a truth value as zero or one, a whole number, or the text of an integer. -/
def integer : FieldReader Int
  | .number (.int n) => .ok n
  | .bool b => .ok (if b then 1 else 0)
  | .number (.float x) =>
    match x with
    | .finite _ _ =>
      match x.toInt?, wholeInt64? x with
      | _, some n => .ok n
      | some _, none => fault .hugeInteger
      | none, none => fault .fractional
    | _ => fault .notFinite
  | .text s =>
    match integerOfText? s.toList with
    | some n => .ok n
    | none => fault .unreadableInteger
  | _ => fault .notInteger

/-- An integer above zero. -/
def positive : FieldReader Int := fun v => do
  let n ← integer v
  if 0 < n then .ok n else fault .notPositive

/-! ### Truth values -/

/-- The words that mean a truth value, in lower case. -/
def flagWords : List (String × Bool) :=
  [("0", false), ("off", false), ("f", false), ("false", false), ("n", false), ("no", false),
    ("1", true), ("on", true), ("t", true), ("true", true), ("y", true), ("yes", true)]

/-- The integer that a number is, if it is one that fits 64 bits. -/
def smallInteger? : Number → Option Int
  | .int n => if Number.isInt64 n then some n else none
  | .float x => wholeInt64? x

/-- A truth value: itself, the number zero or one, or a word that means one in any case of its
letters. -/
def flag : FieldReader Bool
  | .bool b => .ok b
  | .number n =>
    match smallInteger? n with
    | some 0 => .ok false
    | some 1 => .ok true
    | some _ => fault .unreadableFlag
    | none => fault .notFlag
  | .text s =>
    match flagWords.lookup (String.ofList (s.toList.map Char.toLower)) with
    | some b => .ok b
    | none => fault .unreadableFlag
  | _ => fault .notFlag

/-! ### Numbers -/

/-- The number of a word for infinity or for what is not a number, in any case of its letters. -/
def specialNumber? (word : List Char) : Option Binary64 :=
  let word := String.ofList (word.map Char.toLower)
  if word = "inf" ∨ word = "infinity" then some (.infinite false)
  else if word = "nan" then some .nan
  else none

/-- The number that a text denotes, in decimal or in a word. -/
def numberOfText? (text : List Char) : Option Binary64 :=
  let (negative, unsigned) := takeSign true text
  match specialNumber? unsigned with
  | some x => some (if negative then x.neg else x)
  | none => (numeral? Text.asciiDigit? text).map Numeral.toBinary64

/-- The number that a text denotes with white space around it or with single underscores inside it,
but not with both. -/
def looseNumberOfText? (text : List Char) : Option Binary64 :=
  match numberOfText? (Text.trimSpace text) with
  | some x => some x
  | none => (withoutUnderscores? text).bind numberOfText?

/-- A binary64 number, given as a number or as the text of one. -/
def float : FieldReader Binary64
  | .number n =>
    match n.toBinary64 with
    | .ok x => .ok x
    | .error _ => fault .notNumber
  | .text s =>
    match looseNumberOfText? s.toList with
    | some x => .ok x
    | none => fault .unreadableNumber
  | _ => fault .notNumber

/-! ### Fields of two types -/

/-- A field of one of two types, the first where both are possible. The problems of both are
reported, each under the name of its type. -/
def either {α β : Type} (firstName : String) (first : FieldReader α) (secondName : String)
    (second : FieldReader β) : FieldReader (α ⊕ β) := fun v =>
  match first v with
  | .ok a => .ok (.inl a)
  | .error p =>
    match second v with
    | .ok b => .ok (.inr b)
    | .error q =>
      .error (p.map (FormProblem.within firstName) ++ q.map (FormProblem.within secondName))

/-- A number of either kind. A number that is given as one stays as it is; other values are taken
as integers where that is possible. -/
def number : FieldReader Number
  | .number n => .ok n
  | v => (either "int" integer "float" float v).map (Sum.elim .int .float)

end FieldReader

/-! ### Fields of a form -/

/-- The first of the names of a field that the form has, with the value under it. -/
def fieldEntry? (form : Mapping) (names : List String) : Option (String × Value) :=
  names.findSome? fun name => (form.get? name).map (name, ·)

/-- A field that a form must have. A problem is reported under the name that the form uses, or
under the first one where the field is missing. -/
def required {α : Type} (form : Mapping) (names : List String) (reader : FieldReader α) :
    Checked α :=
  match fieldEntry? form names with
  | some (name, v) => Checked.within name (reader v)
  | none => Checked.within (names.headD "") (FieldReader.fault .missing)

/-- A field that a form may leave out. -/
def optional {α : Type} (form : Mapping) (names : List String) (reader : FieldReader α) :
    Checked (Option α) :=
  match fieldEntry? form names with
  | some (name, v) => Checked.within name ((reader v).map some)
  | none => .ok none

end PatchScript
