import PatchScript.Command.Bare
import PatchScript.Command.Fault

/-!
# Arguments and words

A call lists its arguments between commas; a line gives its words between blanks and may end with a
comment. Only bare characters separate, and a quote must be closed.

## Main definitions

* `splitArguments`: the arguments of a call.
* `splitWords`: the words and the comment of a line.
* `closing?`: where the bracket that opens a text is closed.
-/

namespace PatchScript

/-- The arguments between bare commas, without the blanks around them; none of them is empty,
except that a blank text has no arguments. -/
def splitArguments (text : List Char) : Except CommandFault (List (List Char)) :=
  if (Text.trim text).isEmpty then .ok []
  else if (Nesting.outside.run text).quote.isSome then
    .error (.unterminatedString (String.ofList text))
  else
    let pieces := (Nesting.outside.cut (· == ',') text).map Text.trim
    if pieces.any List.isEmpty then .error (.emptyArgument (String.ofList text)) else .ok pieces

/-- The words between bare blanks, and the comment without the blanks around it. -/
def splitWords (text : List Char) : Except CommandFault (List (List Char) × Option (List Char)) :=
  let (body, comment) := Nesting.outside.cutComment true text
  if (Nesting.outside.run body).quote.isSome then
    .error (.unterminatedString (String.ofList text))
  else
    let pieces := (Nesting.outside.cut Text.isBlank body).map Text.trim
    .ok (pieces.filter (!·.isEmpty), comment.map Text.trim)

/-! ### Matching brackets -/

/-- The closing bracket of an opening one. -/
def closerOf : Char → Char
  | '(' => ')'
  | '[' => ']'
  | _ => '\x7d'

/-- The number of characters up to and including the closing bracket that empties the stack of
awaited closing brackets; `none` when a wrong one comes first or the text ends. Quotes hide
brackets. -/
def closingFrom (stack : List Char) (quote : Option Char) (escaped : Bool) :
    List Char → Option Nat
  | [] => none
  | c :: rest =>
    match quote with
    | some q =>
      let quote := if !escaped && c == q then none else some q
      (closingFrom stack quote (!escaped && c == '\\') rest).map (· + 1)
    | none =>
      if isQuote c then (closingFrom stack (some c) false rest).map (· + 1)
      else if isOpener c then (closingFrom (closerOf c :: stack) none false rest).map (· + 1)
      else if isCloser c then
        match stack with
        | [] => none
        | expected :: others =>
          if expected != c then none
          else if others.isEmpty then some 1
          else (closingFrom others none false rest).map (· + 1)
      else (closingFrom stack none false rest).map (· + 1)

/-- The length of the bracketed text at the front of a text. -/
def closing? (text : List Char) : Option Nat := closingFrom [] none false text

end PatchScript
