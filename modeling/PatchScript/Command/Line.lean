import PatchScript.Command.Arguments
import PatchScript.Command.Literal
import PatchScript.Command.Shorthand
import PatchScript.Text.Lines

/-!
# Lines

A line is a command when it begins with a verb, after the opening that the settings ask for, and
something follows the verb. Other lines are prose. The words after the path are literals, a lone
`=` or `to` after the path is left out, and a comment is the reason of the operation.

## Main definitions

* `LineVerb`: the verbs.
* `lineParts?`: the verb of a line and what follows it.
* `lineRequest`: the operations of a line.
* `readLine`, `readLines`: the commands of lines.
-/

namespace PatchScript

/-- The verbs of lines. -/
inductive LineVerb where
  | set
  | add
  | push
  | insert
  | remove
  | move
  | copy
  | evaluate
  | modify
  | test
deriving DecidableEq

namespace LineVerb

/-- The spelling of a verb. -/
def name : LineVerb → String
  | .set => "set"
  | .add => "add"
  | .push => "push"
  | .insert => "insert"
  | .remove => "remove"
  | .move => "move"
  | .copy => "copy"
  | .evaluate => "calc"
  | .modify => "modify"
  | .test => "test"

/-- All verbs. -/
def all : List LineVerb :=
  [.set, .add, .push, .insert, .remove, .move, .copy, .evaluate, .modify, .test]

/-- The verb of a spelling. -/
def ofName? (name : String) : Option LineVerb := all.find? (·.name == name)

end LineVerb

/-! ### Recognition -/

/-- The verb at the front of a text, blanks aside, and the text after the blanks that follow it. -/
def verbParts? (text : List Char) : Option (LineVerb × List Char) :=
  let text := Text.trimLeft text
  let word := text.takeWhile (!Text.isBlank ·)
  match Text.trim (text.drop word.length), LineVerb.ofName? (String.ofList word) with
  | [], _ | _, none => none
  | rest, some verb => some (verb, rest)

/-- The verb of a line and what follows it. Blanks may stand before the opening, which may begin
with blanks itself; as many of them as possible stand before it. -/
def lineParts? (opening line : List Char) : Option (LineVerb × List Char) :=
  let blanks := (line.takeWhile Text.isBlank).length
  (List.range (blanks + 1)).reverse.findSome? fun n =>
    (opening.isPrefixOf? (line.drop n)).bind verbParts?

/-! ### Words -/

/-- What follows the verb of a line: the path, the words after it, their values, and the comment. -/
structure LineWords where
  path : String
  words : List (List Char)
  values : List Value
  comment : Option String

/-- Leaves out a lone `=` or `to` after the path. -/
def withoutFiller (words : List (List Char)) : List (List Char) :=
  match words with
  | word :: rest => if word = "=".toList ∨ word = "to".toList then rest else words
  | [] => []

namespace LineWords

/-- Reads what follows a verb. -/
def read (verb : LineVerb) (text : List Char) : Except CommandFault LineWords := do
  let (words, comment) ← splitWords text
  match words with
  | [] => .error (.missingPath verb.name)
  | path :: words =>
    let words := withoutFiller words
    return ⟨String.ofList path, words, ← words.mapM readLiteral, comment.map String.ofList⟩

/-- Checks that there is no word after the path. -/
def none (w : LineWords) (verb : LineVerb) : Except CommandFault Unit :=
  if w.values.isEmpty then .ok () else .error (.wrongCount verb.name 0 w.values.length)

/-- The value of the only word after the path. -/
def one (w : LineWords) (verb : LineVerb) : Except CommandFault Value :=
  match w.values with
  | [v] => .ok v
  | values => .error (.wrongCount verb.name 1 values.length)

/-- The values of the only two words after the path. -/
def two (w : LineWords) (verb : LineVerb) : Except CommandFault (Value × Value) :=
  match w.values with
  | [v, w] => .ok (v, w)
  | values => .error (.wrongCount verb.name 2 values.length)

end LineWords

/-! ### Meaning -/

/-- The operation of a calculation: the path is the first word, and an equals sign may stand before
the expression. -/
def lineCalculation (rest : List Char) : Except CommandFault Operation :=
  let path := rest.takeWhile (!Text.isBlank ·)
  match Text.trim (rest.drop path.length) with
  | [] => .error (.wrongForm "calc takes '<path> <expression>'")
  | c :: text =>
    let expression := if c = '=' then Text.trim text else c :: text
    .ok { path := String.ofList path, body := .evaluate (String.ofList expression) }

/-- The operations of a line that sets a value. -/
def lineSetting (w : LineWords) : Except CommandFault (List Operation) :=
  match w.values with
  | [value] => .ok [Shorthand.replace w.path value (some w.comment)]
  | [value, _, expected] =>
    if w.words[1]? = some "expect".toList then
      .ok (Shorthand.checkedReplace w.path expected value w.comment)
    else .error (.wrongForm "set takes '<path> <value> [expect <old>]'")
  | _ => .error (.wrongForm "set takes '<path> <value> [expect <old>]'")

/-- The operation of a line that modifies a container. -/
def lineModification (w : LineWords) : Except CommandFault Operation :=
  match w.values with
  | [] => .error (.wrongForm "modify takes '<path> <action> [<index>] <value>'")
  | action :: rest =>
    if action = .text EditAction.insert.name then
      match rest with
      | [index, value] => Shorthand.modify w.path action value (some index) (some w.comment)
      | _ => .error (.wrongForm "modify insert takes '<index> <value>'")
    else
      match rest with
      | [value] => Shorthand.modify w.path action value .none (some w.comment)
      | _ => .error (.modifyTakesOne action.shown)

/-- The comparator of a word: its symbol, or its name. -/
def comparatorOf? (word : String) : Option Comparator :=
  match word with
  | "==" => some .equal
  | "!=" => some .unequal
  | ">" => some .above
  | ">=" => some .atLeast
  | "<" => some .below
  | "<=" => some .atMost
  | _ => testComparators.find? (·.name == word)

/-- The operation of a line that tests a value. -/
def lineTest (w : LineWords) : Except CommandFault Operation :=
  let test (expected : Option Value) (comparisons : List Comparison) : Operation :=
    { path := w.path, body := .test expected comparisons }
  match w.values, (w.words.head?.map String.ofList).bind comparatorOf? with
  | [], _ => .ok (test none [])
  | [_], some .present => .ok (test none [(.present, .bool true)])
  | [_, operand], some c => Shorthand.ofForm .test [("path", .text w.path), (c.name, operand)]
  | [expected], _ => .ok (test (some expected) [])
  | _, _ => .error (.wrongForm "test takes '<path> [<comparator>] <value>'")

/-- The operations of a line. -/
def lineRequest (verb : LineVerb) (rest : List Char) : Except CommandFault (List Operation) := do
  match verb with
  | .evaluate => return [← lineCalculation rest]
  | .set => lineSetting (← LineWords.read verb rest)
  | .add =>
    let w ← LineWords.read verb rest
    return [Shorthand.add w.path (← w.one verb) w.comment]
  | .push =>
    let w ← LineWords.read verb rest
    let operation := Shorthand.addValue (Shorthand.endOf w.path) (← w.one verb)
    return [{ operation with reason := some w.comment }]
  | .insert =>
    let w ← LineWords.read verb rest
    let (index, value) ← w.two verb
    let action := Value.text EditAction.insert.name
    return [← Shorthand.modify w.path action value (some index) (some w.comment)]
  | .remove =>
    let w ← LineWords.read verb rest
    w.none verb
    return [{ path := w.path, reason := some w.comment, body := .remove none }]
  | .move =>
    let w ← LineWords.read verb rest
    let target ← w.one verb
    return [{ path := target.shown, reason := some w.comment, body := .move w.path }]
  | .copy =>
    let w ← LineWords.read verb rest
    let target ← w.one verb
    return [{ path := target.shown, reason := some w.comment, body := .copy w.path }]
  | .modify => return [← lineModification (← LineWords.read verb rest)]
  | .test => return [← lineTest (← LineWords.read verb rest)]

/-! ### Reading -/

/-- The first line of the wording of a fault. -/
def CommandFault.firstLine (fault : CommandFault) : String :=
  String.ofList (Text.firstLine fault.message.toList)

/-- Reads one line. -/
def readLine (opening line : List Char) (next : Nat) : Reading :=
  match lineParts? opening line with
  | none => .empty next
  | some (verb, rest) =>
    match lineRequest verb rest with
    | .ok operations => .request .line (Text.trim line) operations next
    | .error fault => .dropped .line line fault.firstLine next

/-- Reads every line of a text. -/
def readLines (opening text : List Char) (next : Nat) : Reading :=
  readEach (readLine opening) (Text.lines text) next

end PatchScript
