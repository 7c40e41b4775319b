import PatchScript.Command.Fault
import PatchScript.Text.Blank
import PatchScript.Text.Find

/-!
# Literals

An argument of a command denotes a value. Quoted text is unquoted, the constants, numbers and
bracketed JSON texts denote their values, and anything else denotes itself as text.

## Main definitions

* `unquote`: the content of quoted text.
* `readLiteral`: the value of an argument.
-/

namespace PatchScript

/-- The content of quoted text. The escapes are replaced one kind after the other: line feeds,
tabs, the quote, and the backslash last. -/
def unquote (quote : Char) (content : List Char) : List Char :=
  let content := Text.replaceAll ['\\', 'n'] ['\n'] content
  let content := Text.replaceAll ['\\', 't'] ['\t'] content
  let content := Text.replaceAll ['\\', quote] [quote] content
  Text.replaceAll ['\\', '\\'] ['\\'] content

/-- The quote and the content of a text that begins and ends with the same quote. -/
def quoted? (text : List Char) : Option (Char × List Char) :=
  match text with
  | quote :: rest =>
    if (quote == '"' || quote == '\'') && rest.getLast? == some quote then
      some (quote, rest.dropLast)
    else none
  | [] => none

/-- The value of a constant. -/
def constant? (text : List Char) : Option Value :=
  if text = "true".toList then some (.bool true)
  else if text = "false".toList then some (.bool false)
  else if text = "null".toList ∨ text = "None".toList ∨ text = "undefined".toList then some .null
  else none

/-- The value of an argument. Text in double quotes is read as JSON where it can be. -/
def readLiteral (argument : List Char) : Except CommandFault Value :=
  let text := Text.trim argument
  match quoted? text with
  | some (quote, content) =>
    let plain : Value := .text (String.ofList (unquote quote content))
    if quote = '"' then
      match Json.read text with
      | .ok v => .ok v
      | .error _ => .ok plain
    else .ok plain
  | none =>
    match constant? text with
    | some v => .ok v
    | none =>
      match numeral? Text.digitValue? text with
      | some n => .ok (Json.numeralValue n)
      | none =>
        match text with
        | [] => .error .emptyLiteral
        | c :: _ =>
          if c = '[' || c = '\x7b' then
            match Json.read text with
            | .ok v => .ok v
            | .error e => .error (.badJson (String.ofList text) e)
          else .ok (.text (String.ofList text))

end PatchScript
