import PatchScript.Pattern.Basic

/-!
# Reading the characters of patterns

A written pattern is read token by token, a token being a character or a backslash with the
character after it. The reader always looks at one token ahead, so a backslash without a character
after it is found as soon as the token before it has been taken.

## Main definitions

* `Pattern.Token`, `Pattern.tokens`: the tokens of a text.
* `Pattern.ReadState`, `Pattern.Reader`: what is known while a pattern is read, and its readers.
* `Pattern.peek`, `next`, `accept`, `takeUntil`: taking tokens.
-/

namespace PatchScript.Pattern

/-! ### Tokens -/

/-- A part of a written pattern. -/
inductive Token where
  | bare (c : Char)
  | escaped (c : Char)
  /-- A backslash at the very end. -/
  | dangling
deriving DecidableEq

/-- The tokens of a text. -/
def tokens : List Char → List Token
  | [] => []
  | ['\\'] => [.dangling]
  | '\\' :: c :: rest => .escaped c :: tokens rest
  | c :: rest => .bare c :: tokens rest

/-- The characters of tokens that are not escaped; `none` where one is. -/
def bareText? (found : List Token) : Option (List Char) :=
  found.mapM fun
    | .bare c => some c
    | _ => none

/-! ### Readers -/

/-- What is left to read, and what is known of what has been read. -/
structure ReadState where
  rest : List Token := []
  groups : Nat := 1
  names : List (String × Nat) := []
  widths : List (Nat × Width) := []
  /-- The groups that conditions refer to. -/
  conditions : List Nat := []
  /-- The number of groups before the look-behind being read. -/
  behindGroups : Option Nat := none
  /-- The letters of the flags that are given for the whole pattern. -/
  wholeFlags : List Char := []
  /-- Whether there is a quantifier. -/
  quantified : Bool := false
  /-- Whether there is a look-behind without a width of its own. -/
  stretching : Bool := false

/-- A reader of part of a pattern. It may find that the text is no pattern, or meet a mishap. -/
abbrev Reader := StateT ReadState (OptionT (Except PatternMishap))

/-- No pattern is written so. -/
def refuse {α : Type} : Reader α := fun _ => (failure : OptionT (Except PatternMishap) _)

/-- A mishap. -/
def mishap {α : Type} (m : PatternMishap) : Reader α := fun _ => OptionT.mk (.error m)

/-- Goes on with the given tokens. -/
def goOn (rest : List Token) : Reader Unit := do
  if rest.head? = some .dangling then refuse else modify fun s => { s with rest := rest }

/-- The next token, left where it is. -/
def peek : Reader (Option Token) := do return (← get).rest.head?

/-- Takes the next token. -/
def next : Reader (Option Token) := do
  match (← get).rest with
  | [] => return none
  | token :: rest => goOn rest; return some token

/-- Takes the next token if it is the given character. -/
def accept (c : Char) : Reader Bool := do
  if (← peek) = some (.bare c) then
    let _ ← next
    return true
  else return false

/-- Insists on a character. -/
def expect (c : Char) : Reader Unit := do
  if ← accept c then return () else refuse

/-- The characters at the front of the tokens that satisfy a condition, at most `limit` of them. -/
def spanBare (holds : Char → Bool) : (limit : Nat) → List Token → List Char × List Token
  | limit + 1, .bare c :: rest =>
    if holds c then
      let (cs, after) := spanBare holds limit rest
      (c :: cs, after)
    else ([], .bare c :: rest)
  | _, tokens => ([], tokens)

/-- Takes the characters that satisfy a condition, at most `limit` of them. -/
def takeBare (holds : Char → Bool) (limit : Nat) : Reader (List Char) := do
  let (cs, rest) := spanBare holds limit (← get).rest
  goOn rest
  return cs

/-- Takes all tokens up to a character, and that character. -/
def takeUntil (c : Char) : Reader (List Token) := do
  match (← get).rest.span (· != .bare c) with
  | (before, _ :: rest) => goOn rest; return before
  | (_, []) => refuse

end PatchScript.Pattern
