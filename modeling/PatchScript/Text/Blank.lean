/-!
# Blank characters

A blank is a character of Unicode white space or one of the four information separators. Numbers
may have white space around them, but no separators.

## Main definitions

* `isBlank`, `isSpace`: the blanks, with and without the separators.
* `trimLeft`, `trimRight`, `trim`: removal of blanks at the ends.
* `words`: the parts between runs of blanks.
-/

namespace PatchScript.Text

/-- Whether the character is white space or an information separator. -/
def isBlank (c : Char) : Bool :=
  let n := c.toNat
  (9 ≤ n && n ≤ 13) || (28 ≤ n && n ≤ 32) || n == 133 || n == 160 || n == 5760 ||
    (8192 ≤ n && n ≤ 8202) || n == 8232 || n == 8233 || n == 8239 || n == 8287 || n == 12288

/-- Removes blanks at the front. -/
def trimLeft (text : List Char) : List Char := text.dropWhile isBlank

/-- Removes blanks at the back. -/
def trimRight : List Char → List Char
  | [] => []
  | c :: rest =>
    match trimRight rest with
    | [] => if isBlank c then [] else [c]
    | kept => c :: kept

/-- Removes blanks at both ends. -/
def trim (text : List Char) : List Char := trimRight (trimLeft text)

/-- Whether the character is white space. -/
def isSpace (c : Char) : Bool := isBlank c && !(28 ≤ c.toNat && c.toNat ≤ 31)

/-- Removes white space at both ends. -/
def trimSpace (text : List Char) : List Char :=
  ((text.dropWhile isSpace).reverse.dropWhile isSpace).reverse

end PatchScript.Text
