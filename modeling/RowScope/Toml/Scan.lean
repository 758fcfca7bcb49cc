/-!
# Blanks and Comments

What may stand between the parts of a configuration file and means nothing:
blanks, ends of lines, and comments, which run from a hash to the end of their
line. A comment must not hold control characters other than tabs.

All readers of this folder take the characters that are left and give back what
they have read, together with the characters behind it.

## Main definitions

* `Chars`: What is left to be read.
* `isControl`: The characters that never stand for themselves.
* `skipBlanks`: Passing over spaces and tabs.
* `skipComment?`: Passing over a comment.
* `skipLines?`: Passing over blanks, ends of lines and comments.
-/

namespace RowScope

namespace Toml

/-- What is left to be read. -/
abbrev Chars := List Char

/-- A space or a tab. -/
def isBlank (c : Char) : Bool :=
  c == ' ' || c == '\t'

/-- A control character. -/
def isControl (c : Char) : Bool :=
  c.toNat < 32 || c.toNat == 127

/-- The characters that may not stand within a line. -/
def isForbidden (c : Char) : Bool :=
  isControl c && c != '\t'

/-- The characters that may not stand within several lines. -/
def isForbiddenInLines (c : Char) : Bool :=
  isForbidden c && c != '\n'

/-- What follows the blanks. -/
def skipBlanks (cs : Chars) : Chars :=
  cs.dropWhile isBlank

/-- What follows the rest of a comment; the end of its line is left. -/
def skipCommentRest? : Chars → Option Chars
  | [] => some []
  | c :: rest =>
    if c == '\n' then some (c :: rest)
    else if isForbidden c then none
    else skipCommentRest? rest

/-- What follows a comment, if there is one here. -/
def skipComment? : Chars → Option Chars
  | '#' :: rest => skipCommentRest? rest
  | cs => some cs

/-- What follows blanks, ends of lines and comments; `inComment` says that a
comment has begun. -/
def skipLinesFrom? (inComment : Bool) : Chars → Option Chars
  | [] => some []
  | c :: rest =>
    if c == '\n' then skipLinesFrom? false rest
    else if inComment then if isForbidden c then none else skipLinesFrom? true rest
    else if isBlank c then skipLinesFrom? false rest
    else if c == '#' then skipLinesFrom? true rest
    else some (c :: rest)

/-- What follows blanks, ends of lines and comments. -/
def skipLines? (cs : Chars) : Option Chars :=
  skipLinesFrom? false cs

/-- What follows some expected characters, if they are here. -/
def after? (expected : List Char) (cs : Chars) : Option Chars :=
  if expected.isPrefixOf cs then some (cs.drop expected.length) else none

end Toml

end RowScope
