import RowScope.Toml.Scan

/-!
# Strings

The four ways of writing a string in a configuration file. Single quotes take
everything between them as it is; double quotes allow escapes. Tripled quotes
let a string run over several lines; an end of line right behind the opening
ones does not count, and up to two more quotes may stand right before the
closing ones. In double quotes over several lines a backslash at the end of a
line takes away the end of the line and all blanks that follow.

## Main definitions

* `literal?`, `basic?`: A string on one line, behind its opening quote.
* `literalLines?`, `basicLines?`: A string over several lines, behind its
  opening quotes.
* `string?`: Any string.
-/

namespace RowScope

namespace Toml

/-- A string and what follows it. -/
abbrev Read := Option (List Char × Chars)

/-- One more character in front of a string. -/
def Read.push (c : Char) (r : Read) : Read :=
  r.map fun p => (c :: p.1, p.2)

/-- A string in single quotes. -/
def literal? : Chars → Read
  | [] => none
  | c :: rest =>
    if c == '\'' then some ([], rest)
    else if isForbidden c then none
    else Read.push c (literal? rest)

/-- The number of a hexadecimal digit. -/
def hexValue? (c : Char) : Option Nat :=
  if '0' ≤ c ∧ c ≤ '9' then some (c.toNat - 48)
  else if 'a' ≤ c ∧ c ≤ 'f' then some (c.toNat - 87)
  else if 'A' ≤ c ∧ c ≤ 'F' then some (c.toNat - 55)
  else none

/-- The character that hexadecimal digits number, if there is one. -/
def numbered? (digits : List Char) : Option Char := do
  let values ← digits.mapM hexValue?
  let n := values.foldl (fun n d => n * 16 + d) 0
  if h : n.isValidChar then return Char.ofNatAux n h else none

/-- The character that a letter behind a backslash stands for. -/
def escaped? (c : Char) : Option Char :=
  if c == 'b' then some (Char.ofNat 8)
  else if c == 't' then some '\t'
  else if c == 'n' then some '\n'
  else if c == 'f' then some (Char.ofNat 12)
  else if c == 'r' then some '\r'
  else if c == '"' then some '"'
  else if c == '\\' then some '\\'
  else none

/-- A string in double quotes. -/
def basic? : Chars → Read
  | [] => none
  | '"' :: rest => some ([], rest)
  | '\\' :: 'u' :: a :: b :: c :: d :: rest => do
    Read.push (← numbered? [a, b, c, d]) (basic? rest)
  | '\\' :: 'U' :: a :: b :: c :: d :: e :: f :: g :: h :: rest => do
    Read.push (← numbered? [a, b, c, d, e, f, g, h]) (basic? rest)
  | '\\' :: c :: rest => do Read.push (← escaped? c) (basic? rest)
  | c :: rest => if isForbidden c then none else Read.push c (basic? rest)

/-- Up to two more quotes behind the closing ones belong to the string. -/
def lateQuotes (quote : Char) : Chars → List Char × Chars
  | [] => ([], [])
  | c :: rest =>
    if c == quote then
      match rest with
      | [] => ([quote], [])
      | d :: others => if d == quote then ([quote, quote], others) else ([quote], rest)
    else ([], c :: rest)

/-- A string over several lines in single quotes. -/
def literalLines? : Chars → Read
  | [] => none
  | '\'' :: '\'' :: '\'' :: rest => some (lateQuotes '\'' rest)
  | c :: rest => if isForbiddenInLines c then none else Read.push c (literalLines? rest)

/-- What a backslash at the end of a line is still waiting for. -/
inductive Folding
  /-- Nothing. -/
  | none
  /-- The end of the line, before which only blanks may stand. -/
  | toEnd
  /-- The next character that is neither blank nor the end of a line. -/
  | toNext
deriving DecidableEq, Repr

/-- A string over several lines in double quotes. -/
def basicLinesFrom? : Folding → Chars → Read
  | _, [] => Option.none
  | folding, c :: rest =>
    if folding = .toEnd then
      if c == '\n' then basicLinesFrom? .toNext rest
      else if isBlank c then basicLinesFrom? .toEnd rest
      else Option.none
    else if folding = .toNext ∧ (isBlank c ∨ c = '\n') then basicLinesFrom? .toNext rest
    else
      match c, rest with
      | '"', '"' :: '"' :: rest => some (lateQuotes '"' rest)
      | '\\', '\n' :: rest => basicLinesFrom? .toNext rest
      | '\\', ' ' :: rest => basicLinesFrom? .toEnd rest
      | '\\', '\t' :: rest => basicLinesFrom? .toEnd rest
      | '\\', 'u' :: a :: b :: c :: d :: rest => do
        Read.push (← numbered? [a, b, c, d]) (basicLinesFrom? .none rest)
      | '\\', 'U' :: a :: b :: c :: d :: e :: f :: g :: h :: rest => do
        Read.push (← numbered? [a, b, c, d, e, f, g, h]) (basicLinesFrom? .none rest)
      | '\\', c :: rest => do Read.push (← escaped? c) (basicLinesFrom? .none rest)
      | c, rest =>
        if isForbiddenInLines c then Option.none
        else Read.push c (basicLinesFrom? .none rest)

/-- A string over several lines in double quotes. -/
def basicLines? (cs : Chars) : Read :=
  basicLinesFrom? .none cs

/-- What follows an end of line, if there is one right here. -/
def pastFirstEnd : Chars → Chars
  | '\n' :: rest => rest
  | cs => cs

/-- A string of any kind. -/
def string? : Chars → Read
  | '"' :: '"' :: '"' :: rest => basicLines? (pastFirstEnd rest)
  | '"' :: rest => basic? rest
  | '\'' :: '\'' :: '\'' :: rest => literalLines? (pastFirstEnd rest)
  | '\'' :: rest => literal? rest
  | _ => none

end Toml

end RowScope
