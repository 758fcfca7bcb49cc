import RowScope.Number.Literal

/-!
# Words of a Command Line

Every word of a command line is an option, a positional word, or the separator
behind which everything is positional. A long option may be abbreviated as long
as only one option fits. Something may stand behind an option in the same word:
behind an equals sign, which then is no part of it, or, if the option has one
dash only, right behind its letter. A word that looks like an option but is a
negative number or has a blank in it counts as positional.

## Main definitions

* `Flag`: The options.
* `Word`: A word by what it is.
* `Word.classify`: What a word before the separator is.
* `Word.classifyAll`: What the words of a command line are.
-/

namespace RowScope

/-- The options of the program. -/
inductive Flag
  | help
  | verbose
  | config
  | header
  | types
  | version
deriving DecidableEq, Repr

namespace Flag

/-- The spellings of the options, in the order in which they are listed. -/
def spellings : List (String × Flag) :=
  [("-h", help), ("--help", help), ("-v", verbose), ("--verbose", verbose), ("--config", config),
    ("--header", header), ("--types", types), ("--version", version)]

/-- The option of a spelling. -/
def spelled? (t : Text) : Option Flag :=
  (spellings.find? fun p => Text.ofString p.1 == t).map (·.2)

/-- The options that a spelling can be an abbreviation of. -/
def abbreviated (t : Text) : List Flag :=
  (spellings.filter fun p => t.isPrefixOf (Text.ofString p.1)).map (·.2)

/-- Only the path of a configuration is given as a value. -/
def takesValue (f : Flag) : Bool := f == config

end Flag

/-- A word by what it is. -/
inductive Word
  | positional (t : Text)
  /-- The word behind which everything is positional. -/
  | separator
  /-- An option, whether it has one dash only, and what stands in the same word
  behind it, without an equals sign in between. -/
  | option (f : Flag) (short : Bool) (attached : Option Text)
  /-- A word that looks like an option but is none. -/
  | unknown
deriving DecidableEq, Repr

namespace Word

/-- The dash. -/
def dash : CodePoint := CodePoint.ofChar '-'

/-- A word as a value. A word that is nothing but a separator says nothing. -/
def said? (t : Text) : Option Text :=
  if t = [dash, dash] then none else some t

/-- What stands before the first equals sign and what stands behind it, if there
is one. -/
def splitValue (t : Text) : Text × Option Text :=
  let sign := CodePoint.ofChar '='
  match t.dropWhile (· != sign) with
  | [] => (t, none)
  | _ :: value => (t.takeWhile (· != sign), some value)

/-- A decimal digit of any script. -/
def isDigit (c : CodePoint) : Bool :=
  (Literal.toAscii c).isDigit

/-- Digits only, and at least one; a line feed may end them. -/
def isDigits (t : Text) : Bool :=
  let rest := t.dropWhile isDigit
  t.length > rest.length && (rest.isEmpty || rest == [CodePoint.ofChar '\n'])

/-- A negative number without exponent. -/
def isNegativeNumber : Text → Bool
  | [] => false
  | _ :: body =>
    isDigits body ||
      (match body.dropWhile isDigit with
        | [] => false
        | c :: rest => c == CodePoint.ofChar '.' && isDigits rest)

/-- A word that starts with one dash only. -/
def isShort (t : Text) : Bool :=
  match t with
  | _ :: c :: _ => c != dash
  | _ => false

/-- The options that a word which is not spelled out can stand for, with what
stands behind. -/
def candidates (t : Text) : List Word :=
  if isShort t then
    match Flag.spelled? (t.take 2) with
    | some f => [option f true (some (t.drop 2))]
    | none => []
  else
    let (name, value) := splitValue t
    (Flag.abbreviated name).map fun f => option f false value

/-- What a word is that is spelled like an option, as a whole or up to its first
equals sign. -/
def spelled? (t : Text) : Option Word :=
  match Flag.spelled? t with
  | some f => some (option f (isShort t) none)
  | none =>
    match splitValue t with
    | (name, some value) => (Flag.spelled? name).map fun f => option f (isShort t) (some value)
    | (_, none) => none

/-- What a word before the separator is; `none` if it is an abbreviation of more
than one option. -/
def classify (t : Text) : Option Word :=
  match t with
  | [] => some (positional t)
  | [_] => some (positional t)
  | c :: _ =>
    if c != dash then some (positional t)
    else
      match spelled? t with
      | some w => some w
      | none =>
        match candidates t with
        | [w] => some w
        | _ :: _ :: _ => none
        | [] =>
          if isNegativeNumber t || t.contains (CodePoint.ofChar ' ') then some (positional t)
          else some unknown

/-- What the words of a command line are; `none` if one of them is ambiguous. -/
def classifyAll : List Text → Option (List Word)
  | [] => some []
  | t :: rest =>
    if t = [dash, dash] then some (separator :: rest.map positional)
    else do
      let w ← classify t
      let ws ← classifyAll rest
      return w :: ws

end Word

end RowScope
