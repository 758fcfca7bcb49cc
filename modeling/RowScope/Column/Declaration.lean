import RowScope.Column.Record

/-!
# Record Declarations

Not every list of fields declares a record. The name of a field is an
identifier, a word that is not reserved, and the name of no other field.

There are two kinds of records. A plain record keeps its defaults for all its
values to come, so no default may be one that can be changed; and a parameter by
position that has to be given cannot come after one that need not. A tuple of
named values has a name that is an identifier itself, its fields are not hidden
by a leading underscore, and however many defaults are declared, they belong to
the last fields.

## Main definitions

* `DeclarationFault`: Why fields declare no record.
* `Field.nameFault?`: The first fault in the names of fields.
* `Field.plainFault?`: Why fields declare no plain record.
* `Field.tupleFault?`: Why a name and fields declare no tuple of named values.
* `Field.withLastDefaults`: Fields with their defaults moved to the end.
-/

namespace RowScope

/-- Why fields declare no record. -/
inductive DeclarationFault
  /-- A name is no identifier. -/
  | notIdentifier
  /-- A name is a reserved word. -/
  | reserved
  /-- Two fields have one name. -/
  | repeated
  /-- A name starts with an underscore. -/
  | hidden
  /-- A default can be changed. -/
  | changeable
  /-- A parameter without a default comes after one with a default. -/
  | order
deriving DecidableEq, Repr

namespace Field

/-- Blocks of code points beyond ASCII that hold letters. -/
def letterBlocks : List (Nat × Nat) :=
  [(0xAA, 0xAA), (0xB5, 0xB5), (0xBA, 0xBA), (0xC0, 0xD6), (0xD8, 0xF6), (0xF8, 0x2C1),
    (0x370, 0x1FFF), (0x2C00, 0x2DFF), (0x3005, 0x3006), (0x3041, 0x318E), (0x3400, 0xA48C),
    (0xA4D0, 0xD7FB), (0xF900, 0xFDFF), (0xFE70, 0xFEFC), (0xFF21, 0xFFDC), (0x10000, 0x1CFFF),
    (0x1E000, 0x1EEFF), (0x20000, 0x3FFFF)]

/-- A letter or an underscore. -/
def startsName (c : CodePoint) : Bool :=
  (65 ≤ c.val && c.val ≤ 90) || (97 ≤ c.val && c.val ≤ 122) || c.val == 95 ||
    letterBlocks.any fun block => block.1 ≤ c.val && c.val ≤ block.2

/-- A code point that can stand behind the first one of a name. -/
def continuesName (c : CodePoint) : Bool :=
  startsName c || c.isDigit

/-- A letter or an underscore, and further ones or digits behind it. -/
def isIdentifier : Text → Bool
  | [] => false
  | c :: rest => startsName c && rest.all continuesName

/-- Words that name no field. -/
def reservedWords : List String :=
  ["False", "None", "True", "and", "as", "assert", "async", "await", "break", "class", "continue",
    "def", "del", "elif", "else", "except", "finally", "for", "from", "global", "if", "import",
    "in", "is", "lambda", "nonlocal", "not", "or", "pass", "raise", "return", "try", "while",
    "with", "yield"]

/-- A word that names no field. -/
def isReserved (name : Text) : Bool :=
  reservedWords.any (Text.ofString · == name)

/-- Why a name is no name of a field, given the names before it. -/
def nameFault? (seen : List Text) (name : Text) : Option DeclarationFault :=
  if !isIdentifier name then some .notIdentifier
  else if isReserved name then some .reserved
  else if seen.contains name then some .repeated
  else none

/-- The first fault in a list of names. -/
def namesFault? (seen : List Text) : List Text → Option DeclarationFault
  | [] => none
  | name :: rest =>
    match nameFault? seen name with
    | some f => some f
    | none => namesFault? (name :: seen) rest

/-- A default that can be changed. -/
def isChangeable : Value → Bool
  | .foreign typeName => ["list", "dict", "set", "bytearray"].contains typeName
  | _ => false

/-- A parameter by position that has to be given comes after one that need not;
`optional` says whether there was one of these before. -/
def isMisordered (optional : Bool) : List Field → Bool
  | [] => false
  | f :: rest =>
    if !f.isPositional then isMisordered optional rest
    else if f.default.isSome then isMisordered true rest
    else optional || isMisordered optional rest

/-- Why fields declare no plain record. -/
def plainFault? (fs : List Field) : Option DeclarationFault :=
  match namesFault? [] (fs.map name) with
  | some f => some f
  | none =>
    if fs.any fun f => f.default.any isChangeable then some .changeable
    else if isMisordered false fs then some .order
    else none

/-- Why a name and fields declare no tuple of named values. -/
def tupleFault? (typeName : Text) (fs : List Field) : Option DeclarationFault :=
  match (nameFault? [] typeName).or (namesFault? [] (fs.map name)) with
  | some f => some f
  | none =>
    if fs.any fun f => f.name.head? == some (CodePoint.ofChar '_') then some .hidden else none

/-- The fields with their defaults moved to the last ones, in order. -/
def withLastDefaults (fs : List Field) : List Field :=
  let defaults := fs.filterMap default
  let required := fs.length - defaults.length
  (fs.zip (List.replicate required none ++ defaults.map some)).map fun p =>
    { p.1 with default := p.2 }

end Field

end RowScope
