import RowScope.Cell.Projection
import RowScope.Config.Setting
import RowScope.Toml.Scan

/-!
# Numbers

Numbers in a configuration file. An underscore may stand between any two digits.
Whole numbers may be written to base sixteen, eight and two, without a sign; a
decimal number must not start with a zero that is not its only digit before the
point. A number with a fraction or an exponent is a real.

## Main definitions

* `digitRun`: Digits with underscores between them.
* `based?`: A whole number to another base.
* `decimalNumber?`: A decimal number.
* `special?`: Infinity, and what is not a number.
* `number?`: Any number.
-/

namespace RowScope

namespace Toml

/-- Why a file cannot be read. -/
inductive Fault
  /-- It is not written by the rules. -/
  | malformed
  /-- A whole number has more digits than are read at once. -/
  | tooManyDigits
deriving DecidableEq, Repr

/-- The digits that follow a digit, each possibly behind an underscore, and what
follows them. -/
def digitRunFrom (isDigit : Char → Bool) : Chars → List Char × Chars
  | [] => ([], [])
  | c :: rest =>
    if isDigit c then
      let (ds, left) := digitRunFrom isDigit rest
      (c :: ds, left)
    else if c == '_' then
      match rest with
      | [] => ([], c :: rest)
      | d :: others =>
        if isDigit d then
          let (ds, left) := digitRunFrom isDigit others
          (d :: ds, left)
        else ([], c :: rest)
    else ([], c :: rest)

/-- Digits with underscores between them; the first one stands right here. -/
def digitRun (isDigit : Char → Bool) : Chars → List Char × Chars
  | [] => ([], [])
  | c :: rest => if isDigit c then digitRunFrom isDigit (c :: rest) else ([], c :: rest)

/-- The number that a digit stands for. -/
def digitValue (c : Char) : Nat :=
  if c.isDigit then c.toNat - 48
  else if 'a' ≤ c then c.toNat - 87
  else c.toNat - 55

/-- The number that digits write to a base. -/
def valueOf (base : Nat) (ds : List Char) : Nat :=
  ds.foldl (fun n d => n * base + digitValue d) 0

/-- A digit to base sixteen. -/
def isHexDigit (c : Char) : Bool :=
  c.isDigit || ('a' ≤ c && c ≤ 'f') || ('A' ≤ c && c ≤ 'F')

/-- A whole number to another base, which a letter behind a zero announces. -/
def based? : Chars → Option (Setting × Chars)
  | '0' :: mark :: rest =>
    let reading : Option (Nat × (Char → Bool)) :=
      if mark == 'x' then some (16, isHexDigit)
      else if mark == 'o' then some (8, fun c => '0' ≤ c && c ≤ '7')
      else if mark == 'b' then some (2, fun c => c == '0' || c == '1')
      else none
    match reading with
    | none => none
    | some (base, isDigit) =>
      match digitRun isDigit rest with
      | ([], _) => none
      | (ds, left) => some (.integer (valueOf base ds : Nat), left)
  | _ => none

/-- An optional sign, and what follows it; `true` is a minus. -/
def sign : Chars → Bool × Chars
  | '-' :: rest => (true, rest)
  | '+' :: rest => (false, rest)
  | cs => (false, cs)

/-- The digits before the point: a lone zero, or digits that do not start with
one. -/
def wholeDigits (cs : Chars) : List Char × Chars :=
  match cs with
  | '0' :: rest => (['0'], rest)
  | cs => digitRun Char.isDigit cs

/-- The digits of a fraction and what follows; nothing if there is none. -/
def fraction (cs : Chars) : List Char × Chars :=
  match cs with
  | '.' :: rest =>
    match digitRun Char.isDigit rest with
    | ([], _) => ([], cs)
    | (ds, left) => (ds, left)
  | cs => ([], cs)

/-- The exponent and what follows; `none` if there is none. -/
def exponent (cs : Chars) : Option Int × Chars :=
  match cs with
  | c :: rest =>
    if c == 'e' || c == 'E' then
      let (negative, body) := sign rest
      match digitRun Char.isDigit body with
      | ([], _) => (none, cs)
      | (ds, left) =>
        let n : Int := (valueOf 10 ds : Nat)
        (some (if negative then -n else n), left)
    else (none, cs)
  | [] => (none, [])

/-- A decimal number. -/
def decimalNumber? (cs : Chars) : Option (Except Fault Setting × Chars) :=
  let (negative, body) := sign cs
  match wholeDigits body with
  | ([], _) => none
  | (before, rest) =>
    let (after, rest) := fraction rest
    let (power, rest) := exponent rest
    if after.isEmpty && power.isNone then
      let n : Int := (valueOf 10 before : Nat)
      if before.length ≤ digitLimit then some (.ok (.integer (if negative then -n else n)), rest)
      else some (.error .tooManyDigits, rest)
    else
      let x := Binary64.ofDecimal negative (valueOf 10 (before ++ after))
        (power.getD 0 - after.length)
      some (.ok (.real x), rest)

/-- Infinity with any sign, and what is not a number. -/
def special? (cs : Chars) : Option (Setting × Chars) :=
  let (negative, body) := sign cs
  match body with
  | 'i' :: 'n' :: 'f' :: rest => some (.real (Binary64.infinity negative), rest)
  | 'n' :: 'a' :: 'n' :: rest => some (.real Binary64.nan, rest)
  | _ => none

/-- A number of any kind. -/
def number? (cs : Chars) : Option (Except Fault Setting × Chars) :=
  match based? cs with
  | some (s, rest) => some (.ok s, rest)
  | none =>
    match decimalNumber? cs with
    | some r => some r
    | none => (special? cs).map fun p => (.ok p.1, p.2)

end Toml

end RowScope
