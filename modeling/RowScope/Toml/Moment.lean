import RowScope.Config.Moment
import RowScope.Toml.Scan

/-!
# Dates and Times in Files

How a day, a time of day and a moment are written in a configuration file.
Between the day and the time of a moment stands a blank or a letter, and a
distance from universal time may follow. A fraction of a second counts as far as
the sixth digit.

A day that is well written but missing from the calendar is an error, and not
something else.

## Main definitions

* `day?`, `clock?`, `ahead?`: The parts.
* `moment?`: Any date or time.
-/

namespace RowScope

namespace Toml

/-- A number of exactly two digits up to a limit. -/
def twoDigits? (limit : Nat) : Chars → Option (Nat × Chars)
  | a :: b :: rest =>
    if a.isDigit && b.isDigit then
      let n := (a.toNat - 48) * 10 + (b.toNat - 48)
      if n ≤ limit then some (n, rest) else none
    else none
  | _ => none

/-- A number of exactly four digits. -/
def fourDigits? (cs : Chars) : Option (Nat × Chars) := do
  let (a, cs) ← twoDigits? 99 cs
  let (b, cs) ← twoDigits? 99 cs
  return (a * 100 + b, cs)

/-- A day by year, month and number. -/
def day? (cs : Chars) : Option (Day × Chars) := do
  let (year, cs) ← fourDigits? cs
  let (month, cs) ← twoDigits? 12 (← after? ['-'] cs)
  let (day, cs) ← twoDigits? 31 (← after? ['-'] cs)
  if month = 0 ∨ day = 0 then none
  else return (⟨year, month, day⟩, cs)

/-- The millionths that the digits of a fraction write. -/
def micros (ds : List Char) : Nat :=
  let six := ds.take 6
  six.foldl (fun n d => n * 10 + (d.toNat - 48)) 0 * Nat.pow 10 (6 - six.length)

/-- A fraction of a second in millionths, zero if there is none. -/
def secondFraction (cs : Chars) : Nat × Chars :=
  match cs with
  | '.' :: rest =>
    match rest.takeWhile Char.isDigit with
    | [] => (0, cs)
    | ds => (micros ds, rest.dropWhile Char.isDigit)
  | cs => (0, cs)

/-- A time of day. -/
def clock? (cs : Chars) : Option (Clock × Chars) := do
  let (hour, cs) ← twoDigits? 23 cs
  let (minute, cs) ← twoDigits? 59 (← after? [':'] cs)
  let (second, cs) ← twoDigits? 59 (← after? [':'] cs)
  let (micro, cs) := secondFraction cs
  return (⟨hour, minute, second, micro⟩, cs)

/-- How many minutes a time is ahead of universal time. -/
def ahead? : Chars → Option (Int × Chars)
  | c :: rest =>
    if c == 'Z' || c == 'z' then some (0, rest)
    else if c == '+' || c == '-' then do
      let (hours, cs) ← twoDigits? 23 rest
      let (minutes, cs) ← twoDigits? 59 (← after? [':'] cs)
      let n : Int := (hours * 60 + minutes : Nat)
      return (if c == '-' then -n else n, cs)
    else none
  | [] => none

/-- The time that follows a day, if one does. -/
def dayTime? : Chars → Option (Clock × Option Int × Chars)
  | c :: rest =>
    if c == 'T' || c == 't' || c == ' ' then do
      let (clock, cs) ← clock? rest
      match ahead? cs with
      | some (minutes, cs) => return (clock, some minutes, cs)
      | none => return (clock, none, cs)
    else none
  | [] => none

/-- A date or time. The inner option is empty for a day that the calendar does
not have. -/
def moment? (cs : Chars) : Option (Option (Moment × Chars)) :=
  match day? cs with
  | some (d, rest) =>
    if d.isReal then
      match dayTime? rest with
      | some (c, ahead, rest) => some (some (.full d c ahead, rest))
      | none => some (some (.day d, rest))
    else some none
  | none => (clock? cs).map fun p => some (.clock p.1, p.2)

end Toml

end RowScope
