import RowScope.Text.Basic

/-!
# Dates and Times

Points in time as a configuration can hold them: a day, a time of day, or both,
the latter possibly with its distance from universal time. A moment has a plain
form, which is the one that goes into an SQL statement, and a detailed form,
which is used inside a list or a table.

## Main definitions

* `Day`, `Clock`: A day of the calendar and a time of day.
* `Moment`: One of them, or both.
* `Day.isReal`: The calendar has the day.
* `Moment.plain`: The plain form.
* `Moment.detailed`: The detailed form.
-/

namespace RowScope

/-- A day. -/
structure Day where
  year : Nat
  month : Nat
  day : Nat
deriving DecidableEq, Repr

/-- A time of day, as fine as a millionth of a second. -/
structure Clock where
  hour : Nat
  minute : Nat
  second : Nat
  micro : Nat
deriving DecidableEq, Repr

/-- A point in time. -/
inductive Moment
  | day (d : Day)
  | clock (c : Clock)
  /-- A day and a time, with the minutes that the time is ahead of universal
  time if they are known. -/
  | full (d : Day) (c : Clock) (ahead : Option Int)
deriving DecidableEq, Repr

/-- A number filled up with zeros to a width. -/
def padded (width n : Nat) : List Char :=
  let digits := Nat.toDigits 10 n
  List.replicate (width - digits.length) '0' ++ digits

namespace Day

/-- Every fourth year is a leap year, but of the full centuries only every
fourth. -/
def isLeap (year : Nat) : Bool :=
  year % 4 == 0 && (year % 100 != 0 || year % 400 == 0)

/-- How many days a month has. -/
def monthLength (year month : Nat) : Nat :=
  if month == 2 then if isLeap year then 29 else 28
  else if month == 4 || month == 6 || month == 9 || month == 11 then 30
  else 31

/-- The calendar has this day; it starts with the year 1. -/
def isReal (d : Day) : Bool :=
  1 ≤ d.year && 1 ≤ d.month && d.month ≤ 12 && 1 ≤ d.day && d.day ≤ monthLength d.year d.month

/-- Year, month and day. -/
def plain (d : Day) : List Char :=
  padded 4 d.year ++ '-' :: padded 2 d.month ++ '-' :: padded 2 d.day

end Day

namespace Clock

/-- Hours, minutes and seconds, and the fraction of a second if there is one. -/
def plain (c : Clock) : List Char :=
  padded 2 c.hour ++ ':' :: padded 2 c.minute ++ ':' :: padded 2 c.second ++
    (if c.micro = 0 then [] else '.' :: padded 6 c.micro)

end Clock

namespace Moment

/-- A distance from universal time, as hours and minutes with a sign. -/
def aheadText (minutes : Int) : List Char :=
  (if minutes < 0 then '-' else '+') ::
    (padded 2 (minutes.natAbs / 60) ++ ':' :: padded 2 (minutes.natAbs % 60))

/-- The plain form. -/
def plain : Moment → Text
  | day d => Text.ofChars d.plain
  | clock c => Text.ofChars c.plain
  | full d c ahead =>
    Text.ofChars (d.plain ++ ' ' :: c.plain ++ (ahead.map aheadText).getD [])

/-- Numbers with commas between them. -/
def listing (ns : List Nat) : String :=
  String.intercalate ", " (ns.map toString)

/-- The parts of a time of day; seconds are left out if they are zero, and so
are fractions. -/
def clockParts (c : Clock) : List Nat :=
  [c.hour, c.minute] ++
    (if c.micro ≠ 0 then [c.second, c.micro] else if c.second ≠ 0 then [c.second] else [])

/-- A distance from universal time in the detailed form: days and seconds, the
seconds never negative. -/
def aheadDetailed (minutes : Int) : String :=
  if minutes = 0 then "datetime.timezone.utc"
  else if minutes < 0 then
    "datetime.timezone(datetime.timedelta(days=-1, seconds=" ++
      toString (86400 - minutes.natAbs * 60) ++ "))"
  else
    "datetime.timezone(datetime.timedelta(seconds=" ++ toString (minutes.natAbs * 60) ++ "))"

/-- The detailed form. -/
def detailed : Moment → Text
  | day d => Text.ofString ("datetime.date(" ++ listing [d.year, d.month, d.day] ++ ")")
  | clock c => Text.ofString ("datetime.time(" ++ listing (clockParts c) ++ ")")
  | full d c ahead =>
    let zone := match ahead with
      | some minutes => ", tzinfo=" ++ aheadDetailed minutes
      | none => ""
    Text.ofString ("datetime.datetime(" ++
      listing ([d.year, d.month, d.day] ++ clockParts c) ++ zone ++ ")")

end Moment

end RowScope
