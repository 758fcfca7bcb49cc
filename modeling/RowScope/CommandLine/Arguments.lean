import RowScope.CommandLine.Word
import RowScope.Engine.Sql
import RowScope.Path.Basic

/-!
# Command Lines

What a command line asks for. Words are taken from left to right; an option
takes effect where it stands, so that asking for help or for the version ends
everything, whatever follows, while a word too many or too few is complained
about only at the end.

The separator goes with the positional word next to it. Behind it a further
separator is an ordinary word. Only a value that is nothing but a separator, be
it positional or behind the equals sign of an option, has nothing left when the
separator is taken away: it is given, but says nothing.

## Main definitions

* `Arguments`: What a command line asks for.
* `Exit`: A program that ends right after reading its command line.
* `Word.effects?`: What an option word does.
* `Arguments.parse`: The reading.
-/

namespace RowScope

/-- What a command line asks for. -/
structure Arguments where
  database : Text
  /-- What is executed; it is missing if only a separator was given for it. -/
  sql : Sql
  verbose : Bool
  /-- The place of a configuration if one was given; there is none in it if only
  a separator was given for it. -/
  config : Option (Option Text)
  header : Bool
  types : Bool
deriving DecidableEq, Repr

/-- The end of a program: its exit code and what it prints. -/
structure Exit where
  code : Nat
  output : Text
deriving DecidableEq, Repr

namespace Exit

/-- The form of a command line. -/
def usageLine : Text :=
  Text.ofString ("usage: litecolumn [-h] [-v] [--config CONFIG] [--header] [--types] " ++
    "[--version] database sql\n")

/-- The command line cannot be understood. -/
def usage : Exit := ⟨2, []⟩

/-- The version was asked for. -/
def version : Exit := ⟨0, Text.ofString "litecolumn 0.1.0\n"⟩

/-- Help was asked for. -/
def help : Exit := ⟨0, usageLine⟩

end Exit

/-- What has been read of a command line. -/
structure Progress where
  /-- The positional words so far; one may have been taken away as a
  separator. -/
  words : List (Option Text)
  verbose : Bool
  config : Option (Option Text)
  header : Bool
  types : Bool
  /-- There was a word that nothing takes. -/
  excess : Bool

namespace Progress

/-- Nothing has been read. -/
def start : Progress := ⟨[], false, none, false, false, false⟩

/-- How many positional words there are. -/
def wanted : Nat := 2

/-- An option takes effect; some end the program. -/
def apply (p : Progress) (value : Text) : Flag → Except Exit Progress
  | .help => .error Exit.help
  | .version => .error Exit.version
  | .verbose => .ok { p with verbose := true }
  | .header => .ok { p with header := true }
  | .types => .ok { p with types := true }
  | .config =>
    .ok { p with config := some ((Word.said? value).map fun t => (Path.parse t).text) }

/-- Options without a value take effect, in order. -/
def applyAll (p : Progress) : List Flag → Except Exit Progress
  | [] => .ok p
  | f :: rest => do (← p.apply [] f).applyAll rest

/-- A word that nothing takes. -/
def exceeded (p : Progress) : Progress :=
  { p with excess := true }

/-- One more positional word. -/
def taking (p : Progress) (word : Option Text) : Progress :=
  { p with words := p.words ++ [word] }

end Progress

namespace Word

/-- The options that letters behind a single dash stand for, if each of them
stands for one. -/
def cluster? (letters : Text) : Option (List Flag) :=
  letters.mapM fun c => Flag.spelled? [dash, c]

/-- The options that take effect with one that takes no value: several can share
one dash, and nothing else may be attached, not even an empty value. -/
def effects? (f : Flag) (short : Bool) : Option Text → Option (List Flag)
  | none => some [f]
  | some attached =>
    if short && !attached.isEmpty then (cluster? attached).map (f :: ·) else none

/-- The positional word at the head of some words, what it is without its
separator, and the words behind it. -/
def takePositional? : List Word → Option (Option Text × List Word)
  | .separator :: .positional t :: rest => some (some t, rest)
  | .positional t :: .separator :: rest => some (some t, rest)
  | .positional t :: rest => some (said? t, rest)
  | _ => none

/-- Taking a positional word leaves fewer words. -/
theorem length_lt_of_takePositional? {ws rest : List Word} {w : Option Text}
    (h : takePositional? ws = some (w, rest)) : rest.length < ws.length := by
  unfold takePositional? at h
  split at h
  · cases h
    simp only [List.length_cons]
    omega
  · cases h
    simp only [List.length_cons]
    omega
  · cases h
    simp only [List.length_cons]
    omega
  · cases h

end Word

namespace Arguments

/-- Reads the words that are left. -/
def read (p : Progress) (ws : List Word) : Except Exit Progress :=
  match ws with
  | [] => .ok p
  | .unknown :: rest => read p.exceeded rest
  | .option f short attached :: rest =>
    if f.takesValue then
      match attached, rest with
      | some value, rest => do read (← p.apply value f) rest
      | none, .positional value :: rest => do read (← p.apply value f) rest
      | none, _ => .error Exit.usage
    else
      match Word.effects? f short attached with
      | some fs => do read (← p.applyAll fs) rest
      | none => .error Exit.usage
  | w :: rest =>
    if p.words.length < Progress.wanted then
      match h : Word.takePositional? (w :: rest) with
      | some (word, others) =>
        have := Word.length_lt_of_takePositional? h
        read (p.taking word) others
      | none => read p.exceeded rest
    else read p.exceeded rest
termination_by ws.length
decreasing_by
  all_goals simp only [List.length_cons] at *
  all_goals omega

/-- What a command line asks for, or how the program ends. -/
def parse (argv : List Text) : Except Exit Arguments :=
  match Word.classifyAll argv with
  | none => .error Exit.usage
  | some ws => do
    let p ← read Progress.start ws
    match p.excess, p.words with
    | false, [some database, sql] =>
      return ⟨database, Sql.ofText? sql, p.verbose, p.config, p.header, p.types⟩
    | _, _ => throw Exit.usage

end Arguments

end RowScope
