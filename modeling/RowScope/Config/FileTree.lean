import RowScope.Config.Load
import RowScope.Path.Basic
import RowScope.Text.Codec

/-!
# File Trees

A file system as far as it matters for finding one file: its files and its
directories, each by the names that lead to it from the root. A path is followed
name by name, and only a directory can be passed through. Two dots lead back up
from wherever one has got to; the root lies above itself.

Names and paths have a greatest length, counted in bytes. A path that is too
long is not followed at all, while a name that is too long is noticed only when
it is looked up.

## Main definitions

* `FileTree`: Files and directories.
* `FileTree.entry`: What is at a place.
* `FileTree.follow`: What names lead to.
* `FileTree.find`: What a path leads to.
-/

namespace RowScope

/-- Files and directories by the names that lead to them from the root. -/
structure FileTree where
  files : List (List Text × Bytes)
  directories : List (List Text)
  /-- Where relative paths start. -/
  here : List Text

namespace FileTree

/-- The most bytes that a name has. -/
def nameLimit : Nat := 255

/-- The most bytes that a path has. -/
def pathLimit : Nat := 4095

/-- The length of a text in bytes. -/
def byteLength (t : Text) : Nat := ((Text.encode t).getD []).length

/-- What is at a place. -/
def entry (tree : FileTree) (place : List Text) : ConfigFile :=
  match tree.files.find? (·.1 == place) with
  | some (_, bytes) => .content bytes
  | none => if tree.directories.contains place then .directory else .missing

/-- What names lead to from a directory. -/
def follow (tree : FileTree) : List Text → List Text → ConfigFile
  | _, [] => .directory
  | place, name :: rest =>
    if name = Path.dots then tree.follow place.dropLast rest
    else if nameLimit < byteLength name then .nameTooLong
    else
      match tree.entry (place ++ [name]) with
      | .directory => tree.follow (place ++ [name]) rest
      | .content bytes => if rest.isEmpty then .content bytes else .blocked
      | found => found

/-- What a path leads to. -/
def find (tree : FileTree) (path : Text) : ConfigFile :=
  if pathLimit < byteLength path then .nameTooLong
  else
    let path := Path.parse path
    tree.follow (if path.start = .here then tree.here else []) path.names

end FileTree

end RowScope
