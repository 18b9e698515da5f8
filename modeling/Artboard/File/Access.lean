import Artboard.File.Path
import Artboard.File.Tree

/-!
# Files by path

What a path leads to in a tree.  A path is followed name by name from the root, and everything on the way has
to be a directory; `.` stays where it is and `..` goes back (`FileTree.follow`).  So a path through a file
leads nowhere, and what it leads to need not be there.
-/

namespace Artboard

namespace FileTree

/-! ## 1. Following paths -/

/-- The most bytes in a name. -/
def maxNameBytes : Nat := 255

/-- The text has a null character, which no path can hold. -/
def hasNull (s : String) : Bool := s.toList.contains '\x00'

/-- A name that a file can have. -/
def isName (name : String) : Bool := name.utf8ByteSize ≤ maxNameBytes && !hasNull name

/-- The place that names lead to from a place. -/
def follow (t : FileTree) (here : Place) : List String → Option Place
  | [] => some here
  | name :: rest =>
    match t.at? here with
    | some (directory _) =>
      if name = "." then t.follow here rest
      else if name = ".." then t.follow here.dropLast rest
      else if isName name then t.follow (here ++ [name]) rest
      else none
    | _ => none

/-- The place that a path leads to. -/
def place? (t : FileTree) (path : String) : Option Place := t.follow [] (Path.names path)

/-- The tree that a path leads to. -/
def lookup? (t : FileTree) (path : String) : Option FileTree := (t.place? path).bind t.at?

/-- The path leads to a file. -/
def hasFile (t : FileTree) (path : String) : Bool :=
  match t.lookup? path with
  | some (file _) => true
  | _ => false

/-- The path leads to a directory. -/
def hasDirectory (t : FileTree) (path : String) : Bool :=
  match t.lookup? path with
  | some (directory _) => true
  | _ => false

/-! ## 2. Files -/

/-- The tree with a text written to a file, which is new or is there already. -/
def write? (t : FileTree) (path text : String) : Option FileTree :=
  match t.place? path with
  | none => none
  | some place =>
    match t.at? place with
    | some (directory _) => none
    | _ => some (t.set (file text) place)

/-- The tree without the file that a path leads to. -/
def discard (t : FileTree) (path : String) : FileTree :=
  match t.place? path with
  | some place => if t.hasFile path then t.remove place else t
  | none => t

/-! ## 3. Directories -/

/-- Why there is no directory where one should be made. -/
inductive PathFault where
  /-- a file is in the way, or a name is too long -/
  | blocked
  /-- no path can hold a name -/
  | unnameable
  deriving DecidableEq, Repr

/-- What a file does that names would lead through. -/
def faultBehindFile (rest : List String) : PathFault :=
  if rest.head?.any hasNull then .unnameable else .blocked

/-- The tree with the directories made that names lead through from a place, and why that did not go to the
end, if it did not; those made until then remain. -/
def makeFrom (t : FileTree) (here : Place) : List String → FileTree × Option PathFault
  | [] => (t, none)
  | name :: rest =>
    if name = "." then t.makeFrom here rest
    else if name = ".." then t.makeFrom here.dropLast rest
    else if isName name then
      match t.at? (here ++ [name]) with
      | some (file _) => (t, some (faultBehindFile rest))
      | some (directory _) => t.makeFrom (here ++ [name]) rest
      | none => (t.set (directory []) (here ++ [name])).makeFrom (here ++ [name]) rest
    else (t, some (if hasNull name then .unnameable else .blocked))

/-- The tree with a directory made at a path, and every directory on the way. -/
def makeDirectories (t : FileTree) (path : String) : FileTree × Option PathFault :=
  t.makeFrom [] (Path.names path)

/-- The tree with copies of entries put into the directory that a path leads to, and whether nothing failed.
The entries are those of the directory at a place. -/
def copyTo (t : FileTree) (path : String) (source : Place) (es : List (String × FileTree)) :
    FileTree × Bool :=
  match t.place? path with
  | none => (t, false)
  | some place =>
    match t.at? place with
    | some (directory old) =>
      let (new, ok) := copyInto source place old es
      (t.set (directory new) place, ok)
    | _ => (t, false)

end FileTree

end Artboard
