import Artboard.Entries

/-!
# File trees

A file with its text, or a directory with its entries by name.  A place is the names from the root of a
tree to one of its entries.  An entry can be set where its directory is there, and removed.
-/

namespace Artboard

/-- A file with its text, or a directory with its entries. -/
inductive FileTree where
  | file (text : String)
  | directory (entries : List (String × FileTree))

/-- The names from the root to an entry. -/
abbrev Place := List String

namespace FileTree

instance : Inhabited FileTree := ⟨directory []⟩

/-! ## 1. Entries by place -/

/-- The tree at a place. -/
def at? (t : FileTree) : Place → Option FileTree
  | [] => some t
  | name :: rest =>
    match t with
    | file _ => none
    | directory es =>
      match Entries.get? es name with
      | some below => below.at? rest
      | none => none

/-- The tree with another one set at a place; nothing changes where the directory is not there. -/
def set (t : FileTree) (new : FileTree) : Place → FileTree
  | [] => new
  | name :: rest =>
    match t with
    | file s => file s
    | directory es =>
      match Entries.get? es name, rest with
      | some below, rest => directory (Entries.put es name (below.set new rest))
      | none, [] => directory (Entries.put es name new)
      | none, _ :: _ => directory es

/-- The tree without the entry at a place. -/
def remove (t : FileTree) : Place → FileTree
  | [] => t
  | name :: rest =>
    match t with
    | file s => file s
    | directory es =>
      match rest with
      | [] => directory (Entries.erase es name)
      | _ :: _ =>
        match Entries.get? es name with
        | some below => directory (Entries.put es name (below.remove rest))
        | none => directory es

/-- The entries of a directory, none of a file. -/
def entries : FileTree → List (String × FileTree)
  | file _ => []
  | directory es => es

/-! ## 2. Listings -/

mutual

/-- The paths of all entries below a path, with the texts of files; directories end in a slash. -/
def listing (path : String) : FileTree → List (String × Option String)
  | file s => [(path, some s)]
  | directory es => (path ++ "/", none) :: listingOf (path ++ "/") es

/-- The paths of all entries among some, after the path of their directory. -/
def listingOf (path : String) : List (String × FileTree) → List (String × Option String)
  | [] => []
  | (name, t) :: rest => listing (path ++ name) t ++ listingOf path rest

end

/-- The paths of all entries of a directory, ascending. -/
def contents (t : FileTree) : List (String × Option String) :=
  (listingOf "" t.entries).mergeSort fun a b => !decide (b.1 < a.1)

/-! ## 3. Copies -/

mutual

/-- What a copy of a tree from one place leaves at another, where something may be already, and whether
nothing of it failed.  Directories are merged; a file goes into a directory of its name, under that name
again.  No file is copied onto itself. -/
def copyOnto (source target : Place) (name : String) (old : Option FileTree) :
    FileTree → Option FileTree × Bool
  | file s =>
    match old with
    | some (directory es) =>
      match Entries.get? es name with
      | some (directory _) => (old, false)
      | _ =>
        if source = target ++ [name] then (old, false)
        else (some (directory (Entries.put es name (file s))), true)
    | _ => if source = target then (old, false) else (some (file s), true)
  | directory more =>
    match old with
    | some (file _) => (old, false)
    | some (directory es) =>
      let (es, ok) := copyInto source target es more
      (some (directory es), ok)
    | none =>
      let (es, ok) := copyInto source target [] more
      (some (directory es), ok)

/-- Entries of one directory with copies of those of another put among them, and whether nothing failed; an
entry that fails does not keep the others from being copied. -/
def copyInto (source target : Place) (es : List (String × FileTree)) :
    List (String × FileTree) → List (String × FileTree) × Bool
  | [] => (es, true)
  | (name, t) :: rest =>
    let (new, ok) := copyOnto (source ++ [name]) (target ++ [name]) name (Entries.get? es name) t
    let es := match new with
      | some new => Entries.put es name new
      | none => es
    let (es, others) := copyInto source target es rest
    (es, ok && others)

end

end FileTree

end Artboard
