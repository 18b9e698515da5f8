/-!
# Paths

A path is names with slashes between them, and an absolute one starts with a slash.  Joining looks at the
texts only, so a path keeps its empty names, its `.` and its `..`; what they mean is settled where a path is
followed, except for relative paths between directories (`Path.relative`), which are found by names alone.
-/

namespace Artboard

namespace Path

/-! ## 1. Joining -/

/-- The path starts at the root. -/
def isAbsolute (path : String) : Bool := path.toList.head? == some '/'

/-- The path ends with a slash. -/
def endsInSlash (path : String) : Bool := path.toList.getLast? == some '/'

/-- A path followed by another, which replaces it if it is absolute. -/
def join (dir name : String) : String :=
  if isAbsolute name then name
  else if dir = "" || endsInSlash dir then dir ++ name
  else dir ++ "/" ++ name

/-! ## 2. Names -/

/-- The pieces of a text between slashes; `current` holds the last one, last character first. -/
def splitFrom (current : List Char) : List Char → List String
  | [] => [String.ofList current.reverse]
  | c :: rest =>
    if c == '/' then String.ofList current.reverse :: splitFrom [] rest
    else splitFrom (c :: current) rest

/-- The names of a path, without the empty ones. -/
def names (path : String) : List String := (splitFrom [] path.toList).filter (· != "")

/-- The names from the root with `.` and `..` taken out, one name of `before` for each `..`. -/
def reduce (before : List String) : List String → List String
  | [] => before
  | name :: rest =>
    if name = "." then reduce before rest
    else if name = ".." then reduce before.dropLast rest
    else reduce (before ++ [name]) rest

/-! ## 3. Relative paths -/

/-- Two lists without what they have in common at the start. -/
def dropCommon : List String → List String → List String × List String
  | a :: as, b :: bs => if a = b then dropCommon as bs else (a :: as, b :: bs)
  | as, bs => (as, bs)

/-- The path that leads from one directory to another. -/
def relative (target start : String) : String :=
  let (down, up) := dropCommon (reduce [] (names target)) (reduce [] (names start))
  let steps := up.map (fun _ => "..") ++ down
  if steps.isEmpty then "." else "/".intercalate steps

end Path

end Artboard
