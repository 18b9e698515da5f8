import Artboard.Component
import Artboard.Project.Provision

/-!
# Writing components to a project

A component is written as two files, and then the application is made to show it.  Where a file cannot be
written, those written until then are taken back, so that no component remains that the application does not
show.  Where a file cannot hold its text, writing only stops.
-/

namespace Artboard

/-- Why a component is not written. -/
inductive WriteFault where
  /-- a file could not be written; the name is that of the component and the path that of its code -/
  | notWritten (name path : String)
  /-- no path can hold a name -/
  | unnameable
  /-- no file can hold a text of the component -/
  | unencodable
  deriving DecidableEq, Repr

/-- What is said about a component that is not written, with the reason if one is known. -/
def writeFaultMessage (name path reason : String) : String :=
  let said := "Could not write component '" ++ name ++ "' to " ++ path
  if reason = "" then said else said ++ ": " ++ reason

namespace ProjectPlan

/-- The directory of the sources of a project. -/
def sourcePath (plan : ProjectPlan) : String := Path.join plan.project "src"

/-- The file of a component's code. -/
def codePath (plan : ProjectPlan) (name : String) : String :=
  Path.join plan.componentsPath (Component.codeFile name)

/-- The file of a component's stylesheet. -/
def stylesheetPath (plan : ProjectPlan) (name : String) : String :=
  Path.join plan.componentsPath (Component.stylesheetFile name)

/-- Where the application imports components from: a path that starts with a dot. -/
def importPath (plan : ProjectPlan) : String :=
  let path := Path.relative plan.componentsPath plan.sourcePath
  if path.toList.head? == some '.' then path else "./" ++ path

/-- The file of the application: an older one with a shorter name, if it is there. -/
def appPath (plan : ProjectPlan) (t : FileTree) : String :=
  let older := Path.join plan.sourcePath "App.js"
  if t.hasFile older then older else Path.join plan.sourcePath "App.jsx"

/-- The files written so far taken back. -/
def takeBack (written : List String) (t : FileTree) : FileTree := written.foldl FileTree.discard t

/-- Where writing stops, with the tree until then. -/
inductive WriteStop where
  /-- a file could not be written, after those at the paths -/
  | refused (t : FileTree) (written : List String)
  /-- a file was made, but it cannot hold its text -/
  | unencodable (t : FileTree)

/-- A text written to a file, after those at some paths, where `isLone` tells the characters that no file can
hold. -/
def writeText (isLone : Char → Bool) (written : List String) (path text : String) (t : FileTree) :
    Except WriteStop FileTree :=
  if text.toList.any isLone then
    match t.write? path "" with
    | none => .error (.refused t written)
    | some made => .error (.unencodable made)
  else
    match t.write? path text with
    | none => .error (.refused t written)
    | some t => .ok t

/-- The two files of a component and the application written in order. -/
def writeFiles (plan : ProjectPlan) (isLone : Char → Bool) (c : Component) (t : FileTree) :
    Except WriteStop FileTree := do
  let code := plan.codePath c.name
  let sheet := plan.stylesheetPath c.name
  let t ← writeText isLone [] code c.code t
  let t ← writeText isLone [code] sheet c.stylesheet t
  writeText isLone [code, sheet] (plan.appPath t) (Component.appEntry c.name plan.importPath) t

/-- A component written to a project, with the path of its code. -/
def writeComponent (plan : ProjectPlan) (isLone : Char → Bool) (c : Component) (t : FileTree) :
    Except WriteFault String × FileTree :=
  let path := plan.codePath c.name
  match t.makeDirectories plan.componentsPath with
  | (made, some .blocked) => (.error (.notWritten c.name path), made)
  | (made, some .unnameable) => (.error .unnameable, made)
  | (made, none) =>
    if FileTree.hasNull c.name then (.error .unnameable, made)
    else
      match plan.writeFiles isLone c made with
      | .ok t => (.ok path, t)
      | .error (.refused t written) => (.error (.notWritten c.name path), takeBack written t)
      | .error (.unencodable t) => (.error .unencodable, t)

end ProjectPlan

end Artboard
