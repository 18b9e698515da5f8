import Artboard.File.Access

/-!
# Provisioning a project

A project is there when its package file is.  Where it is not, it is made of a tree of templates, and the
directory of components with it.  What was made before a failure remains.
-/

namespace Artboard

/-- Where a project is, what it is made of, and where its components go, below it. -/
structure ProjectPlan where
  project : String
  templates : String
  components : String

/-- Why a project is not made. -/
inductive ProvisionFault where
  /-- there is no directory of templates at the path -/
  | noTemplates (path : String)
  /-- a directory or a file could not be made -/
  | notMade (path : String)
  /-- no path can hold a name -/
  | unnameable
  deriving DecidableEq, Repr

/-- What is said about a project that is not made. -/
def ProvisionFault.message : ProvisionFault → String
  | noTemplates path => "Template directory not found: " ++ path
  | notMade path => "Could not create React app at " ++ path
  | unnameable => ""

namespace ProjectPlan

/-- The package file of a project. -/
def packageFile (project : String) : String := Path.join project "package.json"

/-- The project is there. -/
def isMade (project : String) (t : FileTree) : Bool := t.hasFile (packageFile project)

/-- The directory of the components. -/
def componentsPath (plan : ProjectPlan) : String := Path.join plan.project plan.components

/-- Why the project is not made where a directory of it is not. -/
def faultOf (plan : ProjectPlan) : FileTree.PathFault → ProvisionFault
  | .blocked => .notMade plan.project
  | .unnameable => .unnameable

/-- The templates copied to the project, as they are before its directory is made.  So they are copied where neither
directory is inside the other, or both are one; a copy that comes to read what it has written, as it may among the
templates, is not described. -/
def copyTemplates (plan : ProjectPlan) (t : FileTree) : FileTree × Option FileTree.PathFault :=
  let source := (t.place? plan.templates).getD []
  let templates := ((t.at? source).map FileTree.entries).getD []
  match t.makeDirectories plan.project with
  | (made, some f) => (made, some f)
  | (made, none) =>
    let (copied, ok) := made.copyTo plan.project source templates
    (copied, if ok then none else some .blocked)

/-- The project made, if it is not there, and whether it was. -/
def provision (plan : ProjectPlan) (t : FileTree) : Except ProvisionFault Bool × FileTree :=
  if isMade plan.project t then (.ok false, t)
  else if !t.hasDirectory plan.templates then (.error (.noTemplates plan.templates), t)
  else
    match plan.copyTemplates t with
    | (copied, some f) => (.error (plan.faultOf f), copied)
    | (copied, none) =>
      match copied.makeDirectories plan.componentsPath with
      | (made, some f) => (.error (plan.faultOf f), made)
      | (made, none) => (.ok true, made)

end ProjectPlan

end Artboard
