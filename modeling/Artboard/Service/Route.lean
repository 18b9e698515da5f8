import Artboard.Component
import Artboard.Project.Output
import Artboard.Service.Message
import Artboard.Text.Case

/-!
# The service

Two routes say that the service is there, one compiles a component, and one writes it to the project as well.
Compiling comes first, so that a request that does not compile changes no file (`Service.generate`).  A path
leads to a route also with slashes behind it, and an answer to a `HEAD` holds nothing.
-/

namespace Artboard

namespace Service

/-! ## 1. Routes -/

/-- What a request asks for. -/
inductive Route where
  | greeting
  | health
  | compile
  | generate
  deriving DecidableEq, Repr

/-- The route with just this path. -/
def Route.named? : String → Option Route
  | "/" => some greeting
  | "/health" => some health
  | "/compile" => some compile
  | "/generate-component" | "/api/generate" => some generate
  | _ => none

/-- The characters without a line end behind them. -/
def withoutLineEnd (path : List Char) : List Char :=
  if path.getLast? == some '\n' then path.dropLast else path

/-- The characters without the slashes behind them. -/
def withoutSlashes (path : List Char) : List Char := (path.reverse.dropWhile (· == '/')).reverse

/-- The route of a path, which may have a line end behind it, and slashes behind that. -/
def Route.ofPath? (path : String) : Option Route :=
  let plain (chars : List Char) := Route.named? (String.ofList (withoutLineEnd chars))
  (plain path.toList).or (plain (withoutSlashes path.toList))

/-- The one method of a route. -/
def Route.method : Route → String
  | greeting | health => "GET"
  | compile | generate => "POST"

/-! ## 2. State -/

/-- What the service is set up with. -/
structure Setup where
  plan : ProjectPlan
  world : FontWorld

/-- What requests change. -/
structure State where
  files : FileTree
  fonts : FontSession

/-! ## 3. Compiling -/

/-- The answer to a forest that does not compile: its sender is told what is wrong with the forest, and
nothing else. -/
def faultResponse (f : Fault) : Response :=
  if f.isInvalidTree then .detail 400 (.text f.message) else .internal

/-- The component of a body, with the fonts looked up. -/
def build (setup : Setup) (body : Body) : StateM State (Except Response Component) := do
  match body.nodes with
  | .error r => return .error r
  | .ok nodes =>
    let s ← get
    let (outcome, fonts) := (Component.build setup.world (.list nodes)).run s.fonts
    set { s with fonts := fonts }
    return outcome.mapError faultResponse

/-- The answer that holds a component. -/
def componentResponse (c : Component) : Response :=
  ⟨200, .json (.object [("name", .text c.name), ("component", .text c.code),
    ("stylesheet", .text c.stylesheet)])⟩

/-- The answer to a request for a component. -/
def compile (setup : Setup) (body : Body) : StateM State Response := do
  match ← build setup body with
  | .ok c => return componentResponse c
  | .error r => return r

/-! ## 4. Generating -/

/-- The answer where there is no project to write to. -/
def provisionResponse : ProvisionFault → Response
  | .unnameable => .internal
  | f => .detail 503 (.object [("error", .text "provisioning_failed"), ("message", .text f.message)])

/-- The answer where a component could not be written. -/
def writeResponse : WriteFault → Response
  | .notWritten name path =>
    .detail 500 (.object [("error", .text "write_failed"), ("componentName", .text name),
      ("message", .text (writeFaultMessage name path ""))])
  | .unnameable | .unencodable => .internal

/-- The answer to a component that is written, with the path of its code. -/
def writtenResponse (plan : ProjectPlan) (name path : String) : Response :=
  ⟨200, .json (.object [("success", .bool true),
    ("message", .text ("Component " ++ name ++ " generated successfully! Run 'npm run dev' in " ++
      plan.project ++ ".")),
    ("componentName", .text name), ("componentPath", .text path)])⟩

/-- A component written to the project, which is made first where it is not there. -/
def putComponent (plan : ProjectPlan) (isLone : Char → Bool) (c : Component) (files : FileTree) :
    Response × FileTree :=
  match plan.provision files with
  | (.error f, files) => (provisionResponse f, files)
  | (.ok _, files) =>
    match plan.writeComponent isLone c files with
    | (.error f, files) => (writeResponse f, files)
    | (.ok path, files) => (writtenResponse plan c.name path, files)

/-- The answer to a request for a component in the project. -/
def generate (setup : Setup) (body : Body) : StateM State Response := do
  match ← build setup body with
  | .error r => return r
  | .ok c =>
    let s ← get
    let (response, files) := putComponent setup.plan body.isLone c s.files
    set { s with files := files }
    return response

/-! ## 5. Requests -/

/-- The answer to a request that is answered by its body. -/
def respondTo (body : Option String) (answer : Body → StateM State Response) : StateM State Response := do
  match Body.read body with
  | .error r => return r
  | .ok b => return (← answer b).sent b.isLone

/-- The answer to a request on a route. -/
def respond (setup : Setup) (body : Option String) : Route → StateM State Response
  | .greeting => return ⟨200, .json (.object [("message", .text "Figma component compiler running")])⟩
  | .health =>
    return ⟨200, .json (.object [("status", .text "ok"),
      ("message", .text "Component compiler is running")])⟩
  | .compile => respondTo body (compile setup)
  | .generate => respondTo body (generate setup)

/-- The answer to a request with a method in capitals. -/
def answer (setup : Setup) (method path : String) (body : Option String) : StateM State Response :=
  match Route.ofPath? path with
  | none => return .detail 404 (.text "Not Found")
  | some route =>
    if method = route.method then respond setup body route
    else return .detail 405 (.text "Method Not Allowed")

/-- The answer to a request; the method may be in any letters. -/
def handle (setup : Setup) (method path : String) (body : Option String) : StateM State Response := do
  let method := Text.upper method
  let r ← answer setup method path body
  return if method = "HEAD" then r.withoutContent else r

end Service

end Artboard
