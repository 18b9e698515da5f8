import Artboard.Entries
import Artboard.Font.Basic
import Artboard.Font.Cache
import Artboard.Text.Basic

/-!
# Looking up fonts

The stylesheet for the fonts of a component: the rules of every family that no system has, from the cache or
from the network.  A family whose rules cannot be had is imported instead, so that a lookup never fails
(`FontWorld.stylesheet`).
-/

namespace Artboard

/-! ## 1. The network -/

/-- What a request is answered with. -/
inductive Reply where
  | response (status : Int) (text : String)
  /-- no response, for a named reason -/
  | failure (reason : String)
  deriving DecidableEq, Repr

/-- Why a request got no stylesheet. -/
inductive Outage where
  /-- there is nothing at the address -/
  | unreachable
  /-- the status of the response says that it failed -/
  | refused
  | other (reason : String)
  deriving DecidableEq, Repr

/-- The surroundings of a lookup. -/
structure FontWorld where
  /-- replies by address -/
  network : Entries Reply := []
  cacheEnabled : Bool := false
  faults : CacheFaults := {}

/-- A lookup, which changes the session and may end with an outage. -/
abbrev FontLookup (α : Type) := ExceptT Outage (StateM FontSession) α

/-- A status of a response that failed. -/
def isRefusal (status : Int) : Bool := 400 ≤ status && status < 600

/-- The stylesheet in what a request is answered with. -/
def Reply.stylesheet : Option Reply → Except Outage String
  | none => .error .unreachable
  | some (.failure reason) => .error (.other reason)
  | some (.response status text) => if isRefusal status then .error .refused else .ok text

namespace FontWorld

/-! ## 2. The cache of a world -/

/-- The stylesheet in the cache, where there is a cache. -/
def cached? (world : FontWorld) (url : String) : StateM FontSession (Option String) :=
  if world.cacheEnabled then FontSession.cached? world.faults url else pure none

/-- A stylesheet put into the cache, where there is a cache. -/
def save (world : FontWorld) (url family css : String) : StateM FontSession Unit :=
  if world.cacheEnabled then modify (FontSession.save world.faults ⟨url, some family, some css⟩)
  else pure ()

/-! ## 3. One family -/

/-- The stylesheet of a family from the network, which the cache gets too. -/
def request (world : FontWorld) (url family : String) : FontLookup String := do
  modify fun s => { s with requested := s.requested ++ [url] }
  let css ← (Reply.stylesheet (world.network.get? url) : Except Outage String)
  world.save url family css
  return css

/-- The stylesheet of a family; an empty one in the cache does not count. -/
def fetch (world : FontWorld) (family : String) (weights : List Int) : FontLookup String := do
  let url := Font.stylesheetUrl family weights
  match ← (world.cached? url : StateM FontSession (Option String)) with
  | some css => if css = "" then world.request url family else return css
  | none => world.request url family

/-! ## 4. All families -/

/-- What a stylesheet has for a family: its rules, or an import of them. -/
inductive Part where
  | rules (css : String)
  | imported (rule : String)

/-- What the outcome of a lookup gives for a family.  A stylesheet without rules for fonts is of no use. -/
def partOf (family : String) (weights : List Int) : Except Outage String → Part
  | .ok css =>
    if Text.contains css "@font-face" then .rules (Text.trimBlank css)
    else .imported (Font.importRule family weights)
  | .error _ => .imported (Font.importRule family weights)

/-- What all families that no system has give, in order. -/
def parts (world : FontWorld) : FontUsage → StateM FontSession (List Part)
  | [] => pure []
  | (family, weights) :: rest =>
    if Font.isSystem family then parts world rest
    else do
      let outcome ← (world.fetch family weights).run
      let others ← parts world rest
      return partOf family weights outcome :: others

/-- The rules among parts. -/
def rulesOf (ps : List Part) : List String :=
  ps.filterMap fun
    | .rules css => some css
    | .imported _ => none

/-- The imports among parts. -/
def importsOf (ps : List Part) : List String :=
  ps.filterMap fun
    | .rules _ => none
    | .imported rule => some rule

/-- Parts put together, the imports first. -/
def join (ps : List Part) : String :=
  let imports := importsOf ps
  "\n\n".intercalate ((if imports.isEmpty then [] else ["\n".intercalate imports]) ++ rulesOf ps)

/-- The stylesheet for the fonts that are used. -/
def stylesheet (world : FontWorld) (usage : FontUsage) : StateM FontSession String := do
  return join (← world.parts usage)

end FontWorld

end Artboard
