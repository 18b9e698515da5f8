import Artboard.Component
import Artboard.Entries
import Artboard.Fault
import Artboard.Number.Numeral
import Artboard.Text.Case

/-!
# Settings

What the environment of the service sets.  A variable that is not there has a default, and an empty one is
there; the only one that can be wrong is the time that a font may take.
-/

namespace Artboard

/-- The settings of the service. -/
structure Settings where
  /-- where the project is, if the environment says so -/
  project : Option String
  templates : Option String
  components : String
  defaultName : String
  /-- how many seconds a stylesheet may take -/
  fontTimeout : Binary64
  fontCache : Bool
  databaseUri : String
  logLevel : String
  logDirectory : Option String
  /-- the origins that may call the service -/
  origins : List String

namespace Settings

/-- The parts of a list with commas, without blanks at their ends and without the empty ones. -/
def listed (s : String) : List String :=
  ((s.splitOn ",").map Text.trimBlank).filter (· != "")

/-- The word is `true`, in any case of letters. -/
def isTrue (s : String) : Bool := Text.lower s == "true"

/-- The number of seconds that a text gives. -/
def seconds (s : String) : Except Fault Binary64 :=
  match Numeral.readNumeral? s with
  | some x => .ok x
  | none => .error .badNumeral

/-- The settings of an environment. -/
def ofEnvironment (env : Entries String) : Except Fault Settings := do
  let timeout ← seconds ((env.get? "FONT_FETCH_TIMEOUT").getD "5")
  return {
    project := env.get? "PROJECT_DIR"
    templates := env.get? "TEMPLATES_DIR"
    components := (env.get? "COMPONENTS_SUBDIR").getD "src/components"
    defaultName := Component.defaultName
    fontTimeout := timeout
    fontCache := isTrue ((env.get? "FONT_CACHE_ENABLED").getD "false")
    databaseUri := (env.get? "MONGO_URI").getD "mongodb://localhost:27017"
    logLevel := Text.upper ((env.get? "LOG_LEVEL").getD "INFO")
    logDirectory := env.get? "LOG_DIR"
    origins := listed ((env.get? "CORS_ORIGINS").getD "*") }

end Settings

end Artboard
