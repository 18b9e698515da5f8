import Artboard.File.Access
import Artboard.Json.Value

/-!
# Logging

The log has a level and handlers.  Setting it up again changes the level only; the first set-up that succeeds
adds the handlers.  One without a level changes nothing, and one that cannot open the file of the log changes
the level all the same, and leaves the console behind.
-/

namespace Artboard

namespace Logging

/-- Where the log is written to. -/
inductive Handler where
  | console
  | file
  deriving DecidableEq, Repr

/-- The state of the log. -/
structure Log where
  level : Int
  handlers : List Handler
  files : FileTree
  /-- the handlers are all there -/
  isSetUp : Bool := false

/-- The level of a log that has not been set up. -/
def initialLevel : Int := 30

/-- The level of a name. -/
def levelOfName? : String → Option Int
  | "CRITICAL" | "FATAL" => some 50
  | "ERROR" => some 40
  | "WARNING" | "WARN" => some 30
  | "INFO" => some 20
  | "DEBUG" => some 10
  | "NOTSET" => some 0
  | _ => none

/-- Why a log is not set up. -/
inductive LogFault where
  /-- no level has the name -/
  | unknownName
  /-- a value that is neither a whole number nor a name -/
  | notALevel
  /-- the directory of the log is not made -/
  | noDirectory (fault : FileTree.PathFault)
  deriving DecidableEq, Repr

/-- The level of a name, which has to be known. -/
def levelOfName (name : String) : Except LogFault Int :=
  match levelOfName? name with
  | some level => .ok level
  | none => .error .unknownName

/-- The level that a value gives: a whole number, a truth value as one, or a name; nothing at all stands for
the level of the settings. -/
def levelOf (given : Value) (settings : String) : Except LogFault Int :=
  if given.isTruthy then
    match given with
    | .number (.int i) => .ok i
    | .bool _ => .ok 1
    | .text s => levelOfName s
    | _ => .error .notALevel
  else levelOfName settings

/-- The file of the log in a directory. -/
def logFile (directory : String) : String := Path.join directory "compiler.log"

/-- The files with an empty log in a directory, which is made if need be. -/
def openLog (files : FileTree) (directory : String) : FileTree × Option FileTree.PathFault :=
  if FileTree.hasNull directory then (files, some .unnameable)
  else
    match files.makeDirectories directory with
    | (made, some f) => (made, some f)
    | (made, none) =>
      if made.hasFile (logFile directory) then (made, none)
      else ((made.write? (logFile directory) "").getD made, none)

/-- The log with a handler for the console, and one for the directory, if there is one. -/
def addHandlers (log : Log) (directory : Option String) : Log × Option LogFault :=
  let log := { log with handlers := log.handlers ++ [Handler.console] }
  match directory.filter (· != "") with
  | none => ({ log with isSetUp := true }, none)
  | some d =>
    match openLog log.files d with
    | (files, some f) => ({ log with files := files }, some (.noDirectory f))
    | (files, none) =>
      ({ log with handlers := log.handlers ++ [Handler.file], files := files, isSetUp := true }, none)

/-- The log set up with a level, and why it is not, if it is not. -/
def setUp (log : Log) (given : Value) (settings : String) (directory : Option String) :
    Log × Option LogFault :=
  match levelOf given settings with
  | .error f => (log, some f)
  | .ok level =>
    let log := { log with level := level }
    if log.isSetUp then (log, none) else addHandlers log directory

end Logging

end Artboard
