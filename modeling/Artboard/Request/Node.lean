import Artboard.Request.Field

/-!
# Submitted nodes

The problems of a request, and its nodes as they are compiled.  Of a node only the fields with a rule of
their own are checked (`nodeProblems`); they come in a fixed order, all problems are reported, and those of
children come last.  In a node without problems boxes and places become doubles, fields that are not given
get their defaults, and a null counts as not given; everything else stays as it is (`cleanNode`).  The names
of all fields can be asked for (`fieldNames`), those without a rule included.
-/

namespace Artboard

namespace Request

/-! ## 1. Problems of single fields -/

/-- The problem of a field that has to be there. -/
def missing (ms : Members) (name : String) : List Problem := [⟨.missing, [.field name], .object ms⟩]

/-- The problems of a text that has to be there. -/
def textProblems (ms : Members) (name : String) : List Problem :=
  match ms.get? name with
  | none => missing ms name
  | some (.text _) => []
  | some v => [⟨.notText, [.field name], v⟩]

/-- The problems of what the value of a field is read as. -/
def readingProblems {α : Type} (name : String) (v : Value) : Except ProblemKind α → List Problem
  | .ok _ => []
  | .error kind => [⟨kind, [.field name], v⟩]

/-- The problems of a double that has to be there. -/
def requiredDoubleProblems (ms : Members) (name : String) : List Problem :=
  match ms.get? name with
  | none => missing ms name
  | some v => readingProblems name v (readDouble v)

/-- The problems of a double that may be left out. -/
def optionalDoubleProblems (ms : Members) (name : String) : List Problem :=
  match ms.get? name with
  | none => []
  | some v => readingProblems name v (readDouble v)

/-- The problems of a truth value that may be left out. -/
def optionalTruthProblems (ms : Members) (name : String) : List Problem :=
  match ms.get? name with
  | none => []
  | some v => readingProblems name v (readTruth v)

/-- The problems of a node's fields, without its children. -/
def fieldProblems (ms : Members) : List Problem :=
  textProblems ms "name" ++ textProblems ms "type" ++
    requiredDoubleProblems ms "width" ++ requiredDoubleProblems ms "height" ++
    optionalDoubleProblems ms "x" ++ optionalDoubleProblems ms "y" ++
    optionalDoubleProblems ms "opacity" ++ optionalTruthProblems ms "visible"

/-! ## 2. Problems of nodes -/

mutual

/-- The problems of a node. -/
def nodeProblems : Value → List Problem
  | .object ms => fieldProblems ms ++ childProblems ms
  | v => [⟨.notObject, [], v⟩]

/-- The problems of the children among some members. -/
def childProblems : List (String × Value) → List Problem
  | [] => []
  | (name, v) :: rest =>
    if name = "children" then (childListProblems v).map (·.inside (.field "children"))
    else childProblems rest

/-- The problems of a list of children, which may be null. -/
def childListProblems : Value → List Problem
  | .null => []
  | .list nodes => listProblems 0 nodes
  | v => [⟨.notList, [], v⟩]

/-- The problems of nodes in a list, the first of them at an index. -/
def listProblems (index : Nat) : List Value → List Problem
  | [] => []
  | v :: rest => (nodeProblems v).map (·.inside (.item index)) ++ listProblems (index + 1) rest

end

/-! ## 3. Nodes without problems -/

/-- A double of a node, in place of what was given. -/
def cleanDouble (ms : Members) (name : String) (default : Int) : Value :=
  match ms.get? name with
  | none => .number (.int default)
  | some v =>
    match readDouble v with
    | .ok x => .number (.real x)
    | .error _ => v

/-- The truth value whether a node is visible. -/
def cleanVisible (ms : Members) : Value :=
  match ms.get? "visible" with
  | none => .bool true
  | some v =>
    match readTruth v with
    | .ok b => .bool b
    | .error _ => v

/-- The fields that have a rule of their own. -/
def knownFields : List String :=
  ["name", "type", "width", "height", "x", "y", "opacity", "visible", "children"]

/-- The known fields of a node, without its children. -/
def cleanFields (ms : Members) : Members :=
  [("name", ms.get "name"), ("type", ms.get "type"), ("width", cleanDouble ms "width" 0),
   ("height", cleanDouble ms "height" 0), ("x", cleanDouble ms "x" 0), ("y", cleanDouble ms "y" 0),
   ("opacity", cleanDouble ms "opacity" 1), ("visible", cleanVisible ms)]

/-- The other fields of a node, as far as they are given. -/
def otherFields (ms : Members) : Members :=
  ms.filter fun e => !knownFields.contains e.1 && !e.2.isNull

mutual

/-- A node as it is compiled. -/
def cleanNode : Value → Value
  | .object ms => .object (cleanFields ms ++ cleanChildren ms ++ otherFields ms)
  | v => v

/-- The children among some members, as a member; nothing where they are null or not there. -/
def cleanChildren : List (String × Value) → List (String × Value)
  | [] => []
  | (name, v) :: rest => if name = "children" then cleanChildList v else cleanChildren rest

/-- A list of children as a member. -/
def cleanChildList : Value → List (String × Value)
  | .list nodes => [("children", .list (cleanNodes nodes))]
  | _ => []

/-- Nodes as they are compiled. -/
def cleanNodes : List Value → List Value
  | [] => []
  | v :: rest => cleanNode v :: cleanNodes rest

end

/-! ## 4. Names -/

mutual

/-- The names of the fields of a node and of the nodes below it. -/
def nodeNames : Value → List String
  | .object ms => ms.map (·.1) ++ childNames ms
  | _ => []

/-- The names of fields in the children among some members. -/
def childNames : List (String × Value) → List String
  | [] => []
  | (name, v) :: rest => if name = "children" then childListNames v else childNames rest

/-- The names of fields in a list of children. -/
def childListNames : Value → List String
  | .list nodes => listNames nodes
  | _ => []

/-- The names of fields in the nodes of a list. -/
def listNames : List Value → List String
  | [] => []
  | v :: rest => nodeNames v ++ listNames rest

end

/-! ## 5. Requests -/

/-- The nodes of a request, or all of its problems.  A request without data has no nodes. -/
def nodes (request : Members) : Except (List Problem) (List Value) :=
  match request.get? "data" with
  | none => .ok []
  | some (.list vs) =>
    match listProblems 0 vs with
    | [] => .ok (cleanNodes vs)
    | problems => .error (problems.map (·.inside (.field "data")))
  | some v => .error [⟨.notList, [.field "data"], v⟩]

/-- The names of all fields in the nodes of a request. -/
def fieldNames (request : Members) : List String := childListNames (request.get "data")

end Request

end Artboard
