import Artboard.Markup.OfNode
import Artboard.Markup.Printer

/-!
# Compositions

A forest of roots compiled: the markup of all roots one after another, and the fonts that it uses.  A
forest is a list of roots or a single root; without roots there is nothing to compile, and each root has to
be an object.
-/

namespace Artboard

/-- The word for the kind of a value. -/
def Value.kindName : Value → String
  | .null => "NoneType"
  | .bool _ => "bool"
  | .number (.int _) => "int"
  | .number (.real _) => "float"
  | .text _ => "str"
  | .list _ => "list"
  | .object _ => "object"

/-- A compiled forest. -/
structure Composition where
  roots : List Node
  markup : List Markup
  fonts : FontUsage

namespace Composition

/-- The values that a forest lists as its roots: its items, its characters, or the one object that it is. -/
def rootValues (forest : Value) : Except Fault (List Value) :=
  match forest with
  | .object _ => .ok [forest]
  | .list [] | .text "" => .error .noData
  | .list items => .ok items
  | .text s => .ok (s.toList.map fun c => .text c.toString)
  | v => .error (if v.isTruthy then .rootsNotList else .noData)

/-- The roots, if all of them are objects. -/
def rootNodes : List Value → Except Fault (List Node)
  | [] => .ok []
  | .object ms :: rest => do return Node.ofValue (.object ms) :: (← rootNodes rest)
  | v :: _ => .error (.rootNotObject v.kindName)

/-- A forest of nodes compiled. -/
def ofRoots (roots : List Node) : Except Fault Composition :=
  let (outcome, progress) := (Node.rootMarkups roots).runFrom {}
  outcome.map fun markup => ⟨roots, markup, progress.fonts⟩

/-- The forest that a value describes, compiled. -/
def ofValue (forest : Value) : Except Fault Composition := do
  ofRoots (← rootNodes (← rootValues forest))

/-- The fields of the first root, none where there is no root. -/
def firstFields (c : Composition) : Members :=
  match c.roots with
  | .object fields _ :: _ => fields
  | _ => []

/-- The markup of all roots, as it is written. -/
def text (c : Composition) : String := Markup.joinLines (c.markup.map (Markup.print 0))

end Composition

end Artboard
