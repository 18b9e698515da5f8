import Artboard.Design.Node
import Artboard.Text.Basic
import Artboard.Text.Case

/-!
# Widgets

What a node is meant to be is guessed from its name and type.  The first rule that fits decides: a button
has to be a container, a text field and a check box may be of any type, and a text without such a name is
typography.  A node that fits no rule is plain structure.
-/

namespace Artboard

/-- What a node is meant to be. -/
inductive Widget where
  | button
  | textField
  | checkbox
  | typography
  deriving DecidableEq, Repr

namespace Widget

/-- The types of nodes that can be buttons. -/
def containerTypes : List String :=
  ["FRAME", "GROUP", "COMPONENT", "COMPONENT_SET", "INSTANCE", "SECTION"]

/-- Words in the names of buttons. -/
def buttonWords : List String := ["button", "btn"]

/-- Words in the names of text fields. -/
def textFieldWords : List String := ["input", "field", "search"]

/-- Words in the names of check boxes. -/
def checkboxWords : List String := ["checkbox", "tick"]

/-- The name in lower case, empty where there is none; no other kind of value has one. -/
def lowerName : Value → Except Fault String
  | .text s => .ok (Text.lower s)
  | v => if v.isTruthy then .error .nameNotText else .ok ""

/-- The type is one of the containers; only texts and other single values can be looked up. -/
def isContainer : Value → Except Fault Bool
  | .text s => .ok (containerTypes.contains s)
  | .list _ | .object _ => .error .typeNotScalar
  | _ => .ok false

/-- The name is that of a button and the type that of a container; without such a name the type does not
matter. -/
def isButton (name : String) (type : Value) : Except Fault Bool :=
  if Text.containsAny name buttonWords then isContainer type else .ok false

/-- The first rule that fits, for a name in lower case. -/
def ofName (isButton : Bool) (name : String) (fields : Members) : Option Widget :=
  if isButton then some button
  else if Text.containsAny name textFieldWords then some textField
  else if Text.containsAny name checkboxWords then some checkbox
  else if Node.isText fields then some typography
  else none

/-- What the fields of a node say that it is meant to be. -/
def ofNode (fields : Members) : Except Fault (Option Widget) := do
  let name ← lowerName (fields.get "name")
  return ofName (← isButton name (fields.get "type")) name fields

end Widget

end Artboard
