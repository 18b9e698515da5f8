import Artboard.Json.Value

/-!
# Nodes of a design

A node is an object with named fields and a list of children.  The children are taken out of the fields,
so that a design is a tree; what stands among them and is no object is kept as it is (`Node.other`), for a
rule may ask what it is.  A node whose `children` is no list has none.

A control is labelled with the first text that shows, in document order (`Node.firstText`).  A text has no
texts below it, but every other node is searched, whatever it is drawn from.
-/

namespace Artboard

/-- A node of a design, or a value where a node should be. -/
inductive Node where
  | object (fields : Members) (children : List Node)
  | other (value : Value)

namespace Node

instance : Inhabited Node := ⟨other .null⟩

/-! ## 1. Nodes from values -/

mutual

/-- The node that a value describes. -/
def ofValue : Value → Node
  | .object members => object (Entries.erase members "children") (childrenIn members)
  | v => other v

/-- The children that the members of an object name. -/
def childrenIn : List (String × Value) → List Node
  | [] => []
  | (name, v) :: rest => if name = "children" then ofItems v else childrenIn rest

/-- The nodes that the items of a list describe, none for other values. -/
def ofItems : Value → List Node
  | .list items => ofValues items
  | _ => []

/-- The nodes that values describe. -/
def ofValues : List Value → List Node
  | [] => []
  | v :: rest => ofValue v :: ofValues rest

end

/-! ## 2. What a node is -/

/-- The type of a text node. -/
def textType : String := "TEXT"

/-- The fields say that the node is hidden: `visible` is the truth value `false` and nothing else. -/
def hides (fields : Members) : Bool := (fields.get "visible").isFalse

/-- An object that is not hidden. -/
def isVisible : Node → Bool
  | object fields _ => !hides fields
  | other _ => false

/-- The text that the fields give, if it is not empty. -/
def content? (fields : Members) : Option String :=
  match fields.get "textContent" with
  | .text s => if s = "" then none else some s
  | _ => none

/-- The fields of a text node. -/
def isText (fields : Members) : Bool := (fields.get "type").isText textType

/-- The text of a text node that has some. -/
def leafText? (fields : Members) : Option String := if isText fields then content? fields else none

/-- A text field of one of these words. -/
def wordIn (fields : Members) (name : String) (words : List String) : Bool :=
  match fields.get name with
  | .text s => words.contains s
  | _ => false

/-- The children flow, along one of the two axes. -/
def isAutoLayout (fields : Members) : Bool := wordIn fields "layoutMode" ["HORIZONTAL", "VERTICAL"]

/-! ## 3. The first text of a node -/

mutual

/-- The first visible text of a node, itself included, in document order. -/
def firstText : Node → Option String
  | other _ => none
  | object fields children =>
    if hides fields then none
    else
      match leafText? fields with
      | some s => some s
      | none => firstTextIn children

/-- The first visible text of some nodes. -/
def firstTextIn : List Node → Option String
  | [] => none
  | n :: rest =>
    match firstText n with
    | some s => some s
    | none => firstTextIn rest

end

end Node

end Artboard
