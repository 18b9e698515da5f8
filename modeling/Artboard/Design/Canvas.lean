import Artboard.Asset
import Artboard.Design.Node

/-!
# The canvas

Coordinates of nodes are relative to their parents, and they may be negative.  The shift of a root is what
has to be added to all positions on its canvas so that none of them is (`Canvas.shift`); what is not drawn
does not count, and neither do the coordinates of nodes in a flow.
-/

namespace Artboard

/-! ## 1. Points -/

/-- A place on the canvas. -/
structure Point where
  x : Number
  y : Number

namespace Point

/-- The corner of the canvas. -/
def zero : Point := ⟨.int 0, .int 0⟩

/-- The opposite point. -/
def neg (p : Point) : Point := ⟨p.x.neg, p.y.neg⟩

/-- The lesser coordinates of two points. -/
def min (p q : Point) : Point := ⟨p.x.min q.x, p.y.min q.y⟩

/-- The point at the coordinates of a node, seen from another. -/
def ofNode (origin : Point) (fields : Members) : Except Fault Point := do
  let x ← origin.x.add ((fields.get "x").numberOr (.int 0))
  let y ← origin.y.add ((fields.get "y").numberOr (.int 0))
  return ⟨x, y⟩

/-- The point where a node is drawn whose parent is at a point: in a flow where its parent is. -/
def ofChild (parent : Point) (inFlow : Bool) (fields : Members) : Except Fault Point :=
  if inFlow then .ok parent else ofNode parent fields

end Point

/-! ## 2. The shift -/

/-- The node is drawn without its children: a text, or an image of itself. -/
def Node.isOpaque (fields : Members) : Bool :=
  (Node.leafText? fields).isSome || (Asset.ofNode? fields).isSome

namespace Canvas

mutual

/-- The least coordinates so far and of what is drawn of a node.  A node in a flow stands where its parent
does and is not counted itself. -/
def least (sofar parent : Point) (inFlow : Bool) : Node → Except Fault Point
  | .other _ => .ok sofar
  | .object fields children =>
    if Node.hides fields then .ok sofar
    else do
      let here ← Point.ofChild parent inFlow fields
      let sofar := if inFlow then sofar else sofar.min here
      if Node.isOpaque fields then return sofar
      else leastOf sofar here (Node.isAutoLayout fields) children

/-- The least coordinates so far and of what is drawn of some nodes, the last of them first. -/
def leastOf (sofar parent : Point) (inFlow : Bool) : List Node → Except Fault Point
  | [] => .ok sofar
  | n :: rest => do
    let sofar ← leastOf sofar parent inFlow rest
    least sofar parent inFlow n

end

/-- How far all that a root holds has to move so that no coordinate is negative, its own included. -/
def shift : Node → Except Fault Point
  | .other _ => .error .nodeNotObject
  | .object fields children =>
    if Node.isAutoLayout fields then .ok Point.zero
    else do
      let own : Point := ⟨(fields.get "x").numberOr (.int 0), (fields.get "y").numberOr (.int 0)⟩
      let corner ← leastOf (Point.zero.min own) Point.zero false children
      return ⟨corner.x.abs, corner.y.abs⟩

end Canvas

end Artboard
