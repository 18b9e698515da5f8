import Artboard.Design.Node
import Artboard.Style.Basic

/-!
# Layout

Where a node stands and how its children flow.  A root and the children of a flow are placed by what is
around them; every other node has an absolute place, measured from an origin (`Placement`).
-/

namespace Artboard

/-- How a node is placed. -/
inductive Placement where
  /-- at the top of the page -/
  | root
  /-- at its own coordinates, less those of an origin -/
  | absolute (originX originY : Number)
  /-- by the flow of its parent -/
  | flow

namespace Placement

/-- At the top of the page. -/
def isRoot : Placement → Bool
  | root => true
  | _ => false

/-- By the flow of the parent. -/
def isFlow : Placement → Bool
  | flow => true
  | _ => false

/-- The place of a node as a style. -/
def style (placement : Placement) (fields : Members) : Except Fault Style :=
  match placement with
  | root => .ok [("position", .text "relative")]
  | flow => .ok [("position", .text "relative"), ("flexShrink", .whole 0)]
  | absolute originX originY => do
    let left ← (← ((fields.get "x").numberOr (.int 0)).sub originX).px
    let top ← (← ((fields.get "y").numberOr (.int 0)).sub originY).px
    return [("position", .text "absolute"), ("left", .text left), ("top", .text top)]

end Placement

namespace Layout

/-! ## 1. Rotation -/

/-- The rotation of a node about its top left corner; designs turn the other way round than styles. -/
def rotation (fields : Members) : Except Fault Style :=
  let angle := (fields.get "rotation").numberOr (.int 0)
  if angle.isZero then .ok []
  else do
    return [("transform", .text ("rotate(" ++ (← angle.neg.format 2) ++ "deg)")),
      ("transformOrigin", .text "top left")]

/-! ## 2. Flow -/

/-- A length of the fields under its own name; nothing for zero. -/
def length (fields : Members) (name : String) : Except Fault Style :=
  let n := (fields.get name).numberOr (.int 0)
  if n.isZero then .ok [] else do return [(name, .text (← n.px))]

/-- Several lengths in order. -/
def lengths (fields : Members) : List String → Except Fault Style
  | [] => .ok []
  | name :: rest => do
    let head ← length fields name
    let tail ← lengths fields rest
    return head ++ tail

/-- How children are distributed along the axis of the flow. -/
def justify? : Value → Option String
  | .text "MIN" => some "flex-start"
  | .text "CENTER" => some "center"
  | .text "MAX" => some "flex-end"
  | .text "SPACE_BETWEEN" => some "space-between"
  | _ => none

/-- How children are aligned across the axis of the flow. -/
def alignItems? : Value → Option String
  | .text "MIN" => some "flex-start"
  | .text "CENTER" => some "center"
  | .text "MAX" => some "flex-end"
  | .text "BASELINE" => some "baseline"
  | _ => none

/-- The flow of a node's children; nothing for a node without one. -/
def flow (fields : Members) : Except Fault Style :=
  if Node.isAutoLayout fields then do
    let direction := if (fields.get "layoutMode").isText "HORIZONTAL" then "row" else "column"
    let spaces ← lengths fields ["paddingTop", "paddingRight", "paddingBottom", "paddingLeft", "gap"]
    let base : Style := [("display", .text "flex"), ("flexDirection", .text direction),
      ("boxSizing", .text "border-box")] ++ spaces
    return (base.putText? "justifyContent" (justify? (fields.get "primaryAxisAlignItems"))).putText?
      "alignItems" (alignItems? (fields.get "counterAxisAlignItems"))
  else .ok []

end Layout

end Artboard
