import Artboard.Style.Layout
import Artboard.Style.Typography

/-!
# The style of a node

The box, the place, the rotation, the paints and the flow of a node, put together in that order.  The fill
of a text is its colour, and a node drawn from an image of itself has no background; both keep border and
shadow.  A node whose children flow is never absolute, whatever places it.
-/

namespace Artboard

namespace Node

/-- The background of a node: none for a text, whose fill is its colour, nor for a node drawn from an image
of itself. -/
def ownBackground (fields : Members) (drawn : Bool) : Except Fault Style :=
  if isText fields || drawn then .ok [] else Paint.background (fields.get "fills")

/-- The radius of the corners; nothing unless it is positive. -/
def corners? (fields : Members) : Except Fault (Option String) :=
  let radius := (fields.get "cornerRadius").numberOr (.int 0)
  if (Number.int 0).lt radius then some <$> radius.px else .ok none

/-- The opacity of a node put into a style; nothing for a node that is opaque. -/
def putOpacity (fields : Members) (style : Style) : Style :=
  let opacity := (fields.get "opacity").numberOr (.int 1)
  if opacity.lt (.int 1) then style.put "opacity" (.number opacity) else style

/-- The properties of a text; none for other nodes. -/
def ownTypography (fields : Members) : Except Fault Style :=
  if isText fields then Typography.style fields else .ok []

/-- The style without the flow of the children. -/
def ownStyle (fields : Members) (placement : Placement) (drawn : Bool) : Except Fault Style := do
  let width ← ((fields.get "width").numberOr (.int 0)).px
  let height ← ((fields.get "height").numberOr (.int 0)).px
  let box : Style := [("width", .text width), ("height", .text height)]
  let placed := Entries.merge box (← placement.style fields)
  let rotated := placed.merge (← Layout.rotation fields)
  let filled := (putOpacity fields rotated).merge (← ownBackground fields drawn)
  let bordered := filled.merge (← Paint.border (fields.get "strokes"))
  let shaded := bordered.merge (← Paint.shadow (fields.get "effects"))
  let rounded := shaded.putText? "borderRadius" (← corners? fields)
  return rounded.merge (← ownTypography fields)

/-- A style with the flow of the children, if there is one: a node whose children flow is not absolute. -/
def withFlow (own flow : Style) : Style :=
  if flow.isEmpty then own
  else (((own.erase "left").erase "top").putText "position" "relative").merge flow

/-- The style of a node. -/
def style (fields : Members) (placement : Placement) (drawn : Bool) : Except Fault Style := do
  let own ← ownStyle fields placement drawn
  return withFlow own (← Layout.flow fields)

end Node

end Artboard
