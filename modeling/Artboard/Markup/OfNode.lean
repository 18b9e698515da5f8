import Artboard.Design.Canvas
import Artboard.Design.Node
import Artboard.Json.Display
import Artboard.Markup.Chrome
import Artboard.Markup.Progress
import Artboard.Style.OfNode
import Artboard.Widget

/-!
# The markup of a node

A visible node is drawn in one of three ways.  A text is a `span` of what it says; a node with an image of
itself is that image in a box; and every other node is a container of its children, as a `div` or as what
its widget asks for.  What is hidden is not drawn, nor is what is no object, and a text or an image hides
all below it.

A text field shows its first text as the placeholder of an input, and where it has none an input fills it.
-/

namespace Artboard

/-! ## 1. Places of children -/

namespace Placement

/-- The place of the children of a node: by its flow, or absolute from an origin. -/
def within (fields : Members) (origin : Point) : Placement :=
  if Node.isAutoLayout fields then .flow else .absolute origin.x origin.y

/-- The horizontal origin, zero where there is none. -/
def originX : Placement → Number
  | .absolute x _ => x
  | _ => .int 0

end Placement

namespace Node

/-! ## 2. Texts and images -/

/-- The name that an image is described by. -/
def description (fields : Members) : String :=
  let name := fields.get "name"
  if name.isTruthy then name.display else ""

/-- A text node that says something. -/
def textMarkup (fields : Members) (content : String) (place : Placement) : Compile Markup := do
  let id ← Compile.nextId
  Compile.useFont fields
  let style ← Node.style fields place false
  Markup.styled .span [.key id] style [.text content]

/-- An image alone. -/
def imageMarkup (fields : Members) : Asset → Except Fault Markup
  | .vector body => Markup.styled .div [.innerHtml body] Chrome.vector []
  | .raster source =>
    Markup.styled .img [.source source, .description (description fields)] (Chrome.raster Asset.fit) []

/-- A node drawn from an image of itself. -/
def assetMarkup (fields : Members) (asset : Asset) (place : Placement) : Compile Markup := do
  let id ← Compile.nextId
  let style ← Node.style fields place true
  let image ← imageMarkup fields asset
  Markup.styled .div [.key id] style [image]

/-! ## 3. The placeholder of a text field -/

/-- The style of an input within a text field.  In a flow it takes the space that is left; elsewhere it is
widened up to the right edge of the field, if it ends before that. -/
def inputStyle (field fields : Members) (place : Placement) : Except Fault Style := do
  let style := (← Node.style fields place false).erase "whiteSpace"
  if place.isFlow then
    return (((style.erase "width").erase "flexShrink").put "flex" (.whole 1)).put "minWidth" (.whole 0)
  else do
    let left ← ((fields.get "x").numberOr (.int 0)).sub place.originX
    let available ← ((field.get "width").numberOr (.int 0)).sub left
    if ((fields.get "width").numberOr (.int 0)).lt available then
      return style.putText "width" (← available.px)
    else return style

/-- A text of a text field, as an input with the text as its placeholder. -/
def inputMarkup (field fields : Members) (content : String) (place : Placement) : Compile Markup := do
  let id ← Compile.nextId
  Compile.useFont fields
  let style ← inputStyle field fields place
  Markup.styled .input [.key id, .control .text, .placeholder content] (Chrome.input.merge style) []

/-- The visible text that a node is, with its fields. -/
def visibleText? : Node → Option (Members × String)
  | object fields _ => if hides fields then none else (leafText? fields).map fun s => (fields, s)
  | other _ => none

/-- The node is nothing at all. -/
def isNull : Node → Bool
  | other v => v.isNull
  | object .. => false

/-- Whether a text field shows one of its texts as its placeholder. -/
inductive Slot where
  /-- none of them is a text -/
  | missing
  /-- a text is still to come -/
  | awaited
  /-- a text has been taken -/
  | filled
  deriving DecidableEq

/-- The slot of a field with these children. -/
def Slot.ofChildren (children : List Node) : Slot :=
  if children.any fun n => n.visibleText?.isSome then .awaited else .missing

/-! ## 4. Containers -/

/-- An element around the children of a node, with what it holds besides them. -/
structure Frame where
  tag : Tag
  attributes : List Attribute
  style : Style
  fixtures : List Markup

/-- The input that fills a text field, where none of its texts is one. -/
def fillingInput (id : Int) (slot : Slot) : Except Fault (List Markup) :=
  if slot = .missing then do
    return [← Markup.styled .input [.inputKey id, .control .text] (Chrome.input.merge Chrome.fill) []]
  else .ok []

/-- The input of a check box. -/
def checkboxInput (id : Int) (fields : Members) : Except Fault Markup :=
  Markup.styled .input [.inputKey id, .control .checkbox, .label (description fields)]
    Chrome.hiddenCheckbox []

/-- The frame of a node, by its widget. -/
def frame (widget : Option Widget) (id : Int) (fields : Members) (children : List Node) (style : Style) :
    Except Fault Frame :=
  match widget with
  | some .button =>
    .ok ⟨.button, [.key id, .control .button] ++ ((firstTextIn children).map Attribute.label).toList,
      Chrome.button.merge style, []⟩
  | some .textField => do
    return ⟨.label, [.key id], Chrome.label.merge style, ← fillingInput id (Slot.ofChildren children)⟩
  | some .checkbox => do
    return ⟨.label, [.key id], (Chrome.label.merge style).putText "cursor" "pointer",
      [← checkboxInput id fields]⟩
  | _ => .ok ⟨if isText fields then .span else .div, [.key id], style, []⟩

/-- What becomes of a null that a text field takes for its text: it gets a number, but has no fields. -/
def nullMarkup : Compile (List Markup) := do
  let _ ← Compile.nextId
  throw .nodeNotObject

/-! ## 5. Any node -/

mutual

/-- The markup of a node, none where it is not drawn; `origin` is the origin of its children. -/
def markup (place : Placement) (origin : Point) : Node → Compile (Option Markup)
  | other _ => pure none
  | object fields children =>
    if hides fields then pure none
    else
      match leafText? fields, Asset.ofNode? fields with
      | some content, _ => do return some (← textMarkup fields content place)
      | none, some asset => do return some (← assetMarkup fields asset place)
      | none, none => do
        let id ← Compile.nextId
        let widget ← Widget.ofNode fields
        let style ← Node.style fields place false
        let frame ← frame widget id fields children style
        let inside := Placement.within fields origin
        let content ← (if widget = some .textField then
            fieldMarkup fields inside (Slot.ofChildren children) children
          else markups inside children : Compile (List Markup))
        return some (← Markup.styled frame.tag frame.attributes frame.style (frame.fixtures ++ content))

/-- The markup of several nodes in order. -/
def markups (place : Placement) : List Node → Compile (List Markup)
  | [] => pure []
  | n :: rest => do
    let first ← markup place Point.zero n
    let others ← markups place rest
    return first.toList ++ others

/-- The markup of the children of a text field, one of them as its input.  A field that shows none of its
texts takes a child that is null for it and fails. -/
def fieldMarkup (field : Members) (place : Placement) (slot : Slot) : List Node → Compile (List Markup)
  | [] => pure []
  | n :: rest =>
    match slot, n.visibleText? with
    | .awaited, some (fields, content) => do
      let input ← inputMarkup field fields content place
      let others ← fieldMarkup field place .filled rest
      return input :: others
    | slot, _ =>
      if slot = .missing && n.isNull then nullMarkup
      else do
        let first ← markup place Point.zero n
        let others ← fieldMarkup field place slot rest
        return first.toList ++ others

end

/-- A shift other than zero has to be one that can be written. -/
def checkShift (shift : Point) : Except Fault Unit :=
  if shift.x.isZero && shift.y.isZero then .ok ()
  else do
    let _ ← shift.x.format 2
    let _ ← shift.y.format 2
    return ()

/-- The markup of a root, with what it holds shifted onto the canvas. -/
def rootMarkup (root : Node) : Compile (Option Markup) := do
  let shift ← Canvas.shift root
  checkShift shift
  markup .root shift.neg root

/-- The markup of several roots in order. -/
def rootMarkups : List Node → Compile (List Markup)
  | [] => pure []
  | root :: rest => do
    let first ← rootMarkup root
    let others ← rootMarkups rest
    return first.toList ++ others

end Node

end Artboard
