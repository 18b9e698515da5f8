import Artboard.Markup.Basic
import Artboard.Number.Basic
import Artboard.Style.Basic

/-!
# Chrome

Elements come with looks of their own, which a design does not want.  A reset takes them away; it goes
before the style of the design, so that the design wins (`Entries.merge`).
-/

namespace Artboard

/-! ## 1. Resets -/

namespace Chrome

/-- A button without looks. -/
def button : Style :=
  [("padding", .whole 0), ("margin", .whole 0), ("border", .text "none"),
   ("background", .text "transparent"), ("font", .text "inherit"), ("cursor", .text "pointer")]

/-- A label that is a box. -/
def label : Style := [("display", .text "block"), ("margin", .whole 0)]

/-- An input without looks. -/
def input : Style :=
  [("padding", .whole 0), ("margin", .whole 0), ("border", .text "none"), ("outline", .text "none"),
   ("background", .text "transparent")]

/-- All of the box around. -/
def fill : Style :=
  [("position", .text "absolute"), ("left", .whole 0), ("top", .whole 0), ("width", .text "100%"),
   ("height", .text "100%")]

/-- A check box that is there but does not show. -/
def hiddenCheckbox : Style :=
  fill ++ [("margin", .whole 0), ("opacity", .whole 0), ("cursor", .text "pointer")]

/-- The box of a vector image. -/
def vector : Style :=
  [("width", .text "100%"), ("height", .text "100%"), ("display", .text "flex"),
   ("alignItems", .text "center"), ("justifyContent", .text "center"), ("overflow", .text "hidden")]

/-- The box of a raster image. -/
def raster (fit : String) : Style :=
  [("width", .text "100%"), ("height", .text "100%"), ("objectFit", .text fit)]

end Chrome

/-! ## 2. Elements with their styles written -/

/-- A style value written, a number as in any style. -/
def StyleValue.write : StyleValue → Except Fault Written
  | .text s => .ok (.quoted s)
  | .number n => do return .bare (← n.format 2)

/-- A style written, property by property. -/
def writeStyle : Style → Except Fault (Entries Written)
  | [] => .ok []
  | (name, v) :: rest => do
    let first ← v.write
    let others ← writeStyle rest
    return (name, first) :: others

/-- An element whose style is yet to be written. -/
def Markup.styled (tag : Tag) (attributes : List Attribute) (style : Style) (children : List Markup) :
    Except Fault Markup := do
  return .element tag attributes (← writeStyle style) children

end Artboard
