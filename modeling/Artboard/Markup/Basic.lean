import Artboard.Entries
import Artboard.Script.Literal

/-!
# Markup

The markup of a component is a tree of elements.  An element that stands for a node of the design carries
the number of the node in a key, so that numbers can be read off the markup; an element that a node needs
besides (`Markup.isFixture`) has none, or borrows the number of the node that it belongs to.

Style values are kept as they will be written, a number by its digits and a text by what its literal holds.
-/

namespace Artboard

/-! ## 1. The parts of an element -/

/-- The tags in use. -/
inductive Tag where
  | div
  | span
  | button
  | label
  | input
  | img
  deriving DecidableEq, Repr

namespace Tag

/-- A tag as it is written. -/
def name : Tag → String
  | div => "div"
  | span => "span"
  | button => "button"
  | label => "label"
  | input => "input"
  | img => "img"

/-- The element has no children by its nature. -/
def isVoid : Tag → Bool
  | input | img => true
  | _ => false

end Tag

/-- What a control is for. -/
inductive Control where
  | button
  | text
  | checkbox
  deriving DecidableEq, Repr

/-- A control as it is written. -/
def Control.name : Control → String
  | button => "button"
  | text => "text"
  | checkbox => "checkbox"

/-- An attribute of an element, the style apart. -/
inductive Attribute where
  /-- the number of the node that the element stands for -/
  | key (id : Int)
  /-- the number of the node whose control the element is -/
  | inputKey (id : Int)
  | control (kind : Control)
  /-- the label read out for a control -/
  | label (text : String)
  | placeholder (text : String)
  /-- the source of a raster image -/
  | source (text : String)
  /-- what is read out for an image -/
  | description (text : String)
  /-- markup put in as it stands, as the body of a template literal -/
  | innerHtml (body : String)
  deriving DecidableEq, Repr

namespace Attribute

/-- The attribute says which node the element stands for. -/
def isKey : Attribute → Bool
  | key _ => true
  | _ => false

/-- The name of an attribute. -/
def name : Attribute → String
  | key _ | inputKey _ => "key"
  | control _ => "type"
  | label _ => "aria-label"
  | placeholder _ => "placeholder"
  | source _ => "src"
  | description _ => "alt"
  | innerHtml _ => "dangerouslySetInnerHTML"

/-- The value of an attribute as it is written. -/
def value : Attribute → String
  | key id => "\"node_" ++ toString id ++ "\""
  | inputKey id => "\"node_" ++ toString id ++ "_input\""
  | control kind => "\"" ++ kind.name ++ "\""
  | label s | placeholder s | source s | description s => "\x7b" ++ Script.quoted s ++ "\x7d"
  | innerHtml body => "\x7b\x7b __html: \x60" ++ body ++ "\x60 \x7d\x7d"

/-- An attribute as it is written. -/
def text (a : Attribute) : String := a.name ++ "=" ++ a.value

end Attribute

/-- The value of a style property as it is written. -/
inductive Written where
  | bare (digits : String)
  | quoted (text : String)
  deriving DecidableEq, Repr

/-- The text of a written value. -/
def Written.text : Written → String
  | bare digits => digits
  | quoted s => Script.quoted s

/-! ## 2. The tree -/

/-- Markup: a text, or an element with attributes, style and children. -/
inductive Markup where
  | text (s : String)
  | element (tag : Tag) (attributes : List Attribute) (style : Entries Written) (children : List Markup)

namespace Markup

instance : Inhabited Markup := ⟨text ""⟩

/-- Written as part of its parent, not as a node below it. -/
def isFixture : Markup → Bool
  | text _ => true
  | element tag attributes _ _ => tag.isVoid || !attributes.any Attribute.isKey

end Markup

end Artboard
