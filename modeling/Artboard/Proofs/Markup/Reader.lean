import Artboard.Proofs.Markup.Scanner

/-!
# Reading markup: elements

The second half of a reader of markup builds elements from tokens.  It knows the elements that are still open
(`Opened`) and what stands so far inside the innermost of them, and takes an element apart in the order in
which it is written: its tag, its attributes, its style, and then its end or its children.  Whatever is not
of this form is refused: an attribute or a tag that is not in use, an end without its start, a start without
its end.

`Markup.read?` reads a whole text as the list of elements that it spells.
-/

namespace Artboard.Reader

/-! ## 1. Names -/

/-- The tag of a name. -/
def tag? (name : String) : Option Tag :=
  [Tag.div, .span, .button, .label, .input, .img].find? fun tag => tag.name = name

/-- The control of a name. -/
def control? (name : String) : Option Control :=
  [Control.button, .text, .checkbox].find? fun kind => kind.name = name

/-- The key that a text spells: the number of a node, or that of a node's control. -/
def key? (text : String) : Option Attribute :=
  match text.toList with
  | 'n' :: 'o' :: 'd' :: 'e' :: '_' :: rest =>
    let tail := rest.dropWhile (· != '_')
    (Numeral.integer? (rest.takeWhile (· != '_'))).bind fun id =>
      if tail = [] then some (.key id)
      else if tail = "_input".toList then some (.inputKey id)
      else none
  | _ => none

/-- The attribute of a name with a value between double quotes. -/
def plainAttribute? (name text : String) : Option Attribute :=
  if name = "key" then key? text
  else if name = "type" then (control? text).map .control
  else none

/-- The attribute of a name with a literal for its value. -/
def literalAttribute? (name text : String) : Option Attribute :=
  if name = "aria-label" then some (.label text)
  else if name = "placeholder" then some (.placeholder text)
  else if name = "src" then some (.source text)
  else if name = "alt" then some (.description text)
  else none

/-- The attribute of a name whose value is an object of one template. -/
def templateAttribute? (name inner body : String) : Option Attribute :=
  if name = "dangerouslySetInnerHTML" ∧ inner = "__html" then some (.innerHtml body) else none

/-! ## 2. Elements -/

/-- An element whose end has not been read, with what stands before it in its parent. -/
structure Opened where
  before : List Markup
  tag : Tag
  attributes : List Attribute
  style : Entries Written

mutual

/-- Elements and texts, inside of the elements that are open and behind what has been read there. -/
def readContent (around : List Opened) (here : List Markup) : List Token → Option (List Markup)
  | [] => if around.isEmpty then some here else none
  | .leftBrace :: .literal s :: .rightBrace :: rest => readContent around (here ++ [.text s]) rest
  | .less :: .word name :: rest => (tag? name).bind fun tag => readAttributes around here tag [] rest
  | .less :: .slash :: .word name :: .greater :: rest =>
    match around with
    | [] => none
    | o :: outer =>
      if o.tag.name = name then
        readContent outer (o.before ++ [.element o.tag o.attributes o.style here]) rest
      else none
  | _ => none

/-- The rest of an element behind some of its attributes. -/
def readAttributes (around : List Opened) (here : List Markup) (tag : Tag) (attributes : List Attribute) :
    List Token → Option (List Markup)
  | .word name :: .equals :: .plain s :: rest =>
    (plainAttribute? name s).bind fun a => readAttributes around here tag (attributes ++ [a]) rest
  | .word name :: .equals :: .leftBrace :: .literal s :: .rightBrace :: rest =>
    (literalAttribute? name s).bind fun a => readAttributes around here tag (attributes ++ [a]) rest
  | .word name :: .equals :: .leftBrace :: .leftBrace :: .word inner :: .colon :: .template body ::
      .rightBrace :: .rightBrace :: rest =>
    (templateAttribute? name inner body).bind fun a =>
      readAttributes around here tag (attributes ++ [a]) rest
  | .word name :: .equals :: .leftBrace :: .leftBrace :: rest =>
    if name = "style" then readStyle around here tag attributes [] rest else none
  | .slash :: .greater :: rest => readContent around (here ++ [.element tag attributes [] []]) rest
  | .greater :: rest => readContent (⟨here, tag, attributes, []⟩ :: around) [] rest
  | _ => none

/-- The rest of an element behind some of its style. -/
def readStyle (around : List Opened) (here : List Markup) (tag : Tag) (attributes : List Attribute)
    (style : Entries Written) : List Token → Option (List Markup)
  | .word name :: .colon :: .literal s :: .comma :: rest =>
    readStyle around here tag attributes (style ++ [(name, .quoted s)]) rest
  | .word name :: .colon :: .numeral digits :: .comma :: rest =>
    readStyle around here tag attributes (style ++ [(name, .bare digits)]) rest
  | .rightBrace :: .rightBrace :: .slash :: .greater :: rest =>
    readContent around (here ++ [.element tag attributes style []]) rest
  | .rightBrace :: .rightBrace :: .greater :: rest =>
    readContent (⟨here, tag, attributes, style⟩ :: around) [] rest
  | _ => none

end

end Artboard.Reader

namespace Artboard

/-- The elements that a text spells. -/
def Markup.read? (text : String) : Option (List Markup) :=
  (Reader.tokens? text).bind (Reader.readContent [] [])

end Artboard
