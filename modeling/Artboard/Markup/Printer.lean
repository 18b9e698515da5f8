import Artboard.Fault
import Artboard.Markup.Basic

/-!
# Markup in lines

An element takes one line for its tag, one for each attribute, one for each style property between two
that hold the block together, and then either closes itself or encloses its children.  Each level is two
spaces further in, below a margin of six.

Levels may start below zero, where the indent stays at the margin; a level beyond machine words, or whose
indent would be, has none.  A fixture is one step in from its parent as that is written, a node one level
below it, which differs only down there.
-/

namespace Artboard

namespace Markup

/-- One step of indent. -/
def step : String := "  "

/-- The indent of a level. -/
def indent (level : Int) : String := String.ofList (List.replicate (6 + 2 * level.toNat) ' ')

/-- The level has an indent. -/
def checkLevel (level : Int) : Except Fault Unit :=
  if -Int.pow 2 63 ≤ level ∧ level < Int.pow 2 62 then .ok () else .error .tooLarge

/-- The level of a child. -/
def childLevel (level : Int) (child : Markup) : Int :=
  if child.isFixture then level.toNat + 1 else level + 1

/-- A style block, nothing for a style without properties. -/
def styleLines (pad : String) (style : Entries Written) : List String :=
  if style.isEmpty then []
  else (pad ++ "style=\x7b\x7b") ::
    style.map (fun e => pad ++ step ++ e.1 ++ ": " ++ e.2.text ++ ",") ++ [pad ++ "\x7d\x7d"]

/-- The opening of an element, up to its closing bracket. -/
def openingLines (pad : String) (tag : Tag) (attributes : List Attribute) (style : Entries Written) :
    List String :=
  (pad ++ "<" ++ tag.name) ::
    attributes.map (fun a => pad ++ step ++ a.text) ++ styleLines (pad ++ step) style

mutual

/-- The lines of a markup at a level. -/
def lines (level : Int) : Markup → List String
  | text s => [indent level ++ "\x7b" ++ Script.quoted s ++ "\x7d"]
  | element tag attributes style children =>
    let pad := indent level
    openingLines pad tag attributes style ++
      (if children.isEmpty then [pad ++ "/>"]
      else (pad ++ ">") :: childLines level children ++ [pad ++ "</" ++ tag.name ++ ">"])

/-- The lines of the children of an element at a level. -/
def childLines (level : Int) : List Markup → List String
  | [] => []
  | child :: rest => lines (childLevel level child) child ++ childLines level rest

end

/-- Lines put together. -/
def joinLines (ls : List String) : String := "\n".intercalate ls

/-- A markup at a level. -/
def print (level : Int) (markup : Markup) : String := joinLines (markup.lines level)

end Markup

end Artboard
