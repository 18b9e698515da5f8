import Artboard.Entries
import Artboard.Number.Basic

/-!
# Styles

A style maps property names to values, in the order in which they are written.  A value is a text or a
number, and a number is written out only when the style is.
-/

namespace Artboard

/-- The value of a style property. -/
inductive StyleValue where
  | text (s : String)
  | number (n : Number)
  deriving DecidableEq

/-- Properties in the order in which they are written. -/
abbrev Style := Entries StyleValue

namespace StyleValue

/-- A whole number. -/
def whole (i : Int) : StyleValue := number (.int i)

end StyleValue

namespace Entries

/-- A text property put into a style. -/
def putText (style : Style) (name s : String) : Style := style.put name (.text s)

/-- A text property put into a style where there is one. -/
def putText? (style : Style) (name : String) : Option String → Style
  | some s => style.putText name s
  | none => style

end Entries

end Artboard
