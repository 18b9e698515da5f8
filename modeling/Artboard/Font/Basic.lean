import Artboard.Text.Basic
import Artboard.Text.Case

/-!
# Fonts

Which weights of which families a design uses (`FontUsage`).  Families ascend by their characters and weights by size,
and each is there once.  A family may be there before any of its weights is known.

A family that every system has needs no stylesheet.  Every other one has a stylesheet at an address made
of its name and its weights, and can be imported from there.
-/

namespace Artboard

/-! ## 1. Usage -/

/-- Families with their weights, both ascending. -/
abbrev FontUsage := List (String × List Int)

namespace FontUsage

/-- A weight inserted in order. -/
def insertWeight (weight : Int) : List Int → List Int
  | [] => [weight]
  | w :: rest =>
    if weight < w then weight :: w :: rest
    else if weight = w then w :: rest
    else w :: insertWeight weight rest

/-- The distinct weights of a list, ascending. -/
def distinct (weights : List Int) : List Int := weights.foldr insertWeight []

/-- The weights of a family changed; a new family starts without any. -/
def change (f : List Int → List Int) (family : String) : FontUsage → FontUsage
  | [] => [(family, f [])]
  | (name, weights) :: rest =>
    if family < name then (family, f []) :: (name, weights) :: rest
    else if family = name then (name, f weights) :: rest
    else (name, weights) :: change f family rest

/-- A family noted. -/
def touch (family : String) (usage : FontUsage) : FontUsage := change id family usage

/-- A weight of a family noted. -/
def add (family : String) (weight : Int) (usage : FontUsage) : FontUsage :=
  change (insertWeight weight) family usage

/-- The usage of families with weights in any order; of a family that is listed again the last weights
count. -/
def ofList (families : List (String × List Int)) : FontUsage :=
  families.foldl (fun usage (family, weights) => change (fun _ => distinct weights) family usage) []

end FontUsage

/-! ## 2. Stylesheets -/

namespace Font

/-- Families that every system has, in lower case. -/
def systemFamilies : List String :=
  ["arial", "helvetica", "helvetica neue", "roboto", "-apple-system", "blinkmacsystemfont", "system-ui",
   "sans-serif", "serif", "monospace", "times new roman", "georgia", "verdana", "segoe ui", "sf pro",
   "sf pro display", "sf pro text"]

/-- The family is on every system; case and blanks at the ends do not matter. -/
def isSystem (family : String) : Bool := systemFamilies.contains (Text.lower (Text.trimBlank family))

/-- Where stylesheets are. -/
def stylesheetBase : String := "https://fonts.googleapis.com/css2"

/-- The name of a family in an address: without blanks at the ends, and with a plus for each space. -/
def addressName (family : String) : String :=
  String.ofList ((Text.trimBlank family).toList.map fun c => if c == ' ' then '+' else c)

/-- The weights of a family in an address, ascending; none for the one weight that a family has anyway. -/
def addressWeights (weights : List Int) : String :=
  if weights.isEmpty then ""
  else ":wght@" ++ ";".intercalate ((weights.mergeSort fun a b => decide (a ≤ b)).map toString)

/-- The address of the stylesheet for some weights of a family. -/
def stylesheetUrl (family : String) (weights : List Int) : String :=
  stylesheetBase ++ "?family=" ++ addressName family ++ addressWeights weights ++ "&display=swap"

/-- The rule that imports the stylesheet for some weights of a family. -/
def importRule (family : String) (weights : List Int) : String :=
  "@import url(\"" ++ stylesheetUrl family weights ++ "\");"

end Font

end Artboard
