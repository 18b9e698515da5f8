import Artboard.Composition
import Artboard.File.Path
import Artboard.Font.Lookup
import Artboard.Text.Case

/-!
# Components

What is written for a composition: the code of a component that draws it, and its stylesheet.  A component
is named for its first root, by the letters and digits of the name (`Component.nameOf`), and it is drawn in
a container of the size and with the background of that root.  From a forest to its component
(`Component.build`) the forest is compiled and the fonts of its texts are looked up.
-/

namespace Artboard

/-- A component, by name, with its code and its stylesheet. -/
structure Component where
  name : String
  code : String
  stylesheet : String
  deriving DecidableEq, Repr

namespace Component

/-! ## 1. Names -/

/-- The name of a component that has no name of its own. -/
def defaultName : String := "FigmaComponent"

/-- Plain letters and digits, which alone count in a name. -/
def isNameChar (c : Char) : Bool := c.isAlphanum

/-- The name made of some letters and digits: it starts with an upper-case letter. -/
def nameOfChars : List Char → String
  | [] => defaultName
  | c :: rest =>
    if c.isDigit then "Component" ++ String.ofList (c :: rest) else String.ofList (c.toUpper :: rest)

/-- The name that a value gives a component; only a text has letters, and nothing at all counts as an empty
text. -/
def nameOf : Value → Except Fault String
  | .text s => .ok (nameOfChars (s.toList.filter isNameChar))
  | v => if v.isTruthy then .error .notText else .ok defaultName

/-- The class of the container of a component. -/
def containerClass (name : String) : String := Text.lower name ++ "-container"

/-- The name of the file of the code. -/
def codeFile (name : String) : String := name ++ ".jsx"

/-- The name of the file of the stylesheet. -/
def stylesheetFile (name : String) : String := name ++ ".css"

/-! ## 2. Texts -/

/-- The code of a component around its markup. -/
def codeText (markup name : String) : String :=
  "\n".intercalate ([
    "import React from 'react';",
    "import './" ++ stylesheetFile name ++ "';",
    "",
    "const " ++ name ++ " = () => \x7b",
    "  return (",
    "    <div className=\"" ++ containerClass name ++ "\">"] ++
    (if markup = "" then [] else [markup]) ++ [
    "    </div>",
    "  );",
    "\x7d;",
    "",
    "export default " ++ name ++ ";",
    ""])

/-- The rule for the container of a component, by the fields of the first root. -/
def containerRule (fields : Members) (name : String) : Except Fault String := do
  let background ← Paint.firstSolid? (fields.get "fills")
  let width ← ((fields.get "width").numberOr (.int 0)).px
  let height ← ((fields.get "height").numberOr (.int 0)).px
  return "\n".intercalate [
    "." ++ containerClass name ++ " \x7b",
    "  position: relative;",
    "  width: " ++ width ++ ";",
    "  height: " ++ height ++ ";",
    "  background: " ++ background.getD "transparent" ++ ";",
    "  box-sizing: border-box;",
    "\x7d",
    ""]

/-- The stylesheet of a component: that of its fonts, if any, and the rule for its container. -/
def stylesheetText (fields : Members) (name fonts : String) : Except Fault String := do
  let rule ← containerRule fields name
  let fonts := Text.trimBlank fonts
  return if fonts = "" then rule else fonts ++ "\n\n" ++ rule

/-- The code of the application that shows a component, imported from a directory. -/
def appEntry (name directory : String) : String :=
  "\n".intercalate [
    "import React from 'react';",
    "import " ++ name ++ " from '" ++ Path.join directory name ++ "';",
    "",
    "function App() \x7b",
    "  return (",
    "    <div className=\"App\">",
    "      <" ++ name ++ " />",
    "    </div>",
    "  );",
    "\x7d",
    "",
    "export default App;",
    ""]

/-! ## 3. Compositions as components -/

/-- A composition as a component. -/
def ofComposition (c : Composition) (name : Value) (fonts : String) : Except Fault Component := do
  let name ← nameOf name
  let stylesheet ← stylesheetText c.firstFields name fonts
  return ⟨name, codeText c.text name, stylesheet⟩

/-- The component of a forest. -/
def build (world : FontWorld) (forest : Value) : StateM FontSession (Except Fault Component) := do
  match Composition.ofValue forest with
  | .error f => return .error f
  | .ok c =>
    let fonts ← world.stylesheet c.fonts
    return ofComposition c (c.firstFields.get "name") fonts

end Component

end Artboard
