import Artboard.Fault
import Artboard.Font.Basic
import Artboard.Style.Typography

/-!
# Progress of a compilation

Nodes are numbered in the order in which they are drawn, and the fonts of their texts are noted on the way.
A fault stops a compilation but not what came before it: the numbers given out and the fonts noted until
then remain (`Compile`).
-/

namespace Artboard

/-- What has been given out and noted so far. -/
structure Progress where
  /-- the number of the next node -/
  counter : Int := 0
  fonts : FontUsage := []

/-- A step of a compilation, which may fail and keeps the progress made. -/
abbrev Compile (α : Type) := ExceptT Fault (StateM Progress) α

namespace Compile

/-- A step run from a progress, with the progress after it. -/
def runFrom {α : Type} (step : Compile α) (start : Progress) : Except Fault α × Progress :=
  (ExceptT.run step).run start

/-- The number of the next node, given out. -/
def nextId : Compile Int := modifyGet fun p => (p.counter, { p with counter := p.counter + 1 })

/-- The font of a text noted, its family first. -/
def useFont (fields : Members) : Compile Unit :=
  match Typography.familyOf? fields with
  | none => pure ()
  | some family => do
    modify fun p => { p with fonts := p.fonts.touch family }
    let weight ← (Typography.weightOf fields : Except Fault Int)
    modify fun p => { p with fonts := p.fonts.add family weight }

end Compile

end Artboard
