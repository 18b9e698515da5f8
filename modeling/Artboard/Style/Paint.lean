import Artboard.Json.Value
import Artboard.Style.Basic

/-!
# Paints

A colour has red, green and blue channels from 0 to 1 and may have an opacity of its own; the opacity of
the paint it belongs to goes before that.  A channel that is missing is 0, and one that is no number leaves
no colour.

Fills, strokes and effects are lists of objects.  A fill counts unless it is hidden; the first that counts
is the background, a solid colour or a linear gradient.  Of strokes the first entry is the border, and of
effects the first drop shadow that is not hidden is the shadow.
-/

namespace Artboard

/-! ## 1. Colours -/

namespace Color

/-- A channel as a number up to 255. -/
def channel (n : Number) : Except Fault Int := do (← n.mul (.int 255)).roundToInt

/-- The channels of a colour, written. -/
def channelsText (red green blue : Int) : Except Fault String := do
  let r ← Number.writeInt red
  let g ← Number.writeInt green
  let b ← Number.writeInt blue
  return r ++ ", " ++ g ++ ", " ++ b

/-- A channel of a colour; 0 where it is missing. -/
def channel? (color : Members) (name : String) : Option Number :=
  ((color.get? name).getD (.number (.int 0))).number?

/-- The opacity of a paint, or of its colour where the paint has none, or 1. -/
def alpha (color : Members) (opacity : Value) : Number :=
  let given := if opacity.isNull then (color.get? "a").getD (.number (.int 1)) else opacity
  given.numberOr (.int 1)

end Color

/-- The text of a colour with the opacity of its paint; nothing for what is no colour. -/
def colorText? (color opacity : Value) : Except Fault (Option String) :=
  match color with
  | .object (m :: ms) => do
    let members := m :: ms
    match Color.channel? members "r", Color.channel? members "g", Color.channel? members "b" with
    | some r, some g, some b =>
      let red ← Color.channel r
      let green ← Color.channel g
      let blue ← Color.channel b
      let channels ← Color.channelsText red green blue
      let alpha := Color.alpha members opacity
      if alpha.lt (.int 1) then return some ("rgba(" ++ channels ++ ", " ++ (← alpha.format 2) ++ ")")
      else return some ("rgb(" ++ channels ++ ")")
    | _, _, _ => return none
  | _ => return none

namespace Paint

/-! ## 2. Lists of paints -/

/-- The objects among values. -/
def objects (vs : List Value) : List Members := vs.filterMap Value.members?

/-- The paints of a list that are not hidden. -/
def shown (paints : Value) : List Members :=
  (objects paints.items).filter fun p => !(p.get "visible").isFalse

/-- A solid paint. -/
def isSolid (paint : Members) : Bool := (paint.get "type").isText "SOLID"

/-- The colour of a paint, with its opacity. -/
def color? (paint : Members) : Except Fault (Option String) :=
  colorText? (paint.get "color") (paint.get "opacity")

/-- The colour of the first solid paint that is not hidden and gives one. -/
def firstSolid? (paints : Value) : Except Fault (Option String) :=
  match (shown paints).find? fun p => isSolid p && (p.get "color").isTruthy with
  | some p => color? p
  | none => .ok none

/-! ## 3. Gradients -/

/-- A stop of a gradient: its colour and its place; nothing where one of them is missing. -/
def stop? (stop : Members) : Except Fault (Option String) := do
  match ← colorText? (stop.get "color") .null, (stop.get "position").number? with
  | some color, some position =>
    return some (color ++ " " ++ (← (← position.mul (.int 100)).format 2) ++ "%")
  | _, _ => return none

/-- The texts of the stops that have one. -/
def stops : List Members → Except Fault (List String)
  | [] => .ok []
  | s :: rest => do
    let head ← stop? s
    let tail ← stops rest
    return head.toList ++ tail

/-- The text of a gradient; nothing without usable stops. -/
def gradient? (value : Value) : Except Fault (Option String) := do
  let parts ← stops (objects value.items)
  if parts.isEmpty then return none
  else return some ("linear-gradient(180deg, " ++ ", ".intercalate parts ++ ")")

/-! ## 4. Properties -/

/-- The background that fills give. -/
def background (fills : Value) : Except Fault Style :=
  match shown fills with
  | [] => .ok []
  | fill :: _ =>
    if isSolid fill then return Entries.putText? [] "backgroundColor" (← color? fill)
    else if (fill.get "type").isText "GRADIENT_LINEAR" then
      return Entries.putText? [] "background" (← gradient? (fill.get "gradientStops"))
    else .ok []

/-- The weight of a stroke; 1 where it is missing or zero. -/
def strokeWeight (stroke : Members) : Number :=
  match (stroke.get "weight").number? with
  | some n => if n.isZero then .int 1 else n
  | none => .int 1

/-- The border that strokes give. -/
def border (strokes : Value) : Except Fault Style :=
  match strokes.items with
  | .object stroke :: _ =>
    if isSolid stroke then do
      match ← color? stroke with
      | some color =>
        return [("borderWidth", .text (← (strokeWeight stroke).px)), ("borderStyle", .text "solid"),
          ("borderColor", .text color), ("boxSizing", .text "border-box")]
      | none => return []
    else .ok []
  | _ => .ok []

/-- The colour of a shadow that gives none. -/
def defaultShadow : String := "rgba(0, 0, 0, 0.5)"

/-- A drop shadow that is not hidden. -/
def isShadow (effect : Members) : Bool :=
  (effect.get "type").isText "DROP_SHADOW" && !(effect.get "visible").isFalse

/-- The shadow that effects give. -/
def shadow (effects : Value) : Except Fault Style :=
  match (objects effects.items).find? isShadow with
  | none => .ok []
  | some effect => do
    let offset := ((effect.get "offset").members?).getD []
    let color ← colorText? (effect.get "color") .null
    let x ← ((offset.get "x").numberOr (.int 0)).px
    let y ← ((offset.get "y").numberOr (.int 0)).px
    let blur ← ((effect.get "radius").numberOr (.int 0)).px
    return [("boxShadow", .text (x ++ " " ++ y ++ " " ++ blur ++ " " ++ color.getD defaultShadow))]

end Paint

end Artboard
