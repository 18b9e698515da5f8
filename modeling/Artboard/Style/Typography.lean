import Artboard.Design.Node
import Artboard.Style.Paint
import Artboard.Text.Basic
import Artboard.Text.Case

/-!
# Typography

Weights, families, line heights and letter spacing of text nodes.  A weight may be a number, a text that
starts with one, or a text with one of the usual words in it; everything else is 400.
-/

namespace Artboard

namespace Typography

/-! ## 1. Weights -/

/-- The weight of a text without one. -/
def defaultWeight : Int := 400

/-- Words for weights; those that contain another word of the list stand before it. -/
def weightWords : List (List String × Int) :=
  [(["thin", "hairline"], 100),
   (["extralight", "ultralight"], 200),
   (["light"], 300),
   (["semibold", "demibold", "demi"], 600),
   (["extrabold", "ultrabold"], 800),
   (["bold"], 700),
   (["medium"], 500),
   (["black", "heavy"], 900),
   (["regular", "normal", "book"], 400)]

/-- The numeral at the start of a text, blanks before it aside: digits of any script, and a point if digits
follow it. -/
def leadingNumeral (s : List Char) : List Char :=
  let body := s.dropWhile Text.isBlank
  let whole := body.takeWhile Text.isDecimalDigit
  match whole, body.dropWhile Text.isDecimalDigit with
  | _ :: _, '.' :: rest =>
    let part := rest.takeWhile Text.isDecimalDigit
    if part.isEmpty then whole else whole ++ '.' :: part
  | _, _ => whole

/-- Blanks, underscores and hyphens, which do not count in the word for a weight. -/
def isSeparator (c : Char) : Bool := Text.isBlank c || c == '_' || c == '-'

/-- The weight that a text names. -/
def namedWeight (s : String) : Int :=
  let style := String.ofList ((Text.lower s).toList.filter fun c => !isSeparator c)
  match weightWords.find? fun entry => Text.containsAny style entry.1 with
  | some (_, weight) => weight
  | none => defaultWeight

/-- The integer part of a double. -/
def wholePart (x : Binary64) : Except Fault Int :=
  match x.truncate? with
  | some i => .ok i
  | none => .error .tooLarge

/-- The weight that a value gives. -/
def weight : Value → Except Fault Int
  | .number (.int i) => .ok i
  | .number (.real x) => .ok (x.truncate?.getD defaultWeight)
  | .text s =>
    let numeral := leadingNumeral s.toList
    if numeral.isEmpty then .ok (namedWeight s)
    else
      match Numeral.readNumeral? (String.ofList numeral) with
      | some x => wholePart x
      | none => .error .badNumeral
  | _ => .ok defaultWeight

/-- The object that names the font of a text. -/
def fontName (fields : Members) : Members := ((fields.get "fontName").members?).getD []

/-- The weight of a text node. -/
def weightOf (fields : Members) : Except Fault Int :=
  let given := fields.get "fontWeight"
  weight (if given.isNull then (fontName fields).get "style" else given)

/-! ## 2. Families -/

/-- The first family of a list, without quotes and the blanks around it. -/
def family? : Value → Option String
  | .text s =>
    let first := s.toList.takeWhile (· != ',')
    let bare := Text.trimBoth Text.isBlank (first.filter fun c => c != '\'' && c != '"')
    if bare.isEmpty then none else some (String.ofList bare)
  | _ => none

/-- The family of a text node. -/
def familyOf? (fields : Members) : Option String :=
  let given := fields.get "fontFamily"
  family? (if given.isTruthy then given else (fontName fields).get "family")

/-! ## 3. Measures -/

/-- The unit of a measure; pixels where it has none. -/
def unitOf (measure : Members) : String :=
  match measure.get "unit" with
  | .text s => if s = "" then "PIXELS" else Text.upper s
  | _ => "PIXELS"

/-- The line height that follows from the size of the font. -/
def defaultLineHeight? : Option Number → Except Fault (Option String)
  | none => .ok none
  | some size =>
    if size.isZero then .ok none
    else do
      let ratio := Number.real (Binary64.ofDecimal false ⟨12, -1⟩)
      return some (← (← size.mul ratio).px)

/-- The height of a line: as given, or 1.2 times the size of the font. -/
def lineHeight? (given : Value) (fontSize : Option Number) : Except Fault (Option String) :=
  match given with
  | .object measure =>
    let unit := unitOf measure
    if unit = "AUTO" then .ok (some "normal")
    else
      match (Entries.get measure "value").number? with
      | some n =>
        if unit = "PERCENT" then return some ((← n.format 2) ++ "%")
        else if unit = "PIXELS" then return some (← n.px)
        else defaultLineHeight? fontSize
      | none => defaultLineHeight? fontSize
  | v =>
    match v.number? with
    | some n => return some (← n.px)
    | none => defaultLineHeight? fontSize

/-- A measure of spacing in pixels, or of a percentage in the size of the font. -/
def spacing? (n : Option Number) (percent : Bool) : Except Fault (Option String) :=
  match n with
  | none => .ok none
  | some n =>
    if n.isZero then .ok none
    else if percent then do return some ((← (← n.divNat 100).format 4) ++ "em")
    else do return some (← n.px)

/-- The space between letters; nothing for zero. -/
def letterSpacing? : Value → Except Fault (Option String)
  | .object measure => spacing? (Entries.get measure "value").number? (unitOf measure == "PERCENT")
  | v => spacing? v.number? false

/-- Where the lines of a text are aligned. -/
def align : Value → String
  | .text s =>
    if s = "" then "left"
    else
      match Text.upper s with
      | "LEFT" => "left"
      | "CENTER" => "center"
      | "RIGHT" => "right"
      | "JUSTIFIED" => "justify"
      | _ => Text.lower s
  | _ => "left"

/-- The size of a font as a style; nothing for zero. -/
def size? (fontSize : Option Number) : Except Fault (Option String) :=
  match fontSize with
  | none => .ok none
  | some n => if n.isZero then .ok none else some <$> n.px

/-! ## 4. The style of a text -/

/-- The properties of a text node that are about its text. -/
def style (fields : Members) : Except Fault Style := do
  let fontSize := (fields.get "fontSize").number?
  let color ← Paint.firstSolid? (fields.get "fills")
  let size ← size? fontSize
  let weight ← weightOf fields
  let lineHeight ← lineHeight? (fields.get "lineHeight") fontSize
  let letterSpacing ← letterSpacing? (fields.get "letterSpacing")
  let base := ((Entries.putText? [] "color" color).putText? "fontSize" size).putText? "fontFamily"
    (familyOf? fields)
  let aligned := (base.put "fontWeight" (.whole weight)).putText "textAlign"
    (align (fields.get "textAlign"))
  return ((aligned.putText? "lineHeight" lineHeight).putText? "letterSpacing" letterSpacing).putText
    "whiteSpace" "pre-wrap"

end Typography

end Artboard
