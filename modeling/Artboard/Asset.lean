import Artboard.Json.Value
import Artboard.Script.Literal
import Artboard.Text.Basic
import Artboard.Text.Encoding

/-!
# Assets

A node may carry an image of itself, as vector markup or as the source of a raster image.  Such a node is
drawn from the image, and vector markup goes before a raster image (`Asset.ofNode?`).  Vector markup is kept as the
body of a template literal.

Vector markup is the payload of a field, in one of three forms: as it is, as a data URI in base64, or as a data URI in
percent-encoding.  The fixed parts of a URI match in either case of letters (`Payload.folds`).  Whatever the form,
what comes out has to hold an `<svg` somewhere, or the payload is of no use (`Payload.markup?`).
-/

namespace Artboard

namespace Payload

/-! ## 1. Matching without case -/

/-- A character matches a lower-case letter: as either case of it, as a long s, or as an i with or without
its dot. -/
def folds (letter c : Char) : Bool :=
  c.toLower == letter || (letter == 's' && c == '\u017F') ||
    (letter == 'i' && (c == '\u0130' || c == '\u0131'))

/-- The text after a word that is given in lower case. -/
def after? : (word s : List Char) → Option (List Char)
  | [], s => some s
  | _ :: _, [] => none
  | w :: ws, c :: s => if folds w c then after? ws s else none

/-! ## 2. Data URIs -/

/-- What every URI of vector markup starts with. -/
def scheme : List Char := "data:image/svg+xml".toList

/-- A character that can stand in a parameter's value. -/
def inParameter (c : Char) : Bool := c != ',' && c != ';'

/-- The text after a parameter that names a character set, or the whole text where there is none. -/
def skipCharset (s : List Char) : List Char :=
  match after? ";charset=".toList s with
  | none => s
  | some rest => if (rest.takeWhile inParameter).isEmpty then s else rest.dropWhile inParameter

/-- The text after a word that may be there. -/
def skipWord (word s : List Char) : List Char := (after? word s).getD s

/-- The body of a URI in base64. -/
def base64Body? (s : List Char) : Option (List Char) :=
  (after? scheme s).bind fun rest => after? ";base64,".toList (skipCharset rest)

/-- The body of a URI in percent-encoding. -/
def percentBody? (s : List Char) : Option (List Char) :=
  (after? scheme s).bind fun rest => after? [','] (skipWord ";utf8".toList (skipCharset rest))

/-! ## 3. Markup -/

/-- The text holds the start of a vector image, in either case of letters. -/
def hasVector (s : String) : Bool := Text.holds "<svg".toList (s.toList.map Char.toLower)

/-- The text of a payload without its blanks at both ends and without its encoding. -/
def unwrap? (s : String) : Option String :=
  let chars := Text.trimBoth Text.isBlank s.toList
  match base64Body? chars with
  | some body => (Text.Base64.decode? (Text.dropBlanks body)).bind Text.decodeUtf8?
  | none =>
    match percentBody? chars with
    | some body => some (String.ofList (Text.Percent.decode body))
    | none => some (String.ofList chars)

/-- The vector markup of a payload. -/
def markup? : Value → Option String
  | .text s => (unwrap? s).filter hasVector
  | _ => none

end Payload

/-! ## 4. The image of a node -/

/-- The image that a node is drawn from. -/
inductive Asset where
  | vector (body : String)
  | raster (source : String)
  deriving DecidableEq, Repr

namespace Asset

/-- How a raster image fits its box. -/
def fit : String := "contain"

/-- The vector image of a field. -/
def vectorIn? (fields : Members) (name : String) : Option Asset :=
  (Payload.markup? (fields.get name)).map fun markup => vector (Script.escapeTemplate markup)

/-- The raster image of a node. -/
def rasterIn? (fields : Members) : Option Asset :=
  match fields.get "image" with
  | .text s =>
    let source := Text.trimBlank s
    if source = "" then none else some (raster source)
  | _ => none

/-- The image that a node is drawn from, if it carries one that can be used. -/
def ofNode? (fields : Members) : Option Asset :=
  (vectorIn? fields "svg").or ((vectorIn? fields "svgBase64").or (rasterIn? fields))

end Asset

end Artboard
