import Artboard.Json.Value
import Artboard.Text.Basic
import Artboard.Text.Printable

/-!
# Values as display text

A design may give any value where a text is shown, as the name of an image.  A text is shown as it is,
numbers and truth values by their own words, and lists and objects with the texts inside them quoted
(`quotedText`).
-/

namespace Artboard

namespace Text

/-- What stands for a character in a quoted text: letters for tab and line ends, hexadecimal digits for
other characters that do not show. -/
def displayChar (quote c : Char) : List Char :=
  if c == quote || c == '\\' then ['\\', c]
  else if c == '\t' then ['\\', 't']
  else if c == '\n' then ['\\', 'n']
  else if c == '\r' then ['\\', 'r']
  else if isPrintable c then [c]
  else if c.toNat < 0x100 then '\\' :: 'x' :: hexDigits 2 c.toNat
  else if c.toNat < 0x10000 then '\\' :: 'u' :: hexDigits 4 c.toNat
  else '\\' :: 'U' :: hexDigits 8 c.toNat

/-- A text in single quotes, or in double quotes where it holds single quotes only. -/
def quotedText (s : String) : String :=
  let chars := s.toList
  let quote := if chars.contains '\'' && !chars.contains '"' then '"' else '\''
  String.ofList (quote :: chars.flatMap (displayChar quote) ++ [quote])

end Text

namespace Value

mutual

/-- A value inside a list or an object. -/
def displayInner : Value → String
  | null => "None"
  | bool b => if b then "True" else "False"
  | number n => n.text
  | text s => Text.quotedText s
  | list items => "[" ++ ", ".intercalate (displayItems items) ++ "]"
  | object members => "\x7b" ++ ", ".intercalate (displayMembers members) ++ "\x7d"

/-- The items of a list. -/
def displayItems : List Value → List String
  | [] => []
  | v :: rest => displayInner v :: displayItems rest

/-- The members of an object, each as its name and its value. -/
def displayMembers : List (String × Value) → List String
  | [] => []
  | (name, v) :: rest => (Text.quotedText name ++ ": " ++ displayInner v) :: displayMembers rest

end

/-- The text that a value is shown as. -/
def display : Value → String
  | text s => s
  | v => v.displayInner

end Value

end Artboard
