import Artboard.Number.Decimal
import Artboard.Text.Basic

/-!
# Numerals: reading a number from text

A numeral is an optional sign followed by `inf`, `infinity` or `nan` in any case of letters, or by
digits with an optional point and an optional power of ten.  It may have underscores in it, and blanks around
it; there are two rules for them.

* `readDouble?` takes ASCII digits only.  A numeral with blanks has no underscores, and else they may stand
  anywhere inside, one at a time.
* `readNumeral?` takes the digits of every script.  An underscore stands between two digits.
-/

namespace Artboard.Numeral

/-! ## 1. Underscores -/

/-- The text without its underscores, if each of them stands between two digits. -/
def dropUnderscores (previousDigit : Bool) : List Char → Option (List Char)
  | [] => some []
  | '_' :: rest =>
    match rest with
    | next :: _ => if previousDigit && next.isDigit then dropUnderscores false rest else none
    | [] => none
  | c :: rest => (dropUnderscores c.isDigit rest).map (c :: ·)

/-- The text without its underscores, if each of them stands between two other characters. -/
def dropInnerUnderscores (afterOther : Bool) : List Char → Option (List Char)
  | [] => some []
  | '_' :: rest =>
    match rest with
    | '_' :: _ => none
    | _ :: _ => if afterOther then dropInnerUnderscores false rest else none
    | [] => none
  | c :: rest => (dropInnerUnderscores true rest).map (c :: ·)

/-! ## 2. Decimals -/

/-- The number that ASCII digits spell. -/
def valueOf (digits : List Char) : Nat := digits.foldl (fun n c => 10 * n + (c.toNat - 48)) 0

/-- The sign in front of a text, and the rest. -/
def takeSign : List Char → Bool × List Char
  | '-' :: rest => (true, rest)
  | '+' :: rest => (false, rest)
  | s => (false, s)

/-- The power of ten at the end of a numeral: nothing, or a mark with a signed whole number. -/
def power? : List Char → Option Int
  | [] => some 0
  | mark :: rest =>
    if mark == 'e' || mark == 'E' then
      let (negative, digits) := takeSign rest
      if digits.isEmpty || !digits.all Char.isDigit then none
      else some (if negative then -(valueOf digits : Int) else valueOf digits)
    else none

/-- A decimal without sign: digits with an optional point, and an optional power of ten. -/
def decimal? (s : List Char) : Option Decimal :=
  let whole := s.takeWhile Char.isDigit
  let rest := s.dropWhile Char.isDigit
  let (part, tail) := match rest with
    | '.' :: more => (more.takeWhile Char.isDigit, more.dropWhile Char.isDigit)
    | _ => ([], rest)
  if whole.isEmpty && part.isEmpty then none
  else (power? tail).map fun p => ⟨valueOf (whole ++ part), p - part.length⟩

/-! ## 3. Whole numerals -/

/-- A numeral without blanks and underscores. -/
def read? (s : List Char) : Option Binary64 :=
  let (negative, body) := takeSign s
  let word := body.map Char.toLower
  if word == "inf".toList || word == "infinity".toList then some (.infinity negative)
  else if word == "nan".toList then some .nan
  else (decimal? body).map (Binary64.ofDecimal negative)

/-- Blanks that may surround a numeral: all but the information separators. -/
def isMargin (c : Char) : Bool := Text.isBlank c && !(0x1C ≤ c.toNat && c.toNat ≤ 0x1F)

/-- The double that an ASCII numeral spells, with blanks around it or with underscores inside. -/
def readDouble? (s : String) : Option Binary64 :=
  let chars := s.toList
  (read? (Text.trimBoth isMargin chars)).or ((dropInnerUnderscores false chars).bind read?)

/-- A digit of any script as its ASCII digit; other characters as they are. -/
def toAsciiDigit (c : Char) : Char :=
  match Text.digitValue? c with
  | some v => Char.ofNat (48 + v)
  | none => c

/-- The double that a numeral in any script spells, with underscores between its digits and blanks around
it. -/
def readNumeral? (s : String) : Option Binary64 :=
  (dropUnderscores false ((Text.trimBoth isMargin s.toList).map toAsciiDigit)).bind read?

end Artboard.Numeral
