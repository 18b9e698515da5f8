import Artboard.Json.Value
import Artboard.Text.Basic
import Artboard.Text.Surrogate

/-!
# Reading JSON text

Besides the standard grammar the words `NaN`, `Infinity` and `-Infinity` are numbers, and of several
members with one name the last value stands, at the place of the first.  A number without point and power
of ten is whole and may have at most 4300 digits.  A lone surrogate is read as the character that stands for
it.

The reader walks a list of characters; what a step has not read is returned beside its result.  The fuel
of the nested steps is twice the length of the text: every step that uses some has read a character.
-/

namespace Artboard.Json

/-- Why a text is not read. -/
inductive ReadError where
  /-- the text is no JSON -/
  | malformed
  /-- a whole number has more digits than are read -/
  | numberTooLong
  deriving DecidableEq, Repr

/-- What is read, or why not. -/
abbrev Reading := Except ReadError

/-! ## 1. Blanks and words -/

/-- The four characters that may stand between tokens. -/
def isSpace (c : Char) : Bool := c == ' ' || c == '\t' || c == '\n' || c == '\r'

/-- The text without the spaces in front. -/
def skipSpaces (s : List Char) : List Char := s.dropWhile isSpace

/-- The text after a word, if it starts with the word. -/
def afterWord? : (word s : List Char) → Option (List Char)
  | [], s => some s
  | _ :: _, [] => none
  | w :: ws, c :: s => if w == c then afterWord? ws s else none

/-! ## 2. Strings -/

/-- The number that four hexadecimal digits spell. -/
def hexUnit? (a b c d : Char) : Option Nat := do
  let high := (← Text.hexValue? a) * 16 + (← Text.hexValue? b)
  let low := (← Text.hexValue? c) * 16 + (← Text.hexValue? d)
  return high * 256 + low

/-- The character of a letter after a backslash. -/
def escapeLetter? : Char → Option Char
  | '"' => some '"'
  | '\\' => some '\\'
  | '/' => some '/'
  | 'b' => some '\x08'
  | 'f' => some '\x0c'
  | 'n' => some '\n'
  | 'r' => some '\r'
  | 't' => some '\t'
  | _ => none

/-- The rest of a string after its opening quote; `read` holds its characters so far, last first. -/
def readString (block : Text.StandIns) (read : List Char) : List Char → Reading (String × List Char)
  | [] => .error .malformed
  | '"' :: rest => .ok (String.ofList read.reverse, rest)
  | '\\' :: 'u' :: a :: b :: c :: d :: '\\' :: 'u' :: e :: f :: g :: h :: rest =>
    match hexUnit? a b c d, hexUnit? e f g h with
    | some high, some low =>
      if Text.isHighSurrogate high && Text.isLowSurrogate low then
        readString block (Text.joinSurrogates high low :: read) rest
      else readString block (block.char high :: read) ('\\' :: 'u' :: e :: f :: g :: h :: rest)
    | _, _ => .error .malformed
  | '\\' :: 'u' :: a :: b :: c :: d :: rest =>
    match hexUnit? a b c d with
    | none => .error .malformed
    | some u => readString block (block.char u :: read) rest
  | '\\' :: c :: rest =>
    match escapeLetter? c with
    | none => .error .malformed
    | some l => readString block (l :: read) rest
  | c :: rest => if c.toNat < 0x20 then .error .malformed else readString block (c :: read) rest

/-! ## 3. Numbers -/

/-- The fraction after a whole part: a point with at least one digit. -/
def fraction? : List Char → Option (List Char × List Char)
  | '.' :: rest =>
    let digits := rest.takeWhile Char.isDigit
    if digits.isEmpty then none else some (digits, rest.dropWhile Char.isDigit)
  | _ => none

/-- The power of ten after a number: a mark, a sign and at least one digit. -/
def power? : List Char → Option (Int × List Char)
  | mark :: rest =>
    if mark == 'e' || mark == 'E' then
      let (negative, tail) := Numeral.takeSign rest
      let digits := tail.takeWhile Char.isDigit
      if digits.isEmpty then none
      else
        let n := Numeral.valueOf digits
        some (if negative then -(n : Int) else n, tail.dropWhile Char.isDigit)
    else none
  | [] => none

/-- A number without sign. -/
def readMagnitude (negative : Bool) (s : List Char) : Reading (Value × List Char) :=
  let (whole, tail) := match s with
    | '0' :: rest => (['0'], rest)
    | _ => (s.takeWhile Char.isDigit, s.dropWhile Char.isDigit)
  if whole.isEmpty then .error .malformed
  else
    match fraction? tail, power? tail with
    | some (part, rest), _ =>
      let (p, rest) := (power? rest).getD (0, rest)
      let d : Decimal := ⟨Numeral.valueOf (whole ++ part), p - part.length⟩
      .ok (.number (.real (Binary64.ofDecimal negative d)), rest)
    | none, some (p, rest) =>
      .ok (.number (.real (Binary64.ofDecimal negative ⟨Numeral.valueOf whole, p⟩)), rest)
    | none, none =>
      if Number.maxDigits < whole.length then .error .numberTooLong
      else
        let n : Int := Numeral.valueOf whole
        .ok (.number (.int (if negative then -n else n)), tail)

/-- A value that is neither a string nor a list nor an object. -/
def readScalar (s : List Char) : Reading (Value × List Char) :=
  match afterWord? "null".toList s, afterWord? "true".toList s, afterWord? "false".toList s with
  | some rest, _, _ => .ok (.null, rest)
  | _, some rest, _ => .ok (.bool true, rest)
  | _, _, some rest => .ok (.bool false, rest)
  | _, _, _ =>
    match afterWord? "NaN".toList s, afterWord? "Infinity".toList s, afterWord? "-Infinity".toList s with
    | some rest, _, _ => .ok (.number (.real .nan), rest)
    | _, some rest, _ => .ok (.number (.real (.infinity false)), rest)
    | _, _, some rest => .ok (.number (.real (.infinity true)), rest)
    | _, _, _ =>
      match s with
      | '-' :: rest => readMagnitude true rest
      | _ => readMagnitude false s

/-! ## 4. Lists and objects -/

mutual

/-- A value, with no spaces in front. -/
def readValue (block : Text.StandIns) (fuel : Nat) (s : List Char) : Reading (Value × List Char) :=
  match fuel with
  | 0 => .error .malformed
  | fuel + 1 =>
    match s with
    | '"' :: rest => (readString block [] rest).map fun (t, rest) => (.text t, rest)
    | '[' :: rest =>
      match skipSpaces rest with
      | ']' :: rest => .ok (.list [], rest)
      | rest => readItems block fuel [] rest
    | '{' :: rest =>
      match skipSpaces rest with
      | '}' :: rest => .ok (.object [], rest)
      | rest => readMembers block fuel [] rest
    | _ => readScalar s

/-- The items of a list from one on; `read` holds the earlier ones, last first. -/
def readItems (block : Text.StandIns) (fuel : Nat) (read : List Value) (s : List Char) :
    Reading (Value × List Char) :=
  match fuel with
  | 0 => .error .malformed
  | fuel + 1 => do
    let (v, rest) ← readValue block fuel s
    match skipSpaces rest with
    | ',' :: rest => readItems block fuel (v :: read) (skipSpaces rest)
    | ']' :: rest => .ok (.list (v :: read).reverse, rest)
    | _ => .error .malformed

/-- The members of an object from one on; `read` holds the earlier ones. -/
def readMembers (block : Text.StandIns) (fuel : Nat) (read : Members) (s : List Char) :
    Reading (Value × List Char) :=
  match fuel with
  | 0 => .error .malformed
  | fuel + 1 =>
    match s with
    | '"' :: rest => do
      let (name, rest) ← readString block [] rest
      match skipSpaces rest with
      | ':' :: rest =>
        let (v, rest) ← readValue block fuel (skipSpaces rest)
        match skipSpaces rest with
        | ',' :: rest => readMembers block fuel (read.put name v) (skipSpaces rest)
        | '}' :: rest => .ok (.object (read.put name v), rest)
        | _ => .error .malformed
      | _ => .error .malformed
    | _ => .error .malformed

end

/-- The value that a whole text spells. -/
def read (block : Text.StandIns) (chars : List Char) : Reading Value := do
  let (v, rest) ← readValue block (2 * chars.length + 2) (skipSpaces chars)
  if (skipSpaces rest).isEmpty then .ok v else .error .malformed

end Artboard.Json
