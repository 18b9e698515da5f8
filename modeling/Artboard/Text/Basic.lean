/-!
# Characters and texts

Sets of characters, and what is done to texts by them.  A set is a list of closed ranges of code points, ascending and
apart (`inRanges`, `inRangeArray`).  The blank characters are the white space of Unicode 14 and the four information
separators; a text is freed of them at its ends (`trimBlank`), or each run of them becomes one space
(`collapseBlank`).  Decimal digits are those of all scripts (`digitValue?`), hexadecimal ones are plain (`hexValue?`).
-/

namespace Artboard.Text

/-! ## 1. Sets of characters -/

/-- The code point lies in one of the closed ranges. -/
def inRanges (ranges : List (Nat × Nat)) (n : Nat) : Bool :=
  ranges.any fun r => r.1 ≤ n && n ≤ r.2

/-- Binary search among ascending ranges, between two indices, for at most `fuel` halvings. -/
def searchRanges (ranges : Array (Nat × Nat)) (n : Nat) : (fuel lo hi : Nat) → Bool
  | 0, _, _ => false
  | fuel + 1, lo, hi =>
    if lo < hi then
      let mid := (lo + hi) / 2
      match ranges[mid]? with
      | none => false
      | some (first, last) =>
        if n < first then searchRanges ranges n fuel lo mid
        else if last < n then searchRanges ranges n fuel (mid + 1) hi
        else true
    else false

/-- The code point lies in one of the ascending closed ranges, of which there may be many: they are halved. -/
def inRangeArray (ranges : Array (Nat × Nat)) (n : Nat) : Bool :=
  searchRanges ranges n (ranges.size + 1) 0 ranges.size

/-! ## 2. Digits -/

/-- The zeros of the sets of ten decimal digits, each of them ascending. -/
def digitZeros : List Nat :=
  [0x30, 0x660, 0x6f0, 0x7c0, 0x966, 0x9e6, 0xa66, 0xae6, 0xb66, 0xbe6, 0xc66, 0xce6, 0xd66, 0xde6,
   0xe50, 0xed0, 0xf20, 0x1040, 0x1090, 0x17e0, 0x1810, 0x1946, 0x19d0, 0x1a80, 0x1a90, 0x1b50,
   0x1bb0, 0x1c40, 0x1c50, 0xa620, 0xa8d0, 0xa900, 0xa9d0, 0xa9f0, 0xaa50, 0xabf0, 0xff10, 0x104a0,
   0x10d30, 0x11066, 0x110f0, 0x11136, 0x111d0, 0x112f0, 0x11450, 0x114d0, 0x11650, 0x116c0, 0x11730,
   0x118e0, 0x11950, 0x11c50, 0x11d50, 0x11da0, 0x16a60, 0x16ac0, 0x16b50, 0x1d7ce, 0x1d7d8, 0x1d7e2,
   0x1d7ec, 0x1d7f6, 0x1e140, 0x1e2f0, 0x1e950, 0x1fbf0]

/-- The value of a decimal digit of any script. -/
def digitValue? (c : Char) : Option Nat :=
  (digitZeros.find? fun z => z ≤ c.toNat && c.toNat < z + 10).map (c.toNat - ·)

/-- A decimal digit of any script. -/
def isDecimalDigit (c : Char) : Bool := (digitValue? c).isSome

/-- The value of a hexadecimal digit of either case. -/
def hexValue? (c : Char) : Option Nat :=
  if '0' ≤ c ∧ c ≤ '9' then some (c.toNat - 48)
  else if 'a' ≤ c ∧ c ≤ 'f' then some (c.toNat - 87)
  else if 'A' ≤ c ∧ c ≤ 'F' then some (c.toNat - 55)
  else none

/-- The lower-case hexadecimal digit of a value below sixteen. -/
def hexDigit (n : Nat) : Char := if n < 10 then Char.ofNat (48 + n) else Char.ofNat (87 + n)

/-- The lowest `width` hexadecimal digits of a number. -/
def hexDigits : (width n : Nat) → List Char
  | 0, _ => []
  | width + 1, n => hexDigits width (n / 16) ++ [hexDigit (n % 16)]

/-! ## 3. Blanks -/

/-- The ranges of blank characters; those of no width are not among them. -/
def blankRanges : List (Nat × Nat) :=
  [(0x09, 0x0D), (0x1C, 0x20), (0x85, 0x85), (0xA0, 0xA0), (0x1680, 0x1680), (0x2000, 0x200A),
   (0x2028, 0x2029), (0x202F, 0x202F), (0x205F, 0x205F), (0x3000, 0x3000)]

/-- White space, the information separators included. -/
def isBlank (c : Char) : Bool := inRanges blankRanges c.toNat

/-- The characters without those at both ends that satisfy `p`. -/
def trimBoth (p : Char → Bool) (s : List Char) : List Char :=
  (((s.dropWhile p).reverse).dropWhile p).reverse

/-- The text without the blanks at both ends. -/
def trimBlank (s : String) : String := String.ofList (trimBoth isBlank s.toList)

/-- Each run of blanks as one space; `inRun` tells whether a run has just been written. -/
def collapse (inRun : Bool) : List Char → List Char
  | [] => []
  | c :: rest =>
    if isBlank c then
      if inRun then collapse true rest else ' ' :: collapse true rest
    else c :: collapse false rest

/-- Each run of blanks as one space, and none at either end. -/
def collapseBlank (s : List Char) : List Char := trimBoth isBlank (collapse false s)

/-- The characters that are not blank. -/
def dropBlanks (s : List Char) : List Char := s.filter fun c => !isBlank c

/-! ## 4. Words inside texts -/

/-- The characters hold a word somewhere. -/
def holds (word : List Char) : List Char → Bool
  | [] => word.isEmpty
  | c :: rest => word.isPrefixOf (c :: rest) || holds word rest

/-- The text holds a word somewhere. -/
def contains (s word : String) : Bool := holds word.toList s.toList

/-- The text holds one of the words somewhere. -/
def containsAny (s : String) (words : List String) : Bool := words.any (contains s)

end Artboard.Text
