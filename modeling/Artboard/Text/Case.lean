import Artboard.Text.Basic
import Artboard.Text.CaseContext
import Artboard.Text.CaseTable

/-!
# Upper and lower case

Full case mapping for all scripts: `ß` becomes `SS`, `İ` becomes an `i` with a dot above, and a sigma that
ends a word becomes `ς`.  ASCII letters are mapped without looking into the tables.
-/

namespace Artboard.Text

/-! ## 1. Single characters -/

/-- The code point that a run of a case table takes `n` to. -/
def runImage? (n : Nat) (run : Nat × Nat × Nat × Int) : Option Nat :=
  let (first, last, step, offset) := run
  if first ≤ n && n ≤ last && (n - first) % step == 0 then some ((n : Int) + offset).toNat else none

/-- The lower case of a character away from any word. -/
def lowerChar (c : Char) : List Char :=
  if c.toNat < 0x80 then [c.toLower]
  else if c.toNat = 0x130 then ['i', '\u0307']
  else match lowerRuns.findSome? (runImage? c.toNat) with
    | some n => [Char.ofNat n]
    | none => [c]

/-- The upper case of a character. -/
def upperChar (c : Char) : List Char :=
  if c.toNat < 0x80 then [c.toUpper]
  else match upperExpansions.find? (·.1 == c.toNat) with
    | some (_, image) => image.map Char.ofNat
    | none =>
      match upperRuns.findSome? (runImage? c.toNat) with
      | some n => [Char.ofNat n]
      | none => [c]

/-! ## 2. Texts -/

/-- A letter with case, not ignored. -/
def isCased (c : Char) : Bool := inRangeArray casedRanges c.toNat

/-- A character that does not separate a letter from its neighbours. -/
def isCaseIgnored (c : Char) : Bool := inRangeArray caseIgnoredRanges c.toNat

/-- The next character that is not ignored is cased. -/
def casedAhead : List Char → Bool
  | [] => false
  | c :: rest => if isCaseIgnored c then casedAhead rest else isCased c

/-- The lower case of characters; `casedBefore` tells whether the last one that is not ignored is
cased. -/
def lowerChars (casedBefore : Bool) : List Char → List Char
  | [] => []
  | c :: rest =>
    let after := if isCaseIgnored c then casedBefore else isCased c
    if c == 'Σ' then
      (if casedBefore && !casedAhead rest then 'ς' else 'σ') :: lowerChars after rest
    else lowerChar c ++ lowerChars after rest

/-- The lower case of a text. -/
def lower (s : String) : String := String.ofList (lowerChars false s.toList)

/-- The upper case of a text. -/
def upper (s : String) : String := String.ofList (s.toList.flatMap upperChar)

end Artboard.Text
