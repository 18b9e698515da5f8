/-!
# Surrogates

Sixteen-bit text spells a character beyond `U+FFFF` by two surrogates, a high one and a low one.  A
surrogate alone is no character, but a text may come with one all the same.  A private character then stands
for it, out of a block that the text itself does not use (`StandIns.unused`), so that wherever a character of
the block turns up later, a lone surrogate has got there.
-/

namespace Artboard.Text

/-! ## 1. Pairs -/

/-- A surrogate that comes first in a pair. -/
def isHighSurrogate (unit : Nat) : Bool := 0xD800 ≤ unit && unit ≤ 0xDBFF

/-- A surrogate that comes second in a pair. -/
def isLowSurrogate (unit : Nat) : Bool := 0xDC00 ≤ unit && unit ≤ 0xDFFF

/-- The character of a pair. -/
def joinSurrogates (high low : Nat) : Char :=
  Char.ofNat (0x10000 + (high - 0xD800) * 0x400 + (low - 0xDC00))

/-! ## 2. Stand-ins -/

/-- A block of private characters, as many as there are surrogates, by the first of them. -/
structure StandIns where
  first : Nat
  deriving DecidableEq, Repr

namespace StandIns

/-- The number of surrogates. -/
def count : Nat := 0x800

/-- The blocks of the last two planes, which hold private characters only. -/
def blocks : List StandIns := (List.range 63).map fun n => ⟨0xF0000 + n * count⟩

/-- The block that is taken where it does not matter which. -/
def usual : StandIns := ⟨0xF0000⟩

/-- The block has the character. -/
def has (block : StandIns) (c : Char) : Bool :=
  block.first ≤ c.toNat && c.toNat < block.first + count

/-- The character of a number: its own one, or the one that stands for it as a lone surrogate. -/
def char (block : StandIns) (n : Nat) : Char :=
  if isHighSurrogate n || isLowSurrogate n then Char.ofNat (block.first + (n - 0xD800)) else Char.ofNat n

/-- A block of which nothing is used, where `isUsed` tells whether anything of a block is. -/
def unused (isUsed : StandIns → Bool) : StandIns := (blocks.find? fun b => !isUsed b).getD usual

end StandIns

end Artboard.Text
