import Artboard.Text.Encoding
import Artboard.Text.Surrogate

/-!
# Encodings of JSON text

JSON text comes in units of one, two or four bytes.  It starts with two ASCII characters, or is a single one,
so the zeros among its first bytes tell the encoding (`Encoding.ofBytes`).  Surrogates are let through alone
in all of them; a text that ends inside a unit, or has a number that is beyond all characters, is not read.
-/

namespace Artboard.Json

/-! ## 1. Telling the encoding -/

/-- Which byte of a unit comes first. -/
inductive ByteOrder where
  | high
  | low
  deriving DecidableEq, Repr

/-- The units of a text. -/
inductive Encoding where
  | bytes
  | pairs (order : ByteOrder)
  | quads (order : ByteOrder)
  deriving DecidableEq, Repr

/-- The encoding of a text. -/
def Encoding.ofBytes : List UInt8 → Encoding
  | 0 :: 0 :: _ :: _ :: _ => quads .high
  | 0 :: _ :: _ :: _ :: _ => pairs .high
  | _ :: 0 :: 0 :: 0 :: _ => quads .low
  | _ :: 0 :: _ :: _ :: _ => pairs .low
  | [0, _] => pairs .high
  | [_, 0] => pairs .low
  | _ => bytes

/-! ## 2. Units -/

/-- The number of two bytes. -/
def ByteOrder.pair : ByteOrder → UInt8 → UInt8 → Nat
  | high, a, b => a.toNat * 0x100 + b.toNat
  | low, a, b => b.toNat * 0x100 + a.toNat

/-- The units of two bytes each. -/
def pairUnits (order : ByteOrder) : List UInt8 → Option (List Nat)
  | [] => some []
  | a :: b :: rest => (pairUnits order rest).map (order.pair a b :: ·)
  | [_] => none

/-- The number of two units of two bytes. -/
def ByteOrder.quad : ByteOrder → Nat → Nat → Nat
  | high, a, b => a * 0x10000 + b
  | low, a, b => b * 0x10000 + a

/-- The units of two units of two bytes each. -/
def quadUnits (order : ByteOrder) : List Nat → Option (List Nat)
  | [] => some []
  | a :: b :: rest => (quadUnits order rest).map (order.quad a b :: ·)
  | [_] => none

/-! ## 3. Characters -/

/-- The characters of units of two bytes. -/
def pairChars (block : Text.StandIns) : List Nat → List Char
  | [] => []
  | [unit] => [block.char unit]
  | unit :: next :: rest =>
    if Text.isHighSurrogate unit && Text.isLowSurrogate next then
      Text.joinSurrogates unit next :: pairChars block rest
    else block.char unit :: pairChars block (next :: rest)

/-- The characters of units of four bytes. -/
def quadChars (block : Text.StandIns) (units : List Nat) : Option (List Char) :=
  if units.all (· ≤ 0x10FFFF) then some (units.map block.char) else none

/-- The characters without the byte order mark in front of them. -/
def withoutMark : List Char → List Char
  | '\uFEFF' :: rest => rest
  | chars => chars

/-- The characters that a body spells, whose bytes are those of a text. -/
def decode? (block : Text.StandIns) (body : String) : Option (List Char) :=
  let bytes := Text.utf8Bytes body.toList
  match Encoding.ofBytes bytes with
  | .bytes => some (withoutMark body.toList)
  | .pairs order => (pairUnits order bytes).map (pairChars block)
  | .quads order => ((pairUnits order bytes).bind (quadUnits order)).bind (quadChars block)

end Artboard.Json
