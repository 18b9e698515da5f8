import Artboard.Text.Basic

/-!
# Texts as bytes

`decodeUtf8?` takes well-formed UTF-8 only.  `decodeLossy` takes any bytes: the longest piece at a place that could
have begun a character, but does not go on to be one, becomes a single U+FFFD, and so does every byte that cannot
begin one.

In percent-encoding a percent sign and two hexadecimal digits stand for a byte; a percent sign before anything else
stands for itself.  `Percent.decode` reads the bytes between characters beyond ASCII as UTF-8, lossily.

In base64 three bytes are four characters.  `Base64.decode?` takes the standard alphabet only, and after it only `=`,
which is never the first character.  Where the last group wants two or one of them there are as many, no more; where it
is complete any number of them is no error, and neither are bits that no byte takes.
-/

namespace Artboard.Text

/-! ## 1. UTF-8 -/

/-- The UTF-8 bytes of a text. -/
def utf8Bytes (s : List Char) : List UInt8 := s.flatMap String.utf8EncodeChar

/-- The text of well-formed UTF-8. -/
def decodeUtf8? (bytes : List UInt8) : Option String := String.fromUTF8? ⟨bytes.toArray⟩

/-- What stands for bytes that are no character. -/
def replacement : Char := '\uFFFD'

/-- A byte that goes on with a character. -/
def isContinuation (b : UInt8) : Bool := 0x80 ≤ b && b ≤ 0xBF

/-- A byte that can be second after the first byte of a character. -/
def isSecond (first b : UInt8) : Bool :=
  if first == 0xE0 then 0xA0 ≤ b && b ≤ 0xBF
  else if first == 0xED then 0x80 ≤ b && b ≤ 0x9F
  else if first == 0xF0 then 0x90 ≤ b && b ≤ 0xBF
  else if first == 0xF4 then 0x80 ≤ b && b ≤ 0x8F
  else isContinuation b

/-- The length of a character by its first byte; 0 for a byte that begins none. -/
def lengthOfFirst (b : UInt8) : Nat :=
  if b < 0x80 then 1
  else if 0xC2 ≤ b && b ≤ 0xDF then 2
  else if 0xE0 ≤ b && b ≤ 0xEF then 3
  else if 0xF0 ≤ b && b ≤ 0xF4 then 4
  else 0

/-- The low six bits of a byte. -/
def lowSix (b : UInt8) : Nat := b.toNat % 64

/-- The text of any bytes. -/
def decodeLossy : List UInt8 → List Char
  | [] => []
  | a :: rest =>
    match lengthOfFirst a with
    | 0 => replacement :: decodeLossy rest
    | 1 => Char.ofNat a.toNat :: decodeLossy rest
    | 2 =>
      match rest with
      | [] => [replacement]
      | b :: rest₁ =>
        if isSecond a b then Char.ofNat (a.toNat % 32 * 64 + lowSix b) :: decodeLossy rest₁
        else replacement :: decodeLossy (b :: rest₁)
    | 3 =>
      match rest with
      | [] => [replacement]
      | b :: rest₁ =>
        if isSecond a b then
          match rest₁ with
          | [] => [replacement]
          | c :: rest₂ =>
            if isContinuation c then
              Char.ofNat ((a.toNat % 16 * 64 + lowSix b) * 64 + lowSix c) :: decodeLossy rest₂
            else replacement :: decodeLossy (c :: rest₂)
        else replacement :: decodeLossy (b :: rest₁)
    | _ =>
      match rest with
      | [] => [replacement]
      | b :: rest₁ =>
        if isSecond a b then
          match rest₁ with
          | [] => [replacement]
          | c :: rest₂ =>
            if isContinuation c then
              match rest₂ with
              | [] => [replacement]
              | d :: rest₃ =>
                if isContinuation d then
                  Char.ofNat (((a.toNat % 8 * 64 + lowSix b) * 64 + lowSix c) * 64 + lowSix d) ::
                    decodeLossy rest₃
                else replacement :: decodeLossy (d :: rest₃)
            else replacement :: decodeLossy (c :: rest₂)
        else replacement :: decodeLossy (b :: rest₁)

/-! ## 2. Percent-encoding -/

namespace Percent

/-- The byte that two characters spell. -/
def hexByte? (high low : Char) : Option UInt8 := do
  return UInt8.ofNat ((← hexValue? high) * 16 + (← hexValue? low))

/-- The text with its escapes read; `pending` holds the bytes since the last character beyond ASCII, last
first. -/
def decodeFrom (pending : List UInt8) : List Char → List Char
  | [] => decodeLossy pending.reverse
  | '%' :: high :: low :: tail =>
    match hexByte? high low with
    | some b => decodeFrom (b :: pending) tail
    | none => decodeFrom (0x25 :: pending) (high :: low :: tail)
  | c :: rest =>
    if c.toNat < 0x80 then decodeFrom (UInt8.ofNat c.toNat :: pending) rest
    else decodeLossy pending.reverse ++ c :: decodeFrom [] rest

/-- The text with its escapes read. -/
def decode (s : List Char) : List Char := decodeFrom [] s

end Percent

/-! ## 3. Base64 -/

namespace Base64

/-- The six bits of a character of the alphabet. -/
def sextet? (c : Char) : Option Nat :=
  if 'A' ≤ c ∧ c ≤ 'Z' then some (c.toNat - 65)
  else if 'a' ≤ c ∧ c ≤ 'z' then some (c.toNat - 71)
  else if '0' ≤ c ∧ c ≤ '9' then some (c.toNat + 4)
  else if c = '+' then some 62
  else if c = '/' then some 63
  else none

/-- A character of the alphabet. -/
def isSextet (c : Char) : Bool := (sextet? c).isSome

/-- The bytes of groups of four times six bits, when `padding` characters follow the last one. -/
def joinSextets (padding : Nat) : List Nat → Option (List UInt8)
  | [] => some []
  | [_] => none
  | [a, b] => if padding = 2 then some [UInt8.ofNat (a * 4 + b / 16)] else none
  | [a, b, c] =>
    if padding = 1 then some [UInt8.ofNat (a * 4 + b / 16), UInt8.ofNat (b % 16 * 16 + c / 4)]
    else none
  | a :: b :: c :: d :: rest =>
    (joinSextets padding rest).map fun bytes =>
      UInt8.ofNat (a * 4 + b / 16) :: UInt8.ofNat (b % 16 * 16 + c / 4) ::
        UInt8.ofNat (c % 4 * 64 + d) :: bytes

/-- The bytes that a text spells. -/
def decode? (s : List Char) : Option (List UInt8) :=
  let padding := s.dropWhile isSextet
  if s.head? != some '=' && padding.all (· == '=') then
    joinSextets padding.length ((s.takeWhile isSextet).filterMap sextet?)
  else none

end Base64

end Artboard.Text
