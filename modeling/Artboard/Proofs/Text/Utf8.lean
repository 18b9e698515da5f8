import Artboard.Text.Encoding
import Mathlib.Data.List.Basic

/-!
# UTF-8 is read back

The bytes of a text are read as that text, by the strict reader (`decodeUtf8?_utf8Bytes`) and by the lossy one
(`decodeLossy_utf8Bytes`), which finds nothing to replace in them.  Neither reader makes a text longer than its
bytes.
-/

namespace Artboard.Text

/-! ## 1. The strict reader -/

theorem mk_toArray (bytes : List UInt8) : (⟨bytes.toArray⟩ : ByteArray) = bytes.toByteArray := by
  have same : bytes.toByteArray.data.toList = bytes := List.toList_data_toByteArray
  rw [← congrArg List.toArray same, Array.toArray_toList]

/-- **The bytes of a text are well-formed UTF-8**, and they are read as the text. -/
theorem decodeUtf8?_utf8Bytes (s : List Char) : decodeUtf8? (utf8Bytes s) = some (String.ofList s) := by
  unfold decodeUtf8?
  rw [mk_toArray]
  exact dif_pos (ByteArray.isValidUTF8_utf8Encode (l := s))

/-- What is read of bytes has just these bytes. -/
theorem utf8Bytes_of_decodeUtf8? {bytes : List UInt8} {s : String} (h : decodeUtf8? bytes = some s) :
    utf8Bytes s.toList = bytes := by
  unfold decodeUtf8? String.fromUTF8? at h
  split at h
  · have spelled : s.toByteArray = ⟨bytes.toArray⟩ := by
      cases h
      rfl
    have listed : s.toByteArray = (utf8Bytes s.toList).toByteArray := by
      conv => lhs; rw [← String.ofList_toList (s := s)]
      rfl
    have same := congrArg (fun b => b.data.toList) (listed.symm.trans spelled)
    simpa only [List.toList_data_toByteArray] using same
  · cases h

theorem length_le_utf8Bytes (s : List Char) : s.length ≤ (utf8Bytes s).length := by
  induction s with
  | nil => exact Nat.le_refl 0
  | cons c rest ih =>
    have := Char.utf8Size_pos c
    simp only [utf8Bytes, List.flatMap_cons, List.length_append, List.length_cons,
      String.length_utf8EncodeChar] at ih ⊢
    omega

theorem length_decodeUtf8?_le {bytes : List UInt8} {s : String} (h : decodeUtf8? bytes = some s) :
    s.toList.length ≤ bytes.length :=
  utf8Bytes_of_decodeUtf8? h ▸ length_le_utf8Bytes s.toList

/-! ## 2. The lossy reader -/

theorem toNat_ofNat {n : Nat} (h : n < 256) : (UInt8.ofNat n).toNat = n := by
  rw [UInt8.toNat_ofNat']
  exact Nat.mod_eq_of_lt h

theorem lengthOfFirst_eq (b : UInt8) : lengthOfFirst b =
    if b.toNat < 0x80 then 1
    else if 0xC2 ≤ b.toNat ∧ b.toNat ≤ 0xDF then 2
    else if 0xE0 ≤ b.toNat ∧ b.toNat ≤ 0xEF then 3
    else if 0xF0 ≤ b.toNat ∧ b.toNat ≤ 0xF4 then 4
    else 0 := by
  simp [lengthOfFirst, UInt8.lt_iff_toNat_lt, UInt8.le_iff_toNat_le]

theorem isContinuation_iff (b : UInt8) : isContinuation b = true ↔ 0x80 ≤ b.toNat ∧ b.toNat ≤ 0xBF := by
  simp [isContinuation, UInt8.le_iff_toNat_le]

theorem isSecond_iff (first b : UInt8) : isSecond first b = true ↔
    (0x80 ≤ b.toNat ∧ b.toNat ≤ 0xBF) ∧ (first.toNat = 0xE0 → 0xA0 ≤ b.toNat) ∧
      (first.toNat = 0xED → b.toNat ≤ 0x9F) ∧ (first.toNat = 0xF0 → 0x90 ≤ b.toNat) ∧
        (first.toNat = 0xF4 → b.toNat ≤ 0x8F) := by
  have eq_iff (n : UInt8) : first = n ↔ first.toNat = n.toNat := UInt8.toNat_inj.symm
  simp only [isSecond, isContinuation, beq_iff_eq, eq_iff]
  split_ifs <;> simp_all [UInt8.le_iff_toNat_le] <;> omega

section Steps

variable {a b c d : UInt8} (rest : List UInt8)

theorem decodeLossy_one (h : lengthOfFirst a = 1) :
    decodeLossy (a :: rest) = Char.ofNat a.toNat :: decodeLossy rest := by
  rw [decodeLossy.eq_def]
  simp only [h]

theorem decodeLossy_two (h : lengthOfFirst a = 2) (hb : isSecond a b = true) :
    decodeLossy (a :: b :: rest) = Char.ofNat (a.toNat % 32 * 64 + lowSix b) :: decodeLossy rest := by
  rw [decodeLossy.eq_def]
  simp only [h, hb, if_true]

theorem decodeLossy_three (h : lengthOfFirst a = 3) (hb : isSecond a b = true) (hc : isContinuation c = true) :
    decodeLossy (a :: b :: c :: rest) =
      Char.ofNat ((a.toNat % 16 * 64 + lowSix b) * 64 + lowSix c) :: decodeLossy rest := by
  rw [decodeLossy.eq_def]
  simp only [h, hb, hc, if_true]

theorem decodeLossy_four (h : lengthOfFirst a = 4) (hb : isSecond a b = true) (hc : isContinuation c = true)
    (hd : isContinuation d = true) :
    decodeLossy (a :: b :: c :: d :: rest) =
      Char.ofNat (((a.toNat % 8 * 64 + lowSix b) * 64 + lowSix c) * 64 + lowSix d) :: decodeLossy rest := by
  rw [decodeLossy.eq_def]
  simp only [h, hb, hc, hd, if_true]

end Steps

/-- The bytes of a code point. -/
def codeBytes (n : Nat) : List UInt8 :=
  if n ≤ 0x7F then [UInt8.ofNat n]
  else if n ≤ 0x7FF then [UInt8.ofNat (n / 64 % 0x20 + 0xC0), UInt8.ofNat (n % 0x40 + 0x80)]
  else if n ≤ 0xFFFF then
    [UInt8.ofNat (n / 4096 % 0x10 + 0xE0), UInt8.ofNat (n / 64 % 0x40 + 0x80), UInt8.ofNat (n % 0x40 + 0x80)]
  else
    [UInt8.ofNat (n / 262144 % 0x08 + 0xF0), UInt8.ofNat (n / 4096 % 0x40 + 0x80),
      UInt8.ofNat (n / 64 % 0x40 + 0x80), UInt8.ofNat (n % 0x40 + 0x80)]

/-- A byte that goes on with a character, by the six bits that it adds. -/
theorem continuation_ofNat {n : Nat} (h : n < 0x40) :
    isContinuation (UInt8.ofNat (n + 0x80)) = true ∧ lowSix (UInt8.ofNat (n + 0x80)) = n := by
  have value := toNat_ofNat (show n + 0x80 < 256 by omega)
  rw [isContinuation_iff, lowSix, value]
  omega

/-- The bytes of a code point are read as its character. -/
theorem decodeLossy_codeBytes {n : Nat} (valid : n < 0xD800 ∨ 0xDFFF < n ∧ n < 0x110000) (rest : List UInt8) :
    decodeLossy (codeBytes n ++ rest) = Char.ofNat n :: decodeLossy rest := by
  unfold codeBytes
  split_ifs with one two three
  · have first := toNat_ofNat (show n < 256 by omega)
    have length : lengthOfFirst (UInt8.ofNat n) = 1 := by
      rw [lengthOfFirst_eq, first, if_pos (by omega)]
    rw [List.singleton_append, decodeLossy_one rest length, first]
  · have first := toNat_ofNat (show n / 64 % 0x20 + 0xC0 < 256 by omega)
    obtain ⟨-, low⟩ := continuation_ofNat (show n % 0x40 < 0x40 by omega)
    have second := toNat_ofNat (show n % 0x40 + 0x80 < 256 by omega)
    have length : lengthOfFirst (UInt8.ofNat (n / 64 % 0x20 + 0xC0)) = 2 := by
      rw [lengthOfFirst_eq, first, if_neg (by omega), if_pos (by omega)]
    have follows : isSecond (UInt8.ofNat (n / 64 % 0x20 + 0xC0)) (UInt8.ofNat (n % 0x40 + 0x80)) = true := by
      rw [isSecond_iff, first, second]
      omega
    have joined : (n / 64 % 0x20 + 0xC0) % 32 * 64 + n % 0x40 = n := by omega
    rw [List.cons_append, List.singleton_append, decodeLossy_two rest length follows, first, low, joined]
  · have first := toNat_ofNat (show n / 4096 % 0x10 + 0xE0 < 256 by omega)
    have second := toNat_ofNat (show n / 64 % 0x40 + 0x80 < 256 by omega)
    obtain ⟨-, middle⟩ := continuation_ofNat (show n / 64 % 0x40 < 0x40 by omega)
    obtain ⟨third, low⟩ := continuation_ofNat (show n % 0x40 < 0x40 by omega)
    have length : lengthOfFirst (UInt8.ofNat (n / 4096 % 0x10 + 0xE0)) = 3 := by
      rw [lengthOfFirst_eq, first, if_neg (by omega), if_neg (by omega), if_pos (by omega)]
    have follows : isSecond (UInt8.ofNat (n / 4096 % 0x10 + 0xE0)) (UInt8.ofNat (n / 64 % 0x40 + 0x80)) = true := by
      rw [isSecond_iff, first, second]
      omega
    have joined : ((n / 4096 % 0x10 + 0xE0) % 16 * 64 + n / 64 % 0x40) * 64 + n % 0x40 = n := by omega
    rw [List.cons_append, List.cons_append, List.singleton_append, decodeLossy_three rest length follows third,
      first, middle, low, joined]
  · have first := toNat_ofNat (show n / 262144 % 0x08 + 0xF0 < 256 by omega)
    have second := toNat_ofNat (show n / 4096 % 0x40 + 0x80 < 256 by omega)
    obtain ⟨-, upper⟩ := continuation_ofNat (show n / 4096 % 0x40 < 0x40 by omega)
    obtain ⟨third, middle⟩ := continuation_ofNat (show n / 64 % 0x40 < 0x40 by omega)
    obtain ⟨fourth, low⟩ := continuation_ofNat (show n % 0x40 < 0x40 by omega)
    have length : lengthOfFirst (UInt8.ofNat (n / 262144 % 0x08 + 0xF0)) = 4 := by
      rw [lengthOfFirst_eq, first, if_neg (by omega), if_neg (by omega), if_neg (by omega), if_pos (by omega)]
    have follows :
        isSecond (UInt8.ofNat (n / 262144 % 0x08 + 0xF0)) (UInt8.ofNat (n / 4096 % 0x40 + 0x80)) = true := by
      rw [isSecond_iff, first, second]
      omega
    have joined : (((n / 262144 % 0x08 + 0xF0) % 8 * 64 + n / 4096 % 0x40) * 64 + n / 64 % 0x40) * 64 +
        n % 0x40 = n := by omega
    rw [List.cons_append, List.cons_append, List.cons_append, List.singleton_append,
      decodeLossy_four rest length follows third fourth, first, upper, middle, low, joined]

/-- **Nothing is lost of the bytes of a text.** -/
theorem decodeLossy_utf8Bytes (s : List Char) : decodeLossy (utf8Bytes s) = s := by
  induction s with
  | nil => rfl
  | cons c rest ih =>
    have valid : c.toNat < 0xD800 ∨ 0xDFFF < c.toNat ∧ c.toNat < 0x110000 := c.valid
    have head : utf8Bytes (c :: rest) = codeBytes c.toNat ++ utf8Bytes rest := rfl
    rw [head, decodeLossy_codeBytes valid, Char.ofNat_toNat, ih]

theorem length_decodeLossy_le (bytes : List UInt8) : (decodeLossy bytes).length ≤ bytes.length := by
  fun_induction decodeLossy bytes <;> simp_all <;> omega

end Artboard.Text
