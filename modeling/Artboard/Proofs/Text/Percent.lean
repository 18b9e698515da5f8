import Artboard.Proofs.Text.Utf8
import Artboard.Text.Basic
import Artboard.Text.Encoding

/-!
# Percent-encoding is read back

A text whose bytes are all written as escapes (`Percent.Spells`), with digits of either case, is read as the
text (`Percent.decode_of_spells`).  Reading never makes a text longer (`Percent.length_decode_le`), and leaves alone
exactly those without an escape (`Percent.decode_eq_self_iff`).
-/

namespace Artboard.Text

/-- A character is the hexadecimal digit of a value, in either case. -/
def IsHexDigit (n : Nat) (c : Char) : Prop := c = hexDigit n ∨ c = (hexDigit n).toUpper

theorem hexValue?_of_isHexDigit {n : Nat} {c : Char} (small : n < 16) (h : IsHexDigit n c) :
    hexValue? c = some n := by
  have table : ∀ n < 16, hexValue? (hexDigit n) = some n ∧ hexValue? (hexDigit n).toUpper = some n := by
    decide
  rcases h with rfl | rfl
  · exact (table n small).1
  · exact (table n small).2

theorem isBlank_of_isHexDigit {n : Nat} {c : Char} (small : n < 16) (h : IsHexDigit n c) :
    isBlank c = false := by
  have table : ∀ n < 16, isBlank (hexDigit n) = false ∧ isBlank (hexDigit n).toUpper = false := by decide
  rcases h with rfl | rfl
  · exact (table n small).1
  · exact (table n small).2

namespace Percent

/-- A text spells bytes by escapes only, one for each of them. -/
inductive Spells : List UInt8 → List Char → Prop where
  | nil : Spells [] []
  | cons {b : UInt8} {high low : Char} {bytes : List UInt8} {s : List Char}
      (first : IsHexDigit (b.toNat / 16) high) (second : IsHexDigit (b.toNat % 16) low)
      (rest : Spells bytes s) : Spells (b :: bytes) ('%' :: high :: low :: s)

variable {bytes : List UInt8} {s : List Char}

theorem hexByte?_of_isHexDigit {b : UInt8} {high low : Char} (first : IsHexDigit (b.toNat / 16) high)
    (second : IsHexDigit (b.toNat % 16) low) : hexByte? high low = some b := by
  have bound : b.toNat < 256 := b.toNat_lt
  have joined : b.toNat / 16 * 16 + b.toNat % 16 = b.toNat := by omega
  have hhigh := hexValue?_of_isHexDigit (by omega) first
  have hlow := hexValue?_of_isHexDigit (by omega) second
  unfold hexByte?
  rw [hhigh, hlow]
  show some (UInt8.ofNat (b.toNat / 16 * 16 + b.toNat % 16)) = some b
  rw [joined, UInt8.ofNat_toNat]

/-- The bytes that are spelled are read behind those that came before. -/
theorem decodeFrom_of_spells (h : Spells bytes s) (pending : List UInt8) :
    decodeFrom pending s = decodeLossy (pending.reverse ++ bytes) := by
  induction h generalizing pending with
  | nil => simp [decodeFrom]
  | cons first second _ ih =>
    rw [decodeFrom, hexByte?_of_isHexDigit first second]
    simp only [ih, List.reverse_cons, List.append_assoc, List.singleton_append]

/-- **A text whose bytes are spelled is read as it was.** -/
theorem decode_of_spells {t : List Char} (h : Spells (utf8Bytes t) s) : decode s = t := by
  unfold decode
  rw [decodeFrom_of_spells h, List.reverse_nil, List.nil_append, decodeLossy_utf8Bytes]

theorem Spells.not_isBlank (h : Spells bytes s) : ∀ c ∈ s, isBlank c = false := by
  induction h with
  | nil => exact fun c hc => absurd hc List.not_mem_nil
  | @cons b high low bytes s first second _ ih =>
    have bound : b.toNat < 256 := b.toNat_lt
    intro c hc
    simp only [List.mem_cons] at hc
    rcases hc with rfl | rfl | rfl | hc
    · decide
    · exact isBlank_of_isHexDigit (by omega) first
    · exact isBlank_of_isHexDigit (by omega) second
    · exact ih c hc

theorem length_decodeFrom_le (pending : List UInt8) (s : List Char) :
    (decodeFrom pending s).length ≤ pending.length + s.length := by
  fun_induction decodeFrom pending s with
  | case1 pending => simpa using length_decodeLossy_le pending.reverse
  | case2 pending high low tail b _ ih => simp only [List.length_cons] at ih ⊢; omega
  | case3 pending high low tail _ ih => simp only [List.length_cons] at ih ⊢; omega
  | case4 pending c rest _ _ ih => simp only [List.length_cons] at ih ⊢; omega
  | case5 pending c rest _ _ ih =>
    have := length_decodeLossy_le pending.reverse
    simp only [List.length_reverse] at this
    simp only [List.length_append, List.length_cons, List.length_nil] at ih ⊢
    omega

theorem length_decode_le (s : List Char) : (decode s).length ≤ s.length := by
  simpa [decode] using length_decodeFrom_le [] s

/-! ## Texts that are read as they are -/

/-- **A text has an escape**: a percent sign before two hexadecimal digits. -/
def HasEscape (s : List Char) : Prop := ∃ high low, (hexByte? high low).isSome = true ∧ ['%', high, low] <:+: s

theorem HasEscape.cons (h : HasEscape s) (c : Char) : HasEscape (c :: s) := by
  obtain ⟨high, low, read, inside⟩ := h
  exact ⟨high, low, read, inside.trans (List.infix_cons List.infix_rfl)⟩

/-- An escape is at the start of a text or behind its first character. -/
theorem hasEscape_cons_iff {c : Char} : HasEscape (c :: s) ↔
    (∃ high low, (hexByte? high low).isSome = true ∧ ['%', high, low] <+: c :: s) ∨ HasEscape s := by
  constructor
  · rintro ⟨high, low, read, inside⟩
    rcases List.infix_cons_iff.mp inside with start | later
    · exact .inl ⟨high, low, read, start⟩
    · exact .inr ⟨high, low, read, later⟩
  · rintro (⟨high, low, read, start⟩ | later)
    · exact ⟨high, low, read, start.isInfix⟩
    · exact later.cons c

/-- No escape comes of a text behind another that goes on neither with digits nor with escapes of its own. -/
theorem HasEscape.of_append {t : List Char} (h : HasEscape (s ++ t)) (first : ∀ c ∈ t.head?, hexValue? c = none)
    (bare : '%' ∉ t) : HasEscape s := by
  obtain ⟨high, low, read, before, after, whole⟩ := h
  obtain ⟨⟨m, first_digit⟩, ⟨n, second_digit⟩⟩ : (∃ m, hexValue? high = some m) ∧ ∃ n, hexValue? low = some n := by
    unfold hexByte? at read
    cases hh : hexValue? high with
    | none => rw [hh] at read; cases read
    | some m =>
      cases hl : hexValue? low with
      | none => rw [hh, hl] at read; cases read
      | some n => exact ⟨⟨m, rfl⟩, ⟨n, rfl⟩⟩
  rw [List.append_assoc, List.append_eq_append_iff] at whole
  rcases whole with ⟨rest, hs, ht⟩ | ⟨rest, -, ht⟩
  · -- the escape starts in the first text, and its digits are there too
    match rest, ht with
    | [], ht =>
      have whole : '%' :: high :: low :: after = t := ht
      exact absurd (whole ▸ List.mem_cons_self) bare
    | [_], ht =>
      obtain ⟨-, rfl⟩ := List.cons.inj ht
      rw [first high rfl] at first_digit
      cases first_digit
    | [_, _], ht =>
      obtain ⟨-, -, rfl⟩ : _ ∧ _ ∧ low :: after = t := by simpa using ht
      rw [first low rfl] at second_digit
      cases second_digit
    | a :: b :: c :: rest, ht =>
      obtain ⟨rfl, rfl, rfl, -⟩ : '%' = a ∧ high = b ∧ low = c ∧ _ := by simpa using ht
      exact ⟨high, low, read, before, rest, by simp [hs]⟩
  · exact absurd (ht ▸ List.mem_append_right rest List.mem_cons_self) bare

theorem reverse_utf8Bytes_concat {c : Char} (ascii : c.toNat < 0x80) (t : List Char) :
    (utf8Bytes (t ++ [c])).reverse = UInt8.ofNat c.toNat :: (utf8Bytes t).reverse := by
  have one : utf8Bytes [c] = codeBytes c.toNat ++ [] := rfl
  have bytes : utf8Bytes (t ++ [c]) = utf8Bytes t ++ utf8Bytes [c] := List.flatMap_append
  rw [bytes, one, codeBytes, if_pos (by omega), List.append_nil, List.reverse_append]
  rfl

/-- A text without escapes is read behind the bytes of another. -/
theorem decodeFrom_utf8Bytes {pending : List UInt8} {t : List Char} (before : pending = (utf8Bytes t).reverse)
    (plain : ¬HasEscape s) : decodeFrom pending s = t ++ s := by
  fun_induction decodeFrom pending s generalizing t with
  | case1 pending => rw [before, List.reverse_reverse, decodeLossy_utf8Bytes, List.append_nil]
  | case2 pending high low tail b read _ =>
    exact absurd ⟨high, low, by rw [read]; rfl, ⟨[], tail, rfl⟩⟩ plain
  | case3 pending high low tail _ ih =>
    have next := reverse_utf8Bytes_concat (c := '%') (by decide) t
    rw [ih (t := t ++ ['%']) (by rw [next, before]; rfl) (mt (HasEscape.cons · _) plain)]
    simp
  | case4 pending c rest _ ascii ih =>
    rw [ih (t := t ++ [c]) (by rw [reverse_utf8Bytes_concat ascii, before]) (mt (HasEscape.cons · _) plain)]
    simp
  | case5 pending c rest _ _ ih =>
    rw [before, List.reverse_reverse, decodeLossy_utf8Bytes, ih (t := []) rfl (mt (HasEscape.cons · _) plain)]
    rfl

/-- An escape makes a text shorter. -/
theorem length_decodeFrom_lt (pending : List UInt8) (escape : HasEscape s) :
    (decodeFrom pending s).length < pending.length + s.length := by
  fun_induction decodeFrom pending s with
  | case1 =>
    obtain ⟨_, _, _, inside⟩ := escape
    cases List.eq_nil_of_infix_nil inside
  | case2 pending high low tail b _ _ =>
    have := length_decodeFrom_le (b :: pending) tail
    simp only [List.length_cons] at this ⊢
    omega
  | case3 pending high low tail none ih =>
    rcases hasEscape_cons_iff.mp escape with ⟨h, l, read, start⟩ | later
    · obtain ⟨rfl, rfl⟩ : h = high ∧ l = low := by simpa using start
      rw [none] at read
      cases read
    · have := ih later
      simp only [List.length_cons] at this ⊢
      omega
  | case4 pending c rest other _ ih =>
    rcases hasEscape_cons_iff.mp escape with ⟨h, l, read, start⟩ | later
    · obtain ⟨rfl, more⟩ := List.cons_prefix_cons.mp start
      obtain ⟨tail, rfl⟩ := more
      exact (other h l tail rfl rfl).elim
    · have := ih later
      simp only [List.length_cons] at this ⊢
      omega
  | case5 pending c rest other _ ih =>
    rcases hasEscape_cons_iff.mp escape with ⟨h, l, read, start⟩ | later
    · obtain ⟨rfl, more⟩ := List.cons_prefix_cons.mp start
      obtain ⟨tail, rfl⟩ := more
      exact (other h l tail rfl rfl).elim
    · have short := ih later
      have := length_decodeLossy_le pending.reverse
      simp only [List.length_reverse, List.length_nil] at this short
      simp only [List.length_append, List.length_cons]
      omega

/-- **A text is read as it is if and only if it has no escape.** -/
theorem decode_eq_self_iff : decode s = s ↔ ¬HasEscape s := by
  constructor
  · intro same escape
    have short := length_decodeFrom_lt [] escape
    unfold decode at same
    rw [same, List.length_nil, Nat.zero_add] at short
    exact Nat.lt_irrefl _ short
  · exact fun plain => decodeFrom_utf8Bytes (t := []) rfl plain

end Percent

end Artboard.Text
