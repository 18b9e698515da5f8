import Artboard.Proofs.Number.Notation
import Artboard.Proofs.Text.Blank
import Artboard.Style.Typography

/-!
# Numerals at the start of a text

A weight may be a text that starts with a numeral: digits of any script, and a point if digits follow it.  Such a
numeral can always be read, and what it is read as is the double nearest to a decimal, never NaN
(`Typography.readNumeral?_leading`).
-/

namespace Artboard

/-! ## 1. Digits of any script -/

namespace Text

/-- A digit lies among the ten behind a zero. -/
theorem digitValue?_eq_some {c : Char} {v : Nat} (h : digitValue? c = some v) :
    ∃ z ∈ digitZeros, z ≤ c.toNat ∧ c.toNat < z + 10 ∧ v = c.toNat - z := by
  unfold digitValue? at h
  obtain ⟨z, found, rfl⟩ := Option.map_eq_some_iff.mp h
  have here := List.find?_some found
  simp only [Bool.and_eq_true, decide_eq_true_eq] at here
  exact ⟨z, List.mem_of_find?_eq_some found, here.1, here.2, rfl⟩

/-- No digit of any script is a blank. -/
theorem isBlank_of_isDecimalDigit {c : Char} (h : isDecimalDigit c = true) : isBlank c = false := by
  obtain ⟨v, hv⟩ := Option.isSome_iff_exists.mp h
  obtain ⟨z, hz, low, high, -⟩ := digitValue?_eq_some hv
  have apart : ∀ z ∈ digitZeros, ∀ r ∈ blankRanges, z + 9 < r.1 ∨ r.2 < z := by decide
  unfold isBlank inRanges
  rw [List.any_eq_false]
  intro r hr
  have := apart z hz r hr
  simp only [Bool.and_eq_true, decide_eq_true_eq, not_and]
  omega

end Text

namespace Numeral

open Text

/-- A digit of any script has an ASCII digit for it. -/
theorem isDigit_toAsciiDigit {c : Char} (h : isDecimalDigit c = true) : (toAsciiDigit c).isDigit = true := by
  obtain ⟨v, hv⟩ := Option.isSome_iff_exists.mp h
  obtain ⟨z, -, low, high, rfl⟩ := digitValue?_eq_some hv
  have ten : ∀ v < 10, (Char.ofNat (48 + v)).isDigit = true := by decide
  unfold toAsciiDigit
  rw [hv]
  exact ten _ (by omega)

theorem dropUnderscores_none {s : List Char} (h : '_' ∉ s) (previousDigit : Bool) :
    dropUnderscores previousDigit s = some s := by
  induction s generalizing previousDigit with
  | nil => rfl
  | cons c rest ih =>
    have hc : c ≠ '_' := fun same => h (same ▸ List.mem_cons_self)
    rw [dropUnderscores]
    · rw [ih fun hr => h (List.mem_cons_of_mem _ hr)]
      rfl
    · exact hc

/-- A numeral without sign is read as the double nearest to a decimal. -/
theorem read?_unsigned {s : List Char} (h : Unsigned s) : ∃ d, read? s = some (Binary64.ofDecimal false d) := by
  obtain ⟨d, hd⟩ := Option.isSome_iff_exists.mp h.reads
  obtain ⟨c, rest, rfl, digit⟩ := h.start
  have unsigned : takeSign (c :: rest) = (false, c :: rest) := by
    unfold takeSign
    split
    · rename_i same
      cases same
      cases digit
    · rename_i same
      cases same
      cases digit
    · rfl
  -- a digit stays as it is in lower case, and no word starts with one
  have lower : c.toLower = c := by
    have digits : ∀ n < 58, 48 ≤ n → (Char.ofNat n).toLower = Char.ofNat n := by decide
    obtain ⟨low, high⟩ := Char.isDigit_iff_toNat.mp digit
    have below : c.toNat < 58 := Nat.lt_succ_of_le high
    have := digits c.toNat below low
    rwa [Char.ofNat_toNat] at this
  have noWord (first : Char) (others : List Char) (letter : first.isDigit = false) :
      ((c :: rest).map Char.toLower == first :: others) = false := by
    rw [List.map_cons, lower]
    have apart : c ≠ first := fun same => by rw [same, letter] at digit; cases digit
    simp [apart]
  unfold read?
  rw [unsigned]
  dsimp only
  rw [show "inf".toList = 'i' :: ['n', 'f'] from rfl, noWord _ _ rfl,
    show "infinity".toList = 'i' :: ['n', 'f', 'i', 'n', 'i', 't', 'y'] from rfl, noWord _ _ rfl,
    show "nan".toList = 'n' :: ['a', 'n'] from rfl, noWord _ _ rfl, hd]
  exact ⟨d, rfl⟩

/-- Digits of any script, and perhaps a point with more digits behind it. -/
inductive Plain : List Char → Prop where
  | whole {digits} (given : digits ≠ []) (all : ∀ c ∈ digits, isDecimalDigit c = true) : Plain digits
  | fraction {digits part} (given : digits ≠ []) (all : ∀ c ∈ digits, isDecimalDigit c = true)
      (more : part ≠ []) (others : ∀ c ∈ part, isDecimalDigit c = true) : Plain (digits ++ '.' :: part)

namespace Plain

variable {s : List Char}

theorem first (h : Plain s) : ∀ c ∈ s.head?, isDecimalDigit c = true := by
  intro c hc
  cases h with
  | whole _ all => exact all c (List.mem_of_mem_head? hc)
  | fraction given all _ _ =>
    obtain ⟨d, rest, rfl⟩ := List.exists_cons_of_ne_nil given
    exact all c (List.mem_of_mem_head? (show c ∈ (d :: rest).head? from hc))

theorem last (h : Plain s) : ∀ c ∈ s.getLast?, isDecimalDigit c = true := by
  intro c hc
  cases h with
  | whole _ all => exact all c (List.mem_of_mem_getLast? hc)
  | fraction _ _ more others =>
    rw [List.getLast?_append, List.getLast?_cons_of_ne_nil more, List.getLast?_eq_some_getLast more] at hc
    exact others c (Option.some.inj hc ▸ List.getLast_mem more)

/-- In ASCII digits it is a numeral as any other. -/
theorem unsigned (h : Plain s) : Unsigned (s.map toAsciiDigit) := by
  have ascii {digits : List Char} (all : ∀ c ∈ digits, isDecimalDigit c = true) :
      ∀ c ∈ digits.map toAsciiDigit, c.isDigit = true := by
    intro c hc
    obtain ⟨original, ho, rfl⟩ := List.mem_map.mp hc
    exact isDigit_toAsciiDigit (all original ho)
  cases h with
  | whole given all =>
    have := Unsigned.whole ⟨mt List.map_eq_nil_iff.mp given, ascii all⟩ .none
    rwa [List.append_nil] at this
  | fraction given all _ others =>
    have := Unsigned.fraction ⟨mt List.map_eq_nil_iff.mp given, ascii all⟩ (ascii others) .none
    rw [List.append_nil] at this
    rw [List.map_append, List.map_cons]
    exact this

end Plain

/-- A numeral that starts and ends with digits is read as it is. -/
theorem readNumeral?_plain {s : List Char} (h : Plain s) :
    ∃ d, readNumeral? (String.ofList s) = some (Binary64.ofDecimal false d) := by
  have margin {c : Char} (digit : isDecimalDigit c = true) : isMargin c = false := by
    unfold isMargin
    rw [isBlank_of_isDecimalDigit digit, Bool.false_and]
  have trimmed : trimBoth isMargin s = s :=
    trimBoth_eq_self (fun c hc => margin (h.first c hc)) fun c hc => margin (h.last c hc)
  have bare : '_' ∉ s.map toAsciiDigit := fun mem => absurd (h.unsigned.parts _ mem) (by decide)
  obtain ⟨d, hd⟩ := read?_unsigned h.unsigned
  refine ⟨d, ?_⟩
  unfold readNumeral?
  rw [String.toList_ofList, trimmed, dropUnderscores_none bare]
  exact hd

end Numeral

/-! ## 2. The numeral of a weight -/

namespace Typography

open Text Numeral

theorem plain_leadingNumeral {s : List Char} (h : leadingNumeral s ≠ []) : Plain (leadingNumeral s) := by
  have digits (t : List Char) : ∀ c ∈ t.takeWhile isDecimalDigit, isDecimalDigit c = true :=
    fun c hc => List.mem_takeWhile_imp hc
  have given : (s.dropWhile isBlank).takeWhile isDecimalDigit ≠ [] := by
    intro none
    unfold leadingNumeral at h
    dsimp only at h
    rw [none] at h
    exact h rfl
  unfold leadingNumeral
  dsimp only
  split
  · split
    · exact .whole given (digits _)
    · rename_i more
      exact .fraction given (digits _) (by simpa using more) (digits _)
  · exact .whole given (digits _)

/-- **The numeral at the start of a text is read as the double nearest to a decimal.** -/
theorem readNumeral?_leading {s : List Char} (h : leadingNumeral s ≠ []) :
    ∃ d, readNumeral? (String.ofList (leadingNumeral s)) = some (Binary64.ofDecimal false d) :=
  readNumeral?_plain (plain_leadingNumeral h)

end Typography

end Artboard
