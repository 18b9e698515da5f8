import Artboard.Text.Basic
import Artboard.Text.Encoding
import Mathlib.Data.List.Basic

/-!
# Base64 is read back

`Base64.encode` writes bytes six bits at a time and completes the last group of four with `=`.  What it writes
is read as the bytes (`Base64.decode?_encode`).
-/

namespace Artboard.Text.Base64

/-! ## 1. Writing -/

/-- The character of six bits. -/
def digit (n : Nat) : Char :=
  if n < 26 then Char.ofNat (65 + n)
  else if n < 52 then Char.ofNat (71 + n)
  else if n < 62 then Char.ofNat (n - 4)
  else if n = 62 then '+'
  else '/'

/-- The bits of bytes, six by six; zeros complete the last six. -/
def sextets : List UInt8 → List Nat
  | [] => []
  | [a] => [a.toNat / 4, a.toNat % 4 * 16]
  | [a, b] => [a.toNat / 4, a.toNat % 4 * 16 + b.toNat / 16, b.toNat % 16 * 4]
  | a :: b :: c :: rest =>
    [a.toNat / 4, a.toNat % 4 * 16 + b.toNat / 16, b.toNat % 16 * 4 + c.toNat / 64, c.toNat % 64] ++
      sextets rest

/-- How many characters the last group of four wants. -/
def missing (bytes : List UInt8) : Nat := (3 - bytes.length % 3) % 3

/-- Bytes in base64. -/
def encode (bytes : List UInt8) : List Char :=
  (sextets bytes).map digit ++ List.replicate (missing bytes) '='

/-! ## 2. Reading back -/

theorem sextet?_digit {n : Nat} (h : n < 64) : sextet? (digit n) = some n := by
  have table : ∀ n < 64, sextet? (digit n) = some n := by decide
  exact table n h

theorem lt_of_mem_sextets {bytes : List UInt8} : ∀ n ∈ sextets bytes, n < 64 := by
  have bound (b : UInt8) : b.toNat < 256 := b.toNat_lt
  fun_induction sextets bytes with
  | case1 => exact fun n hn => absurd hn List.not_mem_nil
  | case2 a =>
    have := bound a
    simp only [List.mem_cons, List.not_mem_nil, or_false, forall_eq_or_imp, forall_eq]
    omega
  | case3 a b =>
    have := bound a
    have := bound b
    simp only [List.mem_cons, List.not_mem_nil, or_false, forall_eq_or_imp, forall_eq]
    omega
  | case4 a b c rest ih =>
    have := bound a
    have := bound b
    have := bound c
    intro n hn
    rcases List.mem_append.mp hn with hn | hn
    · simp only [List.mem_cons, List.not_mem_nil, or_false] at hn
      omega
    · exact ih n hn

/-- A byte is put together from the bits that were taken from it. -/
theorem ofNat_eq {n : Nat} {b : UInt8} (h : n = b.toNat) : UInt8.ofNat n = b := by
  rw [h, UInt8.ofNat_toNat]

/-- The sextets of bytes are joined to the bytes. -/
theorem joinSextets_sextets (bytes : List UInt8) : joinSextets (missing bytes) (sextets bytes) = some bytes := by
  have bound (b : UInt8) : b.toNat < 256 := b.toNat_lt
  fun_induction sextets bytes with
  | case1 => rfl
  | case2 a =>
    have first : UInt8.ofNat (a.toNat / 4 * 4 + a.toNat % 4 * 16 / 16) = a := ofNat_eq (by omega)
    have two : missing [a] = 2 := rfl
    rw [two, joinSextets, if_pos rfl, first]
  | case3 a b =>
    have := bound b
    have first : UInt8.ofNat (a.toNat / 4 * 4 + (a.toNat % 4 * 16 + b.toNat / 16) / 16) = a :=
      ofNat_eq (by omega)
    have second : UInt8.ofNat ((a.toNat % 4 * 16 + b.toNat / 16) % 16 * 16 + b.toNat % 16 * 4 / 4) = b :=
      ofNat_eq (by omega)
    have one : missing [a, b] = 1 := rfl
    rw [one, joinSextets, if_pos rfl, first, second]
  | case4 a b c rest ih =>
    have := bound b
    have := bound c
    have same : missing (a :: b :: c :: rest) = missing rest := by
      simp only [missing, List.length_cons]
      omega
    have first : UInt8.ofNat (a.toNat / 4 * 4 + (a.toNat % 4 * 16 + b.toNat / 16) / 16) = a :=
      ofNat_eq (by omega)
    have second : UInt8.ofNat ((a.toNat % 4 * 16 + b.toNat / 16) % 16 * 16 +
        (b.toNat % 16 * 4 + c.toNat / 64) / 4) = b := ofNat_eq (by omega)
    have third : UInt8.ofNat ((b.toNat % 16 * 4 + c.toNat / 64) % 4 * 64 + c.toNat % 64) = c :=
      ofNat_eq (by omega)
    rw [same, List.cons_append, List.cons_append, List.cons_append, List.cons_append, List.nil_append,
      joinSextets, ih, first, second, third]
    rfl

theorem isSextet_of_mem_digits {numbers : List Nat} (h : ∀ n ∈ numbers, n < 64) :
    ∀ c ∈ numbers.map digit, isSextet c = true := by
  intro c hc
  obtain ⟨n, hn, rfl⟩ := List.mem_map.mp hc
  rw [isSextet, sextet?_digit (h n hn)]
  rfl

theorem filterMap_digits {numbers : List Nat} (h : ∀ n ∈ numbers, n < 64) :
    (numbers.map digit).filterMap sextet? = numbers := by
  rw [List.filterMap_map]
  have same : ∀ n ∈ numbers, (sextet? ∘ digit) n = some n := fun n hn => sextet?_digit (h n hn)
  rw [List.filterMap_congr same, List.filterMap_some]

theorem sextets_eq_nil {bytes : List UInt8} (h : sextets bytes = []) : bytes = [] := by
  fun_cases sextets bytes with
  | case1 => rfl
  | case2 | case3 | case4 => cases h

/-- What completes the last group is not the first character. -/
theorem head?_encode (bytes : List UInt8) : (encode bytes).head? ≠ some '=' := by
  have table : ∀ n < 64, digit n ≠ '=' := by decide
  cases written : sextets bytes with
  | nil =>
    rw [sextets_eq_nil written]
    decide
  | cons n ns =>
    have small : n < 64 := lt_of_mem_sextets n (written ▸ List.mem_cons_self)
    have first : (encode bytes).head? = some (digit n) := by simp [encode, written]
    rw [first]
    exact fun same => table n small (Option.some.inj same)

/-- **Base64 is read as the bytes that it was written for.** -/
theorem decode?_encode (bytes : List UInt8) : decode? (encode bytes) = some bytes := by
  have digits : ∀ c ∈ (sextets bytes).map digit, isSextet c = true := isSextet_of_mem_digits lt_of_mem_sextets
  have stop : isSextet '=' = false := by decide
  have front : (encode bytes).takeWhile isSextet = (sextets bytes).map digit := by
    unfold encode
    rw [List.takeWhile_append_of_pos digits, List.takeWhile_replicate, stop]
    simp
  have back : (encode bytes).dropWhile isSextet = List.replicate (missing bytes) '=' := by
    unfold encode
    rw [List.dropWhile_append_of_pos digits, List.dropWhile_replicate, stop]
    simp
  have padded : ((encode bytes).head? != some '=' && (List.replicate (missing bytes) '=').all (· == '=')) = true := by
    simp [head?_encode]
  unfold decode?
  dsimp only
  rw [front, back, if_pos padded, filterMap_digits lt_of_mem_sextets, List.length_replicate, joinSextets_sextets]

/-- What is written has no blanks. -/
theorem not_isBlank_encode {bytes : List UInt8} : ∀ c ∈ encode bytes, isBlank c = false := by
  have table : ∀ n < 64, isBlank (digit n) = false := by decide
  intro c hc
  rcases List.mem_append.mp hc with hc | hc
  · obtain ⟨n, hn, rfl⟩ := List.mem_map.mp hc
    exact table n (lt_of_mem_sextets n hn)
  · rw [List.eq_of_mem_replicate hc]
    decide

/-! ## 3. Lengths -/

theorem length_joinSextets_le {padding : Nat} {numbers : List Nat} {bytes : List UInt8}
    (h : joinSextets padding numbers = some bytes) : bytes.length ≤ numbers.length := by
  fun_induction joinSextets padding numbers generalizing bytes with
  | case1 => cases h; exact Nat.le_refl 0
  | case2 => cases h
  | case3 a b => cases h; exact Nat.le_succ 1
  | case4 => cases h
  | case5 a b c => cases h; exact Nat.le_succ 2
  | case6 => cases h
  | case7 a b c d rest ih =>
    obtain ⟨tail, ht, rfl⟩ := Option.map_eq_some_iff.mp h
    have := ih ht
    simp only [List.length_cons]
    omega

theorem length_decode?_le {s : List Char} {bytes : List UInt8} (h : decode? s = some bytes) :
    bytes.length ≤ s.length := by
  unfold decode? at h
  dsimp only at h
  split at h
  · calc bytes.length
        ≤ ((s.takeWhile isSextet).filterMap sextet?).length := length_joinSextets_le h
      _ ≤ (s.takeWhile isSextet).length := List.length_filterMap_le _ _
      _ ≤ s.length := (List.takeWhile_sublist _).length_le
  · cases h

end Artboard.Text.Base64
