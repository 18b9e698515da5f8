import Artboard.Text.Basic
import Mathlib.Data.List.Basic

/-!
# Escapes of script

The value of a literal is a sequence of sixteen-bit units, and a backslash in it begins an escape: a letter for a
control, a code of two, four or any number of hexadecimal digits, a line end that counts for nothing, or a
character that stands for itself.  This module has the escapes of the 2019 edition of the language, all of them
(`readEscape?`), and the units of a text, from which the text can be told (`units_injective`).
-/

namespace Artboard.Script

open Text

/-! ## 1. Units -/

/-- The sixteen-bit units of a code point: itself, or a high and a low surrogate. -/
def unitsOf (n : Nat) : List Nat :=
  if n < 0x10000 then [n] else [0xD800 + (n - 0x10000) / 0x400, 0xDC00 + (n - 0x10000) % 0x400]

/-- The sixteen-bit units of a text. -/
def units (s : List Char) : List Nat := s.flatMap fun c => unitsOf c.toNat

@[simp] theorem units_nil : units [] = [] := rfl

/-- The first unit of a character tells how many there are, so characters can be taken off one by one. -/
theorem unitsOf_append {c d : Char} {u v : List Nat} (h : unitsOf c.toNat ++ u = unitsOf d.toNat ++ v) :
    c = d ∧ u = v := by
  have hc : c.toNat < 0xD800 ∨ 0xDFFF < c.toNat ∧ c.toNat < 0x110000 := c.valid
  have hd : d.toNat < 0xD800 ∨ 0xDFFF < d.toNat ∧ d.toNat < 0x110000 := d.valid
  have same : c.toNat = d.toNat ∧ u = v := by
    unfold unitsOf at h
    split_ifs at h <;> simp only [List.cons_append, List.nil_append, List.cons.injEq] at h
    · exact h
    · omega
    · omega
    · exact ⟨by omega, h.2.2⟩
  exact ⟨Char.toNat_inj.mp same.1, same.2⟩

theorem unitsOf_ne_nil (n : Nat) : unitsOf n ≠ [] := by
  unfold unitsOf
  split <;> exact List.cons_ne_nil _ _

theorem units_eq_nil {s : List Char} (h : units s = []) : s = [] := by
  cases s with
  | nil => rfl
  | cons c s => exact absurd (List.append_eq_nil_iff.mp h).1 (unitsOf_ne_nil _)

/-- **A text can be told from its units.** -/
theorem units_injective : Function.Injective units := by
  intro s t h
  induction s generalizing t with
  | nil => exact (units_eq_nil h.symm).symm
  | cons c s ih =>
    cases t with
    | nil => exact units_eq_nil h
    | cons d t =>
      obtain ⟨rfl, rest⟩ := unitsOf_append h
      rw [ih rest]

/-! ## 2. Escapes -/

/-- A character that ends a line of script. -/
def isLineEnd (c : Char) : Bool := c == '\n' || c == '\r' || c == '\u2028' || c == '\u2029'

/-- A hexadecimal digit. -/
def isHexDigit (c : Char) : Bool := (hexValue? c).isSome

/-- The number that hexadecimal digits spell, none if one of them is no digit. -/
def hexNumber? (digits : List Char) : Option Nat :=
  digits.foldlM (fun n c => (hexValue? c).map (16 * n + ·)) 0

/-- The character that a letter stands for behind a backslash: a control, or itself. -/
def control : Char → Char
  | 'b' => '\x08'
  | 't' => '\t'
  | 'n' => '\n'
  | 'v' => '\x0b'
  | 'f' => '\x0c'
  | 'r' => '\r'
  | c => c

/-- The code point in the braces of an escape, read behind the opening one. -/
def readCodePoint? (s : List Char) : Option (List Nat × List Char) :=
  match s.takeWhile isHexDigit, s.dropWhile isHexDigit with
  | d :: digits, '\x7d' :: rest =>
    (hexNumber? (d :: digits)).bind fun n => if n ≤ 0x10FFFF then some (unitsOf n, rest) else none
  | _, _ => none

/-- An escape, read behind its backslash: the units that it stands for, and what follows it. -/
def readEscape? : List Char → Option (List Nat × List Char)
  | '\r' :: '\n' :: rest => some ([], rest)
  | 'x' :: a :: b :: rest => (hexNumber? [a, b]).map fun n => ([n], rest)
  | 'u' :: '\x7b' :: rest => readCodePoint? rest
  | 'u' :: a :: b :: c :: d :: rest => (hexNumber? [a, b, c, d]).map fun n => ([n], rest)
  | '0' :: rest => if rest.head?.any Char.isDigit then none else some ([0], rest)
  | c :: rest =>
    if isLineEnd c then some ([], rest)
    else if c == 'x' || c == 'u' || c.isDigit then none
    else some (unitsOf (control c).toNat, rest)
  | [] => none

theorem length_readCodePoint?_lt {s rest : List Char} {value : List Nat}
    (h : readCodePoint? s = some (value, rest)) : rest.length < s.length := by
  unfold readCodePoint? at h
  split at h
  · rename_i behind
    obtain ⟨n, -, h⟩ := Option.bind_eq_some_iff.mp h
    split at h
    · cases h
      have shorter := (List.dropWhile_sublist (l := s) isHexDigit).length_le
      rw [behind, List.length_cons] at shorter
      omega
    · cases h
  · cases h

/-- An escape takes up something of the text. -/
theorem length_readEscape?_lt {s rest : List Char} {value : List Nat}
    (h : readEscape? s = some (value, rest)) : rest.length < s.length := by
  unfold readEscape? at h
  split at h
  · cases h
    simp only [List.length_cons]
    omega
  · obtain ⟨n, -, h⟩ := Option.map_eq_some_iff.mp h
    cases h
    simp only [List.length_cons]
    omega
  · have := length_readCodePoint?_lt h
    simp only [List.length_cons]
    omega
  · obtain ⟨n, -, h⟩ := Option.map_eq_some_iff.mp h
    cases h
    simp only [List.length_cons]
    omega
  · split at h
    · cases h
    · cases h
      simp only [List.length_cons]
      omega
  · split at h
    · cases h
      simp only [List.length_cons]
      omega
    · split at h
      · cases h
      · cases h
        simp only [List.length_cons]
        omega
  · cases h

/-! ## 3. Texts that are escaped -/

/-- The characters of a text that no backslash takes with it. -/
def unescaped : List Char → List Char
  | '\\' :: _ :: rest => unescaped rest
  | c :: rest => c :: unescaped rest
  | [] => []

/-- An escaper writes a character as it is, unless it is a backslash, or else a backslash and one more
character. -/
def Escapes (f : Char → List Char) : Prop := ∀ c, f c = [c] ∧ c ≠ '\\' ∨ ∃ d, f c = ['\\', d]

/-- **What no backslash takes with it has been written as it is.** -/
theorem eq_of_mem_unescaped {f : Char → List Char} (escapes : Escapes f) {c : Char} {s : List Char}
    (h : c ∈ unescaped (s.flatMap f)) : f c = [c] ∧ c ≠ '\\' := by
  induction s with
  | nil => cases h
  | cons d rest ih =>
    rw [List.flatMap_cons] at h
    rcases escapes d with ⟨plain, other⟩ | ⟨e, escaped⟩
    · have step : unescaped (d :: rest.flatMap f) = d :: unescaped (rest.flatMap f) :=
        unescaped.eq_2 d _ fun _ _ slash _ => other slash
      rw [plain, List.singleton_append, step] at h
      rcases List.mem_cons.mp h with rfl | h
      · exact ⟨plain, other⟩
      · exact ih h
    · rw [escaped] at h
      exact ih h

/-! ## 4. Replacing one character after the other -/

/-- A text with a word for every occurrence of a character. -/
def replaceAll (old : Char) (word s : List Char) : List Char := s.flatMap fun c => if c = old then word else [c]

/-- A text after replacing several characters, one after the other: what a replacement has written, the later ones
replace in their turn. -/
def replaceInTurn (passes : List (Char × List Char)) (s : List Char) : List Char :=
  passes.foldl (fun text pass => replaceAll pass.1 pass.2 text) s

/-- **Several passes over a text do to each character what they do to it alone.** -/
theorem replaceInTurn_eq_flatMap (passes : List (Char × List Char)) (s : List Char) :
    replaceInTurn passes s = s.flatMap fun c => replaceInTurn passes [c] := by
  induction passes generalizing s with
  | nil => simp [replaceInTurn]
  | cons pass rest ih =>
    have onward (t : List Char) :
        replaceInTurn (pass :: rest) t = replaceInTurn rest (replaceAll pass.1 pass.2 t) := rfl
    have alone (c : Char) : replaceAll pass.1 pass.2 [c] = if c = pass.1 then pass.2 else [c] := by
      simp [replaceAll]
    rw [onward, ih]
    conv => lhs; unfold replaceAll
    rw [List.flatMap_assoc]
    congr 1
    funext c
    rw [onward, alone, ← ih]

/-- A character that no pass replaces stays as it is. -/
theorem replaceInTurn_other {passes : List (Char × List Char)} {c : Char} (h : ∀ pass ∈ passes, c ≠ pass.1) :
    replaceInTurn passes [c] = [c] := by
  induction passes with
  | nil => rfl
  | cons pass rest ih =>
    have kept : replaceAll pass.1 pass.2 [c] = [c] := by
      simp [replaceAll, h pass List.mem_cons_self]
    have onward := ih fun p hp => h p (List.mem_cons_of_mem pass hp)
    unfold replaceInTurn at onward ⊢
    rw [List.foldl_cons, kept, onward]

end Artboard.Script
