import Artboard.Proofs.Script.Escape
import Artboard.Proofs.Text.Blank
import Artboard.Script.Literal

/-!
# Template bodies

The body of a template literal escapes first and collapses blanks then.  The order does not matter, for no
escape has a blank in it (`collapseBlank_escaped`): so a body consists of escaped characters.

A body is read by the whole grammar of escapes (`evaluate?`).  What it evaluates to are the words of the payload with
a space between each two, and nothing in it ends the literal, opens an expression or ends a line
(`evaluate?_escapeTemplate`).
-/

namespace Artboard.Script

open Text

/-! ## 1. Escapes and blanks -/

/-- The characters that could end a body, open an expression or escape. -/
def IsSpecial (c : Char) : Prop := c = '\\' ∨ c = '\x60' ∨ c = '$'

/-- A backslash is put in front of a special character, and any other stands for itself. -/
theorem escapeTemplateChar_cases (c : Char) :
    IsSpecial c ∧ escapeTemplateChar c = ['\\', c] ∨ ¬ IsSpecial c ∧ escapeTemplateChar c = [c] := by
  have special : (c == '\\' || c == '\x60' || c == '$') = true ↔ IsSpecial c := by simp [IsSpecial, or_assoc]
  unfold escapeTemplateChar
  split
  · rename_i h
    exact .inl ⟨special.mp h, rfl⟩
  · rename_i h
    exact .inr ⟨fun is => h (special.mpr is), rfl⟩

/-- A blank stands for itself. -/
theorem escapeTemplateChar_blank {c : Char} (h : isBlank c = true) : escapeTemplateChar c = [c] := by
  rcases escapeTemplateChar_cases c with ⟨rfl | rfl | rfl, -⟩ | ⟨-, same⟩
  · exact absurd h (by decide)
  · exact absurd h (by decide)
  · exact absurd h (by decide)
  · exact same

/-- A character stands for itself, or a backslash is put in front of it. -/
theorem escapeTemplateChar_or (c : Char) :
    escapeTemplateChar c = [c] ∨ escapeTemplateChar c = ['\\', c] := by
  rcases escapeTemplateChar_cases c with ⟨-, escaped⟩ | ⟨-, same⟩
  · exact .inr escaped
  · exact .inl same

theorem isBlank_backslash : isBlank '\\' = false := by decide

theorem collapse_escaped (inRun : Bool) (s : List Char) :
    collapse inRun (s.flatMap escapeTemplateChar) = (collapse inRun s).flatMap escapeTemplateChar := by
  have space : escapeTemplateChar ' ' = [' '] := by decide
  induction s generalizing inRun with
  | nil => rfl
  | cons c rest ih =>
    rw [List.flatMap_cons]
    cases hc : isBlank c with
    | true =>
      rw [escapeTemplateChar_blank hc]
      cases inRun with
      | true => simp [collapse, hc, ih]
      | false => simp [collapse, hc, ih, space]
    | false =>
      rcases escapeTemplateChar_or c with h | h <;>
        simp [collapse, hc, ih, h, isBlank_backslash]

/-- Leading blanks are dropped alike before and after a rewriting that leaves blanks as they are and puts
nothing blank in front of other characters. -/
theorem dropWhile_flatMap {f : Char → List Char} (blank : ∀ c, isBlank c = true → f c = [c])
    (other : ∀ c, isBlank c = false → ∃ d rest, f c = d :: rest ∧ isBlank d = false) (s : List Char) :
    (s.flatMap f).dropWhile isBlank = (s.dropWhile isBlank).flatMap f := by
  induction s with
  | nil => rfl
  | cons c rest ih =>
    cases hc : isBlank c with
    | true => simp [blank c hc, hc, ih]
    | false =>
      obtain ⟨d, tail, hf, hd⟩ := other c hc
      simp [hf, hc, hd]

theorem trimBoth_escaped (s : List Char) :
    trimBoth isBlank (s.flatMap escapeTemplateChar) = (trimBoth isBlank s).flatMap escapeTemplateChar := by
  have front := dropWhile_flatMap (f := escapeTemplateChar) (fun c hc => escapeTemplateChar_blank hc)
    (fun c hc => by
      rcases escapeTemplateChar_or c with h | h
      · exact ⟨c, [], h, hc⟩
      · exact ⟨'\\', [c], h, isBlank_backslash⟩)
  have back := dropWhile_flatMap (f := fun c => (escapeTemplateChar c).reverse)
    (fun c hc => by rw [escapeTemplateChar_blank hc]; rfl)
    (fun c hc => by
      rcases escapeTemplateChar_or c with h | h
      · exact ⟨c, [], by rw [h]; rfl, hc⟩
      · exact ⟨c, ['\\'], by rw [h]; rfl, hc⟩)
  have flip (t : List Char) : (t.flatMap escapeTemplateChar).reverse =
      t.reverse.flatMap fun c => (escapeTemplateChar c).reverse := List.reverse_flatMap
  have unflip (t : List Char) : (t.flatMap fun c => (escapeTemplateChar c).reverse).reverse =
      t.reverse.flatMap escapeTemplateChar := by
    rw [← t.reverse_reverse, ← flip, List.reverse_reverse, List.reverse_reverse]
  unfold trimBoth
  rw [front, flip, back, unflip]

/-- **Blanks can be collapsed before escaping.** -/
theorem collapseBlank_escaped (s : List Char) :
    collapseBlank (s.flatMap escapeTemplateChar) = (collapseBlank s).flatMap escapeTemplateChar := by
  unfold collapseBlank
  rw [collapse_escaped, trimBoth_escaped]

/-- A body is made of escaped characters. -/
theorem toList_escapeTemplate (s : String) :
    (escapeTemplate s).toList = (collapseBlank s.toList).flatMap escapeTemplateChar := by
  unfold escapeTemplate
  rw [String.toList_ofList, collapseBlank_escaped]

/-! ## 2. The value of a body -/

/-- The value of a template body that has no expression in it; line ends count as line feeds. -/
def evaluate? : List Char → Option (List Nat)
  | [] => some []
  | '\x60' :: _ => none
  | '$' :: '\x7b' :: _ => none
  | '\\' :: rest =>
    match _h : readEscape? rest with
    | none => none
    | some (value, behind) => (evaluate? behind).map (value ++ ·)
  | '\r' :: '\n' :: rest => (evaluate? rest).map (unitsOf '\n'.toNat ++ ·)
  | '\r' :: rest => (evaluate? rest).map (unitsOf '\n'.toNat ++ ·)
  | c :: rest => (evaluate? rest).map (unitsOf c.toNat ++ ·)
termination_by s => s.length
decreasing_by
  · have := length_readEscape?_lt _h
    simp only [List.length_cons]
    omega
  · simp only [List.length_cons]
    omega
  · exact Nat.lt_succ_self _
  · exact Nat.lt_succ_self _

theorem evaluate?_escape {value : List Nat} {s rest : List Char} (h : readEscape? s = some (value, rest)) :
    evaluate? ('\\' :: s) = (evaluate? rest).map (value ++ ·) := by
  rw [evaluate?]
  split
  · rename_i none
    rw [h] at none
    cases none
  · rename_i found
    rw [h] at found
    cases found
    rfl

/-- What stands for a character evaluates to the character; only a carriage return would not. -/
theorem evaluate?_escapeTemplateChar {c : Char} (back : c ≠ '\r') (rest : List Char) :
    evaluate? (escapeTemplateChar c ++ rest) = (evaluate? rest).map (unitsOf c.toNat ++ ·) := by
  rcases escapeTemplateChar_cases c with ⟨special, escaped⟩ | ⟨plain, same⟩
  · rw [escaped]
    rcases special with rfl | rfl | rfl <;> exact evaluate?_escape rfl
  · obtain ⟨slash, tick, dollar⟩ : c ≠ '\\' ∧ c ≠ '\x60' ∧ c ≠ '$' := by simpa [IsSpecial] using plain
    rw [same, List.singleton_append, evaluate?.eq_def]
    split <;> simp_all

theorem evaluate?_escaped {s : List Char} (back : '\r' ∉ s) :
    evaluate? (s.flatMap escapeTemplateChar) = some (units s) := by
  induction s with
  | nil => rw [List.flatMap_nil, evaluate?, units_nil]
  | cons c rest ih =>
    obtain ⟨first, others⟩ := List.ne_and_not_mem_of_not_mem_cons back
    rw [List.flatMap_cons, evaluate?_escapeTemplateChar first.symm, ih others]
    rfl

/-! ## 3. What a body is safe from -/

/-- **A body is inert**: nothing in it ends the literal, opens an expression, escapes what comes behind, or ends a
line. -/
structure Inert (body : List Char) : Prop where
  /-- backticks and dollars are escaped, and no backslash is left over -/
  escaped : ∀ c ∈ unescaped body, c ≠ '\x60' ∧ c ≠ '$' ∧ c ≠ '\\'
  /-- the space is the only blank -/
  blank : ∀ c ∈ body, isBlank c = true → c = ' '
  line : ∀ c ∈ body, isLineEnd c = false

theorem escapes_escapeTemplateChar : Escapes escapeTemplateChar := by
  intro c
  rcases escapeTemplateChar_cases c with ⟨-, escaped⟩ | ⟨plain, same⟩
  · exact .inr ⟨c, escaped⟩
  · exact .inl ⟨same, fun slash => plain (.inl slash)⟩

theorem isBlank_of_isLineEnd {c : Char} (h : isLineEnd c = true) : isBlank c = true := by
  have ends : ((c = '\n' ∨ c = '\r') ∨ c = '\u2028') ∨ c = '\u2029' := by simpa [isLineEnd] using h
  rcases ends with ((rfl | rfl) | rfl) | rfl <;> decide

theorem inert_escapeTemplate (s : String) : Inert (escapeTemplate s).toList := by
  have blank : ∀ c ∈ (escapeTemplate s).toList, isBlank c = true → c = ' ' := by
    unfold escapeTemplate
    rw [String.toList_ofList]
    exact fun c hc => eq_space_of_mem_collapseBlank hc
  refine ⟨fun c hc => ?_, blank, fun c hc => ?_⟩
  · rw [toList_escapeTemplate] at hc
    obtain ⟨plain, slash⟩ := eq_of_mem_unescaped escapes_escapeTemplateChar hc
    refine ⟨?_, ?_, slash⟩ <;> rintro rfl <;> cases plain
  · refine Bool.eq_false_iff.mpr fun ends => ?_
    rw [blank c hc (isBlank_of_isLineEnd ends)] at ends
    cases ends

/-! ## 4. Three passes -/

/-- The characters that are escaped, in the order in which whole texts can be rewritten. -/
def templatePasses : List (Char × List Char) :=
  [('\\', ['\\', '\\']), ('\x60', ['\\', '\x60']), ('$', ['\\', '$'])]

theorem replaceInTurn_templatePasses (c : Char) : replaceInTurn templatePasses [c] = escapeTemplateChar c := by
  rcases escapeTemplateChar_cases c with ⟨special, escaped⟩ | ⟨plain, same⟩
  · rw [escaped]
    rcases special with rfl | rfl | rfl <;> rfl
  · obtain ⟨slash, tick, dollar⟩ : c ≠ '\\' ∧ c ≠ '\x60' ∧ c ≠ '$' := by simpa [IsSpecial] using plain
    rw [same]
    refine replaceInTurn_other fun pass hp => ?_
    simp only [templatePasses, List.mem_cons, List.not_mem_nil, or_false] at hp
    rcases hp with rfl | rfl | rfl
    · exact slash
    · exact tick
    · exact dollar

/-- **The body for a payload is inert and evaluates to the words of the payload**, with one space between each two.
It makes no difference whether blanks are collapsed behind the escapes or before them, nor that the payload is
escaped in three passes. -/
theorem evaluate?_escapeTemplate (s : String) :
    Inert (escapeTemplate s).toList ∧
    evaluate? (escapeTemplate s).toList = some (units (spaceWords (words s.toList))) ∧
    collapseBlank (s.toList.flatMap escapeTemplateChar) = (collapseBlank s.toList).flatMap escapeTemplateChar ∧
    escapeTemplate s = String.ofList (collapseBlank (replaceInTurn templatePasses s.toList)) := by
  have noReturn : '\r' ∉ collapseBlank s.toList := fun h =>
    absurd (eq_space_of_mem_collapseBlank h (by decide)) (by decide)
  refine ⟨inert_escapeTemplate s, ?_, collapseBlank_escaped s.toList, ?_⟩
  · rw [toList_escapeTemplate, evaluate?_escaped noReturn, collapseBlank_eq_words]
  · unfold escapeTemplate
    rw [replaceInTurn_eq_flatMap, funext replaceInTurn_templatePasses]

end Artboard.Script
