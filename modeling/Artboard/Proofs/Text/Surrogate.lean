import Artboard.Text.Surrogate
import Mathlib.Data.List.Basic

/-!
# Stand-ins are private

The characters that stand for lone surrogates are all in the last two planes (`Text.StandIns.areHigh_unused`).  So a
text that has no character from there, such as a word of the service itself, is never taken for one with a lone
surrogate (`Text.not_lone_of_isLow`).
-/

namespace Artboard.Text

variable {isLone : Char → Bool} {s t : String}

/-- The first number of the last two planes. -/
def privateStart : Nat := 0xF0000

/-- Only private characters stand for lone surrogates. -/
def AreHigh (isLone : Char → Bool) : Prop := ∀ c, isLone c = true → privateStart ≤ c.toNat

/-- A text has no private character of the last two planes. -/
def isLow (s : String) : Bool := s.toList.all fun c => decide (c.toNat < privateStart)

@[simp] theorem isLow_append : isLow (s ++ t) = (isLow s && isLow t) := by
  unfold isLow
  rw [String.toList_append, List.all_append]

theorem not_lone_of_isLow (high : AreHigh isLone) (low : isLow s = true) : s.toList.any isLone = false := by
  rw [List.any_eq_false]
  intro c hc lone
  have below := of_decide_eq_true (List.all_eq_true.mp low c hc)
  have above := high c lone
  omega

theorem areHigh_none : AreHigh fun _ => false := by
  intro c lone
  cases lone

namespace StandIns

theorem first_of_mem_blocks {block : StandIns} (h : block ∈ blocks) : privateStart ≤ block.first := by
  obtain ⟨n, -, rfl⟩ := List.mem_map.mp h
  exact Nat.le_add_right privateStart _

/-- **A block that is taken has private characters only.** -/
theorem areHigh_unused (isUsed : StandIns → Bool) : AreHigh (unused isUsed).has := by
  have first : privateStart ≤ (unused isUsed).first := by
    unfold unused
    cases found : blocks.find? fun b => !isUsed b with
    | none => exact Nat.le_refl _
    | some block => exact first_of_mem_blocks (List.mem_of_find?_eq_some found)
  intro c has
  have within := of_decide_eq_true (Bool.and_eq_true_iff.mp has).1
  omega

end StandIns

end Artboard.Text
