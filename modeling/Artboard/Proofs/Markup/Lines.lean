import Artboard.Markup.Printer

/-!
# Lines of markup

The printer puts lines together with line breaks between them.  A text with a break at its end is its lines,
each with its own (`toList_joinLines`), which is the form in which facts about lines carry over to texts
(`spread`).  An indent is blanks, however deep (`isPad_indent`).
-/

namespace Artboard.Markup

/-! ## 1. Texts of lines -/

/-- Lines as they stand in a text, each with its end. -/
def spread (ls : List String) : List Char := ls.flatMap fun l => l.toList ++ ['\n']

theorem spread_append (ls ms : List String) : spread (ls ++ ms) = spread ls ++ spread ms :=
  List.flatMap_append

theorem spread_cons (l : String) (ls : List String) : spread (l :: ls) = l.toList ++ ['\n'] ++ spread ls :=
  List.flatMap_cons

/-- Lines put together and ended are the lines as they stand. -/
theorem toList_joinLines (l : String) (ls : List String) :
    (joinLines (l :: ls)).toList ++ ['\n'] = spread (l :: ls) := by
  induction ls generalizing l with
  | nil => simp [joinLines, spread]
  | cons m rest ih =>
    have hjoin : joinLines (l :: m :: rest) = l ++ "\n" ++ joinLines (m :: rest) := by
      simp [joinLines]
    rw [hjoin, spread_cons, ← ih]
    simp

/-- What a line has is in the text. -/
theorem any_joinLines {p : Char → Bool} {l : String} {ls : List String} (hl : l ∈ ls) (h : l.toList.any p = true) :
    (joinLines ls).toList.any p = true := by
  induction ls with
  | nil => cases hl
  | cons m rest ih =>
    cases rest with
    | nil =>
      obtain rfl := List.mem_singleton.mp hl
      simpa [joinLines] using h
    | cons n rest =>
      have hjoin : joinLines (m :: n :: rest) = m ++ "\n" ++ joinLines (n :: rest) := by
        simp [joinLines]
      rw [hjoin, String.toList_append, List.any_append, String.toList_append, List.any_append]
      rcases List.mem_cons.mp hl with rfl | hl
      · rw [h]
        rfl
      · rw [ih hl, Bool.or_true]

/-- The lines of children are those of each, a level further in. -/
theorem mem_childLines {level : Int} {ms : List Markup} {l : String} :
    l ∈ childLines level ms ↔ ∃ m ∈ ms, l ∈ m.lines (childLevel level m) := by
  induction ms with
  | nil => simp [childLines]
  | cons m rest ih => simp [childLines, ih]

theorem lines_ne_nil (m : Markup) (level : Int) : m.lines level ≠ [] := by
  cases m with
  | text s => exact List.cons_ne_nil _ _
  | element tag attributes style children =>
    unfold lines openingLines
    exact nofun

/-- Pieces of markup printed as lines of a text. -/
theorem spread_print (level : Int) (ms : List Markup) :
    spread (ms.map (print level)) = ms.flatMap fun m => spread (m.lines level) := by
  induction ms with
  | nil => rfl
  | cons m rest ih =>
    rw [List.map_cons, spread_cons, List.flatMap_cons, ih]
    obtain ⟨l, ls, hl⟩ := List.exists_cons_of_ne_nil (lines_ne_nil m level)
    unfold print
    rw [hl, toList_joinLines]

/-! ## 2. Indents -/

/-- Blanks only. -/
def IsPad (pad : String) : Prop := ∃ n, pad.toList = List.replicate n ' '

theorem isPad_indent (level : Int) : IsPad (indent level) :=
  ⟨_, String.toList_ofList⟩

theorem IsPad.step {pad : String} (h : IsPad pad) : IsPad (pad ++ step) := by
  obtain ⟨n, hn⟩ := h
  refine ⟨n + 2, ?_⟩
  rw [String.toList_append, hn, ← List.replicate_append_replicate]
  rfl

end Artboard.Markup
