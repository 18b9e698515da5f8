import Artboard.Text.Basic
import Mathlib.Data.List.DropRight

/-!
# Blanks and words

What stands between blanks are words (`words`).  A text with its blanks collapsed is its words with one space
between each two of them (`collapseBlank_eq_words`), so no other blank is left in it.  Trimming a text whose
front holds takes off blanks behind the front only (`trimBoth_append`).
-/

namespace Artboard.Text

variable {p : Char → Bool}

/-! ## 1. Trimming -/

theorem trimBoth_eq_rdropWhile (s : List Char) : trimBoth p s = (s.dropWhile p).rdropWhile p := rfl

theorem trimBoth_eq_self {s : List Char} (first : ∀ c ∈ s.head?, p c = false)
    (last : ∀ c ∈ s.getLast?, p c = false) : trimBoth p s = s := by
  have front : s.dropWhile p = s := by
    cases s with
    | nil => rfl
    | cons c rest => simp [first c rfl]
  have back : s.reverse.dropWhile p = s.reverse := by
    cases hr : s.reverse with
    | nil => rfl
    | cons c rest =>
      have hc : p c = false := last c (by rw [← List.head?_reverse, hr]; rfl)
      simp [hc]
  unfold trimBoth
  rw [front, back, List.reverse_reverse]

theorem rdropWhile_cons (c : Char) (s : List Char) :
    (c :: s).rdropWhile p = if s.rdropWhile p = [] then [c].rdropWhile p else c :: s.rdropWhile p := by
  unfold List.rdropWhile
  rw [List.reverse_cons, List.dropWhile_append]
  by_cases h : s.reverse.dropWhile p = [] <;> simp [h]

theorem rdropWhile_cons_of_neg {c : Char} (h : p c = false) (s : List Char) :
    (c :: s).rdropWhile p = c :: s.rdropWhile p := by
  rw [rdropWhile_cons, List.rdropWhile_singleton]
  split
  · rename_i none
    simp [h, none]
  · rfl

theorem rdropWhile_append {front : List Char} (some : front ≠ []) (last : ∀ c ∈ front.getLast?, p c = false)
    (s : List Char) : (front ++ s).rdropWhile p = front ++ s.rdropWhile p := by
  induction front with
  | nil => exact absurd rfl some
  | cons c rest ih =>
    cases rest with
    | nil => exact rdropWhile_cons_of_neg (last c rfl) s
    | cons d more =>
      have inner := ih (List.cons_ne_nil d more) fun e he => last e (by simpa using he)
      have held : (d :: more ++ s).rdropWhile p ≠ [] := by
        rw [inner]
        exact List.cons_ne_nil _ _
      rw [List.cons_append, rdropWhile_cons, if_neg held, inner]
      rfl

/-- Where the front of a text holds, trimming takes off what is behind it only. -/
theorem trimBoth_append {front : List Char} (some : front ≠ []) (first : ∀ c ∈ front.head?, p c = false)
    (last : ∀ c ∈ front.getLast?, p c = false) (s : List Char) :
    trimBoth p (front ++ s) = front ++ s.rdropWhile p := by
  have start : (front ++ s).dropWhile p = front ++ s := by
    cases front with
    | nil => exact absurd rfl some
    | cons c rest => simp [first c rfl]
  rw [trimBoth_eq_rdropWhile, start, rdropWhile_append some last]

/-- A trimmed text is not trimmed further. -/
theorem trimBoth_trimBoth (s : List Char) : trimBoth p (trimBoth p s) = trimBoth p s := by
  rw [trimBoth_eq_rdropWhile s]
  refine trimBoth_eq_self (fun c hc => ?_) fun c hc => ?_
  · cases front : s.dropWhile p with
    | nil =>
      rw [front] at hc
      cases hc
    | cons d rest =>
      have starts : p d = false := by
        have := List.head?_dropWhile_not p s
        rw [front] at this
        simpa using this
      rw [front, rdropWhile_cons_of_neg starts] at hc
      exact Option.some.inj hc ▸ starts
  · have given : (s.dropWhile p).rdropWhile p ≠ [] := fun none => by rw [none] at hc; cases hc
    rw [List.getLast?_eq_some_getLast given] at hc
    exact Option.some.inj hc ▸ Bool.not_eq_true _ ▸ List.rdropWhile_last_not p _ given

theorem trimBoth_sublist (s : List Char) : (trimBoth p s).Sublist s := by
  rw [trimBoth_eq_rdropWhile]
  exact (List.rdropWhile_prefix p _).sublist.trans (List.dropWhile_sublist p)

/-! ## 2. Dropping blanks -/

/-- A text with blanks put in anywhere. -/
inductive Spaced : List Char → List Char → Prop where
  | nil : Spaced [] []
  | keep {c : Char} {s t : List Char} (rest : Spaced s t) : Spaced (c :: s) (c :: t)
  | blank {b : Char} {s t : List Char} (isBlank : isBlank b = true) (rest : Spaced s t) : Spaced s (b :: t)

/-- Blanks that were put in are dropped. -/
theorem dropBlanks_of_spaced {s t : List Char} (h : Spaced s t) (solid : ∀ c ∈ s, isBlank c = false) :
    dropBlanks t = s := by
  induction h with
  | nil => rfl
  | @keep c s t _ ih =>
    have rest := ih fun d hd => solid d (List.mem_cons_of_mem c hd)
    unfold dropBlanks at rest ⊢
    rw [List.filter_cons_of_pos (by simp [solid c List.mem_cons_self]), rest]
  | blank hb _ ih =>
    have rest := ih solid
    unfold dropBlanks at rest ⊢
    rw [List.filter_cons_of_neg (by simp [hb]), rest]

theorem spaced_dropBlanks (t : List Char) : Spaced (dropBlanks t) t := by
  induction t with
  | nil => exact .nil
  | cons c rest ih =>
    unfold dropBlanks at ih ⊢
    cases hc : isBlank c with
    | true =>
      rw [List.filter_cons_of_neg (by simp [hc])]
      exact .blank hc ih
    | false =>
      rw [List.filter_cons_of_pos (by simp [hc])]
      exact .keep ih

theorem spaced_iff {s t : List Char} (solid : ∀ c ∈ s, isBlank c = false) : Spaced s t ↔ dropBlanks t = s :=
  ⟨fun h => dropBlanks_of_spaced h solid, fun h => h ▸ spaced_dropBlanks t⟩

theorem dropBlanks_rdropWhile (s : List Char) : dropBlanks (s.rdropWhile isBlank) = dropBlanks s := by
  have back : (s.rtakeWhile isBlank).filter (!isBlank ·) = [] := by
    rw [List.filter_eq_nil_iff]
    intro c hc
    simp [List.mem_rtakeWhile_imp hc]
  calc dropBlanks (s.rdropWhile isBlank)
      = dropBlanks (s.rdropWhile isBlank ++ s.rtakeWhile isBlank) := by
        unfold dropBlanks
        rw [List.filter_append, back, List.append_nil]
    _ = dropBlanks s := by rw [List.rdropWhile_append_rtakeWhile]

/-! ## 3. Collapsing -/

/-- The maximal runs of characters that are not blank. -/
def words (s : List Char) : List (List Char) := (s.splitOnP isBlank).filter (· ≠ [])

/-- Words with one space between each two. -/
def spaceWords (ws : List (List Char)) : List Char := [' '].intercalate ws

/-- Where blanks are collapsed, spaces are the only ones. -/
theorem eq_space_of_mem_collapse {c : Char} {s : List Char} {inRun : Bool} (h : c ∈ collapse inRun s)
    (blank : isBlank c = true) : c = ' ' := by
  induction s generalizing inRun with
  | nil => cases h
  | cons d rest ih =>
    unfold collapse at h
    split at h
    · split at h
      · exact ih h
      · rcases List.mem_cons.mp h with rfl | h
        · rfl
        · exact ih h
    · rename_i other
      rcases List.mem_cons.mp h with rfl | h
      · exact absurd blank other
      · exact ih h

theorem eq_space_of_mem_collapseBlank {c : Char} {s : List Char} (h : c ∈ collapseBlank s)
    (blank : isBlank c = true) : c = ' ' :=
  eq_space_of_mem_collapse ((trimBoth_sublist _).subset h) blank

/-- Behind the blanks at the front, it does not matter whether a run has been begun. -/
theorem dropWhile_collapse (inRun : Bool) (s : List Char) :
    (collapse inRun s).dropWhile isBlank = collapse true s := by
  have space : isBlank ' ' = true := by decide
  induction s generalizing inRun with
  | nil => rfl
  | cons c rest ih =>
    cases hc : isBlank c with
    | true => cases inRun <;> simp [collapse, hc, space, ih]
    | false => simp [collapse, hc]

/-- What is written of the words behind the first one. -/
def tailWords (ws : List (List Char)) : List Char := if ws = [] then [] else ' ' :: spaceWords ws

theorem spaceWords_cons (w : List Char) (ws : List (List Char)) :
    spaceWords (w :: ws) = w ++ tailWords ws := by
  cases ws with
  | nil => simp [spaceWords, tailWords]
  | cons v rest => simp [spaceWords, tailWords, List.intercalate_cons_cons]

theorem spaceWords_eq_nil {ws : List (List Char)} (given : ∀ w ∈ ws, w ≠ []) (h : spaceWords ws = []) :
    ws = [] := by
  cases ws with
  | nil => rfl
  | cons w rest =>
    rw [spaceWords_cons, List.append_eq_nil_iff] at h
    exact absurd h.1 (given w List.mem_cons_self)

theorem mem_words_ne_nil {s : List Char} : ∀ w ∈ words s, w ≠ [] := fun w hw => by
  simpa using (List.mem_filter.mp hw).2

theorem words_cons_of_pos {c : Char} (h : isBlank c = true) (s : List Char) : words (c :: s) = words s := by
  unfold words
  rw [List.splitOnP_cons_eq_if_modifyHead, if_pos h]
  rfl

theorem rdropWhile_collapse (s : List Char) {w : List Char} {ws : List (List Char)}
    (split : s.splitOnP isBlank = w :: ws) :
    (collapse false s).rdropWhile isBlank = w ++ tailWords (ws.filter (· ≠ [])) ∧
      (collapse true s).rdropWhile isBlank = spaceWords (words s) := by
  induction s generalizing w ws with
  | nil =>
    cases split
    exact ⟨rfl, rfl⟩
  | cons c rest ih =>
    obtain ⟨v, vs, inner⟩ := List.exists_cons_of_ne_nil (List.splitOnP_ne_nil isBlank rest)
    obtain ⟨inWord, behindBlank⟩ := ih inner
    cases hc : isBlank c with
    | true =>
      rw [List.splitOnP_cons_eq_if_modifyHead, if_pos hc] at split
      cases split
      have skipped : collapse true (c :: rest) = collapse true rest := by simp [collapse, hc]
      have begun : collapse false (c :: rest) = ' ' :: collapse true rest := by simp [collapse, hc]
      rw [skipped, begun, words_cons_of_pos hc, rdropWhile_cons, behindBlank]
      refine ⟨?_, rfl⟩
      have space : [' '].rdropWhile isBlank = [] := by decide
      change _ = tailWords (words rest)
      unfold tailWords
      by_cases none : words rest = []
      · have empty : spaceWords [] = [] := rfl
        rw [none, if_pos empty, space, if_pos rfl]
      · have some : spaceWords (words rest) ≠ [] := fun h => none (spaceWords_eq_nil mem_words_ne_nil h)
        rw [if_neg some, if_neg none]
    | false =>
      rw [List.splitOnP_cons_eq_if_modifyHead, if_neg (by simp [hc]), inner, List.modifyHead_cons] at split
      obtain ⟨hw, hws⟩ := List.cons.inj split
      subst hw hws
      have kept (inRun : Bool) : (collapse inRun (c :: rest)).rdropWhile isBlank =
          c :: v ++ tailWords (vs.filter (· ≠ [])) := by
        have written : collapse inRun (c :: rest) = c :: collapse false rest := by simp [collapse, hc]
        rw [written, rdropWhile_cons_of_neg hc, inWord, List.cons_append]
      have own : words (c :: rest) = (c :: v) :: vs.filter (· ≠ []) := by
        unfold words
        rw [List.splitOnP_cons_eq_if_modifyHead, if_neg (by simp [hc]), inner]
        rfl
      rw [kept, kept, own, spaceWords_cons]
      exact ⟨rfl, rfl⟩

/-- **Collapsed blanks are single spaces between words.** -/
theorem collapseBlank_eq_words (s : List Char) : collapseBlank s = spaceWords (words s) := by
  obtain ⟨w, ws, split⟩ := List.exists_cons_of_ne_nil (List.splitOnP_ne_nil isBlank s)
  unfold collapseBlank
  rw [trimBoth_eq_rdropWhile, dropWhile_collapse]
  exact (rdropWhile_collapse s split).2

end Artboard.Text
