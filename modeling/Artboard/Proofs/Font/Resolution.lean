import Artboard.Proofs.Asset.Payload
import Artboard.Proofs.Component
import Artboard.Proofs.Font.Usage
import Artboard.Proofs.Font.Usefulness
import Mathlib.Data.Bool.AllAny
import Mathlib.Data.Finset.Dedup
import Mathlib.Data.List.Infix

/-!
# Resolving fonts

A map of fonts is resolved by looking up its families one after the other, ascending (`FontWorld.Looks`), those that
every system has left out.  Each lookup gives one block: the stylesheet without blanks at its ends if there is one with
rules for fonts, or else an import of it (`FamilyLookup.face?`, `FamilyLookup.line`).

The blocks are put together with nothing but line ends between them, the imports first (`FontWorld.Stacked`), and the
rule for the container of a component comes after all of them.  A map may be listed in any order, with the weights in
any order: what is resolved and what is requested on the way is the same (`FontUsage.ofList_congr`).
-/

namespace Artboard

/-! ## 1. Maps of fonts -/

namespace FontUsage

variable {fonts others : List (String × List Int)} {usage : FontUsage} {family : String} {weights : List Int}

theorem mem_distinct {w : Int} : w ∈ distinct weights ↔ w ∈ weights := by
  unfold distinct
  induction weights with
  | nil => rfl
  | cons first rest ih => rw [List.foldr_cons, mem_insertWeight, ih, List.mem_cons]

theorem ascending_distinct (weights : List Int) : (distinct weights).Pairwise (· < ·) := by
  unfold distinct
  induction weights with
  | nil => exact .nil
  | cons first rest ih => exact ascending_insertWeight first ih

/-- The weights of a family in a map. -/
def weightsIn (fonts : List (String × List Int)) (family : String) : Option (Finset Int) :=
  (Entries.get? fonts family).map List.toFinset

theorem ascending_foldl (h : (families usage).Pairwise (· < ·)) (fonts : List (String × List Int)) :
    (families (fonts.foldl (fun usage e => change (fun _ => distinct e.2) e.1 usage) usage)).Pairwise (· < ·) := by
  induction fonts generalizing usage with
  | nil => exact h
  | cons entry rest ih => exact ih (ascending_change h)

/-- The families of a map ascend. -/
theorem ascending_ofList (fonts : List (String × List Int)) : (families (ofList fonts)).Pairwise (· < ·) :=
  ascending_foldl .nil fonts

theorem get?_foldl (h : (families usage).Pairwise (· < ·)) (once : (fonts.map Prod.fst).Nodup) (family : String) :
    Entries.get? (fonts.foldl (fun usage e => change (fun _ => distinct e.2) e.1 usage) usage) family =
      ((Entries.get? fonts family).map distinct).or (Entries.get? usage family) := by
  induction fonts generalizing usage with
  | nil => rfl
  | cons entry rest ih =>
    obtain ⟨name, weights⟩ := entry
    obtain ⟨fresh, once⟩ := List.nodup_cons.mp once
    rw [List.foldl_cons, ih (ascending_change h) once, get?_change h, Entries.get?]
    split
    · rename_i same
      rw [Entries.get?_eq_none (same ▸ fresh : family ∉ Entries.names rest)]
      rfl
    · rfl

/-- Which weights are the distinct ones of others, ascending. -/
theorem distinct_eq_iff {listed : List Int} :
    distinct listed = weights ↔ weights.Pairwise (· < ·) ∧ listed.toFinset = weights.toFinset := by
  have same : (distinct listed).toFinset = listed.toFinset := by
    ext w
    rw [List.mem_toFinset, List.mem_toFinset, mem_distinct]
  constructor
  · rintro rfl
    exact ⟨ascending_distinct listed, same.symm⟩
  · rintro ⟨sorted, members⟩
    refine (ascending_distinct listed).eq_of_mem_iff sorted fun w => ?_
    rw [← List.mem_toFinset, ← List.mem_toFinset, same, members]

/-- **The weights of a family are those that it is listed with**, ascending. -/
theorem get?_ofList_iff (once : (fonts.map Prod.fst).Nodup) : Entries.get? (ofList fonts) family = some weights ↔
    weights.Pairwise (· < ·) ∧ weightsIn fonts family = some weights.toFinset := by
  have found : Entries.get? (ofList fonts) family = (Entries.get? fonts family).map distinct :=
    (get?_foldl .nil once family).trans Option.or_none
  simp only [found, weightsIn, Option.map_eq_some_iff, distinct_eq_iff, ← exists_and_left, and_left_comm]

/-- **A map of fonts may be listed in any order.** -/
theorem ofList_congr (once : (fonts.map Prod.fst).Nodup) (once' : (others.map Prod.fst).Nodup)
    (same : ∀ family, weightsIn fonts family = weightsIn others family) : ofList fonts = ofList others := by
  refine eq_of_get?_eq (ascending_ofList fonts) (ascending_ofList others) fun family => Option.ext fun weights => ?_
  rw [get?_ofList_iff once, get?_ofList_iff once', same]

end FontUsage

/-! ## 2. Solid texts -/

namespace Text

/-- A text that neither starts nor ends with a blank. -/
structure IsSolid (text : String) : Prop where
  first : ∃ c, text.toList.head? = some c ∧ isBlank c = false
  last : ∃ c, text.toList.getLast? = some c ∧ isBlank c = false

theorem IsSolid.ne_empty {text : String} (h : IsSolid text) : text ≠ "" := by
  obtain ⟨c, first, -⟩ := h.first
  rintro rfl
  cases first

theorem IsSolid.append {front middle back : String} (first : IsSolid front) (last : IsSolid back) :
    IsSolid (front ++ middle ++ back) := by
  obtain ⟨c, starts, solid⟩ := first.first
  obtain ⟨d, ends, solid'⟩ := last.last
  exact ⟨⟨c, by simp [starts], solid⟩, ⟨d, by simp [ends], solid'⟩⟩

/-- Nothing is taken off such a text. -/
theorem IsSolid.trim {text : String} (h : IsSolid text) : trimBlank text = text := by
  obtain ⟨c, starts, solid⟩ := h.first
  obtain ⟨d, ends, solid'⟩ := h.last
  have whole : trimBoth isBlank text.toList = text.toList := by
    refine trimBoth_eq_self (fun e he => ?_) fun e he => ?_
    · rw [starts] at he
      exact Option.some.inj he ▸ solid
    · rw [ends] at he
      exact Option.some.inj he ▸ solid'
  unfold trimBlank
  rw [whole, String.ofList_toList]

/-- A text without its blanks at both ends, if anything is left. -/
theorem isSolid_trimBlank {text : String} {c : Char} (h : c ∈ text.toList) (solid : isBlank c = false) :
    IsSolid (trimBlank text) := by
  have left : text.toList.dropWhile isBlank ≠ [] := by
    intro none
    have blank := List.dropWhile_eq_nil_iff.mp none c h
    rw [solid] at blank
    cases blank
  obtain ⟨first, rest, whole⟩ := List.exists_cons_of_ne_nil left
  have starts : isBlank first = false := by
    have := List.head?_dropWhile_not isBlank text.toList
    rw [whole] at this
    simpa using this
  have trimmed : (trimBlank text).toList = first :: rest.rdropWhile isBlank := by
    rw [trimBlank, String.toList_ofList, trimBoth_eq_rdropWhile, whole, rdropWhile_cons_of_neg starts]
  have given : (first :: rest).rdropWhile isBlank ≠ [] := by
    rw [rdropWhile_cons_of_neg starts]
    exact List.cons_ne_nil _ _
  have ends := List.rdropWhile_last_not isBlank (first :: rest) given
  refine ⟨⟨first, by rw [trimmed]; rfl, starts⟩, ⟨_, ?_, Bool.not_eq_true _ ▸ ends⟩⟩
  rw [trimmed, ← rdropWhile_cons_of_neg starts, List.getLast?_eq_some_getLast given]

end Text

/-! ## 3. Lookups -/

/-- A lookup of the stylesheet for some weights of a family, and what came of it. -/
structure FamilyLookup where
  family : String
  weights : List Int
  outcome : Except Outage String

namespace FamilyLookup

/-- The address of the stylesheet. -/
def address (l : FamilyLookup) : String := Font.stylesheetUrl l.family l.weights

/-- The import of the stylesheet. -/
def line (l : FamilyLookup) : String := Font.importRule l.family l.weights

/-- The stylesheet without blanks at its ends, if there is one with rules for fonts. -/
def face? (l : FamilyLookup) : Option String :=
  match l.outcome with
  | .ok css => if "@font-face".toList <:+: css.toList then some (Text.trimBlank css) else none
  | .error _ => none

/-- What a lookup gives is its import or its stylesheet. -/
theorem partOf_outcome (l : FamilyLookup) : FontWorld.partOf l.family l.weights l.outcome =
    match l.face? with
    | some css => .rules css
    | none => .imported l.line := by
  unfold face? FontWorld.partOf
  cases l.outcome with
  | error outage => rfl
  | ok css =>
    have holds : Text.contains css "@font-face" = true ↔ "@font-face".toList <:+: css.toList :=
      Text.holds_eq_true_iff _ _
    dsimp only
    by_cases rules : "@font-face".toList <:+: css.toList
    · rw [if_pos (holds.mpr rules), if_pos rules]
    · rw [if_neg fun h => rules (holds.mp h), if_neg rules]
      rfl

theorem isSolid_line (l : FamilyLookup) : Text.IsSolid l.line := by
  unfold line Font.importRule
  have opening : Text.IsSolid "@import url(\"" := ⟨⟨'@', by decide, by decide⟩, ⟨'\x22', by decide, by decide⟩⟩
  have ending : Text.IsSolid "\");" := ⟨⟨'\x22', by decide, by decide⟩, ⟨';', by decide, by decide⟩⟩
  exact opening.append ending

theorem isSolid_face {l : FamilyLookup} {css : String} (h : l.face? = some css) : Text.IsSolid css := by
  unfold face? at h
  split at h
  · rename_i text outcome
    split at h
    · rename_i rules
      obtain rfl := Option.some.inj h
      have letter : 'f' ∈ "@font-face".toList := by decide
      exact Text.isSolid_trimBlank (rules.subset letter) (by decide)
    · cases h
  · cases h

end FamilyLookup

namespace FontWorld

variable {world : FontWorld} {s t u : FontSession} {l : FamilyLookup} {lookups : List FamilyLookup}

/-- The imports for lookups, in order. -/
def imports (lookups : List FamilyLookup) : List String :=
  (lookups.filter fun l => l.face?.isNone).map FamilyLookup.line

/-- The stylesheets for lookups, in order. -/
def faces (lookups : List FamilyLookup) : List String := lookups.filterMap FamilyLookup.face?

theorem imports_cons (l : FamilyLookup) (lookups : List FamilyLookup) : imports (l :: lookups) =
    match l.face? with
    | some _ => imports lookups
    | none => l.line :: imports lookups := by
  unfold imports
  rw [List.filter_cons]
  cases l.face? <;> rfl

theorem faces_cons (l : FamilyLookup) (lookups : List FamilyLookup) : faces (l :: lookups) =
    match l.face? with
    | some css => css :: faces lookups
    | none => faces lookups := by
  unfold faces
  rw [List.filterMap_cons]
  cases l.face? <;> rfl

/-- **Lookups one after the other**, each in the session that the ones before have left. -/
inductive Looks (world : FontWorld) : FontSession → List FamilyLookup → FontSession → Prop where
  | done (s : FontSession) : Looks world s [] s
  | next {s t u : FontSession} {l : FamilyLookup} {lookups : List FamilyLookup}
      (fetched : (world.fetch l.family l.weights).run.run s = (l.outcome, t)) (others : Looks world t lookups u) :
      Looks world s (l :: lookups) u

/-- What is put together for a usage comes of lookups of the families that no system has. -/
theorem looks_parts (world : FontWorld) (usage : FontUsage) (s : FontSession) :
    ∃ lookups, Looks world s lookups ((world.parts usage).run s).2 ∧
      lookups.map (fun l => (l.family, l.weights)) = foreign usage ∧
      importsOf ((world.parts usage).run s).1 = imports lookups ∧
      rulesOf ((world.parts usage).run s).1 = faces lookups := by
  induction usage generalizing s with
  | nil => exact ⟨[], .done s, rfl, rfl, rfl⟩
  | cons entry rest ih =>
    obtain ⟨family, weights⟩ := entry
    rw [foreign_cons]
    cases system : Font.isSystem family with
    | true =>
      rw [run_parts_system system, if_pos rfl]
      exact ih s
    | false =>
      rcases fetched : (world.fetch family weights).run.run s with ⟨outcome, t⟩
      obtain ⟨lookups, looks, families, imported, ruled⟩ := ih t
      have first : partOf family weights outcome = _ := FamilyLookup.partOf_outcome ⟨family, weights, outcome⟩
      rw [run_parts_cons system fetched, if_neg Bool.false_ne_true, first]
      refine ⟨⟨family, weights, outcome⟩ :: lookups, .next fetched looks, congrArg _ families, ?_, ?_⟩
      · rw [imports_cons, ← imported]
        cases FamilyLookup.face? ⟨family, weights, outcome⟩ <;> rfl
      · rw [faces_cons, ← ruled]
        cases FamilyLookup.face? ⟨family, weights, outcome⟩ <;> rfl

/-! ## 4. Blocks -/

/-- **Blocks one after the other**, with nothing but line ends between them. -/
inductive Stacked : List String → String → Prop where
  | nothing : Stacked [] ""
  | one (block : String) : Stacked [block] block
  | more {block next gap text : String} {rest : List String} (given : gap ≠ "") (ends : ∀ c ∈ gap.toList, c = '\n')
      (below : Stacked (next :: rest) text) : Stacked (block :: next :: rest) (block ++ gap ++ text)

namespace Stacked

variable {blocks below : List String} {gap text more : String}

/-- Two stacks with line ends between them. -/
theorem append (given : gap ≠ "") (ends : ∀ c ∈ gap.toList, c = '\n') (first : Stacked blocks text)
    (second : Stacked below more) (some : blocks ≠ []) (others : below ≠ []) :
    Stacked (blocks ++ below) (text ++ gap ++ more) := by
  induction first with
  | nothing => exact absurd rfl some
  | one block =>
    obtain ⟨next, rest, rfl⟩ := List.exists_cons_of_ne_nil others
    exact .more given ends second
  | @more block next between text rest given ends _ ih =>
    have together : Stacked (block :: next :: (rest ++ below)) _ := .more given ends (ih (List.cons_ne_nil _ _))
    simpa [String.append_assoc] using together

/-- Blocks put together with line ends are a stack. -/
theorem intercalate (given : gap ≠ "") (ends : ∀ c ∈ gap.toList, c = '\n') (blocks : List String) :
    Stacked blocks (gap.intercalate blocks) := by
  induction blocks with
  | nil => exact .nothing
  | cons block rest ih =>
    cases rest with
    | nil => exact (by simp : gap.intercalate [block] = block) ▸ .one block
    | cons next rest =>
      have written : gap.intercalate (block :: next :: rest) = block ++ gap ++ gap.intercalate (next :: rest) := by simp
      rw [written]
      exact .more given ends ih

end Stacked

/-- A stack of solid blocks is solid. -/
theorem Stacked.isSolid {blocks : List String} {text : String} (h : Stacked blocks text) (some : blocks ≠ [])
    (all : ∀ block ∈ blocks, Text.IsSolid block) : Text.IsSolid text := by
  induction h with
  | nothing => exact absurd rfl some
  | one block => exact all block List.mem_cons_self
  | more given ends _ ih =>
    exact (all _ List.mem_cons_self).append
      (ih (List.cons_ne_nil _ _) fun block h => all block (List.mem_cons_of_mem _ h))

/-- Parts are put together as a stack, the imports first. -/
theorem stacked_join (ps : List Part) : Stacked (importsOf ps ++ rulesOf ps) (join ps) := by
  have line : ∀ c ∈ "\n".toList, c = '\n' := List.all_iff_forall_prop.mp (by decide)
  have lines : ∀ c ∈ "\n\n".toList, c = '\n' := List.all_iff_forall_prop.mp (by decide)
  unfold join
  dsimp only
  by_cases bare : importsOf ps = []
  · rw [bare]
    exact Stacked.intercalate (by decide) lines _
  · have imported := Stacked.intercalate (by decide) line (importsOf ps)
    have given : (importsOf ps).isEmpty = false := by simpa using bare
    rw [given, if_neg Bool.false_ne_true]
    by_cases ruleless : rulesOf ps = []
    · rw [ruleless, List.append_nil, List.append_nil]
      simpa using imported
    · obtain ⟨rule, rules, some⟩ := List.exists_cons_of_ne_nil ruleless
      have written : "\n\n".intercalate (["\n".intercalate (importsOf ps)] ++ rulesOf ps) =
          "\n".intercalate (importsOf ps) ++ "\n\n" ++ "\n\n".intercalate (rulesOf ps) := by
        rw [some]
        simp
      rw [written]
      exact imported.append (by decide) lines (.intercalate (by decide) lines _) bare ruleless

theorem isSolid_of_mem {block : String} (h : block ∈ imports lookups ++ faces lookups) : Text.IsSolid block := by
  rcases List.mem_append.mp h with h | h
  · obtain ⟨l, -, rfl⟩ := List.mem_map.mp h
    exact l.isSolid_line
  · obtain ⟨l, -, face⟩ := List.mem_filterMap.mp h
    exact FamilyLookup.isSolid_face face

/-- The rule of a container comes after all blocks of its stylesheet. -/
theorem stacked_stylesheetText {blocks : List String} {text name rule : String} {fields : Members}
    (stacked : Stacked blocks text) (solid : ∀ block ∈ blocks, Text.IsSolid block)
    (ruled : Component.containerRule fields name = .ok rule) :
    ∃ sheet, Component.stylesheetText fields name text = .ok sheet ∧ Stacked (blocks ++ [rule]) sheet := by
  unfold Component.stylesheetText
  rw [ruled, ok_bind]
  dsimp only
  by_cases bare : blocks = []
  · subst bare
    cases stacked
    exact ⟨rule, rfl, .one rule⟩
  · have whole := stacked.isSolid bare solid
    rw [whole.trim, if_neg whole.ne_empty]
    have lines : ∀ c ∈ "\n\n".toList, c = '\n' := List.all_iff_forall_prop.mp (by decide)
    exact ⟨_, rfl, stacked.append (by decide) lines (.one rule) bare (List.cons_ne_nil _ _)⟩

/-! ## 5. Resolving -/

open FontUsage

/-- Two families that no system has and one that every system has, listed in two ways. -/
def someFonts : List (String × List Int) := [("Rubik", []), ("Arial", [700, 400]), ("Inter", [])]

def otherFonts : List (String × List Int) := [("Inter", []), ("Rubik", []), ("Arial", [400, 700])]

theorem weightsIn_otherFonts (family : String) : weightsIn someFonts family = weightsIn otherFonts family := by
  by_cases rubik : family = "Rubik"
  · rw [rubik]
    decide
  by_cases arial : family = "Arial"
  · rw [arial]
    decide
  by_cases inter : family = "Inter"
  · rw [inter]
    decide
  · simp [weightsIn, someFonts, otherFonts, Entries.get?, Ne.symm rubik, Ne.symm arial, Ne.symm inter]

end FontWorld

end Artboard
