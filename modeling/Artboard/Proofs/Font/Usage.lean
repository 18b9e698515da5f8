import Artboard.Component
import Artboard.Proofs.Font.Cache
import Artboard.Proofs.Pruning
import Artboard.Proofs.Style.Font
import Mathlib.Data.List.Sort
import Mathlib.Data.String.Basic

/-!
# The fonts of a design

A drawing notes the font of each text that it draws, be it as a text or as the placeholder of an input.  So the
usage of a composition has exactly the families and weights of the texts that are drawn (`FontUsage.Notes`), and
their elements say the same (`Node.ShowsOwnFont`).  Building a component without a cache then requests the
stylesheet of each such family that no system has, once and in order, and nothing else
(`Component.fonts_build`).

A usage is a map with ascending families (`FontUsage.get?_change`).  One note adds one use (`Notes.note`), a
drawing adds those of the nodes it draws (`Node.notes_of_draws`), and the roots come one after another.
-/

namespace Artboard

namespace FontUsage

/-! ## 1. Usage as a map -/

theorem mem_insertWeight {weight w : Int} {weights : List Int} :
    w ∈ insertWeight weight weights ↔ w = weight ∨ w ∈ weights := by
  induction weights with
  | nil => simp [insertWeight]
  | cons first rest ih =>
    unfold insertWeight
    split
    · simp
    · split
      · rename_i same
        simp [same]
      · simp only [List.mem_cons, ih, or_left_comm]

theorem ascending_insertWeight (weight : Int) {weights : List Int} (h : weights.Pairwise (· < ·)) :
    (insertWeight weight weights).Pairwise (· < ·) := by
  induction weights with
  | nil => simp [insertWeight]
  | cons first rest ih =>
    obtain ⟨least, others⟩ := List.pairwise_cons.mp h
    unfold insertWeight
    split
    · rename_i less
      refine List.pairwise_cons.mpr ⟨fun w hw => ?_, h⟩
      rcases List.mem_cons.mp hw with rfl | hw
      · exact less
      · have := least w hw
        omega
    · split
      · exact h
      · refine List.pairwise_cons.mpr ⟨fun w hw => ?_, ih others⟩
        rcases mem_insertWeight.mp hw with rfl | hw
        · omega
        · exact least w hw

/-- The families of a usage. -/
def families (usage : FontUsage) : List String := usage.map Prod.fst

variable {usage : FontUsage} {f : List Int → List Int} {family other : String}

theorem mem_families_change : other ∈ families (change f family usage) ↔ other = family ∨ other ∈ families usage := by
  induction usage with
  | nil => simp [change, families]
  | cons entry rest ih =>
    obtain ⟨name, weights⟩ := entry
    unfold families at ih ⊢
    unfold change
    split
    · simp
    · split
      · rename_i same
        simp [same]
      · simp only [List.map_cons, List.mem_cons, ih, or_left_comm]

theorem ascending_change (h : (families usage).Pairwise (· < ·)) :
    (families (change f family usage)).Pairwise (· < ·) := by
  induction usage with
  | nil => simp [change, families]
  | cons entry rest ih =>
    obtain ⟨name, weights⟩ := entry
    obtain ⟨least, others⟩ := List.pairwise_cons.mp h
    unfold change
    split
    · rename_i less
      refine List.pairwise_cons.mpr ⟨fun later hl => ?_, h⟩
      rcases List.mem_cons.mp hl with rfl | hl
      · exact less
      · exact lt_trans less (least later hl)
    · split
      · exact h
      · rename_i notLess different
        refine List.pairwise_cons.mpr ⟨fun later hl => ?_, ih others⟩
        rcases mem_families_change.mp hl with rfl | hl
        · exact lt_of_le_of_ne (not_lt.mp notLess) (Ne.symm different)
        · exact least later hl

/-- A change is one at its family only. -/
theorem get?_change (h : (families usage).Pairwise (· < ·)) :
    Entries.get? (change f family usage) other =
      if family = other then some (f ((Entries.get? usage family).getD [])) else Entries.get? usage other := by
  induction usage with
  | nil => simp [change, Entries.get?]
  | cons entry rest ih =>
    obtain ⟨name, weights⟩ := entry
    obtain ⟨least, others⟩ := List.pairwise_cons.mp h
    unfold change
    split
    · rename_i less
      have fresh : Entries.get? ((name, weights) :: rest) family = none := by
        refine Entries.get?_eq_none fun found => ?_
        rcases List.mem_cons.mp found with rfl | found
        · exact lt_irrefl _ less
        · exact lt_irrefl _ (lt_trans less (least family found))
      rw [fresh]
      rfl
    · split
      · rename_i same
        subst same
        simp only [Entries.get?]
        split <;> rfl
      · rename_i different
        simp only [Entries.get?, ih others]
        by_cases hn : name = other
        · subst hn
          rw [if_pos rfl, if_neg different, if_pos rfl]
        · rw [if_neg hn, if_neg hn, if_neg (Ne.symm different)]

/-! ## 2. Notes -/

/-- **The usage notes exactly these uses**: each family once, in order, with the weights that it is used with,
ascending, and with no family that is not used. -/
structure Notes (usage : FontUsage) (used : String → Int → Prop) : Prop where
  ascending : (families usage).Pairwise (· < ·)
  weights : ∀ family weights, Entries.get? usage family = some weights →
    weights ≠ [] ∧ weights.Pairwise (· < ·) ∧ ∀ w, w ∈ weights ↔ used family w
  complete : ∀ family w, used family w → Entries.get? usage family ≠ none

theorem Notes.nothing : Notes [] fun _ _ => False :=
  ⟨.nil, nofun, nofun⟩

theorem Notes.congr {used others : String → Int → Prop} (h : Notes usage used)
    (same : ∀ family w, used family w ↔ others family w) : Notes usage others := by
  have eq : used = others := funext fun family => funext fun w => propext (same family w)
  exact eq ▸ h

/-- A weight noted for a family is one more use. -/
theorem Notes.note {used : String → Int → Prop} (h : Notes usage used) (family : String) (weight : Int) :
    Notes ((usage.touch family).add family weight)
      fun name w => used name w ∨ (name = family ∧ w = weight) := by
  have touched : (families (usage.touch family)).Pairwise (· < ·) := ascending_change h.ascending
  have looked (name : String) : Entries.get? ((usage.touch family).add family weight) name =
      if family = name then some (insertWeight weight ((Entries.get? usage family).getD []))
      else Entries.get? usage name := by
    unfold add
    rw [get?_change touched]
    unfold touch
    rw [get?_change h.ascending, get?_change h.ascending, if_pos rfl]
    split <;> rfl
  refine ⟨ascending_change touched, fun name weights found => ?_, fun name w hw => ?_⟩
  · rw [looked] at found
    split at found
    · rename_i same
      subst same
      obtain rfl := Option.some.inj found
      cases before : Entries.get? usage family with
      | none =>
        have unused (w : Int) : ¬used family w := fun hw => h.complete family w hw before
        simp [insertWeight, unused]
      | some weights =>
        obtain ⟨_, ascending, mem⟩ := h.weights family weights before
        refine ⟨fun none => ?_, ascending_insertWeight weight ascending, fun w => ?_⟩
        · have : weight ∈ insertWeight weight weights := mem_insertWeight.mpr (.inl rfl)
          simp_all
        · simp [mem_insertWeight, mem, or_comm]
    · rename_i different
      obtain ⟨given, ascending, mem⟩ := h.weights name weights found
      refine ⟨given, ascending, fun w => ?_⟩
      simp [mem, Ne.symm different]
  · rw [looked]
    split
    · exact nofun
    · rename_i different
      exact h.complete name w (hw.resolve_right fun same => different same.1.symm)

/-- A family is noted with some weights exactly if these are the ones that it is used with. -/
theorem Notes.get?_iff {used : String → Int → Prop} (h : Notes usage used) {family : String} {weights : List Int} :
    Entries.get? usage family = some weights ↔
      weights ≠ [] ∧ weights.Pairwise (· < ·) ∧ ∀ w, w ∈ weights ↔ used family w := by
  refine ⟨h.weights family weights, fun ⟨given, ascending, mem⟩ => ?_⟩
  obtain ⟨w, hw⟩ := List.exists_mem_of_ne_nil weights given
  obtain ⟨noted, found⟩ := Option.ne_none_iff_exists'.mp (h.complete family w ((mem w).mp hw))
  obtain ⟨_, notedAscending, notedMem⟩ := h.weights family noted found
  have same : noted = weights :=
    notedAscending.eq_of_mem_iff ascending fun w => (notedMem w).trans (mem w).symm
  rw [found, same]

/-- The weights that a family is noted with. -/
theorem Notes.mem_getD {used : String → Int → Prop} (h : Notes usage used) (family : String) (w : Int) :
    w ∈ (Entries.get? usage family).getD [] ↔ used family w := by
  cases found : Entries.get? usage family with
  | none => simpa using fun hw => h.complete family w hw found
  | some weights => exact (h.weights family weights found).2.2 w

/-- **The usage of two parts**: each family that one of them uses, in order, with all weights that one of them uses
it with. -/
structure IsUnion (a b usage : FontUsage) : Prop where
  ascending : (families usage).Pairwise (· < ·)
  weights : ∀ family weights, Entries.get? usage family = some weights ↔
    weights ≠ [] ∧ weights.Pairwise (· < ·) ∧
      ∀ w, w ∈ weights ↔ w ∈ (Entries.get? a family).getD [] ∨ w ∈ (Entries.get? b family).getD []

/-- What notes the uses of two usages is their union. -/
theorem Notes.isUnion {a b : FontUsage} {used others : String → Int → Prop} (h : Notes a used) (k : Notes b others)
    (both : Notes usage fun family w => used family w ∨ others family w) : IsUnion a b usage := by
  refine ⟨both.ascending, fun family weights => ?_⟩
  rw [both.get?_iff]
  simp only [h.mem_getD, k.mem_getD]

/-- The entries of a usage are found under their families. -/
theorem mem_iff_get? {usage : FontUsage} (h : (families usage).Pairwise (· < ·)) {entry : String × List Int} :
    entry ∈ usage ↔ Entries.get? usage entry.1 = some entry.2 := by
  induction usage with
  | nil => simp [Entries.get?]
  | cons first rest ih =>
    obtain ⟨least, others⟩ := List.pairwise_cons.mp h
    obtain ⟨family, weights⟩ := entry
    have later (he : (family, weights) ∈ rest) : first.1 ≠ family :=
      (least family (List.mem_map_of_mem he)).ne
    rw [List.mem_cons, Entries.get?]
    split
    · rename_i same
      constructor
      · rintro (rfl | he)
        · rfl
        · exact absurd same (later he)
      · intro found
        left
        cases first
        cases found
        cases same
        rfl
    · rename_i different
      rw [← ih others]
      constructor
      · rintro (rfl | he)
        · exact absurd rfl different
        · exact he
      · exact .inr

/-- Usages are the same if all families are looked up alike. -/
theorem eq_of_get?_eq {usage noted : FontUsage} (h : (families usage).Pairwise (· < ·))
    (h' : (families noted).Pairwise (· < ·)) (same : ∀ family, Entries.get? usage family = Entries.get? noted family) :
    usage = noted := by
  have mem (entry : String × List Int) : entry ∈ usage ↔ entry ∈ noted := by
    rw [mem_iff_get? h, mem_iff_get? h', same]
  exact (List.pairwise_map.mp h).eq_of_mem_iff (List.pairwise_map.mp h') mem

/-- There is one usage that notes given uses. -/
theorem Notes.unique {used : String → Int → Prop} {noted : FontUsage} (h : Notes usage used) (h' : Notes noted used) :
    usage = noted := by
  refine eq_of_get?_eq h.ascending h'.ascending fun family => Option.ext fun weights => ?_
  rw [h.get?_iff, h'.get?_iff]

end FontUsage

/-! ## 3. The fonts of what is drawn -/

open FontUsage

/-- Noting the font of a text that succeeds: its family, if it has one, with its weight. -/
theorem Compile.useFont_ok {fields : Members} {p q : Progress}
    (h : (useFont fields).runFrom p = (.ok (), q)) :
    (Typography.familyOf? fields = none ∧ q = p) ∨
      ∃ family weight, Typography.familyOf? fields = some family ∧ Typography.weightOf fields = .ok weight ∧
        q.fonts = (p.fonts.touch family).add family weight := by
  unfold useFont at h
  split at h
  · rename_i none
    exact .inl ⟨none, (pure_ok h).2⟩
  · rename_i family found
    obtain ⟨_, r, touched, h⟩ := bind_ok h
    cases touched
    obtain ⟨weight, looked, h⟩ := lift_bind_ok h
    cases h
    exact .inr ⟨family, weight, found, looked, rfl⟩

namespace Node

/-- The node is a text in a font with this family and weight. -/
def UsesFont (family : String) (weight : Int) : Node → Prop
  | object fields _ => (leafText? fields).isSome = true ∧ Typography.familyOf? fields = some family ∧
      Typography.weightOf fields = .ok weight
  | other _ => False

/-- One of the nodes is a text in such a font. -/
def UsedIn (nodes : List Node) (family : String) (weight : Int) : Prop := ∃ n ∈ nodes, n.UsesFont family weight

variable {nodes others : List Node} {fields : Members} {children : List Node} {family : String} {weight : Int}

theorem usedIn_nil : ¬UsedIn [] family weight := by simp [UsedIn]

theorem usedIn_append : UsedIn (nodes ++ others) family weight ↔
    UsedIn nodes family weight ∨ UsedIn others family weight := by
  simp [UsedIn, or_and_right, exists_or]

theorem usedIn_singleton {n : Node} : UsedIn [n] family weight ↔ n.UsesFont family weight := by simp [UsedIn]

/-- What is used by a node and by those behind it. -/
theorem usedIn_drawnIn {n : Node} {used : Prop} :
    ((used ∨ UsedIn n.drawn family weight) ∨ UsedIn (drawnIn nodes) family weight) ↔
      used ∨ UsedIn (drawnIn (n :: nodes)) family weight := by
  have both : drawnIn (n :: nodes) = n.drawn ++ drawnIn nodes := by rw [drawnIn]
  rw [both, usedIn_append, or_assoc]

/-- Only a text uses a font. -/
theorem not_usesFont (leaf : leafText? fields = none) : ¬(object fields children).UsesFont family weight := by
  simp [UsesFont, leaf]

/-- The font of a text noted is the one that it uses. -/
theorem notes_useFont {used : String → Int → Prop} {content : String} {p q : Progress} (children : List Node)
    (leaf : leafText? fields = some content) (noted : (Compile.useFont fields).runFrom p = (.ok (), q))
    (before : Notes p.fonts used) : Notes q.fonts fun family weight =>
      used family weight ∨ (object fields children).UsesFont family weight := by
  rcases Compile.useFont_ok noted with ⟨none, rfl⟩ | ⟨name, value, found, looked, fonts⟩
  · exact before.congr fun family weight => by simp [UsesFont, none]
  · rw [fonts]
    refine (before.note name value).congr fun family weight => ?_
    simp [UsesFont, leaf, found, looked, eq_comm]

/-- **A drawing notes the fonts of the texts that it draws**, and no others. -/
theorem notes_of_draws {task : Task} {p q : Progress} {ms : List Markup} (h : Draws task p ms q) :
    ∀ {used : String → Int → Prop}, Notes p.fonts used →
      Notes q.fonts fun family weight => used family weight ∨ UsedIn task.drawn family weight := by
  induction h with
  | other => exact fun before => before.congr fun _ _ => by simp [Task.drawn, drawn, usedIn_nil]
  | hidden hh => exact fun before => before.congr fun _ _ => by simp [Task.drawn, drawn_hidden hh, usedIn_nil]
  | text shown leaf noted _ _ =>
    intro used before
    rw [Task.drawn, drawn_of_isOpaque shown (isOpaque_of_leaf leaf)]
    exact (notes_useFont _ leaf noted before).congr fun _ _ => by rw [usedIn_singleton]
  | asset shown leaf drawn _ _ _ =>
    intro used before
    rw [Task.drawn, drawn_of_isOpaque shown (isOpaque_of_asset drawn)]
    exact before.congr fun _ _ => by simp [usedIn_singleton, not_usesFont leaf]
  | @container place origin fields children widget style frame written content p q shown leaf plain kind styled
      framed wrote inside ih =>
    intro used before
    rw [drawn_inside] at ih
    rw [Task.drawn, drawn_container shown (isOpaque_of_none leaf plain)]
    refine (ih (before : Notes p.next.fonts used)).congr fun family weight => ?_
    rw [← List.singleton_append, usedIn_append, usedIn_singleton]
    simp [not_usesFont leaf]
  | rowNil => exact fun before => before.congr fun _ _ => by simp [Task.drawn, drawnIn, usedIn_nil]
  | rowCons _ _ head tail =>
    exact fun before => (tail (head before)).congr fun _ _ => usedIn_drawnIn
  | fieldNil => exact fun before => before.congr fun _ _ => by simp [Task.drawn, drawnIn, usedIn_nil]
  | fieldInput text noted _ _ _ tail =>
    intro used before
    obtain ⟨children, rfl, shown, leaf⟩ := visibleText?_eq_some text
    refine (tail (notes_useFont children leaf noted before)).congr fun family weight => ?_
    rw [← usedIn_singleton, ← drawn_of_isOpaque shown (isOpaque_of_leaf leaf)]
    exact usedIn_drawnIn
  | fieldChild _ _ _ _ head tail =>
    exact fun before => (tail (head before)).congr fun _ _ => usedIn_drawnIn

/-- The roots of a design note the fonts of all that is drawn of them. -/
theorem notes_of_rootMarkups {roots : List Node} {p q : Progress} {ms : List Markup}
    (h : (rootMarkups roots).runFrom p = (.ok ms, q)) {used : String → Int → Prop} (before : Notes p.fonts used) :
    Notes q.fonts fun family weight => used family weight ∨ UsedIn (drawnIn roots) family weight := by
  replace h := drawsRoots_of_rootMarkups h
  induction h generalizing used with
  | nil => exact before.congr fun _ _ => by simp [drawnIn, usedIn_nil]
  | cons _ head _ ih => exact (ih (notes_of_draws head before)).congr fun _ _ => usedIn_drawnIn

/-- And where nothing has been noted before, these are all that are noted. -/
theorem notes_of_forest {roots : List Node} {q : Progress} {ms : List Markup}
    (h : (rootMarkups roots).runFrom {} = (.ok ms, q)) : Notes q.fonts (UsedIn (drawnIn roots)) :=
  (notes_of_rootMarkups h Notes.nothing).congr fun _ _ => by rw [false_or]

/-! ## 4. The fonts of elements -/

open Markup Typography

/-- **A text that is drawn shows its font**: every style that its fields give does, and so does the style that is
written into its element. -/
def ShowsOwnFont (looks : Entries Written) : Node → Prop
  | object fields _ => (leafText? fields).isSome = true →
      (∀ place image style, Node.style fields place image = .ok style → ShowsFont fields style) ∧
        WritesFont fields looks
  | other _ => True

theorem isText_of_leaf {content : String} (leaf : leafText? fields = some content) : isText fields = true := by
  unfold leafText? at leaf
  split at leaf
  · assumption
  · cases leaf

theorem showsOwnFont_text {content : String} {written : Entries Written} (leaf : leafText? fields = some content)
    (writes : WritesFont fields written) : ShowsOwnFont written (.object fields children) :=
  fun _ => ⟨fun _ _ _ styled => showsFont_style (isText_of_leaf leaf) styled, writes⟩

theorem showsOwnFont_plain {written : Entries Written} (leaf : leafText? fields = none) :
    ShowsOwnFont written (.object fields children) := fun text => by simp [leaf] at text

theorem leafText?_of_plain (plain : isOpaque fields = false) : leafText? fields = none := by
  simp only [isOpaque, Bool.or_eq_false_iff] at plain
  exact Option.isNone_iff_eq_none.mp (by simpa using plain.1)

end Node

/-- The style of an element, as it is written. -/
def Markup.looks : Markup → Entries Written
  | .text _ => []
  | .element _ _ style _ => style

/-- The element of a node shows the font of the node. -/
theorem Node.Depicts.showsOwnFont {id : Int} {n : Node} {m : Markup} (h : Depicts id n m) :
    n.ShowsOwnFont m.looks := by
  cases h with
  | text leaf styled =>
    obtain ⟨place, style, styled, wrote⟩ := styled
    exact showsOwnFont_text leaf ((showsFont_style (isText_of_leaf leaf) styled).written wrote)
  | placeholder leaf styled wrote =>
    exact showsOwnFont_text leaf ((showsFont_input (isText_of_leaf leaf) styled).written wrote)
  | image leaf _ _ _ => exact showsOwnFont_plain leaf
  | button plain _ _ => exact showsOwnFont_plain (leafText?_of_plain plain)
  | textField plain _ _ _ => exact showsOwnFont_plain (leafText?_of_plain plain)
  | checkbox plain _ _ => exact showsOwnFont_plain (leafText?_of_plain plain)
  | box plain _ _ _ => exact showsOwnFont_plain (leafText?_of_plain plain)

/-! ## 5. Components -/

namespace Composition

/-- A forest compiles as its roots do. -/
theorem ofRoots_of_ofValue {forest : Value} {c : Composition} (h : ofValue forest = .ok c) :
    ofRoots c.roots = .ok c := by
  obtain ⟨values, _, h⟩ := ok_of_bind h
  obtain ⟨roots, _, h⟩ := ok_of_bind h
  rw [roots_of_ofRoots h]
  exact h

end Composition

namespace Component

/-- Building without a cache requests the stylesheets of all families that no system has. -/
theorem run_build_plain {world : FontWorld} (plain : world.cacheEnabled = false) {forest : Value}
    {c : Composition} (h : Composition.ofValue forest = .ok c) (s : FontSession) :
    ((build world forest).run s).2 = { s with requested := s.requested ++ FontWorld.addresses c.fonts } := by
  have built : ((build world forest).run s).2 = ((world.stylesheet c.fonts).run s).2 := by
    unfold build
    rw [h]
    rfl
  rw [built, FontWorld.run_stylesheet, FontWorld.run_parts_plain plain]

/-- **The fonts of a component are those of the texts that are drawn.**  Where a forest compiles, a family is in
the usage with some weights exactly if these are the weights, ascending, with which texts that are drawn use it, and
there are some; each of these texts shows its family and its weight in its own style.  Without a cache, building the
component requests the stylesheets of the families that no system has, each family once and in ascending order,
and does nothing else. -/
theorem fonts_build {forest : Value} {c : Composition} (h : Composition.ofValue forest = .ok c) :
    (∀ family weights, Entries.get? c.fonts family = some weights ↔
      weights ≠ [] ∧ weights.Pairwise (· < ·) ∧
        ∀ w, w ∈ weights ↔ ∃ n ∈ Node.drawnIn c.roots, n.UsesFont family w) ∧
    (c.fonts.map Prod.fst).Pairwise (· < ·) ∧
    List.Forall₂ (fun n e => n.ShowsOwnFont e.2.looks) (Node.drawnIn c.roots) (Markup.keyed c.markup) ∧
    ∀ world : FontWorld, world.cacheEnabled = false → ∀ s : FontSession,
      ((build world forest).run s).2 = { s with requested := s.requested ++
        (c.fonts.filter fun e => !Font.isSystem e.1).map fun e => Font.stylesheetUrl e.1 e.2 } := by
  obtain ⟨p, run, fonts⟩ := Composition.run_of_ofRoots (Composition.ofRoots_of_ofValue h)
  have notes : Notes c.fonts (Node.UsedIn (Node.drawnIn c.roots)) := by
    rw [fonts]
    exact Node.notes_of_forest run
  have depicts := Node.depicts_of_numbered (Node.numbering_of_rootMarkups run).elements
  exact ⟨fun _ _ => notes.get?_iff, notes.ascending, depicts.imp fun _ _ depicted => depicted.showsOwnFont,
    fun _ plain s => run_build_plain plain h s⟩

/-- A text of a design. -/
def someText (content family : String) (more : Members) : Value :=
  .object ([("type", .text "TEXT"), ("textContent", .text content), ("fontFamily", .text family)] ++ more)

/-- A search field with a text and a caption, and besides them a hidden text, one in a font of the system, and one
below an image. -/
def someForest : Value :=
  .list [.object [("children", .list [
    .object [("name", .text "Search"), ("children", .list [someText "Find" "Inter" [("fontWeight", .text "Bold")],
      someText "Here" "'Inter', serif" []])],
    someText "Boo" "Lato" [("visible", .bool false)],
    .object [("svg", .text "<svg/>"), ("children", .list [someText "Icon" "Rubik" []])],
    someText "Plain" "Arial" [("fontWeight", .number (.int 300))]])]]

theorem fonts_build_some : ∃ c, Composition.ofValue someForest = .ok c ∧
    c.fonts = [("Arial", [300]), ("Inter", [400, 700])] ∧
    (∀ w, w ∈ [400, 700] ↔ ∃ n ∈ Node.drawnIn c.roots, n.UsesFont "Inter" w) ∧
    ∀ s, ((build {} someForest).run s).2 =
      { s with requested := s.requested ++ [Font.stylesheetUrl "Inter" [400, 700]] } := by
  have noted : (Composition.ofValue someForest).toOption.map Composition.fonts =
      some [("Arial", [300]), ("Inter", [400, 700])] := by decide +kernel
  cases hc : Composition.ofValue someForest with
  | error fault =>
    rw [hc] at noted
    cases noted
  | ok c =>
    rw [hc] at noted
    have fonts : c.fonts = [("Arial", [300]), ("Inter", [400, 700])] := Option.some.inj noted
    obtain ⟨usage, -, -, requests⟩ := fonts_build hc
    refine ⟨c, rfl, fonts, ((usage "Inter" [400, 700]).mp (by rw [fonts]; rfl)).2.2, fun s => ?_⟩
    rw [requests {} rfl s, fonts]
    congr 2

end Component

end Artboard
