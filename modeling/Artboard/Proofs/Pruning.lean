import Artboard.Composition
import Artboard.Proofs.Numbering

/-!
# What takes no part in a design

Lists of children may hold hidden nodes, and values that are no nodes at all.  Neither is drawn, labels a
button, is shown by a text field or counts for a shift, so a design compiles as it would without them
(`Node.Thins`, `Node.Without`): to the same markup and fonts, or to the same fault.

For hidden nodes this holds without exception (`Composition.output_withoutHidden`).  Of values that are no
nodes one kind is not left alone: a text field that shows none of its texts takes a null for its text, and
fails (`Node.takesNull`).  Where no such field is drawn, all other values may come and go
(`Composition.output_withoutStrays`).
-/

namespace Artboard

namespace Node

/-! ## 1. Designs with nodes taken out -/

/-- Some nodes of a kind are taken out of a list of children and out of the lists below it. -/
inductive Thins (out : Node → Prop) : List Node → List Node → Prop where
  | nil : Thins out [] []
  | drop {n nodes others} (gone : out n) (rest : Thins out nodes others) : Thins out (n :: nodes) others
  | other {v nodes others} (rest : Thins out nodes others) : Thins out (.other v :: nodes) (.other v :: others)
  | object {fields children kept nodes others} (inner : Thins out children kept)
      (rest : Thins out nodes others) :
      Thins out (.object fields children :: nodes) (.object fields kept :: others)

/-- A node with some nodes of a kind taken out below it. -/
inductive Without (out : Node → Prop) : Node → Node → Prop where
  | object {fields children kept} (inner : Thins out children kept) :
      Without out (.object fields children) (.object fields kept)

/-- A node that is hidden. -/
def Hidden : Node → Prop
  | object fields _ => hides fields = true
  | other _ => False

/-- A value that is no node. -/
def Stray : Node → Prop
  | object _ _ => False
  | other _ => True

/-- A text field that shows none of its texts and takes a null for one. -/
def takesNull : Node → Bool
  | object fields children => !isOpaque fields && Widget.ofNode fields matches .ok (some .textField) &&
      Slot.ofChildren children == .missing && children.any isNull
  | other _ => false

/-- No node of the kind below it is one that a text field would take for its text. -/
def Spares (out : Node → Prop) : Node → Prop
  | object fields children => isOpaque fields = false → Widget.ofNode fields = .ok (some .textField) →
      Slot.ofChildren children = .missing → ∀ n ∈ children, out n → n.isNull = false
  | other _ => True

/-! ## 2. What does not show -/

section

variable {n : Node} {nodes : List Node}

theorem not_visible_of_hidden (h : Hidden n) : n.isVisible = false := by
  cases n with
  | other v => rfl
  | object fields children => simpa [isVisible, Hidden] using h

theorem not_visible_of_stray (h : Stray n) : n.isVisible = false := by
  cases n with
  | other v => rfl
  | object fields children => exact h.elim

theorem cases_of_not_visible (h : n.isVisible = false) :
    (∃ v, n = .other v) ∨ ∃ fields children, n = .object fields children ∧ hides fields = true := by
  cases n with
  | other v => exact .inl ⟨v, rfl⟩
  | object fields children => exact .inr ⟨fields, children, rfl, by simpa [isVisible] using h⟩

theorem visibleText?_of_not_visible (h : n.isVisible = false) : n.visibleText? = none := by
  rcases cases_of_not_visible h with ⟨v, rfl⟩ | ⟨fields, children, rfl, hidden⟩
  · rfl
  · exact if_pos hidden

theorem firstText_of_not_visible (h : n.isVisible = false) : firstText n = none := by
  rcases cases_of_not_visible h with ⟨v, rfl⟩ | ⟨fields, children, rfl, hidden⟩
  · rfl
  · unfold firstText
    exact if_pos hidden

theorem markup_of_not_visible (place : Placement) (origin : Point) (h : n.isVisible = false) :
    markup place origin n = pure none := by
  rcases cases_of_not_visible h with ⟨v, rfl⟩ | ⟨fields, children, rfl, hidden⟩
  · rfl
  · unfold markup
    exact if_pos hidden

theorem least_of_not_visible (sofar parent : Point) (inFlow : Bool) (h : n.isVisible = false) :
    Canvas.least sofar parent inFlow n = .ok sofar := by
  rcases cases_of_not_visible h with ⟨v, rfl⟩ | ⟨fields, children, rfl, hidden⟩
  · rfl
  · unfold Canvas.least
    exact if_pos hidden

theorem drawn_of_not_visible (h : n.isVisible = false) : n.drawn = [] := by
  rcases cases_of_not_visible h with ⟨v, rfl⟩ | ⟨fields, children, rfl, hidden⟩
  · rfl
  · exact drawn_hidden hidden

/-- Nothing is drawn in a row for a node that does not show. -/
theorem markups_of_not_visible (place : Placement) (h : n.isVisible = false) :
    markups place (n :: nodes) = markups place nodes := by
  rw [markups, markup_of_not_visible place _ h, pure_bind]
  exact bind_pure _

/-- A child that is no text is drawn in a text field as elsewhere, unless the field takes it for its text. -/
theorem fieldMarkup_of_none (owner : Members) (place : Placement) {slot : Slot} (text : n.visibleText? = none)
    (given : slot = .missing → n.isNull = false) : fieldMarkup owner place slot (n :: nodes) = do
      let first ← markup place Point.zero n
      let others ← fieldMarkup owner place slot nodes
      return first.toList ++ others := by
  -- the test that a missing text and a null both pass
  have kept : (decide (slot = .missing) && n.isNull) = false := by
    by_cases h : slot = .missing
    · simp [given h]
    · simp [h]
  rw [fieldMarkup]
  · exact if_neg (by simp [kept])
  · simp [text]

/-- Nor is anything drawn for it in a text field, unless the field takes it for its text. -/
theorem fieldMarkup_of_not_visible (owner : Members) (place : Placement) {slot : Slot}
    (h : n.isVisible = false) (given : slot = .missing → n.isNull = false) :
    fieldMarkup owner place slot (n :: nodes) = fieldMarkup owner place slot nodes := by
  rw [fieldMarkup_of_none owner place (visibleText?_of_not_visible h) given,
    markup_of_not_visible place _ h, pure_bind]
  exact bind_pure _

end

/-! ## 3. A node whose children are exchanged -/

/-- Children take the input of a text field in the same way if a text shows among them or not. -/
theorem Slot.ofChildren_congr {nodes others : List Node}
    (same : (nodes.any fun n => n.visibleText?.isSome) = others.any fun n => n.visibleText?.isSome) :
    Slot.ofChildren nodes = Slot.ofChildren others := by
  unfold Slot.ofChildren
  rw [same]

section

variable {fields : Members} {children kept : List Node}

theorem visibleText?_object :
    (object fields children).visibleText? = (object fields kept).visibleText? := rfl

theorem firstText_congr (texts : firstTextIn children = firstTextIn kept) :
    firstText (object fields children) = firstText (object fields kept) := by
  rw [firstText, firstText, texts]

theorem frame_congr (widget : Option Widget) (id : Int) (style : Style)
    (texts : firstTextIn children = firstTextIn kept)
    (slots : Slot.ofChildren children = Slot.ofChildren kept) :
    frame widget id fields children style = frame widget id fields kept style := by
  unfold frame
  rw [texts, slots]

/-- A walk over a container finds the same if it does below it. -/
theorem least_congr (inside : ∀ sofar parent inFlow, Canvas.leastOf sofar parent inFlow children =
      Canvas.leastOf sofar parent inFlow kept) (sofar parent : Point) (inFlow : Bool) :
    Canvas.least sofar parent inFlow (object fields children) =
      Canvas.least sofar parent inFlow (object fields kept) := by
  unfold Canvas.least
  simp only [inside]

theorem shift_congr (inside : ∀ sofar parent inFlow, Canvas.leastOf sofar parent inFlow children =
      Canvas.leastOf sofar parent inFlow kept) :
    Canvas.shift (object fields children) = Canvas.shift (object fields kept) := by
  unfold Canvas.shift
  simp only [inside]

/-- A container is drawn the same if it finds the same texts in its children and they are drawn the same. -/
theorem markup_congr (place : Placement) (origin : Point) (texts : firstTextIn children = firstTextIn kept)
    (slots : Slot.ofChildren children = Slot.ofChildren kept)
    (row : hides fields = false → isOpaque fields = false → ∀ inside,
      markups inside children = markups inside kept)
    (field : hides fields = false → isOpaque fields = false →
      Widget.ofNode fields = .ok (some .textField) → ∀ inside,
      fieldMarkup fields inside (Slot.ofChildren children) children =
        fieldMarkup fields inside (Slot.ofChildren children) kept) :
    markup place origin (.object fields children) = markup place origin (.object fields kept) := by
  unfold markup
  split
  · rfl
  · rename_i shown
    rw [Bool.not_eq_true] at shown
    split
    · rfl
    · rfl
    · rename_i leaf asset
      have plain := isOpaque_of_none leaf asset
      refine bind_congr fun id => Compile.lift_bind_congr fun widget kind =>
        Compile.lift_bind_congr fun style _ => ?_
      rw [frame_congr widget id style texts slots]
      refine Compile.lift_bind_congr fun frame _ => congrArg (· >>= _) ?_
      split
      · rename_i isField
        rw [field shown plain (isField ▸ kind), slots]
      · exact row shown plain _

/-- A text field shows a child as it shows another one that is drawn the same and gives it the same text. -/
theorem fieldMarkup_congr {n other : Node} {nodes others : List Node} (owner : Members) (place : Placement)
    (slot : Slot) (text : n.visibleText? = other.visibleText?) (null : n.isNull = other.isNull)
    (head : markup place Point.zero n = markup place Point.zero other)
    (filled : fieldMarkup owner place .filled nodes = fieldMarkup owner place .filled others)
    (rest : fieldMarkup owner place slot nodes = fieldMarkup owner place slot others) :
    fieldMarkup owner place slot (n :: nodes) = fieldMarkup owner place slot (other :: others) := by
  unfold fieldMarkup
  rw [text, null, head, filled]
  split
  · rfl
  · rw [rest]

/-- Lists of children that are drawn the same in a row, and in every text field that does not take a node of
the kind for its text. -/
structure DrawnAlike (out : Node → Prop) (nodes others : List Node) : Prop where
  row (place : Placement) : markups place nodes = markups place others
  field (owner : Members) (place : Placement) (slot : Slot)
    (given : slot = .missing → ∀ n ∈ nodes, out n → n.isNull = false) :
    fieldMarkup owner place slot nodes = fieldMarkup owner place slot others

theorem DrawnAlike.cons {out : Node → Prop} {n other : Node} {nodes others : List Node}
    (rest : DrawnAlike out nodes others) (text : n.visibleText? = other.visibleText?)
    (null : n.isNull = other.isNull)
    (head : ∀ place origin, markup place origin n = markup place origin other) :
    DrawnAlike out (n :: nodes) (other :: others) where
  row place := by rw [markups, markups, head, rest.row]
  field owner place slot given := fieldMarkup_congr owner place slot text null (head _ _)
    (rest.field owner place .filled nofun)
    (rest.field owner place slot fun missing m hm => given missing m (.tail _ hm))

end

/-! ## 4. Without what does not show -/

section

variable {out : Node → Prop} (unseen : ∀ n, out n → n.isVisible = false) {nodes others : List Node}

include unseen

theorem firstTextIn_of_thins (h : Thins out nodes others) : firstTextIn nodes = firstTextIn others := by
  induction h with
  | nil => rfl
  | drop gone _ ih => rw [firstTextIn, firstText_of_not_visible (unseen _ gone), ih]
  | other _ ih => rw [firstTextIn, firstTextIn, ih]
  | object _ _ inner ih => rw [firstTextIn, firstTextIn, firstText_congr inner, ih]

theorem slot_of_thins (h : Thins out nodes others) : Slot.ofChildren nodes = Slot.ofChildren others := by
  refine Slot.ofChildren_congr ?_
  induction h with
  | nil => rfl
  | drop gone _ ih => rw [List.any_cons, visibleText?_of_not_visible (unseen _ gone), ih]; rfl
  | other _ ih => rw [List.any_cons, List.any_cons, ih]
  | object _ _ _ ih => rw [List.any_cons, List.any_cons, ih, visibleText?_object]

/-- The nodes taken out do not count for a shift. -/
theorem leastOf_of_thins (h : Thins out nodes others) : ∀ sofar parent inFlow,
    Canvas.leastOf sofar parent inFlow nodes = Canvas.leastOf sofar parent inFlow others := by
  induction h with
  | nil => exact fun _ _ _ => rfl
  | drop gone _ ih =>
    intro sofar parent inFlow
    rw [Canvas.leastOf, ← ih]
    -- the node taken out hands on what the walk over the others has found
    refine Eq.trans (bind_congr fun least => ?_) (bind_pure _)
    exact least_of_not_visible least parent inFlow (unseen _ gone)
  | other _ ih =>
    intro sofar parent inFlow
    rw [Canvas.leastOf, Canvas.leastOf, ih]
  | object _ _ inner ih =>
    intro sofar parent inFlow
    rw [Canvas.leastOf, Canvas.leastOf, ih]
    exact bind_congr fun sofar => least_congr inner sofar parent inFlow

/-- A container is drawn the same if its children are, and it takes none of the nodes taken out. -/
theorem markup_of_inside {fields : Members} {children kept : List Node} (inner : Thins out children kept)
    (alike : (∀ n ∈ drawnIn children, n.Spares out) → DrawnAlike out children kept)
    (spared : ∀ n ∈ drawn (.object fields children), n.Spares out) (place : Placement) (origin : Point) :
    markup place origin (.object fields children) = markup place origin (.object fields kept) := by
  have within : hides fields = false → isOpaque fields = false →
      ∀ n ∈ .object fields children :: drawnIn children, n.Spares out := fun shown plain =>
    drawn_container shown plain ▸ spared
  refine markup_congr place origin (firstTextIn_of_thins unseen inner) (slot_of_thins unseen inner)
    (fun shown plain => ?row) (fun shown plain isField inside => ?field)
  case row => exact (alike fun n hn => within shown plain n (.tail _ hn)).row
  case field =>
    exact (alike fun n hn => within shown plain n (.tail _ hn)).field fields inside _
      (within shown plain _ (.head _) plain isField)

/-- Nothing is drawn for the nodes taken out, and nothing else is drawn differently. -/
theorem drawnAlike_of_thins (h : Thins out nodes others) (spared : ∀ n ∈ drawnIn nodes, n.Spares out) :
    DrawnAlike out nodes others := by
  induction h with
  | nil => exact ⟨fun _ => rfl, fun _ _ _ _ => rfl⟩
  | drop gone _ ih =>
    have hidden := unseen _ gone
    rw [drawnIn, drawn_of_not_visible hidden, List.nil_append] at spared
    have alike := ih spared
    refine ⟨fun place => (markups_of_not_visible place hidden).trans (alike.row place),
      fun owner place slot given => ?_⟩
    rw [fieldMarkup_of_not_visible owner place hidden fun missing => given missing _ (.head _) gone]
    exact alike.field owner place slot fun missing n hn => given missing n (.tail _ hn)
  | other _ ih =>
    rw [drawnIn, drawn, List.nil_append] at spared
    exact (ih spared).cons rfl rfl fun _ _ => rfl
  | object inner _ ihInner ih =>
    rw [drawnIn] at spared
    exact (ih fun n hn => spared n (List.mem_append_right _ hn)).cons rfl rfl
      (markup_of_inside unseen inner ihInner fun n hn => spared n (List.mem_append_left _ hn))

/-! ## 5. Roots without what does not show -/

theorem shift_of_without {root other : Node} (h : Without out root other) :
    Canvas.shift root = Canvas.shift other := by
  obtain ⟨inner⟩ := h
  exact shift_congr (leastOf_of_thins unseen inner)

theorem rootMarkup_of_without {root other : Node} (h : Without out root other)
    (spared : ∀ n ∈ root.drawn, n.Spares out) : rootMarkup root = rootMarkup other := by
  have shifts := shift_of_without unseen h
  obtain ⟨inner⟩ := h
  unfold rootMarkup
  rw [shifts]
  simp only [markup_of_inside unseen inner (drawnAlike_of_thins unseen inner) spared]

theorem rootMarkups_of_without {roots others : List Node} (h : List.Forall₂ (Without out) roots others)
    (spared : ∀ n ∈ drawnIn roots, n.Spares out) : rootMarkups roots = rootMarkups others := by
  induction h with
  | nil => rfl
  | cons first _ ih =>
    rw [drawnIn] at spared
    rw [rootMarkups, rootMarkups, ih fun n hn => spared n (List.mem_append_right _ hn),
      rootMarkup_of_without unseen first fun n hn => spared n (List.mem_append_left _ hn)]

end

/-! ## 6. Nulls in text fields -/

theorem spares_of_takesNull {n : Node} (h : n.takesNull = false) : n.Spares Stray := by
  cases n with
  | other v => trivial
  | object fields children =>
    intro plain isField missing child hc _
    by_contra null
    rw [Bool.not_eq_false] at null
    have taken : children.any isNull = true := List.any_eq_true.mpr ⟨child, hc, null⟩
    simp [takesNull, plain, isField, missing, taken] at h

theorem spares_hidden (n : Node) : n.Spares Hidden := by
  cases n with
  | other v => trivial
  | object fields children =>
    intro _ _ _ child _ hidden
    cases child with
    | other v => exact hidden.elim
    | object own below => rfl

/-- A text field that shows none of its texts has no null among its children. -/
def Task.Given : Task → Prop
  | .field _ _ slot nodes => slot = .missing → ∀ n ∈ nodes, n.isNull = false
  | _ => True

/-- A container whose children hold no null, if it is a text field that shows none of its texts, takes none. -/
theorem takesNull_of_given {widget : Option Widget} {fields : Members} {origin : Point} {children : List Node}
    (kind : Widget.ofNode fields = .ok widget) (given : (Task.inside widget fields origin children).Given) :
    takesNull (.object fields children) = false := by
  rw [takesNull, kind]
  by_cases isField : widget = some .textField
  · subst isField
    by_cases missing : Slot.ofChildren children = .missing
    · have none_null : children.any isNull = false := by simpa using given missing
      simp [none_null]
    · simp [missing]
  · cases widget with
    | none => simp
    | some w => cases w <;> simp_all

theorem takesNull_of_isOpaque {fields : Members} {children : List Node} (h : isOpaque fields = true) :
    takesNull (.object fields children) = false := by
  simp [takesNull, h]

/-- A drawing that comes to its end has met no text field that takes a null for its text. -/
theorem takesNull_of_draws {task : Task} {p q : Progress} {ms : List Markup} (h : Draws task p ms q) :
    (∀ n ∈ task.drawn, n.takesNull = false) ∧ task.Given := by
  induction h with
  | other => exact ⟨List.forall_mem_nil _, trivial⟩
  | hidden hh =>
    rw [Task.drawn, drawn_hidden hh]
    exact ⟨List.forall_mem_nil _, trivial⟩
  | text shown leaf =>
    have plain := isOpaque_of_leaf leaf
    rw [Task.drawn, drawn_of_isOpaque shown plain]
    exact ⟨List.forall_mem_singleton.mpr (takesNull_of_isOpaque plain), trivial⟩
  | asset shown _ drawn =>
    have plain := isOpaque_of_asset drawn
    rw [Task.drawn, drawn_of_isOpaque shown plain]
    exact ⟨List.forall_mem_singleton.mpr (takesNull_of_isOpaque plain), trivial⟩
  | container shown leaf asset kind _ _ _ _ ih =>
    rw [Task.drawn, drawn_container shown (isOpaque_of_none leaf asset)]
    rw [drawn_inside] at ih
    exact ⟨List.forall_mem_cons.mpr ⟨takesNull_of_given kind ih.2, ih.1⟩, trivial⟩
  | rowNil => exact ⟨List.forall_mem_nil _, trivial⟩
  | rowCons _ _ ihHead ihTail =>
    exact ⟨List.forall_mem_append.mpr ⟨ihHead.1, ihTail.1⟩, trivial⟩
  | fieldNil => exact ⟨List.forall_mem_nil _, fun _ => List.forall_mem_nil _⟩
  | fieldInput text _ _ _ _ ih =>
    obtain ⟨children, rfl, shown, leaf⟩ := visibleText?_eq_some text
    have plain := isOpaque_of_leaf leaf
    rw [Task.drawn, drawnIn, drawn_of_isOpaque shown plain]
    exact ⟨List.forall_mem_cons.mpr ⟨takesNull_of_isOpaque plain, ih.1⟩,
      fun missing => absurd missing (by decide)⟩
  | fieldChild _ given _ _ ihHead ihTail =>
    exact ⟨List.forall_mem_append.mpr ⟨ihHead.1, ihTail.1⟩,
      fun missing => List.forall_mem_cons.mpr ⟨given missing, ihTail.2 missing⟩⟩

theorem takesNull_of_rootMarkups {roots : List Node} {p q : Progress} {ms : List Markup}
    (h : (rootMarkups roots).runFrom p = (.ok ms, q)) : ∀ n ∈ drawnIn roots, n.takesNull = false := by
  replace h := drawsRoots_of_rootMarkups h
  induction h with
  | nil => exact List.forall_mem_nil _
  | cons _ head _ ih => exact List.forall_mem_append.mpr ⟨(takesNull_of_draws head).1, ih⟩

end Node

/-! ## 7. Compositions -/

namespace Composition

/-- What a forest compiles to: the markup of its roots and the fonts it uses. -/
def output (roots : List Node) : Except Fault (List Markup × FontUsage) :=
  (ofRoots roots).map fun c => (c.markup, c.fonts)

theorem output_congr {roots others : List Node} (h : Node.rootMarkups roots = Node.rootMarkups others) :
    output roots = output others := by
  unfold output ofRoots
  rw [h]
  rcases (Node.rootMarkups others).runFrom {} with ⟨fault | ms, progress⟩ <;> rfl

/-- **A forest that compiles is its roots with what a run over them has made.** -/
theorem ofRoots_ok {roots : List Node} {c : Composition} (h : ofRoots roots = .ok c) :
    ∃ ms p, (Node.rootMarkups roots).runFrom {} = (.ok ms, p) ∧ c = ⟨roots, ms, p.fonts⟩ := by
  unfold ofRoots at h
  rcases run : (Node.rootMarkups roots).runFrom {} with ⟨fault | ms, p⟩
  · rw [run] at h
    cases h
  · rw [run] at h
    exact ⟨ms, p, rfl, (Except.ok.inj h).symm⟩

theorem run_of_ofRoots {roots : List Node} {c : Composition} (h : ofRoots roots = .ok c) :
    ∃ p, (Node.rootMarkups roots).runFrom {} = (.ok c.markup, p) ∧ c.fonts = p.fonts := by
  obtain ⟨ms, p, run, rfl⟩ := ofRoots_ok h
  exact ⟨p, run, rfl⟩

theorem roots_of_ofRoots {roots : List Node} {c : Composition} (h : ofRoots roots = .ok c) : c.roots = roots := by
  obtain ⟨ms, p, -, rfl⟩ := ofRoots_ok h
  rfl

variable {roots others : List Node}

/-- **Hidden nodes take no part in a design.**  With hidden nodes taken out of it, and all below them, a forest
compiles to the same markup and the same fonts, or to the same fault, and all its shifts are the same. -/
theorem output_withoutHidden (h : List.Forall₂ (Node.Without Node.Hidden) roots others) :
    output roots = output others ∧
      List.Forall₂ (fun root other => Canvas.shift root = Canvas.shift other) roots others := by
  have unseen : ∀ n, Node.Hidden n → n.isVisible = false := fun _ => Node.not_visible_of_hidden
  refine ⟨output_congr (Node.rootMarkups_of_without unseen h fun n _ => ?spared), ?shifts⟩
  case spared => exact Node.spares_hidden n
  case shifts => exact h.imp fun _ _ => Node.shift_of_without unseen

/-- A button and a search field, with more nodes before the texts that they show. -/
def form (more : List Node) : Node :=
  .object [] [
    .object [("name", .text "Send button"), ("type", .text "FRAME")]
      (more ++ [.object [("type", .text "TEXT"), ("textContent", .text "Send")] []]),
    .object [("name", .text "Search")]
      (more ++ [.object [("type", .text "TEXT"), ("textContent", .text "Find")] []])]

/-- A hidden text far off the canvas, with a node below it. -/
def ghost : Node :=
  .object [("visible", .bool false), ("type", .text "TEXT"), ("textContent", .text "Boo"),
    ("x", .number (.int (-500)))] [.object [("svg", .text "<svg/>")] []]

theorem output_withoutHidden_form :
    List.Forall₂ (Node.Without Node.Hidden) [form [ghost, ghost]] [form [ghost]] ∧
      (output [form [ghost, ghost]]).isOk = true ∧
      output [form [ghost, ghost]] = output [form [ghost]] ∧
      List.Forall₂ (fun root other => Canvas.shift root = Canvas.shift other) [form [ghost, ghost]]
        [form [ghost]] := by
  have text {fields : Members} : Node.Thins Node.Hidden [.object fields []] [.object fields []] :=
    .object .nil .nil
  have without : List.Forall₂ (Node.Without Node.Hidden) [form [ghost, ghost]] [form [ghost]] :=
    .cons (.object (.object (.drop rfl (.object text text))
      (.object (.object text (.drop rfl text)) .nil))) .nil
  exact ⟨without, by decide +kernel, output_withoutHidden without⟩

/-- **Values that are no nodes take no part in a design either, as long as no text field takes one.**  With
such values taken out, a forest compiles to the same markup and fonts, or to the same fault, if no text field
that is drawn takes a null for its text; and one with such a text field does not compile. -/
theorem output_withoutStrays (h : List.Forall₂ (Node.Without Node.Stray) roots others) :
    ((∀ n ∈ Node.drawnIn roots, n.takesNull = false) → output roots = output others) ∧
      ((∃ n ∈ Node.drawnIn roots, n.takesNull = true) → ∀ c, ofRoots roots ≠ .ok c) := by
  have unseen : ∀ n, Node.Stray n → n.isVisible = false := fun _ => Node.not_visible_of_stray
  refine ⟨fun none_taken => ?same, fun ⟨n, hn, taken⟩ c compiled => ?fails⟩
  case same =>
    exact output_congr (Node.rootMarkups_of_without unseen h fun n hn =>
      Node.spares_of_takesNull (none_taken n hn))
  case fails =>
    obtain ⟨p, run, -⟩ := run_of_ofRoots compiled
    exact absurd (Node.takesNull_of_rootMarkups run n hn) (by simp [taken])

theorem output_withoutStrays_form :
    List.Forall₂ (Node.Without Node.Stray) [form [.other .null, .other (.text "Send")]] [form []] ∧
      (∀ n ∈ Node.drawnIn [form [.other .null, .other (.text "Send")]], n.takesNull = false) ∧
      output [form [.other .null, .other (.text "Send")]] = output [form []] := by
  have text {fields : Members} : Node.Thins Node.Stray [.object fields []] [.object fields []] :=
    .object .nil .nil
  have without : List.Forall₂ (Node.Without Node.Stray) [form [.other .null, .other (.text "Send")]]
      [form []] :=
    .cons (.object (.object (.drop trivial (.drop trivial text))
      (.object (.drop trivial (.drop trivial text)) .nil))) .nil
  have spared : ∀ n ∈ Node.drawnIn [form [.other .null, .other (.text "Send")]], n.takesNull = false := by
    decide +kernel
  exact ⟨without, spared, (output_withoutStrays without).1 spared⟩

/-- **A value that is taken for a node**: a search field without a text compiles, but not with a null in it. -/
theorem output_searchNull :
    List.Forall₂ (Node.Without Node.Stray) [.object [("name", .text "Search")] [.other .null]]
        [.object [("name", .text "Search")] []] ∧
      (output [.object [("name", .text "Search")] []]).isOk = true ∧
      output [.object [("name", .text "Search")] [.other .null]] matches .error .nodeNotObject :=
  ⟨.cons (.object (.drop trivial .nil)) .nil, by decide +kernel, by decide +kernel⟩

end Composition

end Artboard
