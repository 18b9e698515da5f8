import Artboard.Proofs.Design.Likeness
import Artboard.Proofs.Font.Usage

/-!
# Names of nodes

What a node is meant to be is guessed from its name, and the guess chooses the element around its children: a button,
a text field, a check box or a plain box.  It chooses no more than that.  With other names for its nodes a design is
drawn, where it is drawn at all, with the same nodes in the same order under the same numbers, each of them as a text,
as an image or as a container as before, in the same fonts and with the same shifts (`Node.sameNodes_of_renames`).

How a node is drawn can be read off its element (`Markup.path`).  That an element tells it truly holds of whole
drawings only, since the element of a container must not hold a text or an image of its own (`Node.Tells`).
-/

namespace Artboard

/-! ## 1. The ways to draw a node -/

/-- A way to draw a node. -/
inductive Path where
  | text
  | image
  | container
  deriving DecidableEq

/-- The way in which a node is drawn. -/
def Node.path : Node → Path
  | object fields _ =>
    if (leafText? fields).isSome then .text
    else if (Asset.ofNode? fields).isSome then .image
    else .container
  | other _ => .container

/-- The attribute holds an image. -/
def Attribute.isImage : Attribute → Bool
  | source _ | innerHtml _ => true
  | _ => false

namespace Markup

/-- Markup that is a text. -/
def isText : Markup → Bool
  | text _ => true
  | element .. => false

/-- An element that shows an image. -/
def isImage (m : Markup) : Bool := m.attributes.any Attribute.isImage

/-- The way in which an element shows its node: its text, be it as a placeholder, an image right inside, or neither. -/
def path : Markup → Path
  | text _ => .text
  | element _ as _ children =>
    if as.any (·.placeholder?.isSome) || children.any isText then .text
    else if children.any isImage then .image
    else .container

/-- An element that is no image itself. -/
def IsPlain (m : Markup) : Prop := m.isText = false ∧ m.isImage = false

end Markup

/-! ## 2. Elements tell how nodes are drawn -/

namespace Node

open FontUsage Markup

theorem path_text {fields : Members} {children : List Node} {content : String}
    (leaf : leafText? fields = some content) : path (.object fields children) = .text := by
  simp [path, leaf]

theorem path_image {fields : Members} {children : List Node} {asset : Asset} (leaf : leafText? fields = none)
    (carried : Asset.ofNode? fields = some asset) : path (.object fields children) = .image := by
  simp [path, leaf, carried]

theorem path_container {fields : Members} {children : List Node} (leaf : leafText? fields = none)
    (plain : Asset.ofNode? fields = none) : path (.object fields children) = .container := by
  simp [path, leaf, plain]

/-- **Markup tells how nodes are drawn**: its elements with numbers do, in order, and it has nothing else at the top. -/
structure Tells (nodes : List Node) (ms : List Markup) : Prop where
  paths : (keyed ms).map (fun e => e.2.path) = nodes.map path
  plain : ∀ m ∈ ms, m.IsPlain

theorem Tells.nil : Tells [] [] := ⟨rfl, List.forall_mem_nil _⟩

theorem Tells.append {nodes more : List Node} {ms others : List Markup} (h : Tells nodes ms) (k : Tells more others) :
    Tells (nodes ++ more) (ms ++ others) where
  paths := by rw [keyed_append, List.map_append, List.map_append, h.paths, k.paths]
  plain := List.forall_mem_append.mpr ⟨h.plain, k.plain⟩

/-- An element around fixtures without nodes and around a drawing. -/
theorem Tells.around {id : Int} {n : Node} {nodes : List Node} {tag : Tag} {as : List Attribute}
    {style : Entries Written} {fixtures content : List Markup} (key : as.filterMap Attribute.key? = [id])
    (none : keyed fixtures = []) (bare : as.any Attribute.isImage = false)
    (own : (Markup.element tag as style (fixtures ++ content)).path = n.path) (inside : Tells nodes content) :
    Tells (n :: nodes) [.element tag as style (fixtures ++ content)] where
  paths := by rw [keyed_element key none, List.map_cons, List.map_cons, own, inside.paths]
  plain := List.forall_mem_singleton.mpr ⟨rfl, bare⟩

/-- An element around fixtures without nodes. -/
theorem Tells.leaf {id : Int} {n : Node} {tag : Tag} {as : List Attribute} {style : Entries Written}
    {fixtures : List Markup} (key : as.filterMap Attribute.key? = [id]) (none : keyed fixtures = [])
    (bare : as.any Attribute.isImage = false) (own : (Markup.element tag as style fixtures).path = n.path) :
    Tells [n] [.element tag as style fixtures] := by
  rw [← List.append_nil fixtures] at own ⊢
  exact .around key none bare own .nil

/-- An image is no text. -/
theorem isImage_imageMarkup {fields : Members} {asset : Asset} {image : Markup}
    (h : imageMarkup fields asset = .ok image) : image.isText = false ∧ image.isImage = true := by
  cases pictures_of_imageMarkup h with
  | vector _ => exact ⟨rfl, rfl⟩
  | raster _ => exact ⟨rfl, rfl⟩

/-- A frame has no text and no image of its own. -/
theorem plain_frame {widget : Option Widget} {id : Int} {fields : Members} {children : List Node} {style : Style}
    {f : Frame} (h : frame widget id fields children style = .ok f) :
    f.attributes.any (·.placeholder?.isSome) = false ∧ f.attributes.any Attribute.isImage = false ∧
      ∀ m ∈ f.fixtures, m.IsPlain := by
  cases frames_of_frame h with
  | button => cases firstTextIn children <;> exact ⟨rfl, rfl, List.forall_mem_nil _⟩
  | emptyField _ _ => exact ⟨rfl, rfl, List.forall_mem_singleton.mpr ⟨rfl, rfl⟩⟩
  | textField _ => exact ⟨rfl, rfl, List.forall_mem_nil _⟩
  | checkbox _ => exact ⟨rfl, rfl, List.forall_mem_singleton.mpr ⟨rfl, rfl⟩⟩
  | box _ => exact ⟨rfl, rfl, List.forall_mem_nil _⟩

/-- An element without a text and an image right inside shows a container. -/
theorem path_of_plain {tag : Tag} {as : List Attribute} {style : Entries Written} {children : List Markup}
    (bare : as.any (·.placeholder?.isSome) = false) (plain : ∀ m ∈ children, m.IsPlain) :
    (Markup.element tag as style children).path = .container := by
  have texts : children.any Markup.isText = false := List.any_eq_false.mpr fun m hm => by simp [(plain m hm).1]
  have images : children.any Markup.isImage = false := List.any_eq_false.mpr fun m hm => by simp [(plain m hm).2]
  simp [Markup.path, bare, texts, images]

/-- **Every drawing tells how its nodes are drawn.** -/
theorem tells_of_draws {task : Task} {p q : Progress} {ms : List Markup} (h : Draws task p ms q) :
    Tells task.drawn ms := by
  induction h with
  | other => exact .nil
  | hidden hh =>
    rw [Task.drawn, drawn_hidden hh]
    exact .nil
  | @text place origin fields children content style written p q shown leaf noted styled wrote =>
    rw [Task.drawn, drawn_of_isOpaque shown (isOpaque_of_leaf leaf)]
    exact .leaf rfl rfl rfl (path_text leaf).symm
  | @asset place origin fields children asset image style written p shown leaf drawn pictured styled wrote =>
    have framed : Framed p.counter (.object fields children) [.key p.counter] [image] :=
      framed_image leaf drawn pictured
    obtain ⟨text, pictured⟩ := isImage_imageMarkup pictured
    rw [Task.drawn, drawn_of_isOpaque shown (isOpaque_of_asset drawn)]
    refine .leaf framed.key framed.none rfl ?_
    rw [path_image leaf drawn]
    simp [Markup.path, Attribute.placeholder?, text, pictured]
  | container shown leaf plain kind styled framed wrote _ ih =>
    obtain ⟨⟨key, none, -, -⟩, -⟩ := framed_frame leaf plain kind styled framed wrote
    obtain ⟨silent, bare, fixed⟩ := plain_frame framed
    rw [drawn_inside] at ih
    rw [Task.drawn, drawn_container shown (isOpaque_of_none leaf plain)]
    refine .around key none bare ?_ ih
    rw [path_container leaf plain]
    exact path_of_plain silent (List.forall_mem_append.mpr ⟨fixed, ih.plain⟩)
  | rowNil => exact .nil
  | rowCons _ _ head tail => exact head.append tail
  | fieldNil => exact .nil
  | @fieldInput owner place n rest fields content style written others p q r text noted styled wrote _ tail =>
    obtain ⟨children, rfl, shown, leaf⟩ := visibleText?_eq_some text
    have input : Tells (drawn (.object fields children))
        [.element .input [.key p.counter, .control .text, .placeholder content] written []] := by
      rw [drawn_of_isOpaque shown (isOpaque_of_leaf leaf)]
      exact .leaf rfl rfl rfl (path_text leaf).symm
    exact input.append tail
  | fieldChild _ _ _ _ head tail => exact head.append tail

theorem tells_of_rootMarkups {roots : List Node} {p q : Progress} {ms : List Markup}
    (h : (rootMarkups roots).runFrom p = (.ok ms, q)) : Tells (drawnIn roots) ms := by
  replace h := drawsRoots_of_rootMarkups h
  induction h with
  | nil => exact .nil
  | cons _ head _ ih => exact (tells_of_draws head).append ih

/-! ## 3. Other names -/

/-- **Nodes have other names**, at any depth, and all else in two lists of nodes is the same. -/
inductive Renames : List Node → List Node → Prop where
  | nil : Renames [] []
  | other {v nodes others} (rest : Renames nodes others) : Renames (.other v :: nodes) (.other v :: others)
  | object {fields named children kept nodes others} (renamed : Members.AgreeOff ["name"] fields named)
      (inner : Renames children kept) (rest : Renames nodes others) :
      Renames (.object fields children :: nodes) (.object named kept :: others)

section

variable {fields named : Members} {nodes others : List Node}

/-- Fields under other names are read alike. -/
theorem fields_renamed (renamed : Members.AgreeOff ["name"] fields named) (most : Nat) (flow : Bool) :
    (Likeness.same most).Fields False flow fields named :=
  Likeness.fields_same renamed (by decide) False.elim fun _ => by decide

theorem Renames.alike (h : Renames nodes others) (most : Nat) (flow : Bool) :
    (Likeness.same most).Nodes False flow nodes others := by
  induction h generalizing flow with
  | nil => exact .nil
  | other _ rest => exact .other (rest flow)
  | object renamed _ _ inner rest => exact .object (fields_renamed renamed most flow) (inner _) (rest flow)

/-- **The nodes that are drawn are the same** but for their names. -/
theorem drawnIn_of_renames (h : Renames nodes others) :
    List.Forall₂ (fun n m => Renames [n] [m]) (drawnIn nodes) (drawnIn others) := by
  induction h with
  | nil => exact .nil
  | other _ rest => exact rest
  | object renamed inner _ below rest =>
    have alike := fields_renamed renamed 0 false
    rw [drawnIn, drawnIn, drawn, drawn, alike.visible, alike.opaque_eq]
    refine List.rel_append ?_ rest
    split
    · exact .nil
    · split
      · exact .cons (.object renamed inner .nil) .nil
      · exact .cons (.object renamed inner .nil) below

/-- A node under another name is drawn in the same way. -/
theorem path_of_renames {n m : Node} (h : Renames [n] [m]) : n.path = m.path := by
  cases h with
  | other _ => rfl
  | object renamed _ _ =>
    have alike := fields_renamed renamed 0 false
    rw [path, path, alike.leaf, alike.asset]

/-- And it uses the same font. -/
theorem usesFont_of_renames {n m : Node} (h : Renames [n] [m]) (family : String) (weight : Int) :
    n.UsesFont family weight ↔ m.UsesFont family weight := by
  cases h with
  | other _ => exact Iff.rfl
  | object renamed _ _ =>
    have font : Members.Agree Typography.fontFields _ _ := renamed.agree (by decide)
    rw [UsesFont, UsesFont, (fields_renamed renamed 0 false).leaf, Typography.familyOf?_agree font,
      Typography.weightOf_agree font]

end

/-! ## 4. What is drawn under other names -/

section

variable {roots others : List Node} {ms ns : List Markup} {p q : Progress}

/-- **Two drawings are of the same nodes**: one after another the same nodes but for their names are drawn, and their
elements have the same numbers and show them in the same way. -/
structure SameNodes (roots others : List Node) (ms ns : List Markup) : Prop where
  nodes : List.Forall₂ (fun n m => Renames [n] [m]) (drawnIn roots) (drawnIn others)
  depicted : List.Forall₂ (fun n e => Depicts e.1 n e.2) (drawnIn roots) (keyed ms)
  depictedOther : List.Forall₂ (fun n e => Depicts e.1 n e.2) (drawnIn others) (keyed ns)
  numbers : (keyed ms).map Prod.fst = (keyed ns).map Prod.fst
  told : (keyed ms).map (fun e => e.2.path) = (drawnIn roots).map path
  paths : (keyed ms).map (fun e => e.2.path) = (keyed ns).map fun e => e.2.path

theorem map_fst_numbered (first : Int) (nodes : List Node) :
    (numbered first nodes).map Prod.fst = (List.range nodes.length).map fun i : Nat => first + (i : Int) := by
  induction nodes generalizing first with
  | nil => rfl
  | cons n rest ih =>
    rw [numbered, List.map_cons, ih, List.length_cons, List.range_succ_eq_map, List.map_cons, List.map_map]
    congr 1
    · exact (Int.add_zero first).symm
    · refine List.map_congr_left fun i _ => ?_
      simp only [Function.comp_apply, Nat.succ_eq_add_one, Int.natCast_add, Int.cast_ofNat_Int]
      omega

/-- The numbers in a drawing come one after another, as many as there are nodes. -/
theorem numbers_of_rootMarkups (run : (rootMarkups roots).runFrom p = (.ok ms, q)) :
    (keyed ms).map Prod.fst = (List.range (drawnIn roots).length).map fun i : Nat => p.counter + (i : Int) := by
  have same : List.Forall₂ (· = ·) ((numbered p.counter (drawnIn roots)).map Prod.fst) ((keyed ms).map Prod.fst) :=
    List.forall₂_map_left_iff.mpr (List.forall₂_map_right_iff.mpr
      ((numbering_of_rootMarkups run).elements.imp fun _ _ h => h.1.symm))
  rw [← map_fst_numbered]
  exact (List.forall₂_eq_eq_eq ▸ same : (numbered p.counter (drawnIn roots)).map Prod.fst = _).symm

/-- Nodes under other names are drawn in the same ways. -/
theorem paths_of_renames {nodes others : List Node} (h : List.Forall₂ (fun n m => Renames [n] [m]) nodes others) :
    nodes.map path = others.map path := by
  induction h with
  | nil => rfl
  | cons head _ rest => rw [List.map_cons, List.map_cons, path_of_renames head, rest]

/-- And they use the same fonts. -/
theorem usedIn_of_renames {nodes others : List Node} (h : List.Forall₂ (fun n m => Renames [n] [m]) nodes others)
    (family : String) (weight : Int) : UsedIn nodes family weight ↔ UsedIn others family weight := by
  induction h with
  | nil => exact Iff.rfl
  | @cons n m nodes others head _ rest =>
    rw [← List.singleton_append (l := nodes), ← List.singleton_append (l := others), usedIn_append, usedIn_append,
      usedIn_singleton, usedIn_singleton, usesFont_of_renames head, rest]

/-- **Names do not matter to what is drawn.**  Where a forest is drawn under other names too, be its nodes buttons,
text fields or check boxes by them or not, as many numbers are given out and the same fonts are noted, all shifts are
the same, and so are the nodes that are drawn, their order, and the way in which each of them is drawn. -/
theorem sameNodes_of_renames (h : Renames roots others) (run : (rootMarkups roots).runFrom {} = (.ok ms, p))
    (other : (rootMarkups others).runFrom {} = (.ok ns, q)) :
    p = q ∧ roots.map Canvas.shift = others.map Canvas.shift ∧ SameNodes roots others ms ns := by
  have nodes := drawnIn_of_renames h
  have numbering := numbering_of_rootMarkups run
  have numberingOther := numbering_of_rootMarkups other
  have told := (tells_of_rootMarkups run).paths
  have counters : p.counter = q.counter := by rw [numbering.count, numberingOther.count, nodes.length_eq]
  have fonts : p.fonts = q.fonts := by
    refine (notes_of_forest run).unique ((notes_of_forest other).congr ?_)
    exact fun family weight => (usedIn_of_renames nodes family weight).symm
  refine ⟨?_, Likeness.shifts_of_nodes (h.alike (levelsIn roots) false) (Nat.le_refl _), ?_⟩
  · cases p
    cases q
    cases counters
    cases fonts
    rfl
  · refine ⟨nodes, depicts_of_numbered numbering.elements, depicts_of_numbered numberingOther.elements, ?_, told, ?_⟩
    · rw [numbers_of_rootMarkups run, numbers_of_rootMarkups other, nodes.length_eq]
    · rw [told, (tells_of_rootMarkups other).paths, paths_of_renames nodes]

/-- A frame of a text, of an image and of a box, which holds a text to its left. -/
def card (name inner : String) : Node :=
  .object [("name", .text name), ("type", .text "FRAME")] [
    .object [("type", .text "TEXT"), ("textContent", .text "Find"), ("fontFamily", .text "Inter")] [],
    .object [("svg", .text "<svg/>")] [],
    .object [("name", .text inner)] [
      .object [("type", .text "TEXT"), ("textContent", .text "Here"), ("x", .number (.int (-5)))] []]]

theorem sameNodes_of_renames_card :
    Renames [card "Card" "Row", card "Save button" "Tick"] [card "Search" "Search", card "Card" "Row"] ∧
      ∃ ms ns p, (rootMarkups [card "Card" "Row", card "Save button" "Tick"]).runFrom {} = (.ok ms, p) ∧
        (rootMarkups [card "Search" "Search", card "Card" "Row"]).runFrom {} = (.ok ns, p) ∧ p.counter = 10 ∧
        SameNodes [card "Card" "Row", card "Save button" "Tick"] [card "Search" "Search", card "Card" "Row"] ms ns := by
  have renamed (name other : String) (more : Members) :
      Members.AgreeOff ["name"] (("name", .text name) :: more) (("name", .text other) :: more) := by
    intro field apart
    have different : "name" ≠ field := fun same => apart (List.mem_singleton.mpr same.symm)
    simp [Entries.get, Entries.get?, different]
  have cards (name inner other kept : String) {nodes others : List Node} (rest : Renames nodes others) :
      Renames (card name inner :: nodes) (card other kept :: others) :=
    .object (renamed _ _ _) (.object (.refl _ _) .nil (.object (.refl _ _) .nil (.object (renamed _ _ _)
      (.object (.refl _ _) .nil .nil) .nil))) rest
  have h := cards "Card" "Row" "Search" "Search" (cards "Save button" "Tick" "Card" "Row" .nil)
  have ends : ((rootMarkups [card "Card" "Row", card "Save button" "Tick"]).runFrom {}).1.isOk = true := by
    decide +kernel
  have endsOther : ((rootMarkups [card "Search" "Search", card "Card" "Row"]).runFrom {}).1.isOk = true := by
    decide +kernel
  rcases run : (rootMarkups [card "Card" "Row", card "Save button" "Tick"]).runFrom {} with ⟨fault | ms, p⟩
  · rw [run] at ends
    cases ends
  · rcases other : (rootMarkups [card "Search" "Search", card "Card" "Row"]).runFrom {} with ⟨fault | ns, q⟩
    · rw [other] at endsOther
      cases endsOther
    · obtain ⟨rfl, -, same⟩ := sameNodes_of_renames h run other
      refine ⟨h, ms, ns, p, rfl, rfl, ?_, same⟩
      rw [(numbering_of_rootMarkups run).count]
      decide +kernel

end

end Node

end Artboard
