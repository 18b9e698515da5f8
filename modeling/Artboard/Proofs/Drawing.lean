import Artboard.Markup.OfNode
import Artboard.Proofs.Run

/-!
# What a drawing can do

`Node.markup` runs through a design with a counter and the fonts noted so far.  This file says once what a
run that comes to an end has done: `Node.Draws` has one rule for each way in which a node, the children of a
container or the children of a text field are drawn, with all that was computed on the way, and every such
run follows these rules (`draws_of_markup`); roots follow them one after another (`Node.DrawsRoots`).  What holds of
all drawings is proved by induction on the rules.
-/

namespace Artboard

/-! ## 1. Steps of a drawing -/

/-- The progress after a number has been given out. -/
def Progress.next (p : Progress) : Progress := { p with counter := p.counter + 1 }

theorem Compile.nextId_bind_ok {β : Type} {f : Int → Compile β} {p r : Progress} {b : β}
    (h : (Compile.nextId >>= f).runFrom p = (.ok b, r)) : (f p.counter).runFrom p.next = (.ok b, r) := h

/-- Noting a font gives out no number. -/
theorem Compile.useFont_counter {fields : Members} {p q : Progress}
    (h : (Compile.useFont fields).runFrom p = (.ok (), q)) : q.counter = p.counter := by
  unfold Compile.useFont at h
  split at h
  · obtain ⟨-, rfl⟩ := Compile.pure_ok h
    rfl
  · obtain ⟨_, r, touched, h⟩ := Compile.bind_ok h
    cases touched
    obtain ⟨weight, -, h⟩ := Compile.lift_bind_ok h
    cases h
    rfl

/-- An element whose style can be written. -/
theorem Markup.styled_ok {tag : Tag} {attributes : List Attribute} {style : Style}
    {children : List Markup} {m : Markup} (h : Markup.styled tag attributes style children = .ok m) :
    ∃ written, writeStyle style = .ok written ∧ m = .element tag attributes written children := by
  obtain ⟨written, hw, h⟩ := ok_of_bind h
  cases h
  exact ⟨written, hw, rfl⟩

/-! ## 2. What is drawn whole -/

namespace Node

theorem isOpaque_of_leaf {fields : Members} {content : String} (h : leafText? fields = some content) :
    isOpaque fields = true := by
  simp [isOpaque, h]

theorem isOpaque_of_asset {fields : Members} {asset : Asset} (h : Asset.ofNode? fields = some asset) :
    isOpaque fields = true := by
  simp [isOpaque, h]

theorem isOpaque_of_none {fields : Members} (leaf : leafText? fields = none)
    (asset : Asset.ofNode? fields = none) : isOpaque fields = false := by
  simp [isOpaque, leaf, asset]

theorem visibleText?_eq_some {n : Node} {fields : Members} {content : String}
    (h : n.visibleText? = some (fields, content)) :
    ∃ children, n = .object fields children ∧ hides fields = false ∧ leafText? fields = some content := by
  cases n with
  | other v => cases h
  | object own children =>
    unfold visibleText? at h
    dsimp only at h
    split at h
    · cases h
    · rename_i shown
      obtain ⟨s, leaf, h⟩ := Option.map_eq_some_iff.mp h
      cases h
      exact ⟨children, rfl, by simpa using shown, leaf⟩

/-! ## 3. Frames and images -/

/-- **The frame of a node by its widget**, with the control that it holds. -/
inductive Frames (id : Int) (fields : Members) (children : List Node) (style : Style) :
    Option Widget → Frame → Prop where
  | button : Frames id fields children style (some .button)
      ⟨.button, [.key id, .control .button] ++ ((firstTextIn children).map Attribute.label).toList,
        Chrome.button.merge style, []⟩
  /-- a text field that shows none of its texts -/
  | emptyField {looks} (missing : Slot.ofChildren children = .missing)
      (wrote : writeStyle (Chrome.input.merge Chrome.fill) = .ok looks) :
      Frames id fields children style (some .textField)
        ⟨.label, [.key id], Chrome.label.merge style, [.element .input [.inputKey id, .control .text] looks []]⟩
  | textField (present : Slot.ofChildren children ≠ .missing) :
      Frames id fields children style (some .textField) ⟨.label, [.key id], Chrome.label.merge style, []⟩
  | checkbox {looks} (wrote : writeStyle Chrome.hiddenCheckbox = .ok looks) :
      Frames id fields children style (some .checkbox)
        ⟨.label, [.key id], (Chrome.label.merge style).putText "cursor" "pointer",
          [.element .input [.inputKey id, .control .checkbox, .label (description fields)] looks []]⟩
  | box {widget} (other : widget = none ∨ widget = some .typography) :
      Frames id fields children style widget ⟨if isText fields then .span else .div, [.key id], style, []⟩

theorem frames_of_frame {widget : Option Widget} {id : Int} {fields : Members} {children : List Node}
    {style : Style} {f : Frame} (h : frame widget id fields children style = .ok f) :
    Frames id fields children style widget f := by
  unfold frame at h
  split at h
  · cases h
    exact .button
  · obtain ⟨inputs, filled, h⟩ := ok_of_bind h
    cases h
    unfold fillingInput at filled
    split at filled
    · rename_i missing
      obtain ⟨input, drawn, filled⟩ := ok_of_bind filled
      cases filled
      obtain ⟨looks, wrote, rfl⟩ := Markup.styled_ok drawn
      exact .emptyField missing wrote
    · rename_i present
      cases filled
      exact .textField present
  · obtain ⟨input, drawn, h⟩ := ok_of_bind h
    cases h
    obtain ⟨looks, wrote, rfl⟩ := Markup.styled_ok drawn
    exact .checkbox wrote
  · cases h
    refine .box ?_
    cases widget with
    | none => exact .inl rfl
    | some w => cases w <;> simp_all

/-- **The image of a node alone**, by what carries it. -/
inductive Pictures (fields : Members) : Asset → Markup → Prop where
  | vector {body looks} (wrote : writeStyle Chrome.vector = .ok looks) :
      Pictures fields (.vector body) (.element .div [.innerHtml body] looks [])
  | raster {source looks} (wrote : writeStyle (Chrome.raster Asset.fit) = .ok looks) :
      Pictures fields (.raster source)
        (.element .img [.source source, .description (description fields)] looks [])

theorem pictures_of_imageMarkup {fields : Members} {asset : Asset} {image : Markup}
    (h : imageMarkup fields asset = .ok image) : Pictures fields asset image := by
  cases asset with
  | vector body =>
    obtain ⟨looks, wrote, rfl⟩ := Markup.styled_ok h
    exact .vector wrote
  | raster source =>
    obtain ⟨looks, wrote, rfl⟩ := Markup.styled_ok h
    exact .raster wrote

/-! ## 4. The rules of drawing -/

/-- What is drawn at a time. -/
inductive Task where
  /-- a node at a place, with the origin of its children -/
  | one (place : Placement) (origin : Point) (node : Node)
  /-- nodes in a row -/
  | row (place : Placement) (nodes : List Node)
  /-- the children of a text field -/
  | field (owner : Members) (place : Placement) (slot : Slot) (nodes : List Node)

/-- The children of a container as a task, by the widget of the container. -/
def Task.inside (widget : Option Widget) (fields : Members) (origin : Point) (children : List Node) : Task :=
  if widget = some .textField then
    .field fields (Placement.within fields origin) (Slot.ofChildren children) children
  else .row (Placement.within fields origin) children

/-- **The rules of drawing**: from a progress, a task gives markup and a later progress. -/
inductive Draws : Task → Progress → List Markup → Progress → Prop where
  /-- What is no object is not drawn. -/
  | other {place origin v p} : Draws (.one place origin (.other v)) p [] p
  /-- A hidden node is not drawn. -/
  | hidden {place origin fields children p} (hidden : hides fields = true) :
      Draws (.one place origin (.object fields children)) p [] p
  /-- A text is a span of what it says. -/
  | text {place origin fields children content style written p q} (shown : hides fields = false)
      (leaf : leafText? fields = some content)
      (noted : (Compile.useFont fields).runFrom p.next = (.ok (), q))
      (styled : Node.style fields place false = .ok style) (wrote : writeStyle style = .ok written) :
      Draws (.one place origin (.object fields children)) p
        [.element .span [.key p.counter] written [.text content]] q
  /-- A node with an image of itself is a box with the image in it. -/
  | asset {place origin fields children asset image style written p} (shown : hides fields = false)
      (leaf : leafText? fields = none) (drawn : Asset.ofNode? fields = some asset)
      (pictured : imageMarkup fields asset = .ok image)
      (styled : Node.style fields place true = .ok style) (wrote : writeStyle style = .ok written) :
      Draws (.one place origin (.object fields children)) p
        [.element .div [.key p.counter] written [image]] p.next
  /-- Every other node is its frame around its children. -/
  | container {place origin fields children widget style frame written content p q}
      (shown : hides fields = false) (leaf : leafText? fields = none)
      (plain : Asset.ofNode? fields = none) (kind : Widget.ofNode fields = .ok widget)
      (styled : Node.style fields place false = .ok style)
      (framed : Node.frame widget p.counter fields children style = .ok frame)
      (wrote : writeStyle frame.style = .ok written)
      (inside : Draws (Task.inside widget fields origin children) p.next content q) :
      Draws (.one place origin (.object fields children)) p
        [.element frame.tag frame.attributes written (frame.fixtures ++ content)] q
  | rowNil {place p} : Draws (.row place []) p [] p
  /-- Nodes in a row are drawn one after another, none of them with an origin of its own. -/
  | rowCons {place n rest first others p q r} (head : Draws (.one place Point.zero n) p first q)
      (tail : Draws (.row place rest) q others r) : Draws (.row place (n :: rest)) p (first ++ others) r
  | fieldNil {owner place slot p} : Draws (.field owner place slot []) p [] p
  /-- The text that a text field waits for is its input. -/
  | fieldInput {owner place n rest fields content style written others p q r}
      (text : n.visibleText? = some (fields, content))
      (noted : (Compile.useFont fields).runFrom p.next = (.ok (), q))
      (styled : inputStyle owner fields place = .ok style)
      (wrote : writeStyle (Chrome.input.merge style) = .ok written)
      (tail : Draws (.field owner place .filled rest) q others r) :
      Draws (.field owner place .awaited (n :: rest)) p
        (.element .input [.key p.counter, .control .text, .placeholder content] written [] :: others) r
  /-- Every other child of a text field is drawn as elsewhere; where no text is shown, none of them is null. -/
  | fieldChild {owner place slot n rest first others p q r}
      (passed : slot = .awaited → n.visibleText? = none) (given : slot = .missing → n.isNull = false)
      (head : Draws (.one place Point.zero n) p first q)
      (tail : Draws (.field owner place slot rest) q others r) :
      Draws (.field owner place slot (n :: rest)) p (first ++ others) r

/-! ## 5. Every run follows the rules -/

/-- An element that shows a text, step by step: it takes a number, notes the font, and is drawn in some style. -/
theorem shown_ok {fields : Members} {styling : Except Fault Style} {element : Int → Style → Except Fault Markup}
    {p q : Progress} {m : Markup}
    (h : (do
      let id ← Compile.nextId
      Compile.useFont fields
      let style ← styling
      element id style : Compile Markup).runFrom p = (.ok m, q)) :
    ∃ style, (Compile.useFont fields).runFrom p.next = (.ok (), q) ∧ styling = .ok style ∧
      element p.counter style = .ok m := by
  have h := Compile.nextId_bind_ok h
  obtain ⟨_, r, noted, h⟩ := Compile.bind_ok h
  obtain ⟨style, styled, h⟩ := Compile.lift_bind_ok h
  obtain ⟨drawn, rfl⟩ := Compile.lift_ok h
  exact ⟨style, noted, styled, drawn⟩

/-- A text that is drawn, step by step. -/
theorem textMarkup_ok {fields : Members} {content : String} {place : Placement} {p q : Progress}
    {m : Markup} (h : (textMarkup fields content place).runFrom p = (.ok m, q)) :
    ∃ style written, (Compile.useFont fields).runFrom p.next = (.ok (), q) ∧
      Node.style fields place false = .ok style ∧ writeStyle style = .ok written ∧
      m = .element .span [.key p.counter] written [.text content] := by
  obtain ⟨style, noted, styled, drawn⟩ := shown_ok h
  obtain ⟨written, wrote, rfl⟩ := Markup.styled_ok drawn
  exact ⟨style, written, noted, styled, wrote, rfl⟩

/-- The input of a text field, step by step. -/
theorem inputMarkup_ok {owner fields : Members} {content : String} {place : Placement} {p q : Progress}
    {m : Markup} (h : (inputMarkup owner fields content place).runFrom p = (.ok m, q)) :
    ∃ style written, (Compile.useFont fields).runFrom p.next = (.ok (), q) ∧
      inputStyle owner fields place = .ok style ∧
      writeStyle (Chrome.input.merge style) = .ok written ∧
      m = .element .input [.key p.counter, .control .text, .placeholder content] written [] := by
  obtain ⟨style, noted, styled, drawn⟩ := shown_ok h
  obtain ⟨written, wrote, rfl⟩ := Markup.styled_ok drawn
  exact ⟨style, written, noted, styled, wrote, rfl⟩

/-- A node drawn from an image of itself, step by step. -/
theorem assetMarkup_ok {fields : Members} {asset : Asset} {place : Placement} {p q : Progress}
    {m : Markup} (h : (assetMarkup fields asset place).runFrom p = (.ok m, q)) :
    ∃ style written image, Node.style fields place true = .ok style ∧ writeStyle style = .ok written ∧
      imageMarkup fields asset = .ok image ∧ m = .element .div [.key p.counter] written [image] ∧
      q = p.next := by
  unfold assetMarkup at h
  have h := Compile.nextId_bind_ok h
  obtain ⟨style, styled, h⟩ := Compile.lift_bind_ok h
  obtain ⟨image, drawn, h⟩ := Compile.lift_bind_ok h
  obtain ⟨hm, rfl⟩ := Compile.lift_ok h
  obtain ⟨written, hw, rfl⟩ := Markup.styled_ok hm
  exact ⟨style, written, image, styled, hw, drawn, rfl, rfl⟩

/-- A run over the children of a container is a run of one of the two tasks. -/
private theorem draws_inside {widget : Option Widget} {fields : Members} {origin : Point}
    {children : List Node} {p q : Progress} {content : List Markup}
    (h : (if widget = some .textField then
        fieldMarkup fields (Placement.within fields origin) (Slot.ofChildren children) children
      else markups (Placement.within fields origin) children).runFrom p = (.ok content, q))
    (row : (markups (Placement.within fields origin) children).runFrom p = (.ok content, q) →
      Draws (.row (Placement.within fields origin) children) p content q)
    (field : (fieldMarkup fields (Placement.within fields origin) (Slot.ofChildren children)
        children).runFrom p = (.ok content, q) →
      Draws (.field fields (Placement.within fields origin) (Slot.ofChildren children) children) p
        content q) :
    Draws (Task.inside widget fields origin children) p content q := by
  unfold Task.inside
  split at h
  · rename_i hw
    rw [if_pos hw]
    exact field h
  · rename_i hw
    rw [if_neg hw]
    exact row h

mutual

/-- **Every drawing of a node follows the rules.** -/
theorem draws_of_markup {place : Placement} {origin : Point} : ∀ (n : Node) {p q : Progress}
    {drawn : Option Markup}, (markup place origin n).runFrom p = (.ok drawn, q) →
    Draws (.one place origin n) p drawn.toList q
  | .other v, p, q, drawn, h => by
      unfold markup at h
      obtain ⟨rfl, rfl⟩ := Compile.pure_ok h
      exact .other
  | .object fields children, p, q, drawn, h => by
      unfold markup at h
      split at h
      · rename_i hh
        obtain ⟨rfl, rfl⟩ := Compile.pure_ok h
        exact .hidden hh
      · rename_i hh
        have shown : hides fields = false := by simpa using hh
        split at h
        · rename_i leaf
          obtain ⟨m, r, hm, h⟩ := Compile.bind_ok h
          obtain ⟨rfl, rfl⟩ := Compile.pure_ok h
          obtain ⟨style, written, noted, styled, hw, rfl⟩ := textMarkup_ok hm
          exact .text shown leaf noted styled hw
        · rename_i leaf asset
          obtain ⟨m, r, hm, h⟩ := Compile.bind_ok h
          obtain ⟨rfl, rfl⟩ := Compile.pure_ok h
          obtain ⟨style, written, image, styled, hw, drawn, rfl, rfl⟩ := assetMarkup_ok hm
          exact .asset shown leaf asset drawn styled hw
        · rename_i leaf asset
          have h := Compile.nextId_bind_ok h
          obtain ⟨widget, hw, h⟩ := Compile.lift_bind_ok h
          obtain ⟨style, styled, h⟩ := Compile.lift_bind_ok h
          obtain ⟨frame, framed, h⟩ := Compile.lift_bind_ok h
          obtain ⟨content, r, inside, h⟩ := Compile.bind_ok h
          obtain ⟨m, hm, h⟩ := Compile.lift_bind_ok h
          obtain ⟨rfl, rfl⟩ := Compile.pure_ok h
          obtain ⟨written, written_ok, rfl⟩ := Markup.styled_ok hm
          exact .container shown leaf asset hw styled framed written_ok
            (draws_inside inside (draws_of_markups children) (draws_of_fieldMarkup children))

/-- Every drawing of nodes in a row follows the rules. -/
theorem draws_of_markups {place : Placement} : ∀ (nodes : List Node) {p q : Progress}
    {drawn : List Markup}, (markups place nodes).runFrom p = (.ok drawn, q) →
    Draws (.row place nodes) p drawn q
  | [], p, q, drawn, h => by
      unfold markups at h
      obtain ⟨rfl, rfl⟩ := Compile.pure_ok h
      exact .rowNil
  | n :: rest, p, q, drawn, h => by
      unfold markups at h
      obtain ⟨first, r, head, h⟩ := Compile.bind_ok h
      obtain ⟨others, s, tail, h⟩ := Compile.bind_ok h
      obtain ⟨rfl, rfl⟩ := Compile.pure_ok h
      exact .rowCons (draws_of_markup n head) (draws_of_markups rest tail)

/-- Every drawing of the children of a text field follows the rules. -/
theorem draws_of_fieldMarkup {owner : Members} {place : Placement} : ∀ (nodes : List Node) {slot : Slot}
    {p q : Progress} {drawn : List Markup},
    (fieldMarkup owner place slot nodes).runFrom p = (.ok drawn, q) →
    Draws (.field owner place slot nodes) p drawn q
  | [], slot, p, q, drawn, h => by
      unfold fieldMarkup at h
      obtain ⟨rfl, rfl⟩ := Compile.pure_ok h
      exact .fieldNil
  | n :: rest, slot, p, q, drawn, h => by
      unfold fieldMarkup at h
      split at h
      · rename_i text
        obtain ⟨input, r, hi, h⟩ := Compile.bind_ok h
        obtain ⟨others, s, tail, h⟩ := Compile.bind_ok h
        obtain ⟨rfl, rfl⟩ := Compile.pure_ok h
        obtain ⟨style, written, noted, styled, hw, rfl⟩ := inputMarkup_ok hi
        exact .fieldInput text noted styled hw (draws_of_fieldMarkup rest tail)
      · rename_i kept
        split at h
        · obtain ⟨_, _, _, h⟩ := Compile.bind_ok h
          cases h
        · rename_i taken
          obtain ⟨first, r, head, h⟩ := Compile.bind_ok h
          obtain ⟨others, s, tail, h⟩ := Compile.bind_ok h
          obtain ⟨rfl, rfl⟩ := Compile.pure_ok h
          refine .fieldChild (fun hs => ?_) (fun hs => ?_) (draws_of_markup n head)
            (draws_of_fieldMarkup rest tail)
          · cases ht : n.visibleText? with
            | none => rfl
            | some text => exact absurd ht (kept text.1 text.2 hs)
          · simpa [hs] using taken

end

/-- A root is drawn at the top of the page, with its shift taken off the origin of its children. -/
theorem draws_of_rootMarkup {root : Node} {p q : Progress} {drawn : Option Markup}
    (h : (rootMarkup root).runFrom p = (.ok drawn, q)) :
    ∃ shift, Canvas.shift root = .ok shift ∧ Draws (.one .root shift.neg root) p drawn.toList q := by
  unfold rootMarkup at h
  obtain ⟨shift, hs, h⟩ := Compile.lift_bind_ok h
  obtain ⟨_, _, h⟩ := Compile.lift_bind_ok h
  exact ⟨shift, hs, draws_of_markup root h⟩

/-! ## 6. Roots -/

/-- **The rule of roots**: they are drawn one after another, each with its own shift. -/
inductive DrawsRoots : List Node → Progress → List Markup → Progress → Prop where
  | nil {p} : DrawsRoots [] p [] p
  | cons {root rest shift first others p q r} (moved : Canvas.shift root = .ok shift)
      (head : Draws (.one .root shift.neg root) p first q) (tail : DrawsRoots rest q others r) :
      DrawsRoots (root :: rest) p (first ++ others) r

/-- **Every drawing of roots follows the rule.** -/
theorem drawsRoots_of_rootMarkups {roots : List Node} {p q : Progress} {ms : List Markup}
    (h : (rootMarkups roots).runFrom p = (.ok ms, q)) : DrawsRoots roots p ms q := by
  induction roots generalizing p ms with
  | nil =>
    unfold rootMarkups at h
    obtain ⟨rfl, rfl⟩ := Compile.pure_ok h
    exact .nil
  | cons root rest ih =>
    unfold rootMarkups at h
    obtain ⟨first, r, head, h⟩ := Compile.bind_ok h
    obtain ⟨others, s, tail, h⟩ := Compile.bind_ok h
    obtain ⟨rfl, rfl⟩ := Compile.pure_ok h
    obtain ⟨shift, moved, drawn⟩ := draws_of_rootMarkup head
    exact .cons moved drawn (ih tail)

end Node

end Artboard
