import Artboard.Proofs.Markup.Legible
import Artboard.Proofs.Markup.Lines
import Mathlib.Data.List.Forall2

/-!
# Numbers of nodes

A drawing numbers the nodes that it draws, and only these, in the order in which they stand in the design
(`Node.drawn`).  Whatever widgets they are, the elements with a key stand in the markup in the same order
under the same numbers, each the element of its node (`Node.Depicts`), every text shows once, and no other key
is given than that of a control inside the element of its node (`Node.Numbering`).

`Node.Numbering` holds of nothing drawn, of one drawing after another and of an element around what is
drawn inside it, so it holds of all drawings (`Node.numbering_of_draws`).  `Node.numbering_markup` adds that
the lines which start with a key, at any level of indent, are those of the keys in the markup.
-/

namespace Artboard

/-! ## 1. The nodes that are drawn -/

namespace Node

mutual

/-- What is drawn of a node: nothing of a hidden one, and of a text or an image nothing below it. -/
def drawn : Node → List Node
  | other _ => []
  | object fields children =>
    if hides fields then []
    else if isOpaque fields then [object fields children]
    else object fields children :: drawnIn children

/-- What is drawn of several nodes. -/
def drawnIn : List Node → List Node
  | [] => []
  | n :: rest => drawn n ++ drawnIn rest

end

/-- What is drawn by a task. -/
def Task.drawn : Task → List Node
  | .one _ _ n => n.drawn
  | .row _ nodes => drawnIn nodes
  | .field _ _ _ nodes => drawnIn nodes

/-- Nodes with numbers, from a first number on. -/
def numbered (first : Int) : List Node → List (Int × Node)
  | [] => []
  | n :: rest => (first, n) :: numbered (first + 1) rest

/-- The text of a node that is drawn as its text. -/
def ownText? : Node → Option String
  | object fields _ => leafText? fields
  | other _ => none

/-- The element of the node holds a control besides its children: a check box always does, and a text field
that has no text of its own. -/
def holdsControl : Node → Bool
  | object fields children => !isOpaque fields &&
    match Widget.ofNode fields with
    | .ok (some .checkbox) => true
    | .ok (some .textField) => Slot.ofChildren children == .missing
    | _ => false
  | other _ => false

/-- The keys that are given for a node. -/
def keysOf (n : Int × Node) : List Attribute :=
  .key n.1 :: if n.2.holdsControl then [.inputKey n.1] else []

end Node

/-! ## 2. What is in markup -/

namespace Attribute

/-- The number of the node that the element stands for. -/
def key? : Attribute → Option Int
  | key id => some id
  | _ => none

/-- A key of either kind. -/
def isAnyKey : Attribute → Bool
  | key _ | inputKey _ => true
  | _ => false

/-- The text of a placeholder. -/
def placeholder? : Attribute → Option String
  | placeholder s => some s
  | _ => none

end Attribute

namespace Markup

mutual

/-- Markup and all below it, in document order. -/
def pieces : Markup → List Markup
  | text s => [text s]
  | element tag attributes style children => element tag attributes style children :: piecesIn children

/-- Several pieces of markup and all below them, in document order. -/
def piecesIn : List Markup → List Markup
  | [] => []
  | m :: rest => pieces m ++ piecesIn rest

end

/-- The attributes of an element. -/
def attributes : Markup → List Attribute
  | text _ => []
  | element _ as _ _ => as

/-- The text that is shown right here: of a text, or as a placeholder. -/
def ownTexts : Markup → List String
  | text s => [s]
  | element _ as _ _ => as.filterMap Attribute.placeholder?

/-- The elements that have the number of a node, in document order, each with its number. -/
def keyed (ms : List Markup) : List (Int × Markup) :=
  (piecesIn ms).flatMap fun m => (m.attributes.filterMap Attribute.key?).map fun id => (id, m)

/-- All keys in document order. -/
def keys (ms : List Markup) : List Attribute :=
  (piecesIn ms).flatMap fun m => m.attributes.filter Attribute.isAnyKey

/-- All texts that are shown, in document order. -/
def texts (ms : List Markup) : List String := (piecesIn ms).flatMap ownTexts

theorem piecesIn_append (ms more : List Markup) : piecesIn (ms ++ more) = piecesIn ms ++ piecesIn more := by
  induction ms with
  | nil => rfl
  | cons m rest ih => rw [List.cons_append, piecesIn, piecesIn, ih, List.append_assoc]

theorem keyed_append (ms more : List Markup) : keyed (ms ++ more) = keyed ms ++ keyed more := by
  unfold keyed
  rw [piecesIn_append, List.flatMap_append]

theorem keys_append (ms more : List Markup) : keys (ms ++ more) = keys ms ++ keys more := by
  unfold keys
  rw [piecesIn_append, List.flatMap_append]

theorem texts_append (ms more : List Markup) : texts (ms ++ more) = texts ms ++ texts more := by
  unfold texts
  rw [piecesIn_append, List.flatMap_append]

/-- The pieces of an element: itself, and the pieces inside. -/
theorem piecesIn_element (tag : Tag) (as : List Attribute) (style : Entries Written)
    (children : List Markup) :
    piecesIn [element tag as style children] = element tag as style children :: piecesIn children := by
  simp [piecesIn, pieces]

/-- The elements with numbers of an element with a number: itself, and those inside. -/
theorem keyed_element {id : Int} {tag : Tag} {as : List Attribute} {style : Entries Written}
    {fixtures content : List Markup} (key : as.filterMap Attribute.key? = [id]) (none : keyed fixtures = []) :
    keyed [element tag as style (fixtures ++ content)] =
      (id, element tag as style (fixtures ++ content)) :: keyed content := by
  unfold keyed at none ⊢
  rw [piecesIn_element, List.flatMap_cons, piecesIn_append, List.flatMap_append, none]
  simp [attributes, key]

section

variable {α : Type} {rel : α → Markup → Prop} {n : α} {nodes more : List α} {ms others : List Markup} {id : Int}
  {tag : Tag} {as : List Attribute} {style : Entries Written} {fixtures content : List Markup}

/-- What relates nodes to the elements with numbers, one by one, goes through documents part by part. -/
theorem forall₂_keyed_append (h : List.Forall₂ (fun n e => rel n e.2) nodes (keyed ms))
    (k : List.Forall₂ (fun n e => rel n e.2) more (keyed others)) :
    List.Forall₂ (fun n e => rel n e.2) (nodes ++ more) (keyed (ms ++ others)) := by
  rw [keyed_append]
  exact List.rel_append h k

/-- An element with a number stands before those inside. -/
theorem forall₂_keyed_element (key : as.filterMap Attribute.key? = [id]) (none : keyed fixtures = [])
    (own : rel n (.element tag as style (fixtures ++ content)))
    (inside : List.Forall₂ (fun n e => rel n e.2) nodes (keyed content)) :
    List.Forall₂ (fun n e => rel n e.2) (n :: nodes) (keyed [.element tag as style (fixtures ++ content)]) := by
  rw [keyed_element key none]
  exact .cons own inside

/-- And one with no other inside stands alone. -/
theorem forall₂_keyed_leaf (key : as.filterMap Attribute.key? = [id]) (none : keyed fixtures = [])
    (own : rel n (.element tag as style fixtures)) :
    List.Forall₂ (fun n e => rel n e.2) [n] (keyed [.element tag as style fixtures]) := by
  rw [← List.append_nil fixtures] at own ⊢
  exact forall₂_keyed_element key none own .nil

end

end Markup

/-! ## 3. Which element stands for which node -/

namespace Node

open Markup

/-- The style of the fields at some place, with the looks of an element, as it is written. -/
def Styled (fields : Members) (image : Bool) (looks : Style → Style) (written : Entries Written) : Prop :=
  ∃ place style, Node.style fields place image = .ok style ∧ writeStyle (looks style) = .ok written

/-- The element with a number stands for the node. -/
inductive Depicts : Int → Node → Markup → Prop where
  /-- a text as a span of it -/
  | text {id fields children content style} (leaf : leafText? fields = some content)
      (styled : Styled fields false (fun s => s) style) :
      Depicts id (.object fields children) (.element .span [.key id] style [.text content])
  /-- a text as the placeholder of an input -/
  | placeholder {id owner place fields children content own style}
      (leaf : leafText? fields = some content) (styled : inputStyle owner fields place = .ok own)
      (wrote : writeStyle (Chrome.input.merge own) = .ok style) :
      Depicts id (.object fields children)
        (.element .input [.key id, .control .text, .placeholder content] style [])
  /-- a node with an image of itself as a box around it -/
  | image {id fields children asset image style} (leaf : leafText? fields = none)
      (carried : Asset.ofNode? fields = some asset) (pictured : imageMarkup fields asset = .ok image)
      (styled : Styled fields true (fun s => s) style) :
      Depicts id (.object fields children) (.element .div [.key id] style [image])
  /-- a button, with a label where it holds a text -/
  | button {id fields children style content} (plain : isOpaque fields = false)
      (kind : Widget.ofNode fields = .ok (some .button))
      (styled : Styled fields false Chrome.button.merge style) :
      Depicts id (.object fields children)
        (.element .button ([.key id, .control .button] ++ ((firstTextIn children).map .label).toList)
          style content)
  /-- a text field, with a control of its own where no text of it is one -/
  | textField {id fields children style controls content} (plain : isOpaque fields = false)
      (kind : Widget.ofNode fields = .ok (some .textField))
      (styled : Styled fields false Chrome.label.merge style)
      (filled : if Slot.ofChildren children = .missing then
          ∃ s, controls = [.element .input [.inputKey id, .control .text] s []] else controls = []) :
      Depicts id (.object fields children) (.element .label [.key id] style (controls ++ content))
  /-- a check box, with its control -/
  | checkbox {id fields children style s content} (plain : isOpaque fields = false)
      (kind : Widget.ofNode fields = .ok (some .checkbox))
      (styled : Styled fields false (fun s => (Chrome.label.merge s).putText "cursor" "pointer") style) :
      Depicts id (.object fields children) (.element .label [.key id] style
        (.element .input [.inputKey id, .control .checkbox, .label (description fields)] s [] :: content))
  /-- any other node -/
  | box {id fields children widget style content} (plain : isOpaque fields = false)
      (kind : Widget.ofNode fields = .ok widget) (other : widget = none ∨ widget = some .typography)
      (styled : Styled fields false (fun s => s) style) :
      Depicts id (.object fields children)
        (.element (if isText fields then .span else .div) [.key id] style content)

/-- **The numbers from `first` up to `next` are those of these nodes in this markup.** -/
structure Numbering (first : Int) (nodes : List Node) (ms : List Markup) (next : Int) : Prop where
  /-- as many numbers as nodes -/
  count : next = first + nodes.length
  /-- the elements that have numbers stand for the nodes, in order -/
  elements : List.Forall₂ (fun n e => e.1 = n.1 ∧ Depicts n.1 n.2 e.2) (numbered first nodes) (keyed ms)
  /-- no other keys than those of the nodes and of their controls -/
  keys : keys ms = (numbered first nodes).flatMap keysOf
  /-- each text shows once -/
  texts : texts ms = nodes.filterMap ownText?

theorem numbered_append (first : Int) (nodes more : List Node) :
    numbered first (nodes ++ more) = numbered first nodes ++ numbered (first + nodes.length) more := by
  induction nodes generalizing first with
  | nil => simp [numbered]
  | cons n rest ih =>
    have h : first + 1 + (rest.length : Int) = first + ((n :: rest).length : Int) := by
      rw [List.length_cons]
      omega
    rw [List.cons_append, numbered, numbered, ih, h, List.cons_append]

theorem Numbering.nil (first : Int) : Numbering first [] [] first :=
  ⟨by simp, .nil, rfl, rfl⟩

/-- One drawing after another. -/
theorem Numbering.append {first middle next : Int} {nodes more : List Node} {ms others : List Markup}
    (h : Numbering first nodes ms middle) (k : Numbering middle more others next) :
    Numbering first (nodes ++ more) (ms ++ others) next := by
  have start : numbered middle more = numbered (first + nodes.length) more := by rw [h.count]
  refine ⟨?_, ?_, ?_, ?_⟩
  · rw [k.count, h.count, List.length_append]
    omega
  · rw [numbered_append, keyed_append, ← start]
    exact List.rel_append h.elements k.elements
  · rw [numbered_append, keys_append, List.flatMap_append, ← start, h.keys, k.keys]
  · rw [texts_append, List.filterMap_append, h.texts, k.texts]

/-- An element around fixtures without nodes and around a drawing. -/
theorem Numbering.around {id next : Int} {n : Node} {nodes : List Node} {tag : Tag}
    {as : List Attribute} {style : Entries Written} {fixtures content : List Markup}
    (depicts : Depicts id n (.element tag as style (fixtures ++ content)))
    (key : as.filterMap Attribute.key? = [id])
    (none : keyed fixtures = [])
    (given : as.filter Attribute.isAnyKey ++ Markup.keys fixtures = keysOf (id, n))
    (shown : as.filterMap Attribute.placeholder? ++ Markup.texts fixtures = n.ownText?.toList)
    (inside : Numbering (id + 1) nodes content next) :
    Numbering id (n :: nodes) [.element tag as style (fixtures ++ content)] next := by
  have hkeys : Markup.keys [.element tag as style (fixtures ++ content)] =
      keysOf (id, n) ++ Markup.keys content := by
    unfold Markup.keys at given ⊢
    rw [piecesIn_element, List.flatMap_cons, piecesIn_append, List.flatMap_append, ← given,
      List.append_assoc]
    rfl
  have htexts : Markup.texts [.element tag as style (fixtures ++ content)] =
      n.ownText?.toList ++ Markup.texts content := by
    unfold Markup.texts at shown ⊢
    rw [piecesIn_element, List.flatMap_cons, piecesIn_append, List.flatMap_append, ← shown,
      List.append_assoc]
    rfl
  refine ⟨?_, ?_, ?_, ?_⟩
  · rw [inside.count, List.length_cons]
    omega
  · rw [keyed_element key none]
    exact .cons ⟨rfl, depicts⟩ inside.elements
  · rw [hkeys, inside.keys]
    rfl
  · rw [htexts, inside.texts, List.filterMap_cons]
    cases n.ownText? <;> rfl

/-! ## 4. Every drawing is numbered -/

/-- What the attributes and the fixtures of an element have to be so that it can be the element of a node. -/
structure Framed (id : Int) (n : Node) (as : List Attribute) (fixtures : List Markup) : Prop where
  key : as.filterMap Attribute.key? = [id]
  none : keyed fixtures = []
  given : as.filter Attribute.isAnyKey ++ Markup.keys fixtures = keysOf (id, n)
  shown : as.filterMap Attribute.placeholder? ++ Markup.texts fixtures = n.ownText?.toList

theorem drawn_hidden {fields : Members} {children : List Node} (h : hides fields = true) :
    drawn (.object fields children) = [] := by
  unfold drawn
  rw [if_pos h]

theorem drawn_of_isOpaque {fields : Members} {children : List Node} (shown : hides fields = false)
    (h : isOpaque fields = true) : drawn (.object fields children) = [.object fields children] := by
  unfold drawn
  rw [if_neg (by simp [shown]), if_pos h]

theorem drawn_container {fields : Members} {children : List Node} (shown : hides fields = false)
    (h : isOpaque fields = false) :
    drawn (.object fields children) = .object fields children :: drawnIn children := by
  unfold drawn
  rw [if_neg (by simp [shown]), if_neg (by simp [h])]

theorem drawn_inside (widget : Option Widget) (fields : Members) (origin : Point) (children : List Node) :
    (Task.inside widget fields origin children).drawn = drawnIn children := by
  unfold Task.inside
  split <;> rfl

/-- The keys of a node that is drawn without its children. -/
theorem keysOf_of_isOpaque {id : Int} {fields : Members} {children : List Node} (h : isOpaque fields = true) :
    keysOf (id, .object fields children) = [.key id] := by
  simp [keysOf, holdsControl, h]

theorem framed_image {id : Int} {fields : Members} {children : List Node} {asset : Asset} {image : Markup}
    (leaf : leafText? fields = none) (carried : Asset.ofNode? fields = some asset)
    (pictured : imageMarkup fields asset = .ok image) :
    Framed id (.object fields children) [.key id] [image] := by
  have given : keysOf (id, .object fields children) = [.key id] := keysOf_of_isOpaque (isOpaque_of_asset carried)
  cases pictures_of_imageMarkup pictured with
  | vector _ => exact ⟨rfl, rfl, given.symm, by rw [ownText?, leaf]; rfl⟩
  | raster _ => exact ⟨rfl, rfl, given.symm, by rw [ownText?, leaf]; rfl⟩

/-- The frame of a node makes an element of the node around any content. -/
theorem framed_frame {widget : Option Widget} {id : Int} {fields : Members} {children : List Node}
    {place : Placement} {style : Style} {f : Frame} {written : Entries Written}
    (leaf : leafText? fields = none) (plain : Asset.ofNode? fields = none)
    (kind : Widget.ofNode fields = .ok widget) (styled : Node.style fields place false = .ok style)
    (h : frame widget id fields children style = .ok f) (wrote : writeStyle f.style = .ok written) :
    Framed id (.object fields children) f.attributes f.fixtures ∧
      ∀ content, Depicts id (.object fields children)
        (.element f.tag f.attributes written (f.fixtures ++ content)) := by
  have structural := isOpaque_of_none leaf plain
  have silent : (ownText? (.object fields children)).toList = [] := by
    rw [ownText?, leaf]
    rfl
  have whole : ∀ looks, f.style = looks style → Styled fields false looks written :=
    fun looks same => ⟨place, style, styled, same ▸ wrote⟩
  cases frames_of_frame h with
  | button =>
    refine ⟨⟨?_, rfl, ?_, ?_⟩, fun content => .button structural kind (whole _ rfl)⟩
    · cases firstTextIn children <;> rfl
    · have given : keysOf (id, .object fields children) = [.key id] := by
        simp [keysOf, holdsControl, kind]
      rw [given]
      cases firstTextIn children <;> rfl
    · rw [silent]
      cases firstTextIn children <;> rfl
  | @emptyField looks missing _ =>
    have given : keysOf (id, .object fields children) = [.key id, .inputKey id] := by
      simp [keysOf, holdsControl, structural, kind, missing]
    refine ⟨⟨rfl, rfl, given.symm, silent.symm⟩, fun content => .textField structural kind (whole _ rfl) ?_⟩
    rw [if_pos missing]
    exact ⟨looks, rfl⟩
  | textField present =>
    have given : keysOf (id, .object fields children) = [.key id] := by
      simp [keysOf, holdsControl, kind, present]
    refine ⟨⟨rfl, rfl, given.symm, silent.symm⟩, fun content => .textField structural kind (whole _ rfl) ?_⟩
    rw [if_neg present]
  | checkbox _ =>
    have given : keysOf (id, .object fields children) = [.key id, .inputKey id] := by
      simp [keysOf, holdsControl, structural, kind]
    exact ⟨⟨rfl, rfl, given.symm, silent.symm⟩, fun content => .checkbox structural kind
      (whole (fun s => (Chrome.label.merge s).putText "cursor" "pointer") rfl)⟩
  | box other =>
    have given : keysOf (id, .object fields children) = [.key id] := by
      rcases other with rfl | rfl <;> simp [keysOf, holdsControl, kind]
    exact ⟨⟨rfl, rfl, given.symm, silent.symm⟩, fun content =>
      .box structural kind other (whole (fun s => s) rfl)⟩

/-- **Every drawing is numbered.** -/
theorem numbering_of_draws {task : Task} {p q : Progress} {ms : List Markup} (h : Draws task p ms q) :
    Numbering p.counter task.drawn ms q.counter := by
  induction h with
  | other => exact .nil _
  | hidden hh =>
    rw [Task.drawn, drawn_hidden hh]
    exact .nil _
  | @text place origin fields children content style written p q shown leaf noted styled wrote =>
    have structural := isOpaque_of_leaf leaf
    have next : q.counter = p.counter + 1 := Compile.useFont_counter noted
    rw [Task.drawn, drawn_of_isOpaque shown structural, next]
    have depicts : Depicts p.counter (.object fields children)
        (.element .span [.key p.counter] written ([.text content] ++ [])) :=
      .text leaf ⟨place, style, styled, wrote⟩
    have silent : [content] = (ownText? (.object fields children)).toList := by
      rw [ownText?, leaf]
      rfl
    exact .around depicts rfl rfl (keysOf_of_isOpaque structural).symm silent (.nil _)
  | @asset place origin fields children asset image style written p shown leaf drawn pictured styled wrote =>
    obtain ⟨key, none, given, silent⟩ := framed_image leaf drawn pictured
    rw [Task.drawn, drawn_of_isOpaque shown (isOpaque_of_asset drawn)]
    exact .around (.image leaf drawn pictured ⟨place, style, styled, wrote⟩) key none given silent (.nil _)
  | container shown leaf plain kind styled framed wrote _ ih =>
    obtain ⟨⟨key, none, given, silent⟩, depicts⟩ := framed_frame leaf plain kind styled framed wrote
    rw [drawn_inside] at ih
    rw [Task.drawn, drawn_container shown (isOpaque_of_none leaf plain)]
    exact .around (depicts _) key none given silent ih
  | rowNil => exact .nil _
  | rowCons _ _ head tail => exact head.append tail
  | fieldNil => exact .nil _
  | @fieldInput owner place n rest fields content style written others p q r text noted styled wrote _ tail =>
    obtain ⟨children, rfl, shown, leaf⟩ := visibleText?_eq_some text
    have structural := isOpaque_of_leaf leaf
    have next : q.counter = p.counter + 1 := Compile.useFont_counter noted
    have input : Numbering p.counter (drawn (.object fields children))
        [.element .input [.key p.counter, .control .text, .placeholder content] written []] q.counter := by
      rw [drawn_of_isOpaque shown structural, next]
      have depicts : Depicts p.counter (.object fields children)
          (.element .input [.key p.counter, .control .text, .placeholder content] written ([] ++ [])) :=
        .placeholder leaf styled wrote
      have silent : [content] = (ownText? (.object fields children)).toList := by
        rw [ownText?, leaf]
        rfl
      exact .around depicts rfl rfl (keysOf_of_isOpaque structural).symm silent (.nil _)
    exact input.append tail
  | fieldChild _ _ _ _ head tail => exact head.append tail

/-- The elements with numbers stand for the nodes that are drawn, in order. -/
theorem depicts_of_numbered {first : Int} {nodes : List Node} {elements : List (Int × Markup)}
    (h : List.Forall₂ (fun n e => e.1 = n.1 ∧ Depicts n.1 n.2 e.2) (numbered first nodes) elements) :
    List.Forall₂ (fun n e => Depicts e.1 n e.2) nodes elements := by
  induction nodes generalizing first elements with
  | nil =>
    cases h
    exact .nil
  | cons n rest ih =>
    unfold numbered at h
    cases h with
    | cons head tail =>
      obtain ⟨same, depicts⟩ := head
      dsimp only at same depicts
      rw [← same] at depicts
      exact .cons depicts (ih tail)

/-- Roots are numbered one after another. -/
theorem numbering_of_rootMarkups {roots : List Node} {p q : Progress} {ms : List Markup}
    (h : (rootMarkups roots).runFrom p = (.ok ms, q)) : Numbering p.counter (drawnIn roots) ms q.counter := by
  replace h := drawsRoots_of_rootMarkups h
  induction h with
  | nil => exact .nil _
  | cons _ head _ ih => exact (numbering_of_draws head).append ih

end Node

/-! ## 5. The lines of keys -/

namespace Markup

/-- The key that a line gives: what it says behind its indent, where that starts with one. -/
def keyLine? (line : String) : Option String :=
  let said := line.toList.dropWhile (· == ' ')
  if "key=".toList.isPrefixOf said then some (String.ofList said) else none

theorem keyLine?_pad {pad : String} (h : IsPad pad) (line : String) : keyLine? (pad ++ line) = keyLine? line := by
  obtain ⟨n, hn⟩ := h
  unfold keyLine?
  rw [String.toList_append, hn, List.dropWhile_append_of_pos (by simp)]

/-- A line that starts with another character gives no key. -/
theorem keyLine?_other {line : String} {c : Char} {rest : List Char} (h : line.toList = c :: rest)
    (blank : c ≠ ' ') (hk : c ≠ 'k') : keyLine? line = none := by
  have said : line.toList.dropWhile (· == ' ') = c :: rest := by
    rw [h, List.dropWhile_cons_of_neg (by simpa using blank)]
  have word : "key=".toList.isPrefixOf (c :: rest) = false := by
    simp [List.isPrefixOf, Ne.symm hk]
  unfold keyLine?
  dsimp only
  rw [said, word, if_neg Bool.false_ne_true]

theorem keyLine?_key {line : String} {rest : List Char} (h : line.toList = 'k' :: 'e' :: 'y' :: '=' :: rest) :
    keyLine? line = some line := by
  have said : line.toList.dropWhile (· == ' ') = line.toList := by
    rw [h]
    rfl
  have word : "key=".toList.isPrefixOf line.toList = true := by
    rw [h]
    simp [List.isPrefixOf]
  unfold keyLine?
  dsimp only
  rw [said, if_pos word, String.ofList_toList]

/-- An attribute gives a key if it is one. -/
theorem keyLine?_attribute (a : Attribute) : keyLine? a.text = if a.isAnyKey then some a.text else none := by
  have named (name value : String) : (name ++ "=" ++ value).toList = name.toList ++ '=' :: value.toList := by
    simp
  cases a with
  | key _ | inputKey _ => exact keyLine?_key (named "key" _)
  | control _ => exact keyLine?_other (named "type" _) (by decide) (by decide)
  | label _ => exact keyLine?_other (named "aria-label" _) (by decide) (by decide)
  | placeholder _ => exact keyLine?_other (named "placeholder" _) (by decide) (by decide)
  | source _ => exact keyLine?_other (named "src" _) (by decide) (by decide)
  | description _ => exact keyLine?_other (named "alt" _) (by decide) (by decide)
  | innerHtml _ => exact keyLine?_other (named "dangerouslySetInnerHTML" _) (by decide) (by decide)

/-- No property of a style looks like a key. -/
theorem keyLine?_property {name : String} (h : name ∈ Style.properties) (said : String) :
    keyLine? (name ++ said) = none := by
  have all : ∀ n ∈ Style.properties, (n.toList.head?.any fun c => c != ' ' && c != 'k') = true := by decide
  have hn := all name h
  cases hl : name.toList with
  | nil => simp [hl] at hn
  | cons c rest =>
    obtain ⟨blank, hk⟩ : c ≠ ' ' ∧ c ≠ 'k' := by simpa [hl] using hn
    have whole : (name ++ said).toList = c :: (rest ++ said.toList) := by
      rw [String.toList_append, hl]
      rfl
    exact keyLine?_other whole blank hk

/-- A style gives no keys. -/
theorem keyLines_style {pad : String} (hp : IsPad pad) {style : Entries Written} (h : LegibleStyle style) :
    (styleLines pad style).filterMap keyLine? = [] := by
  rw [List.filterMap_eq_nil_iff]
  intro line hl
  unfold styleLines at hl
  split at hl
  · exact absurd hl List.not_mem_nil
  · rcases List.mem_append.mp hl with hl | hl
    · rcases List.mem_cons.mp hl with rfl | hl
      · rw [keyLine?_pad hp]
        exact keyLine?_other rfl (by decide) (by decide)
      · obtain ⟨e, he, rfl⟩ := List.mem_map.mp hl
        have parts : pad ++ step ++ e.1 ++ ": " ++ e.2.text ++ "," =
            (pad ++ step) ++ (e.1 ++ (": " ++ e.2.text ++ ",")) := by
          simp [String.append_assoc]
        rw [parts, keyLine?_pad hp.step]
        exact keyLine?_property (h e he).1 _
    · rw [List.mem_singleton.mp hl, keyLine?_pad hp]
      exact keyLine?_other rfl (by decide) (by decide)

/-- The lines of attributes give the keys among them. -/
theorem keyLines_attributes {pad : String} (hp : IsPad pad) (as : List Attribute) :
    (as.map fun a => pad ++ a.text).filterMap keyLine? = (as.filter Attribute.isAnyKey).map Attribute.text := by
  induction as with
  | nil => rfl
  | cons a rest ih =>
    rw [List.map_cons, List.filterMap_cons, keyLine?_pad hp, keyLine?_attribute, List.filter_cons, ih]
    cases a.isAnyKey <;> rfl

theorem keys_element (tag : Tag) (as : List Attribute) (style : Entries Written) (children : List Markup) :
    keys [element tag as style children] = as.filter Attribute.isAnyKey ++ keys children := by
  unfold keys
  rw [piecesIn_element, List.flatMap_cons]
  rfl

/-- A bracket at the start of a line gives no key, at any level. -/
theorem keyLine?_bracket (level : Int) {line : String} {c : Char} {rest : List Char} (h : line.toList = c :: rest)
    (blank : c ≠ ' ') (hk : c ≠ 'k') : keyLine? (indent level ++ line) = none := by
  rw [keyLine?_pad (isPad_indent level)]
  exact keyLine?_other h blank hk

/-- The lines that open an element give the keys among its attributes. -/
theorem keyLines_openingLines (level : Int) (tag : Tag) (as : List Attribute) {style : Entries Written}
    (h : LegibleStyle style) : (openingLines (indent level) tag as style).filterMap keyLine? =
      (as.filter Attribute.isAnyKey).map Attribute.text := by
  have start : keyLine? (indent level ++ "<" ++ tag.name) = none := by
    rw [String.append_assoc]
    exact keyLine?_bracket level (String.toList_append ..) (by decide) (by decide)
  have pad := (isPad_indent level).step
  unfold openingLines
  rw [List.cons_append, List.filterMap_cons, start]
  dsimp only
  rw [List.filterMap_append, keyLines_attributes pad, keyLines_style pad h, List.append_nil]

/-- The lines of children give the keys of all of them if those of each do. -/
theorem keyLines_childLines (level : Int) {ms : List Markup}
    (h : ∀ m ∈ ms, ∀ level, (m.lines level).filterMap keyLine? = (keys [m]).map Attribute.text) :
    (childLines level ms).filterMap keyLine? = (keys ms).map Attribute.text := by
  induction ms with
  | nil => rfl
  | cons m rest ih =>
    obtain ⟨first, others⟩ := List.forall_mem_cons.mp h
    have split : keys (m :: rest) = keys [m] ++ keys rest := keys_append [m] rest
    unfold childLines
    rw [List.filterMap_append, first, split, List.map_append, ih others]

/-- **The lines of markup that start with a key are those of its keys**, at every level. -/
theorem keyLines_lines {m : Markup} (h : m.Legible) (level : Int) :
    (m.lines level).filterMap keyLine? = (keys [m]).map Attribute.text := by
  induction h generalizing level with
  | @text s =>
    have line : keyLine? (indent level ++ "\x7b" ++ Script.quoted s ++ "\x7d") = none := by
      rw [String.append_assoc, String.append_assoc]
      exact keyLine?_bracket level (String.toList_append ..) (by decide) (by decide)
    unfold lines
    rw [List.filterMap_cons, line]
    rfl
  | @element tag as style children named styled inside ih =>
    unfold lines
    dsimp only
    rw [List.filterMap_append, keyLines_openingLines level tag as styled, keys_element, List.map_append]
    congr 1
    cases children with
    | nil =>
      have close : keyLine? (indent level ++ "/>") = none := keyLine?_bracket level rfl (by decide) (by decide)
      simp [close, keys, piecesIn]
    | cons c others =>
      have greater : keyLine? (indent level ++ ">") = none := keyLine?_bracket level rfl (by decide) (by decide)
      have close : keyLine? (indent level ++ "</" ++ tag.name ++ ">") = none := by
        rw [String.append_assoc, String.append_assoc]
        exact keyLine?_bracket level (String.toList_append ..) (by decide) (by decide)
      rw [if_neg (by simp), List.cons_append, List.filterMap_cons, greater]
      dsimp only
      rw [List.filterMap_append, keyLines_childLines level ih, List.filterMap_cons, close]
      simp

end Markup

/-- **The numbers of a drawing.**  A run on a node that comes to an end has given one number to each node
that is drawn, in order; the elements with these numbers stand for the nodes, each text shows once, and the
lines that start with a key, at any level, are those of the nodes and of their controls. -/
theorem Node.numbering_markup {place : Placement} {origin : Point} {n : Node} {start done : Progress}
    {drawn : Option Markup} (h : (markup place origin n).runFrom start = (.ok drawn, done)) :
    Numbering start.counter n.drawn drawn.toList done.counter ∧
      ∀ level, (drawn.toList.flatMap (Markup.lines level)).filterMap Markup.keyLine? =
        ((numbered start.counter n.drawn).flatMap keysOf).map Attribute.text := by
  have draws := draws_of_markup n h
  have numbering := numbering_of_draws draws
  refine ⟨numbering, fun level => ?_⟩
  have keys := numbering.keys
  cases drawn with
  | none =>
    rw [Task.drawn] at keys
    rw [← keys]
    rfl
  | some m =>
    have legible := legible_of_draws draws m List.mem_cons_self
    rw [Task.drawn] at keys
    rw [← keys]
    simpa using Markup.keyLines_lines legible level

/-- A text field of a check box and a text: three nodes, and the check box has a control. -/
theorem Node.numbering_textField : ∃ drawn done,
    (markup .root Point.zero (.object [("name", .text "Search")]
      [.object [("name", .text "tick")] [], .object [("visible", .bool false)] [],
        .object [("type", .text "TEXT"), ("textContent", .text "a key=")] []])).runFrom {} =
      (.ok (some drawn), done) ∧ done.counter = 3 ∧
    (drawn.lines 2).filterMap Markup.keyLine? =
      ["key=\"node_0\"", "key=\"node_1\"", "key=\"node_1_input\"", "key=\"node_2\""] := by
  generalize hn : Node.object [("name", .text "Search")] _ = n
  have nodes : n.drawn.length = 3 := by
    rw [← hn]
    decide +kernel
  have lines : ((numbered 0 n.drawn).flatMap keysOf).map Attribute.text =
      ["key=\"node_0\"", "key=\"node_1\"", "key=\"node_1_input\"", "key=\"node_2\""] := by
    rw [← hn]
    decide +kernel
  have ends : ((markup .root Point.zero n).runFrom {}).1.toOption.join.isSome = true := by
    rw [← hn]
    decide +kernel
  obtain ⟨m, done, run⟩ := Compile.exists_ok ends
  obtain ⟨numbering, keys⟩ := numbering_markup run
  have three := numbering.count
  rw [nodes] at three
  have given := keys 2
  rw [lines] at given
  exact ⟨m, done, run, three, by simpa using given⟩

end Artboard
