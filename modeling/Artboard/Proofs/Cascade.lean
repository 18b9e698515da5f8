import Artboard.Proofs.Numbering
import Artboard.Proofs.Style.Shorthand

/-!
# Which property wins

The element of a widget has a reset besides the style of its node, and of two properties that set the same thing the
later one wins.  No element that is drawn has a shorthand behind one of its longhands (`Style.Ordered`), and every
element has all that the style of its node says, by its own value (`Node.Keeps`): so a reset never wins over the
design.  Only the input that shows a text of a text field gives up some of it: how its lines break, its width in a
flow, and elsewhere its width for a greater one.

What the style of a node says depends on the place that the node is drawn at, so nodes are listed with their places
(`Node.placed`).  `Node.cascade_markup` is the main result, over every drawing that comes to an end.
-/

namespace Artboard

/-! ## 1. Nodes with their places -/

namespace Node

mutual

/-- What is drawn of a node (`Node.drawn`), each node with the place that it is drawn at. -/
def placed (place : Placement) (origin : Point) : Node → List (Placement × Node)
  | other _ => []
  | object fields children =>
    if hides fields then []
    else if isOpaque fields then [(place, object fields children)]
    else (place, object fields children) :: placedIn (Placement.within fields origin) children

/-- What is drawn of several nodes, each node with its place. -/
def placedIn (place : Placement) : List Node → List (Placement × Node)
  | [] => []
  | n :: rest => placed place Point.zero n ++ placedIn place rest

end

mutual

theorem map_placed (place : Placement) (origin : Point) : ∀ n : Node,
    (placed place origin n).map Prod.snd = n.drawn
  | .other _ => rfl
  | .object fields children => by
      unfold placed drawn
      split
      · rfl
      · split
        · rfl
        · rw [List.map_cons, map_placedIn (Placement.within fields origin) children]

theorem map_placedIn (place : Placement) : ∀ nodes : List Node,
    (placedIn place nodes).map Prod.snd = drawnIn nodes
  | [] => rfl
  | n :: rest => by
      rw [placedIn, drawnIn, List.map_append, map_placed place Point.zero n, map_placedIn place rest]

end

theorem placed_hidden {place : Placement} {origin : Point} {fields : Members} {children : List Node}
    (h : hides fields = true) : placed place origin (.object fields children) = [] := by
  unfold placed
  rw [if_pos h]

/-- What is drawn by a task, each node with its place. -/
def Task.placed : Task → List (Placement × Node)
  | .one place origin n => Node.placed place origin n
  | .row place nodes => placedIn place nodes
  | .field _ place _ nodes => placedIn place nodes

theorem Task.placed_inside (widget : Option Widget) (fields : Members) (origin : Point) (children : List Node) :
    (Task.inside widget fields origin children).placed =
      placedIn (Placement.within fields origin) children := by
  unfold Task.inside
  split <;> rfl

end Node

/-! ## 2. What an element keeps of the design -/

/-- The style of an element; a text has none. -/
def Markup.style : Markup → Entries Written
  | text _ => []
  | element _ _ style _ => style

/-- **A written style shows a style**: it has each of its properties by its own value, some of them aside. -/
def Style.ShownBy (style : Style) (aside : List String) (written : Entries Written) : Prop :=
  ∀ name ∉ aside, ∀ v, Entries.get? style name = some v →
    ∃ w, v.write = .ok w ∧ Entries.get? written name = some w

namespace Node

/-- A node is drawn from an image of itself. -/
def isPictured (fields : Members) : Bool := (leafText? fields).isNone && (Asset.ofNode? fields).isSome

/-- What the input of a text field gives up of the style of its text: in a flow it takes the space that is left,
elsewhere its width goes if it is widened. -/
def givenUp (place : Placement) (widened : Bool) : List String :=
  if place.isFlow then ["whiteSpace", "width", "flexShrink"]
  else if widened then ["whiteSpace", "width"]
  else ["whiteSpace"]

/-- A written style has a width, and one above that of the node. -/
def IsWider (fields : Members) (written : Entries Written) : Prop :=
  ∃ width text, ((fields.get "width").numberOr (.int 0)).lt width = true ∧ width.px = .ok text ∧
    Entries.get? written "width" = some (.quoted text)

/-- **The element keeps the style of its node**, all of it unless it is the input of a text field. -/
inductive Keeps : Placement × Node → Markup → Prop where
  | element {place fields children style tag as written content} (other : tag ≠ .input)
      (styled : Node.style fields place (isPictured fields) = .ok style) (shown : style.ShownBy [] written) :
      Keeps (place, .object fields children) (.element tag as written content)
  | input {place fields children style as written widened}
      (styled : Node.style fields place (isPictured fields) = .ok style)
      (shown : style.ShownBy (givenUp place widened) written) (wider : widened = true → IsWider fields written) :
      Keeps (place, .object fields children) (.element .input as written [])

end Node

/-! ## 3. Styles that are merged over a reset -/

namespace Style

variable {style more : Style} {aside : List String} {written : Entries Written}

/-- What a style says is shown by any style that says it too. -/
theorem shownBy_of_get? (wrote : writeStyle more = .ok written)
    (same : ∀ name ∉ aside, ∀ v, Entries.get? style name = some v → Entries.get? more name = some v) :
    style.ShownBy aside written := by
  intro name kept v given
  have there := get?_writeStyle name wrote
  rw [same name kept v given] at there
  exact there

/-- A style goes over a reset. -/
theorem get?_over_reset {reset : Style} {name : String} {v : StyleValue} (once : (Entries.names style).Nodup)
    (given : Entries.get? style name = some v) : Entries.get? (Entries.merge reset style) name = some v := by
  rw [Entries.get?_merge_of_nodup once, given]
  rfl

end Style

namespace Node

open Markup Style

variable {fields : Members} {place : Placement} {style : Style} {written : Entries Written}

/-- No frame is an input. -/
theorem tag_frame {widget : Option Widget} {id : Int} {children : List Node} {f : Frame}
    (framed : frame widget id fields children style = .ok f) : f.tag ≠ .input := by
  cases frames_of_frame framed with
  | button => exact nofun
  | emptyField _ _ => exact nofun
  | textField _ => exact nofun
  | checkbox _ => exact nofun
  | box _ => cases isText fields <;> exact nofun

/-- The frame of a node shows the style of the node. -/
theorem shownBy_frame {widget : Option Widget} {id : Int} {children : List Node} {f : Frame}
    (styled : Node.style fields place false = .ok style)
    (framed : frame widget id fields children style = .ok f) (wrote : writeStyle f.style = .ok written) :
    style.ShownBy [] written := by
  refine shownBy_of_get? wrote fun name _ v given => ?_
  have once := nodup_style styled
  cases frames_of_frame framed with
  | button => exact get?_over_reset once given
  | emptyField _ _ => exact get?_over_reset once given
  | textField _ => exact get?_over_reset once given
  | checkbox _ =>
    have known : "cursor" ∉ nodeProperties := by decide
    have other : "cursor" ≠ name := by
      rintro rfl
      rw [(within_style styled).get?_eq_none known] at given
      cases given
    exact (Entries.get?_put_of_ne other).trans (get?_over_reset once given)
  | box _ => exact given

/-- The input of a text field shows the style of its text, but for what it gives up. -/
theorem shownBy_input {owner : Members} (h : inputStyle owner fields place = .ok style)
    (wrote : writeStyle (Chrome.input.merge style) = .ok written) :
    ∃ own widened, Node.style fields place false = .ok own ∧ own.ShownBy (givenUp place widened) written ∧
      (widened = true → IsWider fields written) := by
  obtain ⟨own, styled, cases⟩ := inputStyle_cases h
  have shows {aside : List String} (same : ∀ name ∉ aside, ∀ v, Entries.get? own name = some v →
      Entries.get? style name = some v) : own.ShownBy aside written :=
    shownBy_of_get? wrote fun name kept v given => get?_over_reset (nodup_inputStyle h) (same name kept v given)
  unfold givenUp
  rcases cases with ⟨flows, rfl⟩ | ⟨stands, left, available, -, -, ⟨less, text, spelt, rfl⟩ | ⟨-, rfl⟩⟩
  · refine ⟨own, false, styled, ?_, nofun⟩
    rw [if_pos flows]
    refine shows fun name kept v given => ?_
    obtain ⟨lines, width, shrink⟩ : "whiteSpace" ≠ name ∧ "width" ≠ name ∧ "flexShrink" ≠ name := by
      simpa [eq_comm] using kept
    -- what the input has besides is in no style of a node
    have added : ∀ n ∈ nodeProperties, "flex" ≠ n ∧ "minWidth" ≠ n := by decide
    obtain ⟨flex, minWidth⟩ := added name
      (within_style styled name (Entries.mem_names_iff.mpr (by rw [given]; rfl)))
    rw [Entries.get?_put_of_ne minWidth, Entries.get?_put_of_ne flex, Entries.get?_erase_of_ne shrink,
      Entries.get?_erase_of_ne width, Entries.get?_erase_of_ne lines, given]
  · have wide : Entries.get? (Entries.putText (Entries.erase own "whiteSpace") "width" text) "width" =
        some (.text text) := (Entries.get?_put ..).trans (if_pos rfl)
    refine ⟨own, true, styled, ?_, fun _ => ⟨available, text, less, spelt, ?_⟩⟩
    · rw [stands, if_neg Bool.false_ne_true, if_pos rfl]
      refine shows fun name kept v given => ?_
      obtain ⟨lines, width⟩ : "whiteSpace" ≠ name ∧ "width" ≠ name := by simpa [eq_comm] using kept
      exact (Entries.get?_put_of_ne width).trans ((Entries.get?_erase_of_ne lines).trans given)
    · exact get?_writeStyle_some wrote (get?_over_reset (nodup_inputStyle h) wide) rfl
  · refine ⟨own, false, styled, ?_, nofun⟩
    rw [stands, if_neg Bool.false_ne_true, if_neg Bool.false_ne_true]
    refine shows fun name kept v given => ?_
    have lines : "whiteSpace" ≠ name := by simpa [eq_comm] using kept
    exact (Entries.get?_erase_of_ne lines).trans given

/-! ## 4. Every drawing -/

/-- Written styles are ordered, of markup and of all below it. -/
abbrev AllOrdered (ms : List Markup) : Prop := ∀ e ∈ piecesIn ms, Ordered (Entries.names e.style)

theorem ordered_text (s : String) : AllOrdered [.text s] := by
  intro e he
  rw [List.mem_singleton.mp he]
  show Ordered []
  decide

theorem AllOrdered.append {ms more : List Markup} (h : AllOrdered ms) (k : AllOrdered more) :
    AllOrdered (ms ++ more) := by
  intro e he
  rw [piecesIn_append] at he
  exact (List.mem_append.mp he).elim (h e) (k e)

/-- An element whose style is ordered, around markup whose styles are. -/
theorem allOrdered_element {tag : Tag} {as : List Attribute} {content : List Markup}
    (ordered : Ordered (Entries.names style)) (wrote : writeStyle style = .ok written)
    (inside : AllOrdered content) : AllOrdered [.element tag as written content] := by
  intro e he
  rw [piecesIn_element] at he
  rcases List.mem_cons.mp he with rfl | he
  · show Ordered (Entries.names written)
    rwa [names_writeStyle wrote]
  · exact inside e he

theorem allOrdered_nil : AllOrdered [] := fun _ he => absurd he List.not_mem_nil

theorem allOrdered_image {asset : Asset} {image : Markup} (h : imageMarkup fields asset = .ok image) :
    AllOrdered [image] := by
  cases pictures_of_imageMarkup h with
  | vector wrote => exact allOrdered_element (by decide) wrote allOrdered_nil
  | raster wrote => exact allOrdered_element (by decide) wrote allOrdered_nil

theorem allOrdered_fixtures {widget : Option Widget} {id : Int} {children : List Node} {f : Frame}
    (h : frame widget id fields children style = .ok f) : AllOrdered f.fixtures := by
  cases frames_of_frame h with
  | button => exact allOrdered_nil
  | emptyField _ wrote => exact allOrdered_element (by decide) wrote allOrdered_nil
  | textField _ => exact allOrdered_nil
  | checkbox wrote => exact allOrdered_element (by decide) wrote allOrdered_nil
  | box _ => exact allOrdered_nil

/-- **No drawing has a shorthand behind one of its longhands.** -/
theorem ordered_of_draws {task : Task} {p q : Progress} {ms : List Markup} (h : Draws task p ms q) :
    AllOrdered ms := by
  induction h with
  | other => exact allOrdered_nil
  | hidden _ => exact allOrdered_nil
  | text _ _ _ styled wrote =>
    exact allOrdered_element (apart_style styled).ordered wrote (ordered_text _)
  | asset _ _ _ pictured styled wrote =>
    exact allOrdered_element (apart_style styled).ordered wrote (allOrdered_image pictured)
  | container _ _ _ _ styled framed wrote _ inside =>
    exact allOrdered_element (ordered_frame styled framed) wrote ((allOrdered_fixtures framed).append inside)
  | rowNil => exact allOrdered_nil
  | rowCons _ _ head tail => exact head.append tail
  | fieldNil => exact allOrdered_nil
  | fieldInput _ _ styled wrote _ tail =>
    exact (allOrdered_element (ordered_input styled) wrote allOrdered_nil).append tail
  | fieldChild _ _ _ _ head tail => exact head.append tail

/-- The elements keep the styles of the nodes, one by one. -/
abbrev AllKept (nodes : List (Placement × Node)) (ms : List Markup) : Prop :=
  List.Forall₂ (fun n e => Keeps n e.2) nodes (keyed ms)

theorem AllKept.append {nodes more : List (Placement × Node)} {ms others : List Markup} (h : AllKept nodes ms)
    (k : AllKept more others) : AllKept (nodes ++ more) (ms ++ others) :=
  forall₂_keyed_append h k

section

variable {origin : Point} {children : List Node} {id : Int} {tag : Tag} {as : List Attribute}
  {fixtures content : List Markup}

/-- The element of a node that is drawn without its children. -/
theorem allKept_leaf (shown : hides fields = false) (whole : isOpaque fields = true)
    (key : as.filterMap Attribute.key? = [id]) (none : keyed fixtures = [])
    (keeps : Keeps (place, .object fields children) (.element tag as written fixtures)) :
    AllKept (placed place origin (.object fields children)) [.element tag as written fixtures] := by
  unfold placed
  rw [if_neg (by simp [shown]), if_pos whole]
  exact forall₂_keyed_leaf key none keeps

/-- The element of a node around what is drawn inside it. -/
theorem allKept_container (shown : hides fields = false) (plain : isOpaque fields = false)
    (key : as.filterMap Attribute.key? = [id]) (none : keyed fixtures = [])
    (keeps : Keeps (place, .object fields children) (.element tag as written (fixtures ++ content)))
    (inside : AllKept (placedIn (Placement.within fields origin) children) content) :
    AllKept (placed place origin (.object fields children)) [.element tag as written (fixtures ++ content)] := by
  unfold placed
  rw [if_neg (by simp [shown]), if_neg (by simp [plain])]
  exact forall₂_keyed_element key none keeps inside

end

/-- **Every drawing keeps the styles of its nodes.** -/
theorem kept_of_draws {task : Task} {p q : Progress} {ms : List Markup} (h : Draws task p ms q) :
    AllKept task.placed ms := by
  have own {s : Style} {w : Entries Written} (wrote : writeStyle s = .ok w) : s.ShownBy [] w :=
    shownBy_of_get? wrote fun _ _ _ given => given
  induction h with
  | other => exact .nil
  | hidden hidden =>
    rw [Task.placed, placed_hidden hidden]
    exact .nil
  | @text _ _ fields children content style written p q shown leaf _ styled wrote =>
    have spoken : isPictured fields = false := by simp [isPictured, leaf]
    exact allKept_leaf shown (isOpaque_of_leaf leaf) rfl rfl
      (.element (by decide) (spoken.symm ▸ styled) (own wrote))
  | @asset _ _ fields children asset image style written p shown leaf carried pictured styled wrote =>
    have drawn : isPictured fields = true := by simp [isPictured, leaf, carried]
    have framed : Framed p.counter (.object fields children) [.key p.counter] [image] :=
      framed_image leaf carried pictured
    exact allKept_leaf shown (isOpaque_of_asset carried) framed.key framed.none
      (.element (by decide) (drawn.symm ▸ styled) (own wrote))
  | @container _ _ fields children widget style f written content p q shown leaf plain kind styled framed
      wrote _ inside =>
    have built : isPictured fields = false := by simp [isPictured, plain]
    obtain ⟨⟨key, none, -, -⟩, -⟩ := framed_frame leaf plain kind styled framed wrote
    rw [Task.placed_inside] at inside
    exact allKept_container shown (isOpaque_of_none leaf plain) key none
      (.element (tag_frame framed) (built.symm ▸ styled) (shownBy_frame styled framed wrote)) inside
  | rowNil => exact .nil
  | rowCons _ _ head tail => exact head.append tail
  | fieldNil => exact .nil
  | @fieldInput owner place n rest fields content style written others p q r text _ styled wrote _ tail =>
    obtain ⟨children, rfl, shown, leaf⟩ := visibleText?_eq_some text
    obtain ⟨own, widened, given, kept, wider⟩ := shownBy_input styled wrote
    have spoken : isPictured fields = false := by simp [isPictured, leaf]
    have input : AllKept (placed place Point.zero (.object fields children))
        [.element .input [.key p.counter, .control .text, .placeholder content] written []] :=
      allKept_leaf shown (isOpaque_of_leaf leaf) rfl rfl (.input (spoken.symm ▸ given) kept wider)
    exact input.append tail
  | fieldChild _ _ _ _ head tail => exact head.append tail

/-- **Which property wins.**  In the markup of a node no shorthand comes behind one of its longhands, and no element
that takes the space that is left says how it shrinks.  The elements with numbers stand for the nodes that are drawn,
in order, and each has all that the style of its node says at its place, by its own value, whatever reset its widget
has. -/
theorem cascade_markup {origin : Point} {n : Node} {start done : Progress} {drawn : Option Markup}
    (h : (markup place origin n).runFrom start = (.ok drawn, done)) :
    (∀ e ∈ piecesIn drawn.toList, Ordered (Entries.names e.style)) ∧
      List.Forall₂ (fun n e => Depicts e.1 n.2 e.2 ∧ Keeps n e.2) (placed place origin n)
        (keyed drawn.toList) := by
  have draws := draws_of_markup n h
  have depicts := depicts_of_numbered (numbering_of_draws draws).elements
  rw [Task.drawn, ← map_placed place origin, List.forall₂_map_left_iff] at depicts
  have kept := kept_of_draws draws
  rw [AllKept, List.forall₂_iff_zip] at kept
  rw [List.forall₂_iff_zip] at depicts
  refine ⟨ordered_of_draws draws, List.forall₂_iff_zip.mpr ⟨depicts.1, fun pair => ?_⟩⟩
  exact ⟨depicts.2 pair, kept.2 pair⟩

/-- A button with a space, a fill and a border of its own, and a text field whose text is in its flow. -/
def toolbar : Node :=
  .object [("layoutMode", .text "HORIZONTAL")] [
    .object [("name", .text "Send button"), ("type", .text "FRAME"), ("layoutMode", .text "VERTICAL"),
      ("paddingTop", .number (.int 4)),
      ("fills", .list [.object [("type", .text "SOLID"), ("color", .object [("g", .number (.int 1))])]]),
      ("strokes", .list [.object [("type", .text "SOLID"), ("color", .object [("r", .number (.int 1))])]])] [],
    .object [("name", .text "Search"), ("layoutMode", .text "HORIZONTAL")] [
      .object [("type", .text "TEXT"), ("textContent", .text "Find"), ("fontSize", .number (.int 12))] []]]

/-- The properties of its elements. -/
def toolbarNames : List (Int × List String) :=
  [(0, ["width", "height", "position", "display", "flexDirection", "boxSizing"]),
    (1, ["padding", "margin", "border", "background", "font", "cursor", "width", "height", "position", "flexShrink",
      "backgroundColor", "borderWidth", "borderStyle", "borderColor", "boxSizing", "display", "flexDirection",
      "paddingTop"]),
    (2, ["display", "margin", "width", "height", "position", "flexShrink", "flexDirection", "boxSizing"]),
    (3, ["padding", "margin", "border", "outline", "background", "height", "position", "fontSize", "fontWeight",
      "textAlign", "lineHeight", "flex", "minWidth"])]

theorem cascade_markup_toolbar : ∃ m done,
    (markup .root Point.zero toolbar).runFrom {} = (.ok (some m), done) ∧
      (keyed [m]).map (fun e => (e.1, Entries.names e.2.style)) = toolbarNames ∧
      (∀ e ∈ piecesIn [m], Ordered (Entries.names e.style)) ∧
      List.Forall₂ (fun n e => Depicts e.1 n.2 e.2 ∧ Keeps n e.2) (placed .root Point.zero toolbar)
        (keyed [m]) := by
  have computed : ((markup .root Point.zero toolbar).runFrom {}).1.toOption.join.map (fun m =>
      (keyed [m]).map fun e => (e.1, Entries.names e.2.style)) = some toolbarNames := by decide +kernel
  obtain ⟨m, done, run, names⟩ := Compile.exists_ok_of_map computed
  exact ⟨m, done, run, names, cascade_markup run⟩

end Node

end Artboard
