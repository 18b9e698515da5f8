import Artboard.Proofs.Style.Font
import Artboard.Proofs.Style.Position

/-!
# What the style of a node holds together

A style is put together from parts that know nothing of each other, and a flow takes some of it away again.  This
file says which properties are there in the end, and which of them only together (`Style.Lawful`): the box comes
first, an absolute node and no other has a place, a border comes with all its properties, there is one background at
most, and what is about text stands in the styles of texts alone.  No field of a node, however malformed, breaks one
of these laws (`Node.lawful_style`).

Each part has names of its own, so that a property is in the style exactly if it is in its part
(`Node.mem_ownStyle`), and a flow takes nothing away but a place (`Node.mem_style`).
-/

namespace Artboard

/-- At a place of its own. -/
def Placement.isAbsolute : Placement → Bool
  | absolute _ _ => true
  | _ => false

/-- The node is at a place of its own and its children do not flow. -/
def Node.stands (fields : Members) (place : Placement) : Bool := place.isAbsolute && !isAutoLayout fields

/-- **The laws of the style of a node**, for its fields, its place and whether it is drawn from an image of itself. -/
structure Style.Lawful (fields : Members) (place : Placement) (drawn : Bool) (style : Style) : Prop where
  /-- no property is there twice -/
  once : (Entries.names style).Nodup
  /-- the box is first, and then how it is placed -/
  start : ["width", "height", "position"] <+: Entries.names style
  absolute : Entries.get? style "position" = some (.text "absolute") ↔ Node.stands fields place = true
  sides : "left" ∈ Entries.names style ∧ "top" ∈ Entries.names style ↔ Node.stands fields place = true
  relative : Node.stands fields place = false → Entries.get? style "position" = some (.text "relative") ∧
    "left" ∉ Entries.names style ∧ "top" ∉ Entries.names style
  shrink : "flexShrink" ∈ Entries.names style ↔ place.isFlow = true
  display : "display" ∈ Entries.names style ↔ Node.isAutoLayout fields = true
  flow : "display" ∈ Entries.names style →
    "flexDirection" ∈ Entries.names style ∧ "boxSizing" ∈ Entries.names style
  /-- one background at most -/
  background : ¬("background" ∈ Entries.names style ∧ "backgroundColor" ∈ Entries.names style)
  bare : (Node.isText fields || drawn) = true →
    "background" ∉ Entries.names style ∧ "backgroundColor" ∉ Entries.names style
  /-- a border with all its properties, or none of them -/
  border : ("borderWidth" ∈ Entries.names style ∧ "borderStyle" ∈ Entries.names style ∧
      "borderColor" ∈ Entries.names style ∧ "boxSizing" ∈ Entries.names style) ∨
    ("borderWidth" ∉ Entries.names style ∧ "borderStyle" ∉ Entries.names style ∧
      "borderColor" ∉ Entries.names style)
  rotation : "transform" ∈ Entries.names style ↔ "transformOrigin" ∈ Entries.names style
  weight : "fontWeight" ∈ Entries.names style ↔ Node.isText fields = true
  align : "textAlign" ∈ Entries.names style ↔ Node.isText fields = true
  lines : "whiteSpace" ∈ Entries.names style ↔ Node.isText fields = true

/-! ## 1. The names of the parts -/

variable {fields : Members} {place : Placement} {drawn : Bool} {style : Style} {n : String}

/-- A style does not have what it cannot have. -/
theorem Style.Within.not_mem {allowed : List String} (within : Within allowed style) (apart : n ∉ allowed) :
    n ∉ Entries.names style :=
  fun there => apart (within n there)

/-- A text property is put into a style where there is one. -/
theorem mem_names_putText? {name : String} {text : Option String} :
    n ∈ Entries.names (Entries.putText? style name text) ↔
      n = name ∧ text.isSome = true ∨ n ∈ Entries.names style := by
  cases text with
  | none => simp [Entries.putText?]
  | some text =>
    show n ∈ Entries.names (Entries.put style name (.text text)) ↔ _
    rw [Entries.mem_names_put]
    simp

theorem prefix_names_putText? (style : Style) (name : String) (text : Option String) :
    Entries.names style <+: Entries.names (Entries.putText? style name text) := by
  cases text with
  | none => exact List.prefix_rfl
  | some text => exact Entries.prefix_names_put style name _

/-- The properties of a place besides its position. -/
def Placement.details : Placement → List String
  | root => []
  | flow => ["flexShrink"]
  | absolute _ _ => ["left", "top"]

theorem Placement.names_style (h : place.style fields = .ok style) :
    Entries.names style = "position" :: place.details := by
  cases gives_of_style h with
  | root => rfl
  | flow => rfl
  | absolute => rfl

/-- What it says of its position. -/
theorem Placement.get?_position (h : place.style fields = .ok style) :
    Entries.get? style "position" = some (.text (if place.isAbsolute then "absolute" else "relative")) := by
  cases gives_of_style h with
  | root => rfl
  | flow => rfl
  | absolute => rfl

theorem Layout.names_rotation (h : Layout.rotation fields = .ok style) :
    Entries.names style = [] ∨ Entries.names style = ["transform", "transformOrigin"] := by
  rcases Layout.rotation_cases h with rfl | ⟨angle, rfl⟩
  · exact .inl rfl
  · exact .inr rfl

theorem Paint.names_background {fills : Value} (h : Paint.background fills = .ok style) :
    Entries.names style = [] ∨ Entries.names style = ["backgroundColor"] ∨
      Entries.names style = ["background"] := by
  rcases Paint.background_cases h with rfl | ⟨color, rfl⟩ | ⟨gradient, rfl⟩
  · exact .inl rfl
  · exact .inr (.inl rfl)
  · exact .inr (.inr rfl)

theorem Node.names_ownBackground (h : Node.ownBackground fields drawn = .ok style) :
    Entries.names style = [] ∨ (Node.isText fields || drawn) = false ∧
      (Entries.names style = ["backgroundColor"] ∨ Entries.names style = ["background"]) := by
  unfold Node.ownBackground at h
  split at h
  · cases h
    exact .inl rfl
  · rename_i painted
    exact (Paint.names_background h).imp_right fun named => ⟨by simpa using painted, named⟩

/-- A border has the names of all its properties, or there is none. -/
theorem Paint.names_border {strokes : Value} (h : Paint.border strokes = .ok style) :
    Entries.names style = [] ∨
      Entries.names style = ["borderWidth", "borderStyle", "borderColor", "boxSizing"] := by
  rcases Paint.border_cases h with rfl | ⟨width, color, rfl⟩
  · exact .inl rfl
  · exact .inr rfl

/-- Every text has a weight, an alignment and a rule for its lines. -/
theorem Typography.mem_style (h : Typography.style fields = .ok style) :
    ∀ n ∈ ["fontWeight", "textAlign", "whiteSpace"], n ∈ Entries.names style := by
  obtain ⟨color, size, weight, lineHeight, letterSpacing, -, rfl⟩ := style_ok h
  intro n there
  unfold Entries.putText
  simp only [List.mem_cons, List.not_mem_nil, or_false] at there
  rcases there with rfl | rfl | rfl <;> simp [Entries.mem_names_put, mem_names_putText?]

/-- A flow says that it is one, along which axis, and how its box is measured. -/
theorem Layout.mem_flow (h : Layout.flow fields = .ok style) (flows : Node.isAutoLayout fields = true) :
    ∀ n ∈ ["display", "flexDirection", "boxSizing"], n ∈ Entries.names style := by
  obtain ⟨stands, -⟩ | ⟨-, direction, spaces, justified, aligned, -, rfl⟩ := Layout.flow_cases h
  · exact absurd flows (by simp [stands])
  · intro n there
    rw [mem_names_putText?, mem_names_putText?]
    exact .inr (.inr (List.mem_append_left (Entries.names spaces) there))

/-! ## 2. The parts of a style -/

namespace Style

/-- The parts of a style that have several properties. -/
inductive Part where
  | position
  | rotation
  | background
  | border
  | typography
  deriving DecidableEq

namespace Part

/-- The properties that a part can have. -/
def names : Part → List String
  | position => ["position", "flexShrink", "left", "top"]
  | rotation => ["transform", "transformOrigin"]
  | background => ["background", "backgroundColor"]
  | border => ["borderWidth", "borderStyle", "borderColor", "boxSizing"]
  | typography => typographyNames

/-- A part of the style of a node. -/
def ofNode (fields : Members) (place : Placement) (drawn : Bool) : Part → Except Fault Style
  | position => place.style fields
  | rotation => Layout.rotation fields
  | background => Node.ownBackground fields drawn
  | border => Paint.border (fields.get "strokes")
  | typography => Node.ownTypography fields

theorem within {part : Part} (h : part.ofNode fields place drawn = .ok style) : Within part.names style := by
  cases part with
  | position => exact within_placement h
  | rotation => exact within_rotation h
  | background => exact within_ownBackground h
  | border => exact within_border h
  | typography => exact within_ownTypography h

/-- No two parts have a property in common. -/
theorem eq_of_mem_names {part other : Part} (h : n ∈ part.names) (k : n ∈ other.names) : part = other := by
  have apart : ∀ n ∈ part.names, n ∈ other.names → part = other := by cases part <;> cases other <;> decide
  exact apart n h k

end Part

end Style

namespace Node

/-- Before its flow, the style of a node starts with its box and the way it is placed. -/
theorem prefix_ownStyle (h : ownStyle fields place drawn = .ok style) :
    ["width", "height", "position"] <+: Entries.names style := by
  obtain ⟨width, height, placed, rotated, filled, bordered, shaded, radius, text, -, -, hp, -, -, -, -, -, rfl⟩ :=
    ownStyle_ok h
  have box : ["width", "height", "position"] <+: Entries.names (Entries.merge
      [("width", StyleValue.text width), ("height", .text height)] placed) := by
    rw [Entries.names_merge_of_nodup (Placement.nodup_style hp), Placement.names_style hp]
    exact ⟨_, rfl⟩
  have dimmed (s : Style) : Entries.names s <+: Entries.names (putOpacity fields s) := by
    unfold putOpacity
    dsimp only
    split
    · exact Entries.prefix_names_put s _ _
    · exact List.prefix_rfl
  have merged (s more : Style) := Entries.prefix_names_merge s more
  exact ((((((box.trans (merged _ _)).trans (dimmed _)).trans (merged _ _)).trans (merged _ _)).trans
    (merged _ _)).trans (prefix_names_putText? _ _ _)).trans (merged _ _)

/-- **Which properties the style of a node has before its flow**: those that its parts have, and five that are apart
from them. -/
theorem mem_ownStyle (h : ownStyle fields place drawn = .ok style) :
    ∃ parts : Style.Part → Style, (∀ part : Style.Part, part.ofNode fields place drawn = .ok (parts part)) ∧
      ∀ n ∉ ["width", "height", "opacity", "boxShadow", "borderRadius"],
        n ∈ Entries.names style ↔ ∃ part, n ∈ Entries.names (parts part) := by
  obtain ⟨width, height, placed, rotated, filled, bordered, shaded, radius, text, -, -, hp, hr, hb, hs, he, ht, rfl⟩ :=
    ownStyle_ok h
  let parts : Style.Part → Style
    | .position => placed
    | .rotation => rotated
    | .background => filled
    | .border => bordered
    | .typography => text
  refine ⟨parts, fun part => ?_, fun n apart => ?_⟩
  · cases part <;> assumption
  · obtain ⟨hw, hh, ho, hx, hc⟩ : n ≠ "width" ∧ n ≠ "height" ∧ n ≠ "opacity" ∧ n ≠ "boxShadow" ∧
        n ≠ "borderRadius" := by simpa using apart
    have box : n ∉ Entries.names [("width", StyleValue.text width), ("height", .text height)] := by
      simp [Entries.names, hw, hh]
    have dimmed (s : Style) : n ∈ Entries.names (putOpacity fields s) ↔ n ∈ Entries.names s := by
      unfold putOpacity
      dsimp only
      split
      · rw [Entries.mem_names_put, or_iff_right ho]
      · rfl
    have unshaded : n ∉ Entries.names shaded := (within_shadow he).not_mem (by simpa using hx)
    simp only [Entries.mem_names_merge, mem_names_putText?, dimmed, box, unshaded, hc, false_and, false_or,
      or_false]
    constructor
    · rintro ((((there | there) | there) | there) | there)
      · exact ⟨.position, there⟩
      · exact ⟨.rotation, there⟩
      · exact ⟨.background, there⟩
      · exact ⟨.border, there⟩
      · exact ⟨.typography, there⟩
    · rintro ⟨part, there⟩
      cases part with
      | position => exact .inl (.inl (.inl (.inl there)))
      | rotation => exact .inl (.inl (.inl (.inr there)))
      | background => exact .inl (.inl (.inr there))
      | border => exact .inl (.inr there)
      | typography => exact .inr there

/-! ## 3. The whole style -/

/-- A flow takes the place out of a style, and adds its own properties. -/
theorem mem_withFlow {own flow : Style} : n ∈ Entries.names (withFlow own flow) ↔
    if flow.isEmpty then n ∈ Entries.names own
    else n = "position" ∨ (n ∈ Entries.names own ∧ n ≠ "left" ∧ n ≠ "top") ∨ n ∈ Entries.names flow := by
  unfold withFlow
  split
  · rfl
  · rw [Entries.mem_names_merge]
    unfold Entries.putText
    rw [Entries.mem_names_put, Entries.mem_names_erase, Entries.mem_names_erase, and_assoc, or_assoc]

/-- **What a part of the style of a node has, the style has**, a place aside, and no more of its properties unless a
flow has them too. -/
theorem mem_style (h : Node.style fields place drawn = .ok style) (part : Style.Part) :
    ∃ own, part.ofNode fields place drawn = .ok own ∧ ∀ n ∈ part.names, n ∉ Placement.names →
      (n ∈ Entries.names own → n ∈ Entries.names style) ∧
        (n ∉ Style.flowNames → n ∈ Entries.names style → n ∈ Entries.names own) := by
  obtain ⟨own, flow, ho, hf, rfl⟩ := style_ok h
  obtain ⟨parts, given, all⟩ := mem_ownStyle ho
  refine ⟨parts part, given part, fun n there aside => ?_⟩
  have others : n ≠ "position" ∧ n ≠ "left" ∧ n ≠ "top" := by simpa [Placement.names] using aside
  have kept : n ∈ Entries.names (withFlow own flow) ↔ n ∈ Entries.names own ∨ n ∈ Entries.names flow := by
    rw [mem_withFlow]
    split
    · rename_i empty
      rw [List.isEmpty_iff.mp empty]
      exact (or_iff_left List.not_mem_nil).symm
    · simp [others]
  have apart : ∀ n ∈ part.names, n ∉ ["width", "height", "opacity", "boxShadow", "borderRadius"] := by
    cases part <;> decide
  rw [kept, all n (apart n there)]
  refine ⟨fun found => .inl ⟨part, found⟩, fun away found => ?_⟩
  obtain ⟨other, found⟩ := found.resolve_right ((within_flow hf).not_mem away)
  rwa [Style.Part.eq_of_mem_names there (Style.Part.within (given other) n found)]

/-- The style of a node starts with its box and the way it is placed. -/
theorem prefix_style (h : Node.style fields place drawn = .ok style) :
    ["width", "height", "position"] <+: Entries.names style := by
  obtain ⟨own, flow, ho, hf, rfl⟩ := style_ok h
  have start := prefix_ownStyle ho
  unfold withFlow
  split
  · exact start
  · refine List.IsPrefix.trans ?_ (Entries.prefix_names_merge _ _)
    refine List.IsPrefix.trans ?_ (Entries.prefix_names_put _ _ _)
    rw [Entries.names_erase, Entries.names_erase]
    exact (start.filter (decide <| · ≠ "left")).filter (decide <| · ≠ "top")

/-- The properties of a flow are in the style of a node if its children flow. -/
theorem mem_flow_style (h : Node.style fields place drawn = .ok style) :
    ("display" ∈ Entries.names style ↔ isAutoLayout fields = true) ∧
      ("display" ∈ Entries.names style →
        "flexDirection" ∈ Entries.names style ∧ "boxSizing" ∈ Entries.names style) := by
  obtain ⟨own, flow, ho, hf, rfl⟩ := style_ok h
  obtain ⟨parts, given, all⟩ := mem_ownStyle ho
  have boxed : "display" ∉ Entries.names own := by
    rw [all "display" (by decide)]
    rintro ⟨part, there⟩
    have named := Style.Part.within (given part) _ there
    revert named
    cases part <;> decide
  simp only [mem_withFlow, isEmpty_flow hf]
  cases flows : isAutoLayout fields with
  | false => simp [boxed]
  | true =>
    have named := Layout.mem_flow hf flows
    simp [named]

/-- The style of a node says absolute of a node that stands somewhere, and of no other, and gives its two sides to no
other. -/
theorem stands_style (h : Node.style fields place drawn = .ok style) :
    Entries.get? style "position" = some (.text (if stands fields place then "absolute" else "relative")) ∧
      ∀ side ∈ ["left", "top"], side ∈ Entries.names style ↔ stands fields place = true := by
  obtain ⟨placed, hp, same⟩ := get?_style_placed h
  constructor
  · rw [same "position" (by decide), Placement.get?_position hp]
    unfold stands
    cases isAutoLayout fields <;> simp
  · intro side there
    obtain ⟨placing, other⟩ : side ∈ Placement.names ∧ side ≠ "position" := by
      revert side
      decide
    rw [Entries.mem_names_iff, same side placing]
    unfold stands
    cases isAutoLayout fields with
    | true => simp [other]
    | false =>
      have sides : side ∈ Entries.names placed ↔ place.isAbsolute = true := by
        have pair : side = "left" ∨ side = "top" := by simpa using there
        rw [Placement.names_style hp]
        cases place <;> rcases pair with rfl | rfl <;> simp [Placement.details, Placement.isAbsolute]
      simpa [← Entries.mem_names_iff] using sides

/-- A part of the style that no flow touches is found in the style. -/
theorem mem_style_iff (h : Node.style fields place drawn = .ok style) (part : Style.Part) :
    ∃ own, part.ofNode fields place drawn = .ok own ∧ ∀ n ∈ part.names,
      n ∉ Placement.names ++ Style.flowNames → (n ∈ Entries.names style ↔ n ∈ Entries.names own) := by
  obtain ⟨own, given, all⟩ := mem_style h part
  refine ⟨own, given, fun n there aside => ?_⟩
  obtain ⟨placing, away⟩ : n ∉ Placement.names ∧ n ∉ Style.flowNames := by simpa using aside
  exact ⟨(all n there placing).2 away, (all n there placing).1⟩

/-- The border in the style of a node is complete. -/
theorem border_style (h : Node.style fields place drawn = .ok style) :
    (∀ n ∈ Style.Part.border.names, n ∈ Entries.names style) ∨
      ∀ n ∈ ["borderWidth", "borderStyle", "borderColor"], n ∉ Entries.names style := by
  obtain ⟨bordered, hs, all⟩ := mem_style h .border
  have apart : ∀ n ∈ Style.Part.border.names, n ∉ Placement.names := by decide
  rcases Paint.names_border hs with none | four
  · refine .inr fun n there found => ?_
    have own : ∀ n ∈ ["borderWidth", "borderStyle", "borderColor"],
        n ∈ Style.Part.border.names ∧ n ∉ Style.flowNames := by decide
    have back := (all n (own n there).1 (apart n (own n there).1)).2 (own n there).2 found
    rw [none] at back
    exact absurd back List.not_mem_nil
  · refine .inl fun n there => (all n there (apart n there)).1 ?_
    rw [four]
    exact there

/-- The properties of a text are in the style of a node if it is one. -/
theorem typography_style (h : Node.style fields place drawn = .ok style) :
    ∀ n ∈ ["fontWeight", "textAlign", "whiteSpace"], n ∈ Entries.names style ↔ isText fields = true := by
  obtain ⟨own, ht, all⟩ := mem_style_iff h .typography
  intro n there
  have aside : ∀ n ∈ ["fontWeight", "textAlign", "whiteSpace"],
      n ∈ Style.typographyNames ∧ n ∉ Placement.names ++ Style.flowNames := by decide
  rw [all n (aside n there).1 (aside n there).2]
  have given : ownTypography fields = .ok own := ht
  unfold ownTypography at given
  split at given
  · rename_i text
    simp [text, Typography.mem_style given n there]
  · rename_i other
    cases given
    simp [other, Entries.names]

/-- The style of a node says that it does not shrink if it is in a flow. -/
theorem shrink_style (h : Node.style fields place drawn = .ok style) :
    "flexShrink" ∈ Entries.names style ↔ place.isFlow = true := by
  obtain ⟨placed, hp, all⟩ := mem_style_iff h .position
  rw [all "flexShrink" (by decide) (by decide), Placement.names_style hp]
  cases place <;> simp [Placement.details, Placement.isFlow]

/-- The background in the style of a node is one of the two, and there is none in a text or behind an image. -/
theorem background_style (h : Node.style fields place drawn = .ok style) :
    ¬("background" ∈ Entries.names style ∧ "backgroundColor" ∈ Entries.names style) ∧
      ((isText fields || drawn) = true →
        "background" ∉ Entries.names style ∧ "backgroundColor" ∉ Entries.names style) := by
  obtain ⟨filled, hb, all⟩ := mem_style_iff h .background
  rw [all "background" (by decide) (by decide), all "backgroundColor" (by decide) (by decide)]
  rcases Node.names_ownBackground hb with none | ⟨painted, one | one⟩
  · simp [none]
  · simp [one, painted]
  · simp [one, painted]

/-- The rotation in the style of a node says what it turns about. -/
theorem rotation_style (h : Node.style fields place drawn = .ok style) :
    "transform" ∈ Entries.names style ↔ "transformOrigin" ∈ Entries.names style := by
  obtain ⟨rotated, hr, all⟩ := mem_style_iff h .rotation
  rw [all "transform" (by decide) (by decide), all "transformOrigin" (by decide) (by decide)]
  rcases Layout.names_rotation hr with none | both
  · simp [none]
  · simp [both]

/-- **The style of a node keeps the laws**, whatever its fields hold. -/
theorem lawful_style (h : Node.style fields place drawn = .ok style) :
    Style.Lawful fields place drawn style := by
  obtain ⟨position, sides⟩ := stands_style h
  obtain ⟨display, flow⟩ := mem_flow_style h
  obtain ⟨background, bare⟩ := background_style h
  have left := sides "left" (by decide)
  have top := sides "top" (by decide)
  have typography := typography_style h
  exact
    { once := nodup_style h
      start := prefix_style h
      absolute := by
        rw [position]
        cases stands fields place <;> simp
      sides := by rw [left, top, and_self]
      relative := fun free => by
        rw [position, left, top, free]
        simp
      shrink := shrink_style h
      display := display
      flow := flow
      background := background
      bare := bare
      border := by
        rcases border_style h with all | none
        · exact .inl ⟨all _ (by decide), all _ (by decide), all _ (by decide), all _ (by decide)⟩
        · exact .inr ⟨none _ (by decide), none _ (by decide), none _ (by decide)⟩
      rotation := rotation_style h
      weight := typography _ (by decide)
      align := typography _ (by decide)
      lines := typography _ (by decide) }

/-- A row with a place, a rotation, a gradient that gives nothing and a border; one of its spaces is no number. -/
def shelf : Members :=
  [("x", .number (.int 40)), ("rotation", .number (.int 90)), ("layoutMode", .text "HORIZONTAL"),
   ("fills", .list [.object [("type", .text "GRADIENT_LINEAR")]]),
   ("strokes", .list [.object [("type", .text "SOLID"), ("color", .object [("r", .number (.int 1))])]]),
   ("paddingLeft", .text "12"), ("gap", .text "wide")]

theorem lawful_style_shelf : ∃ style, Node.style shelf (.absolute (.int 0) (.int 0)) false = .ok style ∧
    Entries.names style = ["width", "height", "position", "transform", "transformOrigin", "borderWidth",
      "borderStyle", "borderColor", "boxSizing", "display", "flexDirection", "paddingLeft"] ∧
    Style.Lawful shelf (.absolute (.int 0) (.int 0)) false style := by
  have computed : (Node.style shelf (.absolute (.int 0) (.int 0)) false).toOption.map Entries.names =
      some ["width", "height", "position", "transform", "transformOrigin", "borderWidth", "borderStyle",
        "borderColor", "boxSizing", "display", "flexDirection", "paddingLeft"] := by decide +kernel
  cases styled : Node.style shelf (.absolute (.int 0) (.int 0)) false with
  | error fault =>
    rw [styled] at computed
    cases computed
  | ok style =>
    rw [styled] at computed
    exact ⟨style, rfl, Option.some.inj computed, lawful_style styled⟩

end Node

end Artboard
