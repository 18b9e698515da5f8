import Artboard.Proofs.Canvas
import Artboard.Proofs.Style.Property

/-!
# The position that a style gives

A style places a node by its `position`, its `left` and its `top` (`Placement.names`).  What they say is what
the place of the node says (`Node.get?_style_placed`), except that a node whose children flow is never
absolute: no other part of a style has one of the three, no widget adds one to the element of its node, and
the input of a text field keeps the ones of its text.

On an axis, a node that has neither a flow of its own nor one around it stands at its coordinate from the
origin around it; every other node has no place there (`Node.get?_style`).  Origins are what a node is moved
by, with the other sign (`Placement.moved`).
-/

namespace Artboard

/-- The properties that place an element. -/
def Placement.names : List String := ["position", "left", "top"]

/-- The property that places a node on an axis. -/
def Axis.side : Axis → String
  | x => "left"
  | y => "top"

theorem Axis.side_mem (axis : Axis) : axis.side ∈ Placement.names := by
  cases axis <;> decide

/-- The place of a node in a flow, or of one that is moved by a shift. -/
def Placement.moved (shift : Axis → Int) (flow : Bool) : Placement :=
  if flow then .flow else .absolute (.int (-shift .x)) (.int (-shift .y))

/-- What the style of a node says of its place on an axis: its coordinate moved, as it is written. -/
def Node.emitted (axis : Axis) (shift : Int) (flow : Bool) (fields : Members) : Option Int :=
  if flow || Node.isAutoLayout fields then none
  else some (Number.written (Node.coordinate axis fields + shift))

/-- A whole number of pixels as a text. -/
def pixelText (i : Int) : String := toString i ++ "px"

/-! ## 1. The place alone -/

variable {fields : Members} {place : Placement} {shift : Axis → Int} {flow drawn : Bool} {style : Style}
  {name : String}

/-- The place of a node that is moved. -/
theorem Placement.style_moved (own : Node.IsWhole fields)
    (h : (moved shift false).style fields = .ok style) :
    ∃ left top, (Number.int (Node.coordinate .x fields + shift .x)).px = .ok left ∧
      (Number.int (Node.coordinate .y fields + shift .y)).px = .ok top ∧
      style = [("position", .text "absolute"), ("left", .text left), ("top", .text top)] := by
  have difference (a b : Int) : (Number.int a).sub (.int (-b)) = .ok (.int (a + b)) := by
    show Except.ok (Number.int (a - -b)) = _
    rw [Int.sub_neg]
  unfold moved at h
  rw [if_neg Bool.false_ne_true] at h
  cases gives_of_style h with
  | @absolute _ _ x y left top movedX movedY wroteX wroteY =>
    rw [own.x, difference] at movedX
    rw [own.y, difference] at movedY
    rw [← Except.ok.inj movedX] at wroteX
    rw [← Except.ok.inj movedY] at wroteY
    exact ⟨left, top, wroteX, wroteY, rfl⟩

/-- No property is twice in a place. -/
theorem Placement.nodup_style (h : place.style fields = .ok style) : (Entries.names style).Nodup := by
  cases gives_of_style h with
  | root => decide
  | flow => decide
  | absolute =>
    show ["position", "left", "top"].Nodup
    decide

/-- Where the place of a node that is moved puts it on an axis. -/
theorem Placement.get?_moved (own : Node.IsWhole fields) (axis : Axis)
    (h : (moved shift flow).style fields = .ok style) : Entries.get? style axis.side =
      if flow then none
      else some (.text (pixelText (Number.written (Node.coordinate axis fields + shift axis)))) := by
  cases flow with
  | true =>
    cases h
    cases axis <;> rfl
  | false =>
    obtain ⟨left, top, hleft, htop, rfl⟩ := style_moved own h
    rw [Number.px_int hleft, Number.px_int htop]
    cases axis <;> rfl

/-! ## 2. The whole style -/

/-- Another property put into a style changes no place. -/
theorem get?_put_aside {other : String} (aside : other ∉ Placement.names) (placing : name ∈ Placement.names)
    (style : Style) (v : StyleValue) : Entries.get? (Entries.put style other v) name = Entries.get? style name :=
  Entries.get?_put_of_ne fun same => aside (same ▸ placing)

/-- Nor does another property taken out of it. -/
theorem get?_erase_aside {other : String} (aside : other ∉ Placement.names)
    (placing : name ∈ Placement.names) (style : Style) :
    Entries.get? (Entries.erase style other) name = Entries.get? style name :=
  Entries.get?_erase_of_ne fun same => aside (same ▸ placing)

/-- Nor does a style merged in that is apart from places. -/
theorem Style.Within.get?_merge_aside {allowed : List String} {more : Style} (within : Within allowed more)
    (apart : ∀ n ∈ Placement.names, n ∉ allowed) (placing : name ∈ Placement.names) :
    Entries.get? (Entries.merge style more) name = Entries.get? style name :=
  within.get?_merge (apart name placing)

namespace Node

/-- The place of a node is not changed by anything that comes behind it. -/
theorem get?_ownStyle (h : ownStyle fields place drawn = .ok style) :
    ∃ placed, place.style fields = .ok placed ∧
      ∀ name ∈ Placement.names, Entries.get? style name = Entries.get? placed name := by
  obtain ⟨width, height, placed, rotated, filled, bordered, shaded, radius, text, -, -, hp, hr, hb, hs, he, ht, rfl⟩ :=
    ownStyle_ok h
  refine ⟨placed, hp, fun name placing => ?_⟩
  have apart : ∀ n ∈ Placement.names, n ∉ ["width", "height"] := by decide
  have box : Entries.get? [("width", StyleValue.text width), ("height", .text height)] name = none :=
    Entries.get?_eq_none (apart name placing)
  have other : ∀ n ∈ Placement.names, "borderRadius" ≠ n ∧ "opacity" ≠ n := by decide
  obtain ⟨rounded, dimmed⟩ := other name placing
  rw [(within_ownTypography ht).get?_merge_aside (by decide) placing, get?_corners _ _ rounded,
    (within_shadow he).get?_merge_aside (by decide) placing,
    (within_border hs).get?_merge_aside (by decide) placing,
    (within_ownBackground hb).get?_merge_aside (by decide) placing, get?_putOpacity _ _ dimmed,
    (within_rotation hr).get?_merge_aside (by decide) placing,
    Entries.get?_merge_of_nodup (Placement.nodup_style hp), box, Option.or_none]

/-- A flow takes the place out of the style of its node. -/
theorem get?_withFlow {own flow : Style} (within : Style.Within Style.flowNames flow)
    (placing : name ∈ Placement.names) : Entries.get? (withFlow own flow) name =
      if flow.isEmpty then Entries.get? own name
      else if name = "position" then some (.text "relative") else none := by
  unfold withFlow
  split
  · rfl
  · rw [within.get?_merge_aside (by decide) placing]
    show Entries.get? (Entries.put _ "position" _) name = _
    rw [Entries.get?_put, Entries.get?_erase, Entries.get?_erase]
    have three : name = "position" ∨ name = "left" ∨ name = "top" := by simpa [Placement.names] using placing
    rcases three with rfl | rfl | rfl <;> rfl

/-- A node has a flow in its style if its children flow. -/
theorem isEmpty_flow {flow : Style} (h : Layout.flow fields = .ok flow) :
    flow.isEmpty = !isAutoLayout fields := by
  obtain ⟨stands, rfl⟩ | ⟨flows, direction, spaces, justified, aligned, -, rfl⟩ := Layout.flow_cases h
  · rw [stands]
    rfl
  · rw [flows]
    cases justified <;> cases aligned <;> rfl

/-- **The place in the style of a node** is the one that the node is given, unless its children flow. -/
theorem get?_style_placed (h : Node.style fields place drawn = .ok style) :
    ∃ placed, place.style fields = .ok placed ∧ ∀ name ∈ Placement.names, Entries.get? style name =
      if isAutoLayout fields then if name = "position" then some (.text "relative") else none
      else Entries.get? placed name := by
  obtain ⟨own, flow, ho, hf, rfl⟩ := style_ok h
  obtain ⟨placed, hp, same⟩ := get?_ownStyle ho
  refine ⟨placed, hp, fun name placing => ?_⟩
  rw [get?_withFlow (within_flow hf) placing, isEmpty_flow hf, same name placing]
  cases isAutoLayout fields <;> rfl

/-- **The place that the style of a node gives** on an axis. -/
theorem get?_style (own : IsWhole fields) (axis : Axis)
    (h : Node.style fields (.moved shift flow) drawn = .ok style) :
    Entries.get? style axis.side =
      (emitted axis (shift axis) flow fields).map fun i => .text (pixelText i) := by
  obtain ⟨placed, hp, same⟩ := get?_style_placed h
  have side : axis.side ≠ "position" := by cases axis <;> decide
  rw [same _ axis.side_mem, if_neg side, Placement.get?_moved own axis hp]
  unfold emitted
  cases flow <;> cases isAutoLayout fields <;> rfl

/-- A root has no place. -/
theorem get?_style_root (axis : Axis) (h : Node.style fields .root drawn = .ok style) :
    Entries.get? style axis.side = none := by
  obtain ⟨placed, hp, same⟩ := get?_style_placed h
  cases hp
  rw [same _ axis.side_mem]
  cases isAutoLayout fields <;> cases axis <;> rfl

/-! ## 3. Widgets -/

/-- A style that goes over one without a place. -/
theorem get?_reset {reset : Style} (apart : ∀ n ∈ Placement.names, n ∉ Entries.names reset)
    (placing : name ∈ Placement.names) (once : (Entries.names style).Nodup) :
    Entries.get? (Entries.merge reset style) name = Entries.get? style name := by
  rw [Entries.get?_merge_of_nodup once, Entries.get?_eq_none (apart name placing), Option.or_none]

/-- A frame has the place of its node. -/
theorem get?_frame {widget : Option Widget} {id : Int} {children : List Node} {f : Frame}
    (placing : name ∈ Placement.names) (once : (Entries.names style).Nodup)
    (h : frame widget id fields children style = .ok f) :
    Entries.get? f.style name = Entries.get? style name := by
  cases frames_of_frame h with
  | button => exact get?_reset (by decide) placing once
  | emptyField _ _ => exact get?_reset (by decide) placing once
  | textField _ => exact get?_reset (by decide) placing once
  | checkbox _ =>
    have reset : Entries.get? (Entries.merge Chrome.label style) name = Entries.get? style name :=
      get?_reset (by decide) placing once
    exact (get?_put_aside (by decide) placing _ _).trans reset
  | box _ => rfl

/-- The input of a text field has the place of its text. -/
theorem get?_inputStyle {owner : Members} (h : inputStyle owner fields place = .ok style) :
    ∃ base, Node.style fields place false = .ok base ∧ ∀ name ∈ Placement.names,
      Entries.get? (Entries.merge Chrome.input style) name = Entries.get? base name := by
  obtain ⟨base, hb, cases⟩ := inputStyle_ok h
  refine ⟨base, hb, fun name placing => ?_⟩
  have kept : Entries.get? (Entries.erase base "whiteSpace") name = Entries.get? base name :=
    get?_erase_aside (by decide) placing base
  rw [get?_reset (by decide) placing (nodup_inputStyle h)]
  rcases cases with rfl | ⟨width, rfl⟩ | rfl
  · rw [get?_put_aside (by decide) placing, get?_put_aside (by decide) placing,
      get?_erase_aside (by decide) placing, get?_erase_aside (by decide) placing]
    exact kept
  · exact (get?_put_aside (by decide) placing _ _).trans kept
  · exact kept

end Node

end Artboard
