import Artboard.Proofs.Drawing
import Artboard.Proofs.Entries

/-!
# Which properties a style can have

The names of style properties are never taken from a design: each part of a style has names of a short list of its
own, whatever the fields hold (`Style.Within`), as the forms that it can have show (`Placement.Gives`,
`Layout.flow_cases`, `Paint.background_cases`).  Put, erase and merge keep to a list, so that a whole style has names
of one fixed list (`within_style` for a node, `within_inputStyle` for the input of a text field), none of them twice
(`nodup_style`), and a property that only one part can have comes from that part (`Node.get?_width`,
`Node.get?_border`).
Writing a style keeps its names and values (`names_writeStyle`, `get?_writeStyle`).
-/

namespace Artboard

/-! ## 1. Styles of some properties -/

namespace Style

/-- The style has properties of a list only. -/
def Within (allowed : List String) (style : Style) : Prop := ∀ n ∈ Entries.names style, n ∈ allowed

instance (allowed : List String) (style : Style) : Decidable (Within allowed style) :=
  inferInstanceAs (Decidable (∀ n ∈ Entries.names style, n ∈ allowed))

variable {allowed : List String} {s t : Style} {name : String}

theorem within_nil : Within allowed [] := fun _ h => absurd h List.not_mem_nil

theorem within_cons (hn : name ∈ allowed) (v : StyleValue) (hs : Within allowed s) :
    Within allowed ((name, v) :: s) := by
  intro n h
  rcases List.mem_cons.mp h with rfl | h
  · exact hn
  · exact hs n h

theorem within_put (hs : Within allowed s) (hn : name ∈ allowed) (v : StyleValue) :
    Within allowed (Entries.put s name v) := by
  intro n h
  rcases Entries.mem_names_put.mp h with rfl | h
  · exact hn
  · exact hs n h

theorem within_putText (hs : Within allowed s) (hn : name ∈ allowed) (text : String) :
    Within allowed (Entries.putText s name text) := within_put hs hn _

theorem within_putText? (hs : Within allowed s) (hn : name ∈ allowed) (text : Option String) :
    Within allowed (Entries.putText? s name text) := by
  cases text with
  | none => exact hs
  | some text => exact within_put hs hn _

theorem within_erase (hs : Within allowed s) (name : String) : Within allowed (Entries.erase s name) :=
  fun n h => hs n (Entries.mem_names_erase.mp h).1

theorem within_append (hs : Within allowed s) (ht : Within allowed t) : Within allowed (s ++ t) := by
  intro n h
  unfold Entries.names at h
  rw [List.map_append, List.mem_append] at h
  exact h.elim (hs n) (ht n)

theorem within_merge (hs : Within allowed s) (ht : Within allowed t) :
    Within allowed (Entries.merge s t) := by
  induction t generalizing s with
  | nil => exact hs
  | cons e rest ih =>
    have he : e.1 ∈ allowed := ht e.1 List.mem_cons_self
    exact ih (within_put hs he e.2) fun n h => ht n (List.mem_cons_of_mem _ h)

theorem Within.mono {more : List String} (hs : Within allowed s) (h : ∀ n ∈ allowed, n ∈ more) :
    Within more s := fun n hn => h n (hs n hn)

/-- A style merged in leaves alone what it cannot have. -/
theorem Within.get?_merge (ht : Within allowed t) (hn : name ∉ allowed) :
    Entries.get? (Entries.merge s t) name = Entries.get? s name :=
  Entries.get?_merge fun h => hn (ht name h)

/-- A style does not have what it cannot have. -/
theorem Within.get?_eq_none (hs : Within allowed s) (hn : name ∉ allowed) : Entries.get? s name = none :=
  Entries.get?_eq_none fun h => hn (hs name h)

/-- Every property that a style can have. -/
def properties : List String :=
  ["width", "height", "position", "left", "top", "flexShrink", "transform", "transformOrigin", "opacity",
   "background", "backgroundColor", "borderWidth", "borderStyle", "borderColor", "boxSizing", "boxShadow",
   "borderRadius", "color", "fontSize", "fontFamily", "fontWeight", "textAlign", "lineHeight",
   "letterSpacing", "whiteSpace", "display", "flexDirection", "paddingTop", "paddingRight",
   "paddingBottom", "paddingLeft", "gap", "justifyContent", "alignItems", "padding", "margin", "border",
   "font", "cursor", "outline", "overflow", "objectFit", "flex", "minWidth"]

/-- The properties that the style of a node can have. -/
def nodeProperties : List String :=
  ["width", "height", "position", "left", "top", "flexShrink", "transform", "transformOrigin", "opacity",
   "background", "backgroundColor", "borderWidth", "borderStyle", "borderColor", "boxSizing", "boxShadow",
   "borderRadius", "color", "fontSize", "fontFamily", "fontWeight", "textAlign", "lineHeight",
   "letterSpacing", "whiteSpace", "display", "flexDirection", "paddingTop", "paddingRight",
   "paddingBottom", "paddingLeft", "gap", "justifyContent", "alignItems"]

/-- The properties that the style of the input of a text field can have. -/
def inputProperties : List String := nodeProperties ++ ["flex", "minWidth"]

/-- The style has known properties only. -/
abbrev Known (style : Style) : Prop := Within properties style

end Style

open Style

/-! ## 2. The parts of a style -/

/-- **The style of a place**, by its kind. -/
inductive Placement.Gives (fields : Members) : Placement → Style → Prop where
  | root : Gives fields .root [("position", .text "relative")]
  | flow : Gives fields .flow [("position", .text "relative"), ("flexShrink", .whole 0)]
  | absolute {x y across down left top} (movedX : ((fields.get "x").numberOr (.int 0)).sub x = .ok across)
      (movedY : ((fields.get "y").numberOr (.int 0)).sub y = .ok down) (wroteX : across.px = .ok left)
      (wroteY : down.px = .ok top) :
      Gives fields (.absolute x y) [("position", .text "absolute"), ("left", .text left), ("top", .text top)]

theorem Placement.gives_of_style {place : Placement} {fields : Members} {s : Style}
    (h : place.style fields = .ok s) : Gives fields place s := by
  cases place with
  | root =>
    cases h
    exact .root
  | flow =>
    cases h
    exact .flow
  | absolute x y =>
    unfold Placement.style at h
    obtain ⟨across, movedX, h⟩ := ok_of_bind h
    obtain ⟨left, wroteX, h⟩ := ok_of_bind h
    obtain ⟨down, movedY, h⟩ := ok_of_bind h
    obtain ⟨top, wroteY, h⟩ := ok_of_bind h
    cases h
    exact .absolute movedX movedY wroteX wroteY

theorem within_placement {place : Placement} {fields : Members} {s : Style}
    (h : place.style fields = .ok s) : Within ["position", "flexShrink", "left", "top"] s := by
  cases Placement.gives_of_style h with
  | root => exact within_cons (by decide) _ within_nil
  | flow => exact within_cons (by decide) _ (within_cons (by decide) _ within_nil)
  | absolute =>
    exact within_cons (by decide) _ (within_cons (by decide) _ (within_cons (by decide) _ within_nil))

/-- A rotation has its angle and its centre, or neither. -/
theorem Layout.rotation_cases {fields : Members} {s : Style} (h : rotation fields = .ok s) :
    s = [] ∨ ∃ angle, s = [("transform", .text angle), ("transformOrigin", .text "top left")] := by
  unfold rotation at h
  dsimp only at h
  split at h
  · cases h
    exact .inl rfl
  · obtain ⟨angle, _, h⟩ := ok_of_bind h
    cases h
    exact .inr ⟨_, rfl⟩

theorem within_rotation {fields : Members} {s : Style} (h : Layout.rotation fields = .ok s) :
    Within ["transform", "transformOrigin"] s := by
  rcases Layout.rotation_cases h with rfl | ⟨angle, rfl⟩
  · exact within_nil
  · exact fun _ there => there

/-- A background is a colour or a gradient, if there is one. -/
theorem Paint.background_cases {fills : Value} {s : Style} (h : background fills = .ok s) :
    s = [] ∨ (∃ color, s = [("backgroundColor", .text color)]) ∨ ∃ gradient, s = [("background", .text gradient)] := by
  unfold background at h
  split at h
  · cases h
    exact .inl rfl
  · split at h
    · obtain ⟨color, _, h⟩ := ok_of_bind h
      cases h
      cases color with
      | none => exact .inl rfl
      | some color => exact .inr (.inl ⟨color, rfl⟩)
    · split at h
      · obtain ⟨gradient, _, h⟩ := ok_of_bind h
        cases h
        cases gradient with
        | none => exact .inl rfl
        | some gradient => exact .inr (.inr ⟨gradient, rfl⟩)
      · cases h
        exact .inl rfl

theorem within_background {fills : Value} {s : Style} (h : Paint.background fills = .ok s) :
    Within ["background", "backgroundColor"] s := by
  rcases Paint.background_cases h with rfl | ⟨color, rfl⟩ | ⟨gradient, rfl⟩
  · exact within_nil
  · exact within_cons (by decide) _ within_nil
  · exact within_cons (by decide) _ within_nil

/-- A border has all its properties, or there is none. -/
theorem Paint.border_cases {strokes : Value} {s : Style} (h : border strokes = .ok s) :
    s = [] ∨ ∃ width color, s = [("borderWidth", .text width), ("borderStyle", .text "solid"),
      ("borderColor", .text color), ("boxSizing", .text "border-box")] := by
  unfold border at h
  split at h
  · split at h
    · obtain ⟨color, _, h⟩ := ok_of_bind h
      cases color with
      | none =>
        cases h
        exact .inl rfl
      | some color =>
        obtain ⟨width, _, h⟩ := ok_of_bind h
        cases h
        exact .inr ⟨width, color, rfl⟩
    · cases h
      exact .inl rfl
  · cases h
    exact .inl rfl

theorem within_border {strokes : Value} {s : Style} (h : Paint.border strokes = .ok s) :
    Within ["borderWidth", "borderStyle", "borderColor", "boxSizing"] s := by
  rcases Paint.border_cases h with rfl | ⟨width, color, rfl⟩
  · exact within_nil
  · exact fun _ there => there

theorem within_shadow {effects : Value} {s : Style} (h : Paint.shadow effects = .ok s) :
    Within ["boxShadow"] s := by
  unfold Paint.shadow at h
  split at h
  · cases h
    exact within_nil
  · obtain ⟨_, _, h⟩ := ok_of_bind h
    obtain ⟨_, _, h⟩ := ok_of_bind h
    obtain ⟨_, _, h⟩ := ok_of_bind h
    obtain ⟨_, _, h⟩ := ok_of_bind h
    cases h
    exact within_cons (by decide) _ within_nil

/-- The properties of a text. -/
def Style.typographyNames : List String :=
  ["color", "fontSize", "fontFamily", "fontWeight", "textAlign", "lineHeight", "letterSpacing", "whiteSpace"]

/-- The properties of a text, one after another. -/
theorem Typography.style_ok {fields : Members} {s : Style} (h : style fields = .ok s) :
    ∃ color size weight lineHeight letterSpacing, weightOf fields = .ok weight ∧
      s = Entries.putText (Entries.putText? (Entries.putText? (Entries.putText (Entries.put
        (Entries.putText? (Entries.putText? (Entries.putText? [] "color" color) "fontSize" size) "fontFamily"
          (familyOf? fields)) "fontWeight" (.whole weight)) "textAlign" (align (fields.get "textAlign")))
        "lineHeight" lineHeight) "letterSpacing" letterSpacing) "whiteSpace" "pre-wrap" := by
  unfold style at h
  obtain ⟨color, _, h⟩ := ok_of_bind h
  obtain ⟨size, _, h⟩ := ok_of_bind h
  obtain ⟨weight, looked, h⟩ := ok_of_bind h
  obtain ⟨lineHeight, _, h⟩ := ok_of_bind h
  obtain ⟨letterSpacing, _, h⟩ := ok_of_bind h
  exact ⟨color, size, weight, lineHeight, letterSpacing, looked, (Except.ok.inj h).symm⟩

theorem within_typography {fields : Members} {s : Style} (h : Typography.style fields = .ok s) :
    Within typographyNames s := by
  obtain ⟨color, size, weight, lineHeight, letterSpacing, -, rfl⟩ := Typography.style_ok h
  refine within_putText (within_putText? (within_putText? (within_putText (within_put ?_ (by decide) _)
    (by decide) _) (by decide) _) (by decide) _) (by decide) _
  exact within_putText? (within_putText? (within_putText? within_nil (by decide) _) (by decide) _)
    (by decide) _

theorem within_lengths {fields : Members} {allowed : List String} : ∀ (names : List String) {s : Style},
    (∀ n ∈ names, n ∈ allowed) → Layout.lengths fields names = .ok s → Within allowed s
  | [], s, _, h => by
      cases h
      exact within_nil
  | name :: rest, s, hn, h => by
      unfold Layout.lengths at h
      obtain ⟨head, hh, h⟩ := ok_of_bind h
      obtain ⟨tail, ht, h⟩ := ok_of_bind h
      cases h
      refine within_append ?_ (within_lengths rest (fun n hm => hn n (List.mem_cons_of_mem _ hm)) ht)
      unfold Layout.length at hh
      dsimp only at hh
      split at hh
      · cases hh
        exact within_nil
      · obtain ⟨_, _, hh⟩ := ok_of_bind hh
        cases hh
        exact within_cons (hn name List.mem_cons_self) _ within_nil

/-- The properties of a flow. -/
def Style.flowNames : List String :=
  ["display", "flexDirection", "boxSizing", "paddingTop", "paddingRight", "paddingBottom", "paddingLeft",
   "gap", "justifyContent", "alignItems"]

/-- **The flow of a node**, if its children flow: what it is, its spaces, and how it puts the children. -/
theorem Layout.flow_cases {fields : Members} {s : Style} (h : flow fields = .ok s) :
    Node.isAutoLayout fields = false ∧ s = [] ∨
      Node.isAutoLayout fields = true ∧ ∃ direction spaces justified aligned,
        lengths fields ["paddingTop", "paddingRight", "paddingBottom", "paddingLeft", "gap"] = .ok spaces ∧
        s = Entries.putText? (Entries.putText? ([("display", .text "flex"), ("flexDirection", .text direction),
          ("boxSizing", .text "border-box")] ++ spaces) "justifyContent" justified) "alignItems" aligned := by
  unfold flow at h
  split at h
  · rename_i flows
    obtain ⟨spaces, hs, h⟩ := ok_of_bind h
    exact .inr ⟨flows, _, spaces, _, _, hs, (Except.ok.inj h).symm⟩
  · rename_i stands
    cases h
    exact .inl ⟨by simpa using stands, rfl⟩

theorem within_flow {fields : Members} {s : Style} (h : Layout.flow fields = .ok s) :
    Within flowNames s := by
  obtain ⟨-, rfl⟩ | ⟨-, direction, spaces, justified, aligned, hs, rfl⟩ := Layout.flow_cases h
  · exact within_nil
  · refine within_putText? (within_putText? (within_append ?_ (within_lengths _ (by decide) hs)) (by decide) _)
      (by decide) _
    exact within_cons (by decide) _ (within_cons (by decide) _ (within_cons (by decide) _ within_nil))

/-! ## 3. Whole styles -/

theorem within_ownBackground {fields : Members} {drawn : Bool} {s : Style}
    (h : Node.ownBackground fields drawn = .ok s) : Within ["background", "backgroundColor"] s := by
  unfold Node.ownBackground at h
  split at h
  · cases h
    exact within_nil
  · exact within_background h

theorem within_ownTypography {fields : Members} {s : Style} (h : Node.ownTypography fields = .ok s) :
    Within typographyNames s := by
  unfold Node.ownTypography at h
  split at h
  · exact within_typography h
  · cases h
    exact within_nil

/-- The style without a flow, part by part. -/
theorem Node.ownStyle_ok {fields : Members} {place : Placement} {drawn : Bool} {s : Style}
    (h : ownStyle fields place drawn = .ok s) :
    ∃ width height placed rotated filled bordered shaded radius text,
      ((fields.get "width").numberOr (.int 0)).px = .ok width ∧
      ((fields.get "height").numberOr (.int 0)).px = .ok height ∧
      place.style fields = .ok placed ∧ Layout.rotation fields = .ok rotated ∧
      ownBackground fields drawn = .ok filled ∧ Paint.border (fields.get "strokes") = .ok bordered ∧
      Paint.shadow (fields.get "effects") = .ok shaded ∧ ownTypography fields = .ok text ∧
      s = Entries.merge (Entries.putText? (Entries.merge (Entries.merge (Entries.merge
        (putOpacity fields (Entries.merge (Entries.merge
          [("width", .text width), ("height", .text height)] placed) rotated)) filled) bordered) shaded)
        "borderRadius" radius) text := by
  unfold ownStyle at h
  obtain ⟨width, hw, h⟩ := ok_of_bind h
  obtain ⟨height, hh, h⟩ := ok_of_bind h
  obtain ⟨placed, hp, h⟩ := ok_of_bind h
  obtain ⟨rotated, hr, h⟩ := ok_of_bind h
  obtain ⟨filled, hb, h⟩ := ok_of_bind h
  obtain ⟨bordered, hs, h⟩ := ok_of_bind h
  obtain ⟨shaded, he, h⟩ := ok_of_bind h
  obtain ⟨radius, _, h⟩ := ok_of_bind h
  obtain ⟨text, ht, h⟩ := ok_of_bind h
  exact ⟨width, height, placed, rotated, filled, bordered, shaded, radius, text, hw, hh, hp, hr, hb, hs, he,
    ht, (Except.ok.inj h).symm⟩

theorem Node.style_ok {fields : Members} {place : Placement} {drawn : Bool} {s : Style}
    (h : Node.style fields place drawn = .ok s) :
    ∃ own flow, ownStyle fields place drawn = .ok own ∧ Layout.flow fields = .ok flow ∧
      s = withFlow own flow := by
  unfold Node.style at h
  obtain ⟨own, ho, h⟩ := ok_of_bind h
  obtain ⟨flow, hf, h⟩ := ok_of_bind h
  exact ⟨own, flow, ho, hf, (Except.ok.inj h).symm⟩

/-- **The style of the input of a text field**, by the place of its text: in a flow it takes the space that is left,
and elsewhere it is widened up to the edge of the field unless it is wide enough. -/
theorem Node.inputStyle_cases {owner fields : Members} {place : Placement} {s : Style}
    (h : inputStyle owner fields place = .ok s) :
    ∃ own, Node.style fields place false = .ok own ∧
      (place.isFlow = true ∧ s = Entries.put (Entries.put (Entries.erase (Entries.erase (Entries.erase own
          "whiteSpace") "width") "flexShrink") "flex" (.whole 1)) "minWidth" (.whole 0) ∨
        place.isFlow = false ∧ ∃ left available, ((fields.get "x").numberOr (.int 0)).sub place.originX = .ok left ∧
          ((owner.get "width").numberOr (.int 0)).sub left = .ok available ∧
          (((fields.get "width").numberOr (.int 0)).lt available = true ∧ (∃ width, available.px = .ok width ∧
              s = Entries.putText (Entries.erase own "whiteSpace") "width" width) ∨
            ((fields.get "width").numberOr (.int 0)).lt available = false ∧ s = Entries.erase own "whiteSpace")) := by
  unfold inputStyle at h
  obtain ⟨own, ho, h⟩ := ok_of_bind h
  refine ⟨own, ho, ?_⟩
  dsimp only at h
  split at h
  · rename_i flows
    exact .inl ⟨flows, (Except.ok.inj h).symm⟩
  · rename_i stands
    obtain ⟨left, hl, h⟩ := ok_of_bind h
    obtain ⟨available, ha, h⟩ := ok_of_bind h
    refine .inr ⟨by simpa using stands, left, available, hl, ha, ?_⟩
    split at h
    · rename_i narrow
      obtain ⟨width, hw, h⟩ := ok_of_bind h
      exact .inl ⟨narrow, width, hw, (Except.ok.inj h).symm⟩
    · rename_i wide
      exact .inr ⟨by simpa using wide, (Except.ok.inj h).symm⟩

theorem Node.inputStyle_ok {owner fields : Members} {place : Placement} {s : Style}
    (h : inputStyle owner fields place = .ok s) :
    ∃ own, Node.style fields place false = .ok own ∧
      (s = Entries.put (Entries.put (Entries.erase (Entries.erase (Entries.erase own "whiteSpace") "width")
          "flexShrink") "flex" (.whole 1)) "minWidth" (.whole 0) ∨
        (∃ width, s = Entries.putText (Entries.erase own "whiteSpace") "width" width) ∨
        s = Entries.erase own "whiteSpace") := by
  obtain ⟨own, ho, ⟨-, rfl⟩ | ⟨-, left, available, -, -, ⟨-, width, -, rfl⟩ | ⟨-, rfl⟩⟩⟩ := inputStyle_cases h
  · exact ⟨own, ho, .inl rfl⟩
  · exact ⟨own, ho, .inr (.inl ⟨width, rfl⟩)⟩
  · exact ⟨own, ho, .inr (.inr rfl)⟩

theorem within_ownStyle {fields : Members} {place : Placement} {drawn : Bool} {s : Style}
    (h : Node.ownStyle fields place drawn = .ok s) : Within nodeProperties s := by
  obtain ⟨width, height, placed, rotated, filled, bordered, shaded, radius, text, -, -, hp, hr, hb, hs, he, ht, rfl⟩ :=
    Node.ownStyle_ok h
  have dimmed {s : Style} (hs : Within nodeProperties s) : Within nodeProperties (Node.putOpacity fields s) := by
    unfold Node.putOpacity
    dsimp only
    split
    · exact within_put hs (by decide) _
    · exact hs
  have hbox : Within nodeProperties [("width", .text width), ("height", .text height)] :=
    within_cons (by decide) _ (within_cons (by decide) _ within_nil)
  have hplaced := within_merge (within_merge hbox ((within_placement hp).mono (by decide)))
    ((within_rotation hr).mono (by decide))
  have hfilled := within_merge (dimmed hplaced) ((within_ownBackground hb).mono (by decide))
  have hshaded := within_merge (within_merge hfilled ((within_border hs).mono (by decide)))
    ((within_shadow he).mono (by decide))
  exact within_merge (within_putText? hshaded (by decide) _) ((within_ownTypography ht).mono (by decide))

/-- **The style of a node has properties of nodes only.** -/
theorem within_style {fields : Members} {place : Placement} {drawn : Bool} {s : Style}
    (h : Node.style fields place drawn = .ok s) : Within nodeProperties s := by
  obtain ⟨own, flow, ho, hf, rfl⟩ := Node.style_ok h
  have hown := within_ownStyle ho
  unfold Node.withFlow
  split
  · exact hown
  · exact within_merge (within_putText (within_erase (within_erase hown _) _) (by decide) _)
      ((within_flow hf).mono (by decide))

theorem known_style {fields : Members} {place : Placement} {drawn : Bool} {s : Style}
    (h : Node.style fields place drawn = .ok s) : Known s := (within_style h).mono (by decide)

namespace Node

section

variable {fields : Members} {place : Placement} {drawn : Bool} {name : String} {s own flow : Style}

/-- An opacity that is put into a style changes no other property. -/
theorem get?_putOpacity (fields : Members) (s : Style) (other : "opacity" ≠ name) :
    Entries.get? (putOpacity fields s) name = Entries.get? s name := by
  unfold putOpacity
  dsimp only
  split
  · exact Entries.get?_put_of_ne other
  · rfl

/-- Nor do round corners. -/
theorem get?_corners (s : Style) (radius : Option String) (other : "borderRadius" ≠ name) :
    Entries.get? (Entries.putText? s "borderRadius" radius) name = Entries.get? s name := by
  cases radius with
  | none => rfl
  | some radius => exact Entries.get?_put_of_ne other

/-- A flow changes the place of its node, and besides it has properties of its own only. -/
theorem get?_withFlow_aside (hf : Layout.flow fields = .ok flow)
    (apart : name ∉ ["position", "left", "top"] ++ flowNames) :
    Entries.get? (withFlow own flow) name = Entries.get? own name := by
  have other {n : String} (there : n ∈ ["position", "left", "top"] ++ flowNames) : n ≠ name :=
    fun same => apart (same ▸ there)
  unfold withFlow
  split
  · rfl
  · rw [(within_flow hf).get?_merge fun there => apart (List.mem_append_right _ there), Entries.putText,
      Entries.get?_put_of_ne (other (by decide)), Entries.get?_erase_of_ne (other (by decide)),
      Entries.get?_erase_of_ne (other (by decide))]

/-- The properties that a style has between its box and its text. -/
def bodyNames : List String :=
  ["position", "flexShrink", "left", "top", "transform", "transformOrigin", "opacity", "background",
   "backgroundColor", "borderWidth", "borderStyle", "borderColor", "boxSizing", "boxShadow", "borderRadius"]

/-- What comes between the box and the text changes no other property of the box. -/
theorem get?_body {radius : Option String} {box placed rotated filled bordered shaded : Style}
    (apart : name ∉ bodyNames) (hp : place.style fields = .ok placed) (hr : Layout.rotation fields = .ok rotated)
    (hb : ownBackground fields drawn = .ok filled) (hs : Paint.border (fields.get "strokes") = .ok bordered)
    (he : Paint.shadow (fields.get "effects") = .ok shaded) :
    Entries.get? (Entries.putText? (Entries.merge (Entries.merge (Entries.merge (putOpacity fields
      (Entries.merge (Entries.merge box placed) rotated)) filled) bordered) shaded) "borderRadius" radius) name =
      Entries.get? box name := by
  have other {n : String} (there : n ∈ bodyNames) : n ≠ name := fun same => apart (same ▸ there)
  have merged {s part : Style} (within : Within bodyNames part) :
      Entries.get? (Entries.merge s part) name = Entries.get? s name := within.get?_merge apart
  rw [get?_corners _ _ (other (by decide)), merged ((within_shadow he).mono (by decide)),
    merged ((within_border hs).mono (by decide)), merged ((within_ownBackground hb).mono (by decide)),
    get?_putOpacity _ _ (other (by decide)), merged ((within_rotation hr).mono (by decide)),
    merged ((within_placement hp).mono (by decide))]

/-- **The style of a node is as wide as the node.** -/
theorem get?_width (h : Node.style fields place drawn = .ok s) :
    ∃ width, ((fields.get "width").numberOr (.int 0)).px = .ok width ∧ Entries.get? s "width" = some (.text width) := by
  obtain ⟨own, flow, ho, hf, rfl⟩ := style_ok h
  obtain ⟨width, height, placed, rotated, filled, bordered, shaded, radius, text, hw, -, hp, hr, hb, hs, he, ht, rfl⟩ :=
    ownStyle_ok ho
  refine ⟨width, hw, ?_⟩
  rw [get?_withFlow_aside hf (by decide), (within_ownTypography ht).get?_merge (by decide),
    get?_body (by decide) hp hr hb hs he]
  rfl

/-- **The border in the style of a node** is the one that its strokes give. -/
theorem get?_border (h : Node.style fields place drawn = .ok s) :
    ∃ bordered, Paint.border (fields.get "strokes") = .ok bordered ∧
      ∀ name ∈ ["borderWidth", "borderStyle", "borderColor"], Entries.get? s name = Entries.get? bordered name := by
  obtain ⟨own, flow, ho, hf, rfl⟩ := style_ok h
  obtain ⟨width, height, placed, rotated, filled, bordered, shaded, radius, text, -, -, hp, hr, hb, hs, he, ht, rfl⟩ :=
    ownStyle_ok ho
  refine ⟨bordered, hs, fun name there => ?_⟩
  have once : (Entries.names bordered).Nodup := by
    rcases Paint.border_cases hs with rfl | ⟨width, color, rfl⟩
    · exact .nil
    · show ["borderWidth", "borderStyle", "borderColor", "boxSizing"].Nodup
      decide
  have apart : ∀ n ∈ ["borderWidth", "borderStyle", "borderColor"], (n ∉ ["position", "left", "top"] ++ flowNames ∧
      n ∉ typographyNames ∧ "borderRadius" ≠ n ∧ n ∉ ["boxShadow"]) ∧ n ∉ ["background", "backgroundColor"] ∧
      "opacity" ≠ n ∧ n ∉ ["transform", "transformOrigin"] ∧ n ∉ ["position", "flexShrink", "left", "top"] ∧
      n ∉ ["width", "height"] := by decide
  obtain ⟨⟨flowing, textual, cornered, shadowed⟩, painted, dimmed, turned, placing, boxed⟩ := apart name there
  have before : Entries.get? [("width", StyleValue.text width), ("height", .text height)] name = none :=
    Entries.get?_eq_none boxed
  rw [get?_withFlow_aside hf flowing, (within_ownTypography ht).get?_merge textual, get?_corners _ _ cornered,
    (within_shadow he).get?_merge shadowed, Entries.get?_merge_of_nodup once,
    (within_ownBackground hb).get?_merge painted, get?_putOpacity _ _ dimmed, (within_rotation hr).get?_merge turned,
    (within_placement hp).get?_merge placing, before, Option.or_none]

end

end Node

/-- The style of the input of a text field has two properties besides. -/
theorem within_inputStyle {field fields : Members} {place : Placement} {s : Style}
    (h : Node.inputStyle field fields place = .ok s) : Within inputProperties s := by
  obtain ⟨own, ho, cases⟩ := Node.inputStyle_ok h
  have hown : Within inputProperties (Entries.erase own "whiteSpace") :=
    within_erase ((within_style ho).mono (by decide)) _
  rcases cases with rfl | ⟨width, rfl⟩ | rfl
  · exact within_put (within_put (within_erase (within_erase hown _) _) (by decide) _) (by decide) _
  · exact within_putText hown (by decide) _
  · exact hown

theorem known_inputStyle {field fields : Members} {place : Placement} {s : Style}
    (h : Node.inputStyle field fields place = .ok s) : Known s := (within_inputStyle h).mono (by decide)

/-- The frame of a node keeps to known properties. -/
theorem known_frame {widget : Option Widget} {id : Int} {fields : Members} {children : List Node}
    {s : Style} {f : Node.Frame} (hs : Known s) (h : Node.frame widget id fields children s = .ok f) :
    Known f.style := by
  have reset : Known Chrome.button ∧ Known Chrome.label := by decide
  cases Node.frames_of_frame h with
  | button => exact within_merge reset.1 hs
  | emptyField _ _ => exact within_merge reset.2 hs
  | textField _ => exact within_merge reset.2 hs
  | checkbox _ => exact within_putText (within_merge reset.2 hs) (by decide) _
  | box _ => exact hs

/-! ## 4. No property twice -/

theorem nodup_ownStyle {fields : Members} {place : Placement} {drawn : Bool} {s : Style}
    (h : Node.ownStyle fields place drawn = .ok s) : (Entries.names s).Nodup := by
  obtain ⟨width, height, placed, rotated, filled, bordered, shaded, radius, text, -, -, -, -, -, -, -, -, rfl⟩ :=
    Node.ownStyle_ok h
  have hbox : (Entries.names [("width", StyleValue.text width), ("height", .text height)]).Nodup := by
    show ["width", "height"].Nodup
    decide
  have dimmed {s : Style} (hs : (Entries.names s).Nodup) :
      (Entries.names (Node.putOpacity fields s)).Nodup := by
    unfold Node.putOpacity
    dsimp only
    split
    · exact Entries.nodup_put hs _ _
    · exact hs
  have rounded {s : Style} (hs : (Entries.names s).Nodup) :
      (Entries.names (Entries.putText? s "borderRadius" radius)).Nodup := by
    cases radius with
    | none => exact hs
    | some radius => exact Entries.nodup_put hs _ _
  have hfilled := Entries.nodup_merge (dimmed (Entries.nodup_merge (Entries.nodup_merge hbox placed) rotated))
    filled
  exact Entries.nodup_merge (rounded (Entries.nodup_merge (Entries.nodup_merge hfilled bordered) shaded)) text

/-- **No property is twice in the style of a node.** -/
theorem nodup_style {fields : Members} {place : Placement} {drawn : Bool} {s : Style}
    (h : Node.style fields place drawn = .ok s) : (Entries.names s).Nodup := by
  obtain ⟨own, flow, ho, -, rfl⟩ := Node.style_ok h
  have hown := nodup_ownStyle ho
  unfold Node.withFlow
  split
  · exact hown
  · exact Entries.nodup_merge (Entries.nodup_put (Entries.nodup_erase (Entries.nodup_erase hown _) _) _ _) _

/-- Nor is one twice in the style of the input of a text field. -/
theorem nodup_inputStyle {field fields : Members} {place : Placement} {s : Style}
    (h : Node.inputStyle field fields place = .ok s) : (Entries.names s).Nodup := by
  obtain ⟨own, ho, cases⟩ := Node.inputStyle_ok h
  have hown : (Entries.names (Entries.erase own "whiteSpace")).Nodup :=
    Entries.nodup_erase (nodup_style ho) _
  rcases cases with rfl | ⟨width, rfl⟩ | rfl
  · exact Entries.nodup_put (Entries.nodup_put (Entries.nodup_erase (Entries.nodup_erase hown _) _) _ _) _ _
  · exact Entries.nodup_put hown _ _
  · exact hown

/-! ## 5. Written styles -/

/-- A style is written under the names that it has. -/
theorem names_writeStyle : ∀ {s : Style} {w : Entries Written}, writeStyle s = .ok w →
    Entries.names w = Entries.names s
  | [], w, h => by
      cases h
      rfl
  | (name, v) :: rest, w, h => by
      unfold writeStyle at h
      obtain ⟨first, _, h⟩ := ok_of_bind h
      obtain ⟨others, ho, h⟩ := ok_of_bind h
      cases h
      exact congrArg (name :: ·) (names_writeStyle ho)

/-- Each property is written by its own value. -/
theorem get?_writeStyle : ∀ {s : Style} {w : Entries Written} (name : String), writeStyle s = .ok w →
    match Entries.get? s name with
    | some v => ∃ written, v.write = .ok written ∧ Entries.get? w name = some written
    | none => Entries.get? w name = none
  | [], w, _, h => by
      cases h
      rfl
  | (other, v) :: rest, w, name, h => by
      unfold writeStyle at h
      obtain ⟨first, hf, h⟩ := ok_of_bind h
      obtain ⟨others, ho, h⟩ := ok_of_bind h
      cases h
      unfold Entries.get?
      by_cases hn : other = name
      · simp only [if_pos hn]
        exact ⟨first, hf, rfl⟩
      · simp only [if_neg hn]
        exact get?_writeStyle name ho

section

variable {s : Style} {w : Entries Written} {name : String} (wrote : writeStyle s = .ok w)
include wrote

/-- What a style does not have is not written. -/
theorem get?_writeStyle_none (missing : Entries.get? s name = none) : Entries.get? w name = none := by
  have kept := get?_writeStyle name wrote
  rwa [missing] at kept

theorem get?_writeStyle_some {v : StyleValue} {written : Written} (has : Entries.get? s name = some v)
    (spelt : v.write = .ok written) : Entries.get? w name = some written := by
  have kept := get?_writeStyle name wrote
  rw [has] at kept
  obtain ⟨written', spelt', found⟩ := kept
  cases spelt.symm.trans spelt'
  exact found

/-- A text is written as it is. -/
theorem get?_writeStyle_text {text : Option String} (has : Entries.get? s name = text.map StyleValue.text) :
    Entries.get? w name = text.map Written.quoted := by
  cases text with
  | none => exact get?_writeStyle_none wrote has
  | some text => exact get?_writeStyle_some wrote has rfl

end

end Artboard
