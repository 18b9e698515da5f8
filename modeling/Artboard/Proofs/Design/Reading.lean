import Artboard.Markup.OfNode

/-!
# Which fields a rule reads

A rule looks up a few fields of a node by their names, and whatever else the node has does not matter to it.  Here
this is said once of each rule: on fields that agree on the names that it looks up (`Members.Agree`) it gives the
same.  Agreeing is about what is looked up, so a field that is missing agrees with one that is null, and the order
of fields does not count.

The style of a node reads its box, its place and its opacity by their numbers, and its paints by what comes of them
(`Node.PaintedAlike`, `Node.style_congr`); all its other properties come from `Node.shapeNames` alone.  Paints that
are the same come out the same (`Node.style_agree`).
-/

namespace Artboard

namespace Members

/-- Fields that agree on these names. -/
def Agree (names : List String) (fields others : Members) : Prop :=
  ∀ name ∈ names, fields.get name = others.get name

/-- Fields that agree on all names but these. -/
def AgreeOff (names : List String) (fields others : Members) : Prop :=
  ∀ name, name ∉ names → fields.get name = others.get name

variable {names fewer : List String} {fields others : Members}

theorem Agree.mono (h : Agree names fields others) (sub : ∀ name ∈ fewer, name ∈ names) :
    Agree fewer fields others := fun name hn => h name (sub name hn)

theorem AgreeOff.agree (h : AgreeOff names fields others) (apart : ∀ name ∈ fewer, name ∉ names) :
    Agree fewer fields others := fun name hn => h name (apart name hn)

theorem AgreeOff.mono (h : AgreeOff fewer fields others) (sub : ∀ name ∈ fewer, name ∈ names) :
    AgreeOff names fields others := fun name hn => h name fun mem => hn (sub name mem)

theorem AgreeOff.refl (names : List String) (fields : Members) : AgreeOff names fields fields := fun _ _ => rfl

/-- The number of a field, zero where there is none. -/
abbrev numberOf (fields : Members) (name : String) : Number := (fields.get name).numberOr (.int 0)

end Members

open Members

variable {fields others : Members}

/-! ## 1. What a node is -/

namespace Node

/-- The fields that tell a text. -/
def leafNames : List String := ["type", "textContent"]

/-- The fields that carry images. -/
def assetNames : List String := ["svg", "svgBase64", "image"]

theorem hides_agree (h : Agree ["visible"] fields others) : hides fields = hides others := by
  unfold hides
  rw [h "visible" (by decide)]

theorem isText_agree (h : Agree ["type"] fields others) : isText fields = isText others := by
  unfold isText
  rw [h "type" (by decide)]

theorem leafText?_agree (h : Agree leafNames fields others) : leafText? fields = leafText? others := by
  have type : isText fields = isText others := isText_agree (h.mono (by decide))
  unfold leafText? content?
  rw [type, h "textContent" (by decide)]

theorem isAutoLayout_agree (h : Agree ["layoutMode"] fields others) : isAutoLayout fields = isAutoLayout others := by
  unfold isAutoLayout wordIn
  rw [h "layoutMode" (by decide)]

end Node

theorem Asset.ofNode?_agree (h : Agree Node.assetNames fields others) :
    Asset.ofNode? fields = Asset.ofNode? others := by
  unfold Asset.ofNode? Asset.vectorIn? Asset.rasterIn?
  rw [h "svg" (by decide), h "svgBase64" (by decide), h "image" (by decide)]

theorem Node.isOpaque_agree (h : Agree (Node.leafNames ++ Node.assetNames) fields others) :
    Node.isOpaque fields = Node.isOpaque others := by
  unfold Node.isOpaque
  rw [Node.leafText?_agree (h.mono (by decide)), Asset.ofNode?_agree (h.mono (by decide))]

theorem Widget.ofNode_agree (h : Agree ["name", "type"] fields others) :
    Widget.ofNode fields = Widget.ofNode others := by
  have type : Node.isText fields = Node.isText others := Node.isText_agree (h.mono (by decide))
  unfold Widget.ofNode Widget.ofName
  rw [h "name" (by decide), h "type" (by decide), type]

theorem Node.description_agree (h : Agree ["name"] fields others) :
    Node.description fields = Node.description others := by
  unfold Node.description
  rw [h "name" (by decide)]

/-! ## 2. Texts -/

namespace Typography

/-- The fields that name the font of a text. -/
def fontFields : List String := ["fontFamily", "fontName", "fontWeight"]

/-- The fields that say how a text looks. -/
def fieldNames : List String :=
  ["fontFamily", "fontName", "fontWeight", "fontSize", "fills", "lineHeight", "letterSpacing", "textAlign"]

theorem familyOf?_agree (h : Agree fontFields fields others) : familyOf? fields = familyOf? others := by
  unfold familyOf? fontName
  rw [h "fontFamily" (by decide), h "fontName" (by decide)]

theorem weightOf_agree (h : Agree fontFields fields others) : weightOf fields = weightOf others := by
  unfold weightOf fontName
  rw [h "fontWeight" (by decide), h "fontName" (by decide)]

/-- The fields that say how a text is set. -/
def setNames : List String := fontFields ++ ["fontSize", "lineHeight", "letterSpacing", "textAlign"]

/-- Texts have the same style if they are set in the same way and have the same colour. -/
theorem style_congr (h : Agree setNames fields others)
    (color : Paint.firstSolid? (fields.get "fills") = Paint.firstSolid? (others.get "fills")) :
    style fields = style others := by
  have font : Agree fontFields fields others := h.mono (by decide)
  unfold style
  rw [familyOf?_agree font, weightOf_agree font, color, h "fontSize" (by decide), h "lineHeight" (by decide),
    h "letterSpacing" (by decide), h "textAlign" (by decide)]

theorem style_agree (h : Agree fieldNames fields others) : style fields = style others :=
  style_congr (h.mono (by decide)) (by rw [h "fills" (by decide)])

end Typography

theorem Compile.useFont_agree (h : Agree Typography.fontFields fields others) :
    Compile.useFont fields = Compile.useFont others := by
  unfold Compile.useFont
  rw [Typography.familyOf?_agree h, Typography.weightOf_agree h]

/-! ## 3. Styles -/

namespace Layout

/-- The fields that say how children flow. -/
def flowFields : List String :=
  ["layoutMode", "paddingTop", "paddingRight", "paddingBottom", "paddingLeft", "gap", "primaryAxisAlignItems",
    "counterAxisAlignItems"]

theorem rotation_agree (h : Agree ["rotation"] fields others) : rotation fields = rotation others := by
  unfold rotation
  rw [h "rotation" (by decide)]

theorem lengths_agree {names : List String} (h : Agree names fields others) :
    lengths fields names = lengths others names := by
  induction names with
  | nil => rfl
  | cons name rest ih =>
    unfold lengths length
    rw [h name List.mem_cons_self, ih (h.mono fun _ => List.mem_cons_of_mem _)]

theorem flow_agree (h : Agree flowFields fields others) : flow fields = flow others := by
  unfold flow
  rw [Node.isAutoLayout_agree (h.mono (by decide)), lengths_agree (h.mono (by decide)), h "layoutMode" (by decide),
    h "primaryAxisAlignItems" (by decide), h "counterAxisAlignItems" (by decide)]

end Layout

namespace Node

/-- The fields that a style comes from, its box, its place and its opacity aside. -/
def lookNames : List String :=
  ["type", "rotation", "fills", "strokes", "effects", "cornerRadius"] ++ Typography.fieldNames ++ Layout.flowFields

theorem corners?_agree (h : Agree ["cornerRadius"] fields others) : corners? fields = corners? others := by
  unfold corners?
  rw [h "cornerRadius" (by decide)]

/-- The fields that a style comes from, its box, its place, its opacity and its paints aside. -/
def shapeNames : List String := ["type", "rotation", "cornerRadius"] ++ Typography.setNames ++ Layout.flowFields

/-- **Two nodes are painted alike**: what they do with their paints comes out the same. -/
structure PaintedAlike (fields others : Members) : Prop where
  background : Paint.background (fields.get "fills") = Paint.background (others.get "fills")
  color : Paint.firstSolid? (fields.get "fills") = Paint.firstSolid? (others.get "fills")
  border : Paint.border (fields.get "strokes") = Paint.border (others.get "strokes")
  shadow : Paint.shadow (fields.get "effects") = Paint.shadow (others.get "effects")

/-- **Two nodes have the same style** if they have the same shape, are painted alike and are written with the same
box, place and opacity. -/
theorem style_congr {place other : Placement} {drawn : Bool} (shape : Agree shapeNames fields others)
    (painted : PaintedAlike fields others) (width : (numberOf fields "width").px = (numberOf others "width").px)
    (height : (numberOf fields "height").px = (numberOf others "height").px)
    (placed : place.style fields = other.style others)
    (opacity : ∀ s : Style, putOpacity fields s = putOpacity others s) :
    style fields place drawn = style others other drawn := by
  have text : isText fields = isText others := isText_agree (shape.mono (by decide))
  have background : ownBackground fields drawn = ownBackground others drawn := by
    unfold ownBackground
    rw [text, painted.background]
  have typography : ownTypography fields = ownTypography others := by
    unfold ownTypography
    rw [text, Typography.style_congr (shape.mono (by decide)) painted.color]
  have own : ownStyle fields place drawn = ownStyle others other drawn := by
    unfold ownStyle
    rw [width, height, placed, Layout.rotation_agree (shape.mono (by decide)), background, painted.border,
      painted.shadow, corners?_agree (shape.mono (by decide)), typography]
    simp only [opacity]
  unfold style
  rw [own, Layout.flow_agree (shape.mono (by decide))]

/-- Two nodes have the same style if they look the same and are written with the same box, place and opacity. -/
theorem style_agree {place other : Placement} {drawn : Bool} (looks : Agree lookNames fields others)
    (width : (numberOf fields "width").px = (numberOf others "width").px)
    (height : (numberOf fields "height").px = (numberOf others "height").px)
    (placed : place.style fields = other.style others)
    (opacity : ∀ s : Style, putOpacity fields s = putOpacity others s) :
    style fields place drawn = style others other drawn := by
  have painted : PaintedAlike fields others := by
    constructor <;> rw [looks _ (by decide)]
  exact style_congr (looks.mono (by decide)) painted width height placed opacity

end Node

end Artboard
