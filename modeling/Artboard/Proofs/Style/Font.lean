import Artboard.Proofs.Style.Property

/-!
# The font that a style gives

The style of a text says its family and its weight (`Typography.ShowsFont`), and they are the ones that its
fields give: no other part of a style has one of the two, and the input of a text field keeps those of its text
(`Node.showsFont_style`, `Node.showsFont_input`).  They are written as they are, the weight as any number
(`Typography.ShowsFont.written`).
-/

namespace Artboard

open Style

namespace Typography

/-- The properties that name a font. -/
def fontNames : List String := ["fontFamily", "fontWeight"]

/-- **A style shows the font of a text**: its family, if it has one, and its weight. -/
def ShowsFont (fields : Members) (style : Style) : Prop :=
  Entries.get? style "fontFamily" = (familyOf? fields).map StyleValue.text ∧
    ∃ weight, weightOf fields = .ok weight ∧ Entries.get? style "fontWeight" = some (.whole weight)

variable {fields : Members} {style : Style}

theorem ShowsFont.congr {other : Style} (h : ShowsFont fields style)
    (same : ∀ name ∈ fontNames, Entries.get? other name = Entries.get? style name) : ShowsFont fields other := by
  obtain ⟨family, weight, looked, shown⟩ := h
  exact ⟨(same _ (by decide)).trans family, weight, looked, (same _ (by decide)).trans shown⟩

/-- **A written style shows the font of a text**, its weight by its digits. -/
def WritesFont (fields : Members) (written : Entries Written) : Prop :=
  Entries.get? written "fontFamily" = (familyOf? fields).map Written.quoted ∧
    ∃ weight digits, weightOf fields = .ok weight ∧ (Number.int weight).format 2 = .ok digits ∧
      Entries.get? written "fontWeight" = some (.bare digits)

theorem ShowsFont.written {written : Entries Written} (h : ShowsFont fields style)
    (wrote : writeStyle style = .ok written) : WritesFont fields written := by
  obtain ⟨family, weight, looked, shown⟩ := h
  have hweight := get?_writeStyle "fontWeight" wrote
  rw [shown] at hweight
  refine ⟨get?_writeStyle_text wrote family, weight, ?_⟩
  obtain ⟨v, hv, found⟩ := hweight
  obtain ⟨digits, formatted, hv⟩ := ok_of_bind hv
  cases hv
  exact ⟨digits, looked, formatted, found⟩

/-! ## 1. The part of a style that is about text -/

theorem get?_putText? (style : Style) (name other : String) (text : Option String) :
    Entries.get? (Entries.putText? style name text) other =
      if name = other then (text.map StyleValue.text).or (Entries.get? style other)
      else Entries.get? style other := by
  cases text with
  | none => simp [Entries.putText?]
  | some text =>
    show Entries.get? (Entries.put style name (.text text)) other = _
    rw [Entries.get?_put]
    rfl

theorem nodup_putText? {style : Style} (h : (Entries.names style).Nodup) (name : String)
    (text : Option String) : (Entries.names (Entries.putText? style name text)).Nodup := by
  cases text with
  | none => exact h
  | some text => exact Entries.nodup_put h _ _

theorem showsFont_typography (h : Typography.style fields = .ok style) : ShowsFont fields style := by
  obtain ⟨color, size, weight, lineHeight, letterSpacing, looked, rfl⟩ := style_ok h
  refine ⟨?_, weight, looked, ?_⟩
  · simp [Entries.putText, Entries.get?_put, get?_putText?, Entries.get?]
  · simp [Entries.putText, Entries.get?_put, get?_putText?]

theorem nodup_typography (h : Typography.style fields = .ok style) : (Entries.names style).Nodup := by
  obtain ⟨color, size, weight, lineHeight, letterSpacing, -, rfl⟩ := style_ok h
  have none : (Entries.names ([] : Style)).Nodup := .nil
  have base := nodup_putText? (nodup_putText? (nodup_putText? none "color" color) "fontSize" size) "fontFamily"
    (familyOf? fields)
  have aligned := Entries.nodup_put (Entries.nodup_put base "fontWeight" (.whole weight)) "textAlign"
    (.text (align (fields.get "textAlign")))
  have spaced := nodup_putText? (nodup_putText? aligned "lineHeight" lineHeight) "letterSpacing" letterSpacing
  exact Entries.nodup_put spaced _ _

end Typography

/-! ## 2. The whole style -/

namespace Node

open Typography

variable {fields : Members} {place : Placement} {drawn : Bool} {style : Style} {name : String}

/-- The part about text is the one that has a font. -/
theorem showsFont_ownStyle (text : isText fields = true) (h : ownStyle fields place drawn = .ok style) :
    ShowsFont fields style := by
  obtain ⟨width, height, placed, rotated, filled, bordered, shaded, radius, own, -, -, hp, hr, hb, hs, he, ht, rfl⟩ :=
    ownStyle_ok h
  have typography : Typography.style fields = .ok own := by
    unfold ownTypography at ht
    rwa [if_pos text] at ht
  refine (showsFont_typography typography).congr fun name font => ?_
  have apart : ∀ n ∈ fontNames, n ∉ bodyNames ∧ n ∉ ["width", "height"] := by decide
  have boxed : Entries.get? [("width", StyleValue.text width), ("height", .text height)] name = none :=
    Entries.get?_eq_none (apart name font).2
  rw [Entries.get?_merge_of_nodup (nodup_typography typography), get?_body (apart name font).1 hp hr hb hs he,
    boxed, Option.or_none]

/-- **The style of a text shows its font**, wherever it is. -/
theorem showsFont_style (text : isText fields = true) (h : Node.style fields place drawn = .ok style) :
    ShowsFont fields style := by
  obtain ⟨own, flow, ho, hf, rfl⟩ := style_ok h
  refine (showsFont_ownStyle text ho).congr fun name font => ?_
  have apart : ∀ n ∈ fontNames, n ∉ ["position", "left", "top"] ++ flowNames := by decide
  exact get?_withFlow_aside hf (apart name font)

/-- **The input of a text field shows the font of its text.** -/
theorem showsFont_input {owner : Members} (text : isText fields = true)
    (h : inputStyle owner fields place = .ok style) : ShowsFont fields (Chrome.input.merge style) := by
  obtain ⟨base, hb, cases⟩ := inputStyle_ok h
  refine (showsFont_style text hb).congr fun name font => ?_
  have two : name = "fontFamily" ∨ name = "fontWeight" := by simpa [fontNames] using font
  have bare : Entries.get? Chrome.input name = none := by rcases two with rfl | rfl <;> rfl
  rw [Entries.get?_merge_of_nodup (nodup_inputStyle h), bare, Option.or_none]
  rcases cases with rfl | ⟨width, rfl⟩ | rfl <;> rcases two with rfl | rfl <;>
    simp [Entries.putText, Entries.get?_put, Entries.get?_erase]

end Node

end Artboard
