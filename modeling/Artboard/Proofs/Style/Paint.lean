import Artboard.Proofs.Design.Reading
import Artboard.Proofs.Style.Property

/-!
# Paints that are hidden

A paint is hidden by a `visible` that is false.  Fills and effects are chosen among the paints that are not hidden
(`Paint.shown`), so that hidden ones can be taken out of both lists and every node keeps its style.  The border comes
from the first stroke, hidden or not: a hidden stroke can be taken out as long as the border stays as it is, which it
does unless it is the first one that goes (`Node.style_repainted`), and otherwise a hidden stroke gives a border
(`Node.style_hiddenStroke`).
-/

namespace Artboard

namespace Paint

/-! ## 1. Lists without some of their hidden paints -/

/-- A paint that is hidden. -/
def isHidden : Value → Bool
  | .object paint => (Entries.get paint "visible").isFalse
  | _ => false

/-- **A list of paints and the same list without some that are hidden.** -/
inductive Thinned : List Value → List Value → Prop where
  | nil : Thinned [] []
  | keep {v vs ws} (rest : Thinned vs ws) : Thinned (v :: vs) (v :: ws)
  | drop {v vs ws} (hidden : isHidden v = true) (rest : Thinned vs ws) : Thinned (v :: vs) ws

/-- The paints of a field and the same ones without some that are hidden; what is no list stays as it is. -/
inductive Pruned : Value → Value → Prop where
  | same (v : Value) : Pruned v v
  | list {vs ws} (thinned : Thinned vs ws) : Pruned (.list vs) (.list ws)

variable {v w : Value} {vs ws : List Value}

theorem shown_cons (v : Value) (vs : List Value) : shown (.list (v :: vs)) =
    if isHidden v then shown (.list vs) else v.members?.toList ++ shown (.list vs) := by
  cases v with
  | object paint =>
    cases hidden : (Entries.get paint "visible").isFalse <;>
      simp [shown, objects, isHidden, Value.items, Value.members?, hidden]
  | _ => rfl

theorem shown_of_thinned (h : Thinned vs ws) : shown (.list vs) = shown (.list ws) := by
  induction h with
  | nil => rfl
  | keep rest ih => rw [shown_cons, shown_cons, ih]
  | drop hidden rest ih => rw [shown_cons, if_pos hidden, ih]

/-- **Hidden paints are not among those that show.** -/
theorem shown_pruned (h : Pruned v w) : shown v = shown w := by
  cases h with
  | same v => rfl
  | list thinned => exact shown_of_thinned thinned

/-! ## 2. What is chosen among paints -/

theorem background_pruned (h : Pruned v w) : background v = background w := by
  unfold background
  rw [shown_pruned h]

theorem firstSolid?_pruned (h : Pruned v w) : firstSolid? v = firstSolid? w := by
  unfold firstSolid?
  rw [shown_pruned h]

/-- The shadow is one of the effects that show. -/
theorem find?_isShadow (effects : Value) :
    (objects effects.items).find? isShadow = (shown effects).find? isShadow := by
  unfold shown
  rw [List.find?_filter]
  congr 1
  funext effect
  unfold isShadow
  cases (effect.get "visible").isFalse <;> simp

theorem shadow_pruned (h : Pruned v w) : shadow v = shadow w := by
  unfold shadow
  rw [find?_isShadow, find?_isShadow, shown_pruned h]

/-- The border reads the first stroke only. -/
theorem border_congr (h : v.items.head? = w.items.head?) : border v = border w := by
  unfold border
  generalize v.items = strokes at h ⊢
  generalize w.items = others at h ⊢
  cases strokes with
  | nil =>
    cases others with
    | nil => rfl
    | cons _ _ => cases h
  | cons stroke _ =>
    cases others with
    | nil => cases h
    | cons _ _ =>
      cases h
      cases stroke <;> rfl

end Paint

/-! ## 3. Styles -/

namespace Node

open Members Paint

variable {fields others : Members} {place : Placement} {drawn : Bool} {style : Style}

/-- The fields that hold paints. -/
def paintNames : List String := ["fills", "strokes", "effects"]

/-- **A node and the same node without some of its hidden paints.** -/
structure Repainted (fields others : Members) : Prop where
  aside : AgreeOff paintNames fields others
  paints : ∀ name ∈ paintNames, Pruned (fields.get name) (others.get name)

/-- Hidden paints make no difference but to the border. -/
theorem Repainted.alike (h : Repainted fields others)
    (border : Paint.border (fields.get "strokes") = Paint.border (others.get "strokes")) :
    PaintedAlike fields others where
  background := background_pruned (h.paints "fills" (by decide))
  color := firstSolid?_pruned (h.paints "fills" (by decide))
  border := border
  shadow := shadow_pruned (h.paints "effects" (by decide))

/-- Two styles that come out the same have the same border. -/
theorem border_eq_of_style (h : Node.style fields place drawn = .ok style)
    (k : Node.style others place drawn = .ok style) :
    Paint.border (fields.get "strokes") = Paint.border (others.get "strokes") := by
  obtain ⟨one, first, found⟩ := get?_border h
  obtain ⟨two, second, found'⟩ := get?_border k
  have same : ∀ name ∈ ["borderWidth", "borderStyle", "borderColor"], Entries.get? one name = Entries.get? two name :=
    fun name there => (found name there).symm.trans (found' name there)
  have width := same "borderWidth" (by decide)
  have color := same "borderColor" (by decide)
  rw [first, second]
  rcases Paint.border_cases first with rfl | ⟨w, c, rfl⟩ <;> rcases Paint.border_cases second with rfl | ⟨w', c', rfl⟩
  · rfl
  · cases width
  · cases width
  · cases width
    cases color
    rfl

/-- **Hidden paints.**  A node whose hidden fills, strokes and effects are taken out, any of them, keeps its style
wherever it is drawn, or fails with the same fault, if its border stays as it is; and where it has a style, it keeps it
only then.  The border stays as it is if the first stroke does. -/
theorem style_repainted (h : Repainted fields others) :
    (Paint.border (fields.get "strokes") = Paint.border (others.get "strokes") →
        ∀ place drawn, Node.style fields place drawn = Node.style others place drawn) ∧
      (∀ place drawn style, Node.style fields place drawn = .ok style → Node.style others place drawn = .ok style →
        Paint.border (fields.get "strokes") = Paint.border (others.get "strokes")) ∧
      ((fields.get "strokes").items.head? = (others.get "strokes").items.head? →
        Paint.border (fields.get "strokes") = Paint.border (others.get "strokes")) := by
  refine ⟨fun border place drawn => ?same, fun _ _ _ => border_eq_of_style, border_congr⟩
  case same =>
    have kept : Agree ["width", "height", "x", "y", "opacity"] fields others := h.aside.agree (by decide)
    have width := kept "width" (by decide)
    have height := kept "height" (by decide)
    have opacity := kept "opacity" (by decide)
    refine style_congr (h.aside.agree (by decide)) (h.alike border) (by rw [numberOf, width]) (by rw [numberOf, height])
      ?_ fun s => by rw [putOpacity, opacity]; rfl
    unfold Placement.style
    rw [kept "x" (by decide), kept "y" (by decide)]

/-! ## 4. Hidden paints in a design -/

/-- A node of 10 by 10 with these paints. -/
def painted (fills strokes effects : List Value) : Members :=
  [("fills", .list fills), ("strokes", .list strokes), ("effects", .list effects), ("width", .number (.int 10)),
    ("height", .number (.int 10))]

theorem repainted_painted {fills strokes effects : List Value} {fills' strokes' effects' : List Value}
    (hf : Thinned fills fills') (hs : Thinned strokes strokes') (he : Thinned effects effects') :
    Repainted (painted fills strokes effects) (painted fills' strokes' effects') where
  aside := by
    intro name apart
    obtain ⟨one, two, three⟩ : "fills" ≠ name ∧ "strokes" ≠ name ∧ "effects" ≠ name := by
      simpa [paintNames, eq_comm] using apart
    simp [painted, Entries.get, Entries.get?, one, two, three]
  paints := List.forall_mem_cons.mpr ⟨.list hf, List.forall_mem_cons.mpr ⟨.list hs,
    List.forall_mem_cons.mpr ⟨.list he, nofun⟩⟩⟩

/-- A paint of some green. -/
def green (kind : String) (visible : Bool) : Value :=
  .object [("type", .text kind), ("visible", .bool visible), ("color", .object
    [("r", .number (.int 0)), ("g", .number (.int 1)), ("b", .number (.int 0))])]

theorem style_repainted_green :
    Repainted (painted [green "SOLID" false, green "SOLID" true] [green "SOLID" true, green "SOLID" false]
        [green "DROP_SHADOW" false, green "DROP_SHADOW" true])
      (painted [green "SOLID" true] [green "SOLID" true] [green "DROP_SHADOW" true]) ∧
    Node.style (painted [green "SOLID" false, green "SOLID" true] [green "SOLID" true, green "SOLID" false]
        [green "DROP_SHADOW" false, green "DROP_SHADOW" true]) .root false =
      Node.style (painted [green "SOLID" true] [green "SOLID" true] [green "DROP_SHADOW" true]) .root false ∧
    (Node.style (painted [green "SOLID" true] [green "SOLID" true] [green "DROP_SHADOW" true]) .root
      false).toOption.map Entries.names = some ["width", "height", "position", "backgroundColor", "borderWidth",
        "borderStyle", "borderColor", "boxSizing", "boxShadow"] := by
  have thinned {v : Value} (kind : String) : Thinned [green kind false, v] [v] := .drop rfl (.keep .nil)
  have repainted : Repainted (painted [green "SOLID" false, green "SOLID" true]
        [green "SOLID" true, green "SOLID" false] [green "DROP_SHADOW" false, green "DROP_SHADOW" true])
      (painted [green "SOLID" true] [green "SOLID" true] [green "DROP_SHADOW" true]) :=
    repainted_painted (thinned _) (.keep (.drop rfl .nil)) (thinned _)
  obtain ⟨same, -, first⟩ := style_repainted repainted
  exact ⟨repainted, same (first rfl) .root false, by decide +kernel⟩

/-- **A hidden stroke gives a border**: without it there is none. -/
theorem style_hiddenStroke :
    Repainted (painted [] [green "SOLID" false] []) (painted [] [] []) ∧
      Node.style (painted [] [green "SOLID" false] []) .root false =
        .ok [("width", .text "10px"), ("height", .text "10px"), ("position", .text "relative"),
          ("borderWidth", .text "1px"), ("borderStyle", .text "solid"), ("borderColor", .text "rgb(0, 255, 0)"),
          ("boxSizing", .text "border-box")] ∧
      Node.style (painted [] [] []) .root false =
        .ok [("width", .text "10px"), ("height", .text "10px"), ("position", .text "relative")] :=
  ⟨repainted_painted .nil (.drop rfl .nil) .nil, by decide +kernel, by decide +kernel⟩

end Node

end Artboard
