import Artboard.Proofs.Cascade
import Artboard.Proofs.Pruning
import Artboard.Proofs.Style.Position

/-!
# Text fields

A text field is a label with exactly one input of its own.  The first of its children that is a text and is not hidden
is the input, with the text as its placeholder, and where there is none an input that fills the field comes before its
children; all else in it is drawn as it is elsewhere, in order (`Node.Inside`).

Where the field has a flow, the input takes the space that is left.  Elsewhere it is as wide as its text, but at least
up to the right edge of the field (`Node.Fitted`).  `Node.textField_markup` is the main result.
-/

namespace Artboard

/-- The greater of two numbers, the first where they are equal. -/
def Number.max (a b : Number) : Number := if a.lt b then b else a

theorem Number.max_int (a b : Int) : (int a).max (.int b) = .int (Max.max a b) := by
  unfold Number.max
  rw [lt_int]
  split
  · rename_i h
    have less : a < b := of_decide_eq_true h
    rw [Int.max_eq_right (Int.le_of_lt less)]
  · rename_i h
    have least : b ≤ a := Int.not_lt.mp fun less => h (decide_eq_true less)
    rw [Int.max_eq_left least]

/-- An input, rather than an element that may hold one. -/
def Markup.isInput : Markup → Bool
  | .text _ => false
  | .element tag _ _ _ => decide (tag = .input)

/-- The style of the input that fills a text field, as it is written. -/
def Chrome.filling : Entries Written :=
  [("padding", .bare "0"), ("margin", .bare "0"), ("border", .quoted "none"), ("outline", .quoted "none"),
    ("background", .quoted "transparent"), ("position", .quoted "absolute"), ("left", .bare "0"), ("top", .bare "0"),
    ("width", .quoted "100%"), ("height", .quoted "100%")]

theorem Chrome.writeStyle_fill : writeStyle (Chrome.input.merge Chrome.fill) = .ok Chrome.filling := by
  decide +kernel

namespace Node

open Markup

variable {owner fields : Members} {origin : Point} {place : Placement} {drawn : Bool} {style : Style}
  {written : Entries Written}

/-! ## 1. The style of the input -/

/-- **Up to the right edge**: an input that starts at `left` and whose text is `w` wide, in a field that is `W` wide.
Large numbers are written rounded (`Number.written`). -/
structure Reaches (fields : Members) (left w W : Int) (written : Entries Written) : Prop where
  /-- it starts there, unless it has a flow -/
  start : isAutoLayout fields = false → Entries.get? written "left" = some (.quoted (pixelText (Number.written left)))
  width : Entries.get? written "width" = some (.quoted (pixelText (Number.written (Max.max w (W - left)))))
  edge : W ≤ left + Max.max w (W - left)
  /-- what is written reaches the edge as well, as long as it is not rounded -/
  writtenEdge : left.natAbs < 2 ^ 53 → (Max.max w (W - left)).natAbs < 2 ^ 53 →
    W ≤ Number.written left + Number.written (Max.max w (W - left))

/-- **How the input of a text field is fitted into the field**, by the origin that the field gives to its children. -/
structure Fitted (owner : Members) (origin : Point) (fields : Members) (written : Entries Written) : Prop where
  /-- it breaks no lines -/
  lines : Entries.get? written "whiteSpace" = none
  /-- in a flow it takes the space that is left -/
  flowing : isAutoLayout owner = true →
    Entries.get? written "flex" = some (.bare "1") ∧ Entries.get? written "minWidth" = some (.bare "0") ∧
      Entries.get? written "width" = none ∧ Entries.get? written "flexShrink" = none
  /-- elsewhere it is as wide as its text, or as what is left of the field if that is more -/
  standing : isAutoLayout owner = false → ∃ left available width,
    ((fields.get "x").numberOr (.int 0)).sub origin.x = .ok left ∧
      ((owner.get "width").numberOr (.int 0)).sub left = .ok available ∧
      (((fields.get "width").numberOr (.int 0)).max available).px = .ok width ∧
      Entries.get? written "width" = some (.quoted width) ∧
      (isAutoLayout fields = false → ∃ side, left.px = .ok side ∧ Entries.get? written "left" = some (.quoted side))
  /-- in whole numbers, it then reaches the right edge of the field -/
  reaching : isAutoLayout owner = false → ∀ x o w W : Int,
    (fields.get "x").numberOr (.int 0) = .int x → origin.x = .int o →
      (fields.get "width").numberOr (.int 0) = .int w → (owner.get "width").numberOr (.int 0) = .int W →
      Reaches fields (x - o) w W written

/-- Where a node stands that is placed at its own coordinates. -/
theorem get?_left {x y : Number} (h : Node.style fields (.absolute x y) drawn = .ok style)
    (stands : isAutoLayout fields = false) : ∃ left side, ((fields.get "x").numberOr (.int 0)).sub x = .ok left ∧
      left.px = .ok side ∧ Entries.get? style "left" = some (.text side) := by
  obtain ⟨placed, hp, same⟩ := get?_style_placed h
  cases Placement.gives_of_style hp with
  | @absolute _ _ left _ side _ moved _ wrote _ =>
    refine ⟨left, side, moved, wrote, ?_⟩
    rw [same "left" (by decide), stands]
    rfl

section

variable {name : String} (h : inputStyle owner fields place = .ok style)
  (apart : name ∉ Entries.names Chrome.input)
include h apart

/-- The style of an input goes over its reset. -/
theorem get?_input : Entries.get? (Chrome.input.merge style) name = Entries.get? style name := by
  rw [Entries.get?_merge_of_nodup (nodup_inputStyle h), Entries.get?_eq_none apart, Option.or_none]

variable (wrote : writeStyle (Chrome.input.merge style) = .ok written)
include wrote

theorem get?_input_none (missing : Entries.get? style name = none) : Entries.get? written name = none :=
  get?_writeStyle_none wrote ((get?_input h apart).trans missing)

theorem get?_input_some {v : StyleValue} {w : Written} (has : Entries.get? style name = some v)
    (spelt : v.write = .ok w) : Entries.get? written name = some w :=
  get?_writeStyle_some wrote ((get?_input h apart).trans has) spelt

end

/-- In a flow, an input takes the space that is left. -/
theorem get?_inputStyle_flow (h : inputStyle owner fields .flow = .ok style) :
    Entries.get? style "whiteSpace" = none ∧ Entries.get? style "width" = none ∧
      Entries.get? style "flexShrink" = none ∧ Entries.get? style "flex" = some (.whole 1) ∧
      Entries.get? style "minWidth" = some (.whole 0) := by
  obtain ⟨own, -, ⟨-, rfl⟩ | ⟨stands, -⟩⟩ := inputStyle_cases h
  · simp [Entries.get?_put, Entries.get?_erase]
  · cases stands

/-- Elsewhere it is as wide as its text, or as what is left of the field if that is more. -/
theorem get?_inputStyle_absolute {x y : Number} (h : inputStyle owner fields (.absolute x y) = .ok style) :
    Entries.get? style "whiteSpace" = none ∧ ∃ left available width,
      ((fields.get "x").numberOr (.int 0)).sub x = .ok left ∧
        ((owner.get "width").numberOr (.int 0)).sub left = .ok available ∧
        (((fields.get "width").numberOr (.int 0)).max available).px = .ok width ∧
        Entries.get? style "width" = some (.text width) := by
  obtain ⟨own, styled, ⟨flows, -⟩ | ⟨-, left, available, moved, rest, widened⟩⟩ := inputStyle_cases h
  · cases flows
  unfold Number.max
  rcases widened with ⟨narrow, width, wrote, rfl⟩ | ⟨wide, rfl⟩
  · refine ⟨?_, left, available, width, moved, rest, ?_, ?_⟩
    · simp [Entries.putText, Entries.get?_put, Entries.get?_erase]
    · rwa [if_pos narrow]
    · simp [Entries.putText, Entries.get?_put]
  · obtain ⟨width, wrote, found⟩ := get?_width styled
    refine ⟨?_, left, available, width, moved, rest, ?_, ?_⟩
    · simp [Entries.get?_erase]
    · rwa [wide, if_neg Bool.false_ne_true]
    · simpa [Entries.get?_erase] using found

/-- In whole numbers, what is as wide as its text or as what is left of the field reaches the edge of the field. -/
theorem reaches_of_px {x o w W : Int} {left available : Number} {width : String}
    (moved : (Number.int x).sub (.int o) = .ok left) (rest : (Number.int W).sub left = .ok available)
    (spelt : ((Number.int w).max available).px = .ok width)
    (found : Entries.get? written "width" = some (.quoted width))
    (stands : isAutoLayout fields = false →
      ∃ side, left.px = .ok side ∧ Entries.get? written "left" = some (.quoted side)) :
    Reaches fields (x - o) w W written := by
  cases moved
  cases rest
  rw [Number.max_int] at spelt
  have edge : W ≤ (x - o) + Max.max w (W - (x - o)) := by omega
  refine ⟨fun single => ?_, ?_, edge, fun near few => ?_⟩
  · obtain ⟨side, spelt', there⟩ := stands single
    rw [there, Number.px_int spelt']
    rfl
  · rw [found, Number.px_int spelt]
    rfl
  · rwa [Number.written_eq near, Number.written_eq few]

/-- The input of a text field with a flow. -/
theorem fitted_flow (flows : isAutoLayout owner = true) (h : inputStyle owner fields .flow = .ok style)
    (wrote : writeStyle (Chrome.input.merge style) = .ok written) : Fitted owner origin fields written := by
  obtain ⟨lines, width, shrink, flex, least⟩ := get?_inputStyle_flow h
  refine ⟨get?_input_none h (by decide) wrote lines, fun _ => ⟨?_, ?_, ?_, ?_⟩, ?_, ?_⟩
  · exact get?_input_some h (by decide) wrote flex (by decide +kernel)
  · exact get?_input_some h (by decide) wrote least (by decide +kernel)
  · exact get?_input_none h (by decide) wrote width
  · exact get?_input_none h (by decide) wrote shrink
  · exact fun stands => absurd flows (by simp [stands])
  · exact fun stands => absurd flows (by simp [stands])

/-- The input of a text field without one. -/
theorem fitted_absolute (stands : isAutoLayout owner = false)
    (h : inputStyle owner fields (.absolute origin.x origin.y) = .ok style)
    (wrote : writeStyle (Chrome.input.merge style) = .ok written) : Fitted owner origin fields written := by
  obtain ⟨lines, left, available, width, moved, rest, spelt, wide⟩ := get?_inputStyle_absolute h
  have found : Entries.get? written "width" = some (.quoted width) := get?_input_some h (by decide) wrote wide rfl
  have starts : isAutoLayout fields = false →
      ∃ side, left.px = .ok side ∧ Entries.get? written "left" = some (.quoted side) := by
    intro single
    obtain ⟨own, styled, same⟩ := get?_inputStyle h
    obtain ⟨left', side, moved', spelt', placed⟩ := get?_left styled single
    cases moved.symm.trans moved'
    have there : Entries.get? style "left" = some (.text side) :=
      (get?_input h (by decide)).symm.trans ((same "left" (by decide)).trans placed)
    exact ⟨side, spelt', get?_input_some h (by decide) wrote there rfl⟩
  refine ⟨get?_input_none h (by decide) wrote lines, fun flows => absurd flows (by simp [stands]),
    fun _ => ⟨left, available, width, moved, rest, spelt, found, starts⟩, fun _ x o w W hx ho hw hW => ?_⟩
  rw [hx, ho] at moved
  rw [hW] at rest
  rw [hw] at spelt
  exact reaches_of_px moved rest spelt found starts

/-- **The input of a text field is fitted into it.** -/
theorem fitted_input (h : inputStyle owner fields (Placement.within owner origin) = .ok style)
    (wrote : writeStyle (Chrome.input.merge style) = .ok written) : Fitted owner origin fields written := by
  unfold Placement.within at h
  split at h
  · rename_i flows
    exact fitted_flow flows h wrote
  · rename_i stands
    exact fitted_absolute (by simpa using stands) h wrote

/-! ## 2. The children -/

section

variable {n : Node} {nodes : List Node} {slot : Slot} {p q r : Progress} {drawn : Option Markup}
  {first others content : List Markup}

/-- What is drawn are the children of a text field. -/
def Task.isField : Task → Bool
  | .field _ _ _ _ => true
  | _ => false

/-- No node is an input by itself: an input comes from the children of a text field, or is inside its element. -/
theorem isInput_of_draws {task : Task} {ms : List Markup} (h : Draws task p ms q)
    (plain : task.isField = false) : ms.countP isInput = 0 := by
  induction h with
  | other => rfl
  | hidden _ => rfl
  | text _ _ _ _ _ => rfl
  | asset _ _ _ _ _ _ => rfl
  | @container _ _ _ _ _ _ f _ _ _ _ _ _ _ _ _ framed _ _ =>
    have other : f.tag ≠ .input := tag_frame framed
    simp [isInput, other]
  | rowNil => rfl
  | rowCons _ _ head tail => rw [List.countP_append, head rfl, tail rfl]
  | fieldNil => cases plain
  | fieldInput => cases plain
  | fieldChild => cases plain

theorem isInput_of_markups (h : (markups place nodes).runFrom p = (.ok content, q)) : content.countP isInput = 0 :=
  isInput_of_draws (draws_of_markups nodes h) rfl

theorem markups_cons (head : (markup place Point.zero n).runFrom p = (.ok drawn, q))
    (tail : (markups place nodes).runFrom q = (.ok others, r)) :
    (markups place (n :: nodes)).runFrom p = (.ok (drawn.toList ++ others), r) := by
  rw [markups, Compile.runFrom_bind, head]
  dsimp only
  rw [Compile.runFrom_bind, tail]
  rfl

/-- Where no text is awaited, the children are drawn as elsewhere. -/
theorem markups_of_fieldMarkup (given : slot ≠ .awaited)
    (h : (fieldMarkup owner place slot nodes).runFrom p = (.ok content, q)) :
    (markups place nodes).runFrom p = (.ok content, q) := by
  induction nodes generalizing p content with
  | nil => exact h
  | cons n rest ih =>
    unfold fieldMarkup at h
    split at h
    · exact absurd rfl given
    · split at h
      · obtain ⟨_, _, _, h⟩ := Compile.bind_ok h
        cases h
      · obtain ⟨drawn, r, head, h⟩ := Compile.bind_ok h
        obtain ⟨others, s, tail, h⟩ := Compile.bind_ok h
        obtain ⟨rfl, rfl⟩ := Compile.pure_ok h
        exact markups_cons head (ih tail)

/-- **A text field that awaits a text shows the first one**, between the children before it and those behind it. -/
theorem split_of_fieldMarkup (awaited : ∃ n ∈ nodes, n.visibleText?.isSome = true)
    (h : (fieldMarkup owner place .awaited nodes).runFrom p = (.ok content, q)) :
    ∃ before n after fields said first input others p₁ p₂, nodes = before ++ n :: after ∧
      (∀ m ∈ before, m.visibleText? = none) ∧ n.visibleText? = some (fields, said) ∧
      (markups place before).runFrom p = (.ok first, p₁) ∧
      (inputMarkup owner fields said place).runFrom p₁ = (.ok input, p₂) ∧
      (markups place after).runFrom p₂ = (.ok others, q) ∧ content = first ++ input :: others := by
  induction nodes generalizing p content with
  | nil =>
    obtain ⟨n, there, -⟩ := awaited
    exact absurd there List.not_mem_nil
  | cons n rest ih =>
    cases text : n.visibleText? with
    | some found =>
      obtain ⟨fields, said⟩ := found
      have step : fieldMarkup owner place .awaited (n :: rest) = do
          let input ← inputMarkup owner fields said place
          let others ← fieldMarkup owner place .filled rest
          return input :: others := by rw [fieldMarkup]; exact text
      rw [step] at h
      obtain ⟨input, r, drawn, h⟩ := Compile.bind_ok h
      obtain ⟨others, s, tail, h⟩ := Compile.bind_ok h
      obtain ⟨rfl, rfl⟩ := Compile.pure_ok h
      exact ⟨[], n, rest, fields, said, [], input, others, p, r, rfl, fun _ none => absurd none List.not_mem_nil, text,
        rfl, drawn, markups_of_fieldMarkup (by decide) tail, rfl⟩
    | none =>
      have step : fieldMarkup owner place .awaited (n :: rest) = do
          let first ← markup place Point.zero n
          let others ← fieldMarkup owner place .awaited rest
          return first.toList ++ others := fieldMarkup_of_none owner place text fun given => absurd given (by decide)
      rw [step] at h
      obtain ⟨drawn, r, head, h⟩ := Compile.bind_ok h
      obtain ⟨others, s, tail, h⟩ := Compile.bind_ok h
      obtain ⟨rfl, rfl⟩ := Compile.pure_ok h
      have later : ∃ n ∈ rest, n.visibleText?.isSome = true := by
        obtain ⟨m, there, given⟩ := awaited
        refine ⟨m, (List.mem_cons.mp there).resolve_left ?_, given⟩
        rintro rfl
        simp [text] at given
      obtain ⟨before, m, after, fields, said, first, input, behind, p₁, p₂, rfl, passed, found, front, shown, rear,
        rfl⟩ := ih later tail
      refine ⟨n :: before, m, after, fields, said, drawn.toList ++ first, input, behind, p₁, p₂, rfl, ?_, found,
        markups_cons head front, shown, rear, (List.append_assoc ..).symm⟩
      exact List.forall_mem_cons.mpr ⟨text, passed⟩

end

/-! ## 3. The whole field -/

/-- **What is in a text field**, drawn from `p` on: either an input that fills it and all of its children, or its
children with one of them as the input. -/
inductive Inside (owner : Members) (origin : Point) (children : List Node) (id : Int) (p : Progress) :
    List Markup → Progress → Prop where
  | filled {content q} (none : ∀ n ∈ children, n.visibleText? = none)
      (all : (markups (Placement.within owner origin) children).runFrom p = (.ok content, q)) :
      Inside owner origin children id p
        (.element .input [.inputKey id, .control .text] Chrome.filling [] :: content) q
  | shown {before n after fields said first written others p₁ p₂ q} (all : children = before ++ n :: after)
      (none : ∀ m ∈ before, m.visibleText? = none) (text : n.visibleText? = some (fields, said))
      (front : (markups (Placement.within owner origin) before).runFrom p = (.ok first, p₁))
      (noted : (Compile.useFont fields).runFrom p₁.next = (.ok (), p₂)) (fitted : Fitted owner origin fields written)
      (rear : (markups (Placement.within owner origin) after).runFrom p₂ = (.ok others, q)) :
      Inside owner origin children id p
        (first ++ .element .input [.key p₁.counter, .control .text, .placeholder said] written [] :: others) q

variable {children : List Node} {id : Int} {p q : Progress} {content : List Markup}

/-- A text field without a text that shows. -/
theorem inside_of_missing (missing : Slot.ofChildren children = .missing)
    (h : (fieldMarkup owner (Placement.within owner origin) .missing children).runFrom p = (.ok content, q)) :
    Inside owner origin children id p
      (.element .input [.inputKey id, .control .text] Chrome.filling [] :: content) q := by
  have none : ∀ n ∈ children, n.visibleText? = none := by
    unfold Slot.ofChildren at missing
    simpa using missing
  exact .filled none (markups_of_fieldMarkup (by decide) h)

/-- A text field with one. -/
theorem inside_of_awaited (awaited : Slot.ofChildren children = .awaited)
    (h : (fieldMarkup owner (Placement.within owner origin) .awaited children).runFrom p = (.ok content, q)) :
    Inside owner origin children id p content q := by
  have some : ∃ n ∈ children, n.visibleText?.isSome = true := by
    unfold Slot.ofChildren at awaited
    split at awaited
    · rename_i there
      exact List.any_eq_true.mp there
    · cases awaited
  obtain ⟨before, n, after, fields, said, first, input, others, p₁, p₂, rfl, none, text, front, drawn, rear, rfl⟩ :=
    split_of_fieldMarkup some h
  obtain ⟨looks, written, noted, styled, wrote, rfl⟩ := inputMarkup_ok drawn
  exact .shown rfl none text front noted (fitted_input styled wrote) rear

/-- The frame of a text field around its children. -/
theorem inside_of_frame {f : Frame} (framed : frame (some .textField) id owner children style = .ok f)
    (h : (fieldMarkup owner (Placement.within owner origin) (Slot.ofChildren children) children).runFrom p =
      (.ok content, q)) :
    f.tag = .label ∧ f.attributes = [.key id] ∧ Inside owner origin children id p (f.fixtures ++ content) q := by
  cases frames_of_frame framed with
  | emptyField missing wrote =>
    rw [missing] at h
    cases Chrome.writeStyle_fill.symm.trans wrote
    exact ⟨rfl, rfl, inside_of_missing missing h⟩
  | textField present =>
    have awaited : Slot.ofChildren children = .awaited := by
      unfold Slot.ofChildren at present ⊢
      split at present
      · rename_i there
        exact if_pos there
      · exact absurd rfl present
    rw [awaited] at h
    exact ⟨rfl, rfl, inside_of_awaited awaited h⟩
  | box other => rcases other with none | none <;> cases none

/-- A text field holds one input of its own. -/
theorem isInput_of_inside (h : Inside owner origin children id p content q) : content.countP isInput = 1 := by
  cases h with
  | filled _ all => rw [List.countP_cons, isInput_of_markups all]; rfl
  | shown _ _ _ front _ _ rear =>
    rw [List.countP_append, List.countP_cons, isInput_of_markups front, isInput_of_markups rear]
    rfl

/-- **Text fields.**  A node that is drawn as a text field is a label with one input of its own.  If one of its children
is a text that shows, the first one is the input, with the text as its placeholder, fitted into the field; otherwise the
input fills the field, before all children.  The other children are drawn in order, as they are elsewhere. -/
theorem textField_markup {drawn : Option Markup} (visible : hides owner = false) (leaf : leafText? owner = none)
    (plain : Asset.ofNode? owner = none) (kind : Widget.ofNode owner = .ok (some .textField))
    (h : (markup place origin (.object owner children)).runFrom p = (.ok drawn, q)) :
    ∃ style content, drawn = some (.element .label [.key p.counter] style content) ∧
      content.countP isInput = 1 ∧ Inside owner origin children p.counter p.next content q := by
  unfold markup at h
  rw [if_neg (by simp [visible]), leaf, plain] at h
  have h := Compile.nextId_bind_ok h
  obtain ⟨widget, same, h⟩ := Compile.lift_bind_ok h
  cases kind.symm.trans same
  obtain ⟨style, _, h⟩ := Compile.lift_bind_ok h
  obtain ⟨f, framed, h⟩ := Compile.lift_bind_ok h
  obtain ⟨content, r, inside, h⟩ := Compile.bind_ok h
  obtain ⟨m, built, h⟩ := Compile.lift_bind_ok h
  obtain ⟨rfl, rfl⟩ := Compile.pure_ok h
  obtain ⟨written, -, rfl⟩ := Markup.styled_ok built
  rw [if_pos rfl] at inside
  obtain ⟨tag, attributes, within⟩ := inside_of_frame framed inside
  rw [tag, attributes]
  exact ⟨written, _, rfl, isInput_of_inside within, within⟩

/-- A text field that moves its children by 30 to the right. -/
def search : Members := [("name", .text "Search"), ("width", .number (.int 200))]

/-- A text that is hidden, an image, and two texts. -/
def searchChildren : List Node :=
  [.object [("visible", .bool false), ("type", .text "TEXT"), ("textContent", .text "Old")] [],
    .object [("x", .number (.int (-30))), ("width", .number (.int 20)), ("svg", .text "<svg/>")] [],
    .object [("type", .text "TEXT"), ("textContent", .text "Find"), ("x", .number (.int 10)),
      ("width", .number (.int 40))] [],
    .object [("type", .text "TEXT"), ("textContent", .text "Go"), ("x", .number (.int 150))] []]

/-- Where its elements start and how wide they are, and which one is an input. -/
def searchExtents : List (Int × Bool × Option Written × Option Written) :=
  [(0, false, none, some (.quoted "200px")), (1, false, some (.quoted "0px"), some (.quoted "20px")),
    (2, true, some (.quoted "40px"), some (.quoted "160px")), (3, false, some (.quoted "180px"), some (.quoted "0px"))]

theorem textField_markup_search : ∃ m style content done,
    (markup .root ⟨.int (-30), .int 0⟩ (.object search searchChildren)).runFrom {} = (.ok (some m), done) ∧
      (keyed [m]).map (fun e => (e.1, e.2.isInput, Entries.get? e.2.style "left", Entries.get? e.2.style "width")) =
        searchExtents ∧
      m = .element .label [.key 0] style content ∧ content.countP isInput = 1 ∧
      Inside search ⟨.int (-30), .int 0⟩ searchChildren 0 { counter := 1 } content done := by
  have computed : ((markup .root ⟨.int (-30), .int 0⟩ (.object search searchChildren)).runFrom {}).1.toOption.join.map
      (fun m => (keyed [m]).map fun e =>
        (e.1, e.2.isInput, Entries.get? e.2.style "left", Entries.get? e.2.style "width")) = some searchExtents := by
    decide +kernel
  obtain ⟨m, done, run, extents⟩ := Compile.exists_ok_of_map computed
  obtain ⟨style, content, same, one, within⟩ := textField_markup (by decide) (by decide +kernel) (by decide +kernel)
    (by decide +kernel) run
  exact ⟨m, style, content, done, run, extents, Option.some.inj same, one, within⟩

end Node

end Artboard
