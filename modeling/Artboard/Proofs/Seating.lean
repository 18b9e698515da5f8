import Artboard.Proofs.Containment
import Artboard.Proofs.Numbering

/-!
# Where elements are put

The element of a node is either left where the page has it or put at a place of its own in the element around
it (`Seat`).  Which of the two it is follows from where the node is in its design (`Node.Situation`): a root,
a node in a flow and a node whose children flow have no place of their own, and all others are at their
coordinates, the children of the root moved by its shift (`Node.seat`).

Every drawing in whole coordinates gives its elements these seats, whatever widgets they are, the inputs of
text fields and images among them (`Node.seated_of_draws`); `Node.seated_rootMarkup` says so of whole roots,
element by element.
-/

namespace Artboard

/-! ## 1. Seats -/

/-- How an element is put: where the page has it, or at a place of its own in the element around it. -/
inductive Seat where
  | relative
  | absolute (left top : Int)
  deriving DecidableEq, Repr

namespace Seat

variable {α : Type} {quote : String → α} {style other : Entries α} {seat : Seat}

/-- The style gives its element this seat; texts stand in the style as `quote` has them. -/
def Holds (quote : String → α) (style : Entries α) : Seat → Prop
  | relative => style.get? "position" = some (quote "relative") ∧ style.get? "left" = none ∧
      style.get? "top" = none
  | absolute left top => style.get? "position" = some (quote "absolute") ∧
      (∃ text, (Number.int left).px = .ok text ∧ style.get? "left" = some (quote text)) ∧
      ∃ text, (Number.int top).px = .ok text ∧ style.get? "top" = some (quote text)

/-- A style that places its element as another does gives it the same seat. -/
theorem Holds.congr (h : seat.Holds quote style)
    (same : ∀ name ∈ Placement.names, other.get? name = style.get? name) : seat.Holds quote other := by
  have position := same "position" (by decide)
  have left := same "left" (by decide)
  have top := same "top" (by decide)
  cases seat with
  | relative =>
    obtain ⟨hp, hl, ht⟩ := h
    exact ⟨position.trans hp, left.trans hl, top.trans ht⟩
  | absolute x y =>
    obtain ⟨hp, ⟨l, written, hl⟩, t, written', ht⟩ := h
    exact ⟨position.trans hp, ⟨l, written, left.trans hl⟩, t, written', top.trans ht⟩

/-- A written style gives the seat that the style gives. -/
theorem Holds.write {style : Style} {written : Entries Written} (h : seat.Holds StyleValue.text style)
    (wrote : writeStyle style = .ok written) : seat.Holds Written.quoted written := by
  have given {name s : String} (has : Entries.get? style name = some (.text s)) :
      written.get? name = some (.quoted s) := get?_writeStyle_some wrote has rfl
  have free {name : String} (has : Entries.get? style name = none) : written.get? name = none :=
    get?_writeStyle_none wrote has
  cases seat with
  | relative =>
    obtain ⟨hp, hl, ht⟩ := h
    exact ⟨given hp, free hl, free ht⟩
  | absolute x y =>
    obtain ⟨hp, ⟨l, left, hl⟩, t, top, ht⟩ := h
    exact ⟨given hp, ⟨l, left, given hl⟩, t, top, given ht⟩

end Seat

/-! ## 2. Where a node is in its design -/

namespace Node

open Markup

/-- How far below its root a node is, and whether the node around it has its children flow. -/
structure Situation where
  depth : Nat
  inFlow : Bool

namespace Situation

/-- Where a root is. -/
def root : Situation := ⟨0, false⟩

/-- Where the children of a node are. -/
def enter (s : Situation) (fields : Members) : Situation := ⟨s.depth + 1, isAutoLayout fields⟩

/-- What the shift of the root moves a node by: its children by all of it, and nothing else. -/
def moved (s : Situation) (shift : Axis → Int) (axis : Axis) : Int := if s.depth = 1 then shift axis else 0

/-- The place that a node is drawn at. -/
def place (shift : Axis → Int) (s : Situation) : Placement :=
  if s.depth = 0 then .root else .moved (s.moved shift) s.inFlow

/-- The origin that a node is drawn with for its children. -/
def origin (shift : Axis → Int) (s : Situation) : Point :=
  if s.depth = 0 then (Point.whole shift).neg else Point.zero

/-- The children of a node are drawn where they are. -/
theorem within_origin (shift : Axis → Int) (s : Situation) (fields : Members) :
    Placement.within fields (s.origin shift) = (s.enter fields).place shift := by
  have deeper : (s.enter fields).depth ≠ 0 := Nat.succ_ne_zero _
  have shifted : (s.origin shift) = (Point.whole ((s.enter fields).moved shift)).neg := by
    unfold origin moved enter
    by_cases h : s.depth = 0
    · rw [if_pos h]
      simp [h]
    · rw [if_neg h]
      simp [h]
      rfl
  rw [shifted, place, if_neg deeper]
  rfl

end Situation

/-- **The seat of a node.** -/
def seat (shift : Axis → Int) (s : Situation) (fields : Members) : Seat :=
  if s.depth = 0 || s.inFlow || isAutoLayout fields then .relative
  else .absolute (coordinate .x fields + s.moved shift .x) (coordinate .y fields + s.moved shift .y)

mutual

/-- What is drawn of a node (`Node.drawn`), each node with where it is. -/
def situated (s : Situation) : Node → List (Situation × Node)
  | other _ => []
  | object fields children =>
    if hides fields then []
    else if isOpaque fields then [(s, object fields children)]
    else (s, object fields children) :: situatedIn (s.enter fields) children

/-- What is drawn of several nodes, each node with where it is. -/
def situatedIn (s : Situation) : List Node → List (Situation × Node)
  | [] => []
  | n :: rest => situated s n ++ situatedIn s rest

end

mutual

theorem map_situated (s : Situation) : ∀ n : Node, (situated s n).map Prod.snd = n.drawn
  | .other _ => rfl
  | .object fields children => by
      unfold situated drawn
      split
      · rfl
      · split
        · rfl
        · rw [List.map_cons, map_situatedIn (s.enter fields) children]

theorem map_situatedIn (s : Situation) : ∀ nodes : List Node,
    (situatedIn s nodes).map Prod.snd = drawnIn nodes
  | [] => rfl
  | n :: rest => by
      rw [situatedIn, drawnIn, List.map_append, map_situated s n, map_situatedIn s rest]

end

theorem situated_hidden {s : Situation} {fields : Members} {children : List Node} (h : hides fields = true) :
    situated s (.object fields children) = [] := by
  unfold situated
  rw [if_pos h]

/-- The element gives a node its seat. -/
inductive Seated (shift : Axis → Int) : Situation × Node → Markup → Prop where
  | element {s : Situation} {fields : Members} {children : List Node} {tag : Tag} {as : List Attribute}
      {style : Entries Written} {content : List Markup}
      (holds : (seat shift s fields).Holds Written.quoted style) :
      Seated shift (s, .object fields children) (.element tag as style content)

/-! ## 3. The seat in a style -/

variable {fields : Members} {children : List Node} {s : Situation} {shift : Axis → Int} {style : Style}
  {image : Bool}

/-- A style gives the seat that its place gives, unless the children of its node flow. -/
private theorem holds_placed {placed : Style} {seat : Seat} (given : seat.Holds StyleValue.text placed)
    (same : ∀ name ∈ Placement.names, Entries.get? style name =
      if isAutoLayout fields then if name = "position" then some (.text "relative") else none
      else Entries.get? placed name) :
    (if isAutoLayout fields then .relative else seat : Seat).Holds StyleValue.text style := by
  cases flows : isAutoLayout fields with
  | true =>
    rw [flows] at same
    exact ⟨same "position" (by decide), same "left" (by decide), same "top" (by decide)⟩
  | false =>
    rw [flows] at same
    exact given.congr same

/-- **The style of a node gives its seat.** -/
theorem holds_style (own : IsWhole fields) (h : Node.style fields (s.place shift) image = .ok style) :
    (seat shift s fields).Holds StyleValue.text style := by
  obtain ⟨placed, hp, same⟩ := get?_style_placed h
  have relative (free : Seat.relative.Holds StyleValue.text placed) : Seat.relative.Holds StyleValue.text style := by
    simpa using holds_placed free same
  unfold Situation.place at hp
  unfold seat
  by_cases top : s.depth = 0
  · rw [if_pos top] at hp
    cases hp
    rw [if_pos (by simp [top])]
    exact relative ⟨rfl, rfl, rfl⟩
  · rw [if_neg top] at hp
    rw [decide_eq_false top, Bool.false_or]
    cases flow : s.inFlow with
    | true =>
      rw [flow] at hp
      cases hp
      rw [Bool.true_or, if_pos rfl]
      exact relative ⟨rfl, rfl, rfl⟩
    | false =>
      rw [flow] at hp
      obtain ⟨left, top, hleft, htop, rfl⟩ := Placement.style_moved own hp
      rw [Bool.false_or]
      exact holds_placed ⟨rfl, ⟨left, hleft, rfl⟩, top, htop, rfl⟩ same

/-! ## 4. Every drawing gives the seats -/

/-- The nodes of a task are drawn where they are; nodes in a row are never roots. -/
def Task.StandsIn (shift : Axis → Int) (s : Situation) : Task → Prop
  | .one place origin _ => place = s.place shift ∧ origin = s.origin shift
  | .row place _ => place = s.place shift ∧ s.depth ≠ 0
  | .field _ place _ _ => place = s.place shift ∧ s.depth ≠ 0

theorem Task.standsIn_inside (widget : Option Widget) (fields : Members) (children : List Node)
    (shift : Axis → Int) (s : Situation) :
    (Task.inside widget fields (s.origin shift) children).StandsIn shift (s.enter fields) := by
  have place := s.within_origin shift fields
  unfold Task.inside
  split
  · exact ⟨place, Nat.succ_ne_zero _⟩
  · exact ⟨place, Nat.succ_ne_zero _⟩

/-- A node in a row is drawn like the row. -/
theorem Task.standsIn_one {place : Placement} (stands : place = s.place shift ∧ s.depth ≠ 0) (n : Node) :
    (Task.one place Point.zero n).StandsIn shift s :=
  ⟨stands.1, (if_neg stands.2).symm⟩

/-- What is drawn by a task, each node with where it is. -/
def Task.situated (s : Situation) : Task → List (Situation × Node)
  | .one _ _ n => Node.situated s n
  | .row _ nodes => situatedIn s nodes
  | .field _ _ _ nodes => situatedIn s nodes

theorem Task.situated_inside (widget : Option Widget) (fields : Members) (origin : Point)
    (children : List Node) (s : Situation) :
    (Task.inside widget fields origin children).situated s = situatedIn s children := by
  unfold Task.inside
  split <;> rfl

/-- The elements give the nodes their seats, one by one. -/
abbrev AllSeated (shift : Axis → Int) (nodes : List (Situation × Node)) (drawn : List Markup) : Prop :=
  List.Forall₂ (fun n e => Seated shift n e.2) nodes (keyed drawn)

theorem AllSeated.append {nodes more : List (Situation × Node)} {drawn others : List Markup}
    (h : AllSeated shift nodes drawn) (k : AllSeated shift more others) :
    AllSeated shift (nodes ++ more) (drawn ++ others) :=
  forall₂_keyed_append h k

section

variable {id : Int} {tag : Tag} {as : List Attribute} {written : Entries Written}
  {fixtures content : List Markup}

/-- The element of a node that is drawn without its children. -/
theorem allSeated_leaf (shown : hides fields = false) (whole : isOpaque fields = true)
    (key : as.filterMap Attribute.key? = [id]) (none : keyed fixtures = [])
    (holds : (seat shift s fields).Holds Written.quoted written) :
    AllSeated shift (situated s (.object fields children)) [.element tag as written fixtures] := by
  unfold situated
  rw [if_neg (by simp [shown]), if_pos whole]
  exact forall₂_keyed_leaf key none (.element holds)

/-- The element of a node around what is drawn inside it. -/
theorem allSeated_container (shown : hides fields = false) (plain : isOpaque fields = false)
    (key : as.filterMap Attribute.key? = [id]) (none : keyed fixtures = [])
    (holds : (seat shift s fields).Holds Written.quoted written)
    (inside : AllSeated shift (situatedIn (s.enter fields) children) content) :
    AllSeated shift (situated s (.object fields children)) [.element tag as written (fixtures ++ content)] := by
  unfold situated
  rw [if_neg (by simp [shown]), if_neg (by simp [plain])]
  exact forall₂_keyed_element key none (.element holds) inside

end

/-- **Every drawing gives its elements the seats of their nodes.** -/
theorem seated_of_draws {task : Task} {p q : Progress} {drawn : List Markup} (h : Draws task p drawn q)
    {s : Situation} (stands : task.StandsIn shift s) (whole : ∀ n ∈ task.nodes, n.Whole) :
    AllSeated shift (task.situated s) drawn := by
  induction h generalizing s with
  | other => exact .nil
  | hidden hidden =>
    rw [Task.situated, situated_hidden hidden]
    exact .nil
  | @text _ _ fields children content style written p q shown leaf _ styled wrote =>
    obtain ⟨rfl, -⟩ := stands
    have holds := holds_style (whole _ List.mem_cons_self).own styled
    exact allSeated_leaf shown (isOpaque_of_leaf leaf) rfl rfl (holds.write wrote)
  | @asset _ _ fields children asset image style written p shown leaf carried pictured styled wrote =>
    obtain ⟨rfl, -⟩ := stands
    have holds := holds_style (whole _ List.mem_cons_self).own styled
    have framed : Framed p.counter (.object fields children) [.key p.counter] [image] :=
      framed_image leaf carried pictured
    exact allSeated_leaf shown (isOpaque_of_asset carried) framed.key framed.none (holds.write wrote)
  | @container _ _ fields children widget style f written content p q shown leaf plain kind styled framed
      wrote _ ih =>
    obtain ⟨rfl, rfl⟩ := stands
    have node := whole _ List.mem_cons_self
    have holds := (holds_style node.own styled).congr fun name placing =>
      get?_frame placing (nodup_style styled) framed
    obtain ⟨⟨key, none, -, -⟩, -⟩ := framed_frame leaf plain kind styled framed wrote
    have inner : ∀ n ∈ (Task.inside widget fields (s.origin shift) children).nodes, n.Whole := by
      rw [Task.nodes_inside]
      exact node.inner
    have inside := ih (Task.standsIn_inside widget fields children shift s) inner
    rw [Task.situated_inside] at inside
    exact allSeated_container shown (isOpaque_of_none leaf plain) key none (holds.write wrote) inside
  | rowNil => exact .nil
  | rowCons _ _ head tail =>
    have first := head (Task.standsIn_one stands _)
      (List.forall_mem_singleton.mpr (whole _ List.mem_cons_self))
    exact first.append (tail stands fun n hn => whole n (List.mem_cons_of_mem _ hn))
  | fieldNil => exact .nil
  | @fieldInput owner _ n rest fields content style written others p q r text _ styled wrote _ tail =>
    obtain ⟨children, rfl, shown, leaf⟩ := visibleText?_eq_some text
    obtain ⟨base, based, kept⟩ := get?_inputStyle styled
    rw [stands.1] at based
    have holds := (holds_style (whole _ List.mem_cons_self).own based).congr kept
    have input : AllSeated shift (situated s (.object fields children))
        [.element .input [.key p.counter, .control .text, .placeholder content] written []] :=
      allSeated_leaf shown (isOpaque_of_leaf leaf) rfl rfl (holds.write wrote)
    exact input.append (tail stands fun n hn => whole n (List.mem_cons_of_mem _ hn))
  | fieldChild _ _ _ _ head tail =>
    have first := head (Task.standsIn_one stands _)
      (List.forall_mem_singleton.mpr (whole _ List.mem_cons_self))
    exact first.append (tail stands fun n hn => whole n (List.mem_cons_of_mem _ hn))

/-! ## 5. Roots -/

/-- **The seats of a drawn root.**  The elements with numbers stand for the nodes that are drawn, in order, and
each gives its node the seat that the shift of the root leaves to it. -/
theorem seated_rootMarkup {p q : Progress} {drawn : Option Markup} (whole : (object fields children).Whole)
    (h : (rootMarkup (.object fields children)).runFrom p = (.ok drawn, q)) :
    ∃ shift : Axis → Int, Canvas.shift (.object fields children) = .ok (Point.whole shift) ∧
      List.Forall₂ (fun n e => Depicts e.1 n.2 e.2 ∧ Seated shift n e.2)
        (situated .root (.object fields children)) (keyed drawn.toList) := by
  obtain ⟨shift, moved, -, -⟩ := shift_root whole
  obtain ⟨found, hfound, draws⟩ := draws_of_rootMarkup h
  obtain rfl : Point.whole shift = found := Except.ok.inj (moved.symm.trans hfound)
  refine ⟨shift, moved, ?_⟩
  have depicts := depicts_of_numbered (numbering_of_draws draws).elements
  rw [Task.drawn, ← map_situated .root, List.forall₂_map_left_iff] at depicts
  have seated := seated_of_draws (s := .root) draws ⟨rfl, rfl⟩ (List.forall_mem_singleton.mpr whole)
  rw [AllSeated, List.forall₂_iff_zip] at seated
  rw [List.forall₂_iff_zip] at depicts ⊢
  exact ⟨depicts.1, fun pair => ⟨depicts.2 pair, seated.2 pair⟩⟩

/-- A text field to the left of the canvas, with its text and an image, beside a row of an item that holds a
node. -/
def desk : Node :=
  .object [] [
    .object [("name", .text "Search"), ("x", .number (.int (-20))), ("y", .number (.int 5))]
      [.object [("type", .text "TEXT"), ("textContent", .text "Find"), ("x", .number (.int 4))] [],
        .object [("svg", .text "<svg/>"), ("x", .number (.int (-10)))] []],
    .object [("layoutMode", .text "HORIZONTAL"), ("x", .number (.int 3))]
      [.object [("x", .number (.int (-90)))] [.object [("x", .number (.int (-7)))] []]]]

theorem whole_desk : desk.Whole := by
  have leaf {fields : Members} (own : IsWhole fields) : (object fields []).Whole :=
    .object own (List.forall_mem_nil _)
  have search : (object [("name", .text "Search"), ("x", .number (.int (-20))), ("y", .number (.int 5))]
      [.object [("type", .text "TEXT"), ("textContent", .text "Find"), ("x", .number (.int 4))] [],
        .object [("svg", .text "<svg/>"), ("x", .number (.int (-10)))] []]).Whole :=
    .object (by decide) (List.forall_mem_cons.mpr ⟨leaf (by decide), List.forall_mem_singleton.mpr
      (leaf (by decide))⟩)
  exact .object (by decide) (List.forall_mem_cons.mpr ⟨search, List.forall_mem_singleton.mpr
    (.only (by decide) (.only (by decide) (leaf (by decide))))⟩)

theorem seated_rootMarkup_desk : desk.Whole ∧ ∃ m q, (rootMarkup desk).runFrom {} = (.ok (some m), q) ∧
    ∃ shift : Axis → Int, Canvas.shift desk = .ok (Point.whole shift) ∧ shift .x = 30 ∧ shift .y = 0 ∧
      List.Forall₂ (fun n e => Depicts e.1 n.2 e.2 ∧ Seated shift n e.2) (situated .root desk)
        (keyed [m]) := by
  have ends : ((rootMarkup desk).runFrom {}).1.toOption.join.isSome = true := by decide +kernel
  obtain ⟨m, q, run⟩ := Compile.exists_ok ends
  obtain ⟨shift, moved, seated⟩ := seated_rootMarkup whole_desk run
  have computed : (Canvas.shift desk).toOption.map (fun p => (p.x, p.y)) = some (.int 30, .int 0) := by
    decide +kernel
  have found : Canvas.shift desk = .ok (Point.whole shift) := moved
  rw [found] at computed
  obtain ⟨hx, hy⟩ := Prod.mk.inj (Option.some.inj computed)
  exact ⟨whole_desk, m, q, run, shift, found, Number.int.inj hx, Number.int.inj hy, seated⟩

end Node

end Artboard
