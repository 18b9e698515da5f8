import Artboard.Proofs.Drawing
import Artboard.Proofs.Style.Position

/-!
# What stands on the canvas

The shift of a root is computed from where nodes stand (`Canvas.Spot`), but a page adds up what the styles of
elements say.  The two differ by what is never written: a node whose children flow stands at its coordinates
for the shift and has no place in its style, and a large coordinate is written rounded.  A trail keeps track
of it on the way down (`Canvas.Trail`).

What the elements of a drawn root add up to is where their nodes stand, moved by the shift, less what is lost
on the way (`Node.mem_sums_rootMarkup`).  So they all are on the canvas exactly if nowhere more is lost than
there is room (`Node.sums_nonneg_iff`), which can fail (`Node.negative_sum`).
-/

namespace Artboard

/-! ## 1. What elements add up to -/

/-- The whole number that a written length stands for. -/
def Written.pixels? : Written → Option Int
  | .bare digits => Numeral.integer? digits.toList
  | .quoted s => Number.pixels? s.toList

namespace Markup

/-- The place of an element on an axis, if its style has one. -/
def place? (axis : Axis) (style : Entries Written) : Option Int :=
  (Entries.get? style axis.side).bind Written.pixels?

mutual

/-- For each element that stands for a node and has a place, the sum of its place and of those of the
elements around it. -/
def sums (axis : Axis) (above : Int) : Markup → List Int
  | .text _ => []
  | .element _ attributes style children =>
    let here := above + (place? axis style).getD 0
    (if attributes.any Attribute.isKey && (place? axis style).isSome then [here] else []) ++
      sumsIn axis here children

/-- The sums of several elements in order. -/
def sumsIn (axis : Axis) (above : Int) : List Markup → List Int
  | [] => []
  | m :: rest => sums axis above m ++ sumsIn axis above rest

end

theorem sumsIn_append (axis : Axis) (above : Int) : ∀ ms ns : List Markup,
    sumsIn axis above (ms ++ ns) = sumsIn axis above ms ++ sumsIn axis above ns
  | [], _ => rfl
  | m :: rest, ns => by
      rw [List.cons_append, sumsIn, sumsIn, sumsIn_append axis above rest ns, List.append_assoc]

/-- An image, or an input that no node stands for. -/
def IsBare (m : Markup) : Prop :=
  ∃ tag attributes style, m = .element tag attributes style [] ∧ attributes.any Attribute.isKey = false

theorem sumsIn_bare {axis : Axis} {above : Int} {ms : List Markup} (h : ∀ m ∈ ms, IsBare m) :
    sumsIn axis above ms = [] := by
  induction ms with
  | nil => rfl
  | cons m rest ih =>
    obtain ⟨tag, attributes, style, rfl, plain⟩ := h m List.mem_cons_self
    rw [sumsIn, ih fun k hk => h k (List.mem_cons_of_mem _ hk), sums, plain]
    rfl

end Markup

/-- A written style has the place that the style has. -/
theorem place?_writeStyle {axis : Axis} {style : Style} {written : Entries Written} {place : Option Int}
    (has : Entries.get? style axis.side = place.map fun i => .text (pixelText i))
    (h : writeStyle style = .ok written) : Markup.place? axis written = place := by
  have side : Entries.get? written axis.side = (place.map pixelText).map Written.quoted :=
    get?_writeStyle_text h (by rw [has, Option.map_map]; rfl)
  unfold Markup.place?
  rw [side]
  cases place with
  | none => rfl
  | some i => exact Number.pixels?_toString i

/-! ## 2. What is lost on the way -/

/-- What the style of a node leaves out of its place. -/
def Node.loss (axis : Axis) (shift : Int) (flow : Bool) (fields : Members) : Int :=
  (if flow then 0 else Node.coordinate axis fields + shift) - (Node.emitted axis shift flow fields).getD 0

/-- A node whose children flow loses all of its place, where it is not in a flow itself. -/
theorem Node.loss_of_autoLayout {axis : Axis} {shift : Int} {flow : Bool} {fields : Members}
    (flows : isAutoLayout fields = true) :
    loss axis shift flow fields = if flow then 0 else coordinate axis fields + shift := by
  unfold loss emitted
  rw [flows, Bool.or_true, if_pos rfl]
  exact Int.sub_zero _

/-- Every other node loses nothing, unless its place has more than 53 bits. -/
theorem Node.loss_eq_zero {axis : Axis} {shift : Int} {flow : Bool} {fields : Members}
    (placed : isAutoLayout fields = false) (few : (coordinate axis fields + shift).natAbs < 2 ^ 53) :
    loss axis shift flow fields = 0 := by
  unfold loss emitted
  rw [placed, Bool.or_false, Number.written_eq few]
  cases flow with
  | true => rfl
  | false => exact Int.sub_self _

namespace Canvas

/-- A spot with the shift that is still to come, and with what has been lost on the way to it. -/
structure Trail extends Spot where
  shift : Int
  lost : Int

namespace Trail

/-- What is lost at a node and on the way to it. -/
def lostAt (axis : Axis) (trail : Trail) (fields : Members) : Int :=
  trail.lost + Node.loss axis trail.shift trail.flow fields

/-- The trail of the children of a node; the shift comes once. -/
def enter (axis : Axis) (trail : Trail) (fields : Members) : Trail :=
  ⟨trail.toSpot.enter axis fields, 0, trail.lostAt axis fields⟩

/-- The trail of the children of a root. -/
def root (shift : Int) (flow : Bool) : Trail := ⟨⟨0, flow⟩, shift, 0⟩

/-- What the elements around add up to, where the shift of the root is `total`. -/
def above (total : Int) (trail : Trail) : Int := trail.parent + (total - trail.shift) - trail.lost

end Trail

/-- Some node with a place in its style stands at `position`, with `lost` lost at it and on the way. -/
def Placed (axis : Axis) (trail : Trail) (nodes : List Node) (position lost : Int) : Prop :=
  ∃ found fields, Node.Visited (Trail.enter axis) trail nodes found fields ∧
    (Node.emitted axis found.shift found.flow fields).isSome ∧
    position = found.toSpot.stand axis fields ∧ lost = found.lostAt axis fields

variable {axis : Axis} {trail : Trail} {nodes : List Node} {n : Node} {position lost : Int}
  {fields : Members} {children : List Node}

theorem not_placed_nil (h : Placed axis trail [] position lost) : False := by
  obtain ⟨_, _, h, _⟩ := h
  exact Node.not_visited_nil h

theorem not_placed_other {v : Value} (h : Placed axis trail [.other v] position lost) : False := by
  obtain ⟨_, _, h, _⟩ := h
  exact Node.not_visited_other h

theorem placed_cons : Placed axis trail (n :: nodes) position lost ↔
    Placed axis trail [n] position lost ∨ Placed axis trail nodes position lost := by
  constructor
  · rintro ⟨found, fields, h, placed⟩
    rcases Node.visited_cons.mp h with h | h
    · exact .inl ⟨found, fields, h, placed⟩
    · exact .inr ⟨found, fields, h, placed⟩
  · rintro (⟨found, fields, h, placed⟩ | ⟨found, fields, h, placed⟩)
    · exact ⟨found, fields, Node.visited_cons.mpr (.inl h), placed⟩
    · exact ⟨found, fields, Node.visited_cons.mpr (.inr h), placed⟩

/-- A node with a place stands where its trail ends. -/
theorem placed_object (shown : Node.hides fields = false) :
    Placed axis trail [.object fields children] position lost ↔
      ((Node.emitted axis trail.shift trail.flow fields).isSome ∧
        position = trail.toSpot.stand axis fields ∧ lost = trail.lostAt axis fields) ∨
      Node.isOpaque fields = false ∧ Placed axis (trail.enter axis fields) children position lost := by
  constructor
  · rintro ⟨found, inner, h, placed⟩
    rcases (Node.visited_object.mp h).2 with ⟨rfl, rfl⟩ | ⟨structural, h⟩
    · exact .inl placed
    · exact .inr ⟨structural, found, inner, h, placed⟩
  · rintro (placed | ⟨structural, found, inner, h, placed⟩)
    · exact ⟨trail, fields, Node.visited_object.mpr ⟨shown, .inl ⟨rfl, rfl⟩⟩, placed⟩
    · exact ⟨found, inner, Node.visited_object.mpr ⟨shown, .inr ⟨structural, h⟩⟩, placed⟩

/-- What has a place counts for the shift. -/
theorem Placed.counts (h : Placed axis trail nodes position lost) :
    position ∈ positions axis trail.toSpot nodes := by
  obtain ⟨found, fields, h, placed, rfl, -⟩ := h
  refine ⟨found.toSpot, fields, h.map Trail.toSpot fun _ _ => rfl, ?_, rfl⟩
  unfold Node.emitted at placed
  cases hf : found.flow with
  | false => rfl
  | true =>
    rw [hf] at placed
    cases placed

theorem not_placed_hidden (hidden : Node.hides fields = true) :
    ¬Placed axis trail [.object fields children] position lost := by
  rintro ⟨found, inner, h, _⟩
  have shown := (Node.visited_object.mp h).1
  rw [hidden] at shown
  cases shown

/-- In a flow no shift is still to come. -/
def Trail.Sound (trail : Trail) : Prop := trail.flow = true → trail.shift = 0

theorem Trail.sound_enter (trail : Trail) (fields : Members) : (trail.enter axis fields).Sound := fun _ => rfl

theorem Trail.above_enter (trail : Trail) (total : Int) : (trail.enter axis fields).above total =
    trail.toSpot.stand axis fields + total - trail.lostAt axis fields := by
  show trail.toSpot.stand axis fields + (total - 0) - trail.lostAt axis fields = _
  omega

/-- **One step down**: the place of a node brings the sum of its elements to where it stands. -/
theorem Trail.above_step (sound : trail.Sound) (total : Int) :
    trail.above total + (Node.emitted axis trail.shift trail.flow fields).getD 0 =
      (trail.enter axis fields).above total := by
  rw [above_enter]
  unfold above lostAt Node.loss Spot.stand
  cases hf : trail.flow with
  | true =>
    have none : trail.shift = 0 := sound hf
    simp only [if_true]
    omega
  | false =>
    simp only [Bool.false_eq_true, if_false]
    omega

end Canvas

/-! ## 3. What a drawing adds up to -/

namespace Node

open Canvas

/-- The nodes that a task draws. -/
def Task.nodes : Task → List Node
  | .one _ _ n => [n]
  | .row _ nodes => nodes
  | .field _ _ _ nodes => nodes

/-- What a task draws has this place; no shift is to come below it. -/
def Task.StandsAt (place : Placement) : Task → Prop
  | .one p origin _ => p = place ∧ origin = Point.zero
  | .row p _ => p = place
  | .field _ p _ _ => p = place

theorem Task.nodes_inside (widget : Option Widget) (fields : Members) (origin : Point)
    (children : List Node) : (Task.inside widget fields origin children).nodes = children := by
  unfold Task.inside
  split <;> rfl

/-- The children of a node have the place of its flow, or one that is moved. -/
theorem Task.standsAt_inside (widget : Option Widget) (fields : Members) (shift : Axis → Int)
    (children : List Node) : (Task.inside widget fields (Point.whole shift).neg children).StandsAt
      (.moved shift (isAutoLayout fields)) := by
  have place : Placement.within fields (Point.whole shift).neg = .moved shift (isAutoLayout fields) := rfl
  unfold Task.inside
  split
  · exact place
  · exact place

/-- The elements add up to where the nodes stand, moved, less what is lost. -/
def AddsUp (axis : Axis) (total : Int) (trail : Trail) (nodes : List Node) (drawn : List Markup) : Prop :=
  ∀ s, s ∈ Markup.sumsIn axis (trail.above total) drawn ↔
    ∃ position lost, Placed axis trail nodes position lost ∧ s = position + total - lost

section

variable {axis : Axis} {total : Int} {trail : Trail} {n : Node} {nodes : List Node} {fields : Members}
  {children : List Node} {drawn first others : List Markup}

theorem addsUp_nothing (h : ∀ position lost, ¬Placed axis trail nodes position lost) :
    AddsUp axis total trail nodes [] := by
  intro s
  constructor
  · exact fun mem => absurd mem List.not_mem_nil
  · rintro ⟨position, lost, placed, _⟩
    exact absurd placed (h position lost)

theorem AddsUp.cons (head : AddsUp axis total trail [n] first) (tail : AddsUp axis total trail nodes others) :
    AddsUp axis total trail (n :: nodes) (first ++ others) := by
  intro s
  rw [Markup.sumsIn_append, List.mem_append, head s, tail s]
  constructor
  · rintro (⟨position, lost, placed, hs⟩ | ⟨position, lost, placed, hs⟩)
    · exact ⟨position, lost, placed_cons.mpr (.inl placed), hs⟩
    · exact ⟨position, lost, placed_cons.mpr (.inr placed), hs⟩
  · rintro ⟨position, lost, placed, hs⟩
    rcases placed_cons.mp placed with placed | placed
    · exact .inl ⟨position, lost, placed, hs⟩
    · exact .inr ⟨position, lost, placed, hs⟩

/-- **The element of a node** around content that adds up, or around nothing that adds anything. -/
theorem addsUp_element {tag : Tag} {attributes : List Attribute} {style : Style}
    {written : Entries Written} {fixtures content : List Markup} (sound : trail.Sound)
    (shown : hides fields = false) (keyed : attributes.any Attribute.isKey = true)
    (has : Entries.get? style axis.side =
      (emitted axis trail.shift trail.flow fields).map fun i => .text (pixelText i))
    (wrote : writeStyle style = .ok written) (bare : Markup.sumsIn axis ((trail.enter axis fields).above total)
      fixtures = [])
    (inside : isOpaque fields = true ∧ content = [] ∨
      isOpaque fields = false ∧ AddsUp axis total (trail.enter axis fields) children content) :
    AddsUp axis total trail [.object fields children] [.element tag attributes written (fixtures ++ content)] := by
  have own : Markup.sumsIn axis (trail.above total) [.element tag attributes written (fixtures ++ content)] =
      (if (emitted axis trail.shift trail.flow fields).isSome then
        [(trail.enter axis fields).above total] else []) ++
      Markup.sumsIn axis ((trail.enter axis fields).above total) content := by
    rw [Markup.sumsIn, Markup.sumsIn, List.append_nil, Markup.sums, place?_writeStyle has wrote,
      Trail.above_step sound, Markup.sumsIn_append, bare, List.nil_append, keyed, Bool.true_and]
  have self (s : Int) : s ∈ (if (emitted axis trail.shift trail.flow fields).isSome then
      [(trail.enter axis fields).above total] else []) ↔
      (emitted axis trail.shift trail.flow fields).isSome ∧ s = (trail.enter axis fields).above total := by
    cases (emitted axis trail.shift trail.flow fields).isSome <;> simp
  intro s
  rw [own, List.mem_append, self, Trail.above_enter trail total]
  constructor
  · rintro (⟨has, hs⟩ | mem)
    · exact ⟨_, _, (placed_object shown).mpr (.inl ⟨has, rfl, rfl⟩), hs⟩
    · rcases inside with ⟨_, rfl⟩ | ⟨structural, inside⟩
      · exact absurd mem List.not_mem_nil
      · rw [← Trail.above_enter trail total] at mem
        obtain ⟨position, lost, placed, hs⟩ := (inside s).mp mem
        exact ⟨position, lost, (placed_object shown).mpr (.inr ⟨structural, placed⟩), hs⟩
  · rintro ⟨position, lost, placed, hs⟩
    rcases (placed_object shown).mp placed with ⟨has, rfl, rfl⟩ | ⟨structural, placed⟩
    · exact .inl ⟨has, hs⟩
    · rcases inside with ⟨whole, _⟩ | ⟨_, inside⟩
      · rw [structural] at whole
        cases whole
      · rw [← Trail.above_enter trail total]
        exact .inr ((inside s).mpr ⟨position, lost, placed, hs⟩)

end

theorem bare_image {fields : Members} {asset : Asset} {image : Markup}
    (h : imageMarkup fields asset = .ok image) : image.IsBare := by
  cases pictures_of_imageMarkup h with
  | vector _ => exact ⟨_, _, _, rfl, rfl⟩
  | raster _ => exact ⟨_, _, _, rfl, rfl⟩

/-- A frame stands for its node, and what it holds besides the children does not. -/
theorem bare_frame {widget : Option Widget} {id : Int} {fields : Members} {children : List Node}
    {style : Style} {f : Frame} (h : frame widget id fields children style = .ok f) :
    f.attributes.any Attribute.isKey = true ∧ ∀ m ∈ f.fixtures, m.IsBare := by
  cases frames_of_frame h with
  | button => exact ⟨rfl, List.forall_mem_nil _⟩
  | emptyField _ _ => exact ⟨rfl, List.forall_mem_singleton.mpr ⟨_, _, _, rfl, rfl⟩⟩
  | textField _ => exact ⟨rfl, List.forall_mem_nil _⟩
  | checkbox _ => exact ⟨rfl, List.forall_mem_singleton.mpr ⟨_, _, _, rfl, rfl⟩⟩
  | box _ => exact ⟨rfl, List.forall_mem_nil _⟩

/-- **Every drawing adds up.** -/
theorem addsUp_of_draws {axis : Axis} {total : Int} {task : Task} {p q : Progress} {drawn : List Markup}
    (h : Draws task p drawn q) {shift : Axis → Int} {trail : Trail}
    (place : task.StandsAt (.moved shift trail.flow)) (agrees : trail.shift = shift axis)
    (sound : trail.Sound) (whole : ∀ n ∈ task.nodes, n.Whole) :
    AddsUp axis total trail task.nodes drawn := by
  induction h generalizing shift trail with
  | other => exact addsUp_nothing fun _ _ => not_placed_other
  | hidden hidden => exact addsUp_nothing fun _ _ => not_placed_hidden hidden
  | @text _ _ fields children content style written p q shown leaf _ styled wrote =>
    obtain ⟨rfl, -⟩ := place
    have has := get?_style (whole _ List.mem_cons_self).own axis styled
    rw [← agrees] at has
    have sum : AddsUp axis total trail [.object fields children]
        [.element .span [.key p.counter] written ([.text content] ++ [])] :=
      addsUp_element sound shown rfl has wrote rfl (.inl ⟨isOpaque_of_leaf leaf, rfl⟩)
    exact sum
  | @asset _ _ fields children asset image style written p shown leaf drawn pictured styled wrote =>
    obtain ⟨rfl, -⟩ := place
    have has := get?_style (whole _ List.mem_cons_self).own axis styled
    rw [← agrees] at has
    have bare : ∀ m ∈ [image], m.IsBare := List.forall_mem_singleton.mpr (bare_image pictured)
    have sum : AddsUp axis total trail [.object fields children]
        [.element .div [.key p.counter] written ([image] ++ [])] :=
      addsUp_element sound shown rfl has wrote (Markup.sumsIn_bare bare)
        (.inl ⟨isOpaque_of_asset drawn, rfl⟩)
    exact sum
  | @container _ _ fields children widget style f written content p q shown leaf plain kind styled framed
      wrote _ ih =>
    obtain ⟨rfl, rfl⟩ := place
    have own := (whole _ List.mem_cons_self).own
    have has := get?_style own axis styled
    rw [← agrees, ← get?_frame axis.side_mem (nodup_style styled) framed] at has
    obtain ⟨keyed, bare⟩ := bare_frame framed
    -- the children are drawn from the corner, with no shift to come
    have inside := Task.standsAt_inside widget fields (fun _ => 0) children
    have inner : ∀ n ∈ (Task.inside widget fields Point.zero children).nodes, n.Whole := by
      rw [Task.nodes_inside]
      exact (whole _ List.mem_cons_self).inner
    have below : AddsUp axis total (trail.enter axis fields) (Task.inside widget fields Point.zero
        children).nodes content := ih inside rfl (trail.sound_enter fields) inner
    rw [Task.nodes_inside] at below
    exact addsUp_element sound shown keyed has wrote (Markup.sumsIn_bare bare)
      (.inr ⟨isOpaque_of_none leaf plain, below⟩)
  | rowNil => exact addsUp_nothing fun _ _ => not_placed_nil
  | rowCons _ _ head tail =>
    have first := head ⟨place, rfl⟩ agrees sound (List.forall_mem_singleton.mpr (whole _ List.mem_cons_self))
    have others := tail place agrees sound fun n hn => whole n (List.mem_cons_of_mem _ hn)
    exact first.cons others
  | fieldNil => exact addsUp_nothing fun _ _ => not_placed_nil
  | @fieldInput owner _ n rest fields content style written others p q r text _ styled wrote _ tail =>
    obtain rfl : _ = _ := place
    obtain ⟨children, rfl, shown, leaf⟩ := visibleText?_eq_some text
    obtain ⟨base, based, kept⟩ := get?_inputStyle styled
    have has := get?_style (whole _ List.mem_cons_self).own axis based
    rw [← agrees, ← kept _ axis.side_mem] at has
    have input : AddsUp axis total trail [.object fields children]
        [.element .input [.key p.counter, .control .text, .placeholder content] written ([] ++ [])] :=
      addsUp_element sound shown rfl has wrote rfl (.inl ⟨isOpaque_of_leaf leaf, rfl⟩)
    exact input.cons (tail rfl agrees sound fun n hn => whole n (List.mem_cons_of_mem _ hn))
  | fieldChild _ _ _ _ head tail =>
    have first := head ⟨place, rfl⟩ agrees sound (List.forall_mem_singleton.mpr (whole _ List.mem_cons_self))
    have others := tail place agrees sound fun n hn => whole n (List.mem_cons_of_mem _ hn)
    exact first.cons others

/-! ## 4. Drawn roots -/

/-- What is drawn below a node: nothing below a text or an image. -/
def drawnInside (fields : Members) (children : List Node) : List Node :=
  if isOpaque fields then [] else children

/-- The shift of a root in whole coordinates: none if its children flow, and otherwise one that suffices. -/
theorem shift_root {fields : Members} {children : List Node} (whole : (object fields children).Whole) :
    ∃ shift : Axis → Int, Canvas.shift (.object fields children) = .ok (Point.whole shift) ∧
      (∀ axis, isAutoLayout fields = true → shift axis = 0) ∧
      ∀ axis, isAutoLayout fields = false → Suffices axis fields children (shift axis) := by
  cases flows : isAutoLayout fields with
  | true =>
    refine ⟨fun _ => 0, ?_, fun _ _ => rfl, fun _ h => absurd h (by decide)⟩
    unfold Canvas.shift
    dsimp only
    rw [if_pos flows]
    rfl
  | false =>
    obtain ⟨shift, found, least⟩ := shift_whole whole flows
    exact ⟨shift, found, fun _ h => absurd h (by decide), fun axis _ => (least axis).1⟩

/-- An element without a place adds nothing. -/
theorem sums_unplaced {axis : Axis} {style : Style} {written : Entries Written}
    (none : Entries.get? style axis.side = none) (wrote : writeStyle style = .ok written) (tag : Tag)
    (attributes : List Attribute) (content : List Markup) :
    (Markup.element tag attributes written content).sums axis 0 = Markup.sumsIn axis 0 content := by
  have unplaced : Markup.place? axis written = Option.none := place?_writeStyle none wrote
  rw [Markup.sums, unplaced]
  simp

/-- **What a drawn root adds up to**: where its nodes stand, moved by the shift, less what is lost. -/
theorem mem_sums_rootMarkup {fields : Members} {children : List Node} {p q : Progress} {m : Markup}
    {shift : Axis → Int} (whole : (object fields children).Whole)
    (h : (rootMarkup (.object fields children)).runFrom p = (.ok (some m), q))
    (moved : Canvas.shift (.object fields children) = .ok (Point.whole shift)) (axis : Axis)
    (still : isAutoLayout fields = true → shift axis = 0) (s : Int) :
    s ∈ m.sums axis 0 ↔ ∃ position lost,
      Placed axis (.root (shift axis) (isAutoLayout fields)) (drawnInside fields children) position lost ∧
        s = position + shift axis - lost := by
  obtain ⟨found, hfound, draws⟩ := draws_of_rootMarkup h
  obtain rfl : Point.whole shift = found := Except.ok.inj (moved.symm.trans hfound)
  have start : (Trail.root (shift axis) (isAutoLayout fields)).above (shift axis) = 0 := by
    show 0 + (shift axis - shift axis) - 0 = 0
    omega
  have bottom (structure' : isOpaque fields = true) (s : Int) : s ∈ ([] : List Int) ↔ ∃ position lost,
      Placed axis (.root (shift axis) (isAutoLayout fields)) (drawnInside fields children) position lost ∧
        s = position + shift axis - lost := by
    have nothing : drawnInside fields children = [] := if_pos structure'
    rw [nothing]
    exact addsUp_nothing (fun _ _ => not_placed_nil) s
  generalize hm : (some m).toList = drawn at draws
  cases draws with
  | hidden _ => cases hm
  | text shown leaf _ styled wrote =>
    obtain rfl := (List.cons.inj hm).1
    rw [sums_unplaced (get?_style_root axis styled) wrote]
    exact bottom (isOpaque_of_leaf leaf) s
  | @asset _ _ _ _ asset image style written _ shown leaf carried pictured styled wrote =>
    obtain rfl := (List.cons.inj hm).1
    have bare : ∀ m ∈ [image], m.IsBare := List.forall_mem_singleton.mpr (bare_image pictured)
    rw [sums_unplaced (get?_style_root axis styled) wrote, Markup.sumsIn_bare bare]
    exact bottom (isOpaque_of_asset carried) s
  | @container _ _ _ _ widget style f written content _ _ shown leaf plain kind styled framed wrote inside =>
    obtain rfl := (List.cons.inj hm).1
    have none := (get?_frame axis.side_mem (nodup_style styled) framed).trans (get?_style_root axis styled)
    have below : drawnInside fields children = children := if_neg (by simp [isOpaque_of_none leaf plain])
    have sums : AddsUp axis (shift axis) (.root (shift axis) (isAutoLayout fields))
        (Task.inside widget fields (Point.whole shift).neg children).nodes content := by
      refine addsUp_of_draws inside (Task.standsAt_inside widget fields shift children) rfl still ?_
      rw [Task.nodes_inside]
      exact whole.inner
    have adds := sums s
    rw [start, Task.nodes_inside] at adds
    rw [sums_unplaced none wrote, Markup.sumsIn_append, Markup.sumsIn_bare (bare_frame framed).2, below]
    exact adds

/-- **When a drawn root stays on the canvas**: exactly if nowhere more is lost than there is room.  Where the
children of the root do not flow, its shift makes room for all of them. -/
theorem sums_nonneg_iff {fields : Members} {children : List Node} {p q : Progress} {m : Markup}
    (whole : (object fields children).Whole)
    (h : (rootMarkup (.object fields children)).runFrom p = (.ok (some m), q)) :
    ∃ shift : Axis → Int, Canvas.shift (.object fields children) = .ok (Point.whole shift) ∧ ∀ axis,
      ((∀ s ∈ m.sums axis 0, 0 ≤ s) ↔ ∀ position lost,
        Placed axis (.root (shift axis) (isAutoLayout fields)) (drawnInside fields children) position lost →
          lost ≤ position + shift axis) ∧
      (isAutoLayout fields = false → ∀ position lost,
        Placed axis (.root (shift axis) (isAutoLayout fields)) (drawnInside fields children) position lost →
          0 ≤ position + shift axis) := by
  obtain ⟨shift, moved, still, room⟩ := shift_root whole
  refine ⟨shift, moved, fun axis => ⟨?_, ?_⟩⟩
  · have sums := mem_sums_rootMarkup whole h moved axis (still axis)
    constructor
    · intro nonneg position lost placed
      have := nonneg _ ((sums _).mpr ⟨position, lost, placed, rfl⟩)
      omega
    · intro bound s mem
      obtain ⟨position, lost, placed, rfl⟩ := (sums s).mp mem
      have := bound position lost placed
      omega
  · intro flat position lost placed
    have counts := placed.counts
    rw [flat] at counts
    unfold drawnInside at counts
    split at counts
    · rw [positions_nil] at counts
      exact absurd counts (Set.notMem_empty _)
    · exact (room axis flat).below position counts

theorem sums_nonneg_iff_leaning : (object [] Canvas.leaning).Whole ∧
    ∃ m q, (rootMarkup (.object [] Canvas.leaning)).runFrom {} = (.ok (some m), q) ∧
      ∃ shift : Axis → Int, Canvas.shift (.object [] Canvas.leaning) = .ok (Point.whole shift) ∧
        ∀ axis, (∀ s ∈ m.sums axis 0, 0 ≤ s) ↔ ∀ position lost,
          Placed axis (.root (shift axis) false) Canvas.leaning position lost →
            lost ≤ position + shift axis := by
  have ends : ((rootMarkup (.object [] Canvas.leaning)).runFrom {}).1.toOption.join.isSome = true := by
    decide +kernel
  obtain ⟨m, q, run⟩ := Compile.exists_ok ends
  obtain ⟨shift, moved, condition⟩ := sums_nonneg_iff Canvas.whole_leaning run
  exact ⟨Canvas.whole_leaning, m, q, run, shift, moved, fun axis => (condition axis).1⟩

/-- A box with a row in it, which stands to the right in the box and holds an item with a node to its left. -/
def sunken : Node :=
  .object [] [.object [("x", .number (.int 0))]
    [.object [("layoutMode", .text "HORIZONTAL"), ("x", .number (.int 100))]
      [.object [] [.object [("x", .number (.int (-50)))] []]]]]

/-- **A root that does not stay on the canvas**: the row is where the box is, and the node to the left of it. -/
theorem negative_sum : sunken.Whole ∧
    (Canvas.shift sunken).toOption.map (fun p => (p.x, p.y)) = some (.int 0, .int 0) ∧
    ((rootMarkup sunken).runFrom {}).1.toOption.join.map (Markup.sums .x 0) = some [0, -50] := by
  refine ⟨?_, by decide +kernel, by decide +kernel⟩
  exact .only (by decide) (.only (by decide) (.only (by decide) (.only (by decide)
    (.object (by decide) (List.forall_mem_nil _)))))

end Node

end Artboard
