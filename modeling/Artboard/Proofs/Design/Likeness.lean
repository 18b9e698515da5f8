import Artboard.Proofs.Design.Reading
import Artboard.Proofs.Limits.Markup
import Artboard.Proofs.Pruning

/-!
# Designs that are read alike

Two designs of the same shape may differ in numbers that no rule tells apart.  Which numbers these are is said by a
likeness (`Likeness`), with one law for each kind of arithmetic on coordinates and lengths; it is up to the likeness
what may be added up, and how often.  Nodes are alike if their fields agree but for their names, boxes and places,
and these are alike, where places do not matter in a flow (`Likeness.Nodes`).

The walk over the canvas finds alike points in designs that are alike (`Likeness.matched_leastOf`).  If the names are
the same too, the designs are drawn the same, number by number and fault by fault
(`Likeness.rootMarkups_of_nodes`).
-/

namespace Artboard

open Members

/-- **A likeness of numbers**: numbers that are given alike, and what comes out of adding up so many of them on both
sides. -/
structure Likeness where
  /-- two sums of so many numbers -/
  like : Nat → Number → Number → Prop
  /-- the most that may be added up -/
  most : Nat
  zero : like 0 (.int 0) (.int 0)
  mono {j k : Nat} {m n : Number} : like j m n → j ≤ k → like k m n
  neg {k : Nat} {m n : Number} : like k m n → like k m.neg n.neg
  abs {k : Nat} {m n : Number} : like k m n → like k m.abs n.abs
  add {k : Nat} {m n a b : Number} : like k m n → like 1 a b → k < most →
    Matched (like (k + 1)) (m.add a) (n.add b)
  sub {k : Nat} {m n a b : Number} : like 1 a b → like k m n → k < most →
    Matched (like (k + 1)) (a.sub m) (b.sub n)
  lt {j k : Nat} {m n a b : Number} : like j a b → like k m n → a.lt m = b.lt n
  isZero {k : Nat} {m n : Number} : like k m n → m.isZero = n.isZero
  format {k : Nat} {m n : Number} : like k m n → k ≤ most → m.format 2 = n.format 2

namespace Likeness

variable {L : Likeness} {k : Nat} {m n : Number}

theorem px (h : L.like k m n) (few : k ≤ L.most) : m.px = n.px := by
  unfold Number.px
  rw [L.format h few]

theorem min {a b : Number} (h : L.like k m n) (h' : L.like k a b) : L.like k (m.min a) (n.min b) := by
  unfold Number.min
  rw [L.lt h' h]
  split
  · exact h'
  · exact h

/-! ## 1. Points and places -/

/-- Points with alike coordinates. -/
def Points (L : Likeness) (k : Nat) (p q : Point) : Prop := L.like k p.x q.x ∧ L.like k p.y q.y

/-- Places of the same kind, with alike origins; in a flow or not. -/
inductive Places (L : Likeness) (k : Nat) : Bool → Placement → Placement → Prop where
  | root : Places L k false .root .root
  | flow : Places L k true .flow .flow
  | absolute {p q : Point} (origin : L.Points k p q) : Places L k false (.absolute p.x p.y) (.absolute q.x q.y)

section

variable {flow : Bool} {place place' : Placement}

theorem Places.isFlow (h : L.Places k flow place place') : place.isFlow = flow := by
  cases h <;> rfl

theorem Places.isFlow_other (h : L.Places k flow place place') : place'.isFlow = flow := by
  cases h <;> rfl

theorem Places.originX (h : L.Places k flow place place') (still : flow = false) :
    L.like k place.originX place'.originX := by
  cases h with
  | root => exact L.mono L.zero (Nat.zero_le k)
  | flow => cases still
  | absolute origin => exact origin.1

end

section

variable {j : Nat} {p q a b : Point}

theorem Points.mono (h : L.Points j p q) (le : j ≤ k) : L.Points k p q := ⟨L.mono h.1 le, L.mono h.2 le⟩

theorem Points.min (h : L.Points k p q) (h' : L.Points k a b) : L.Points k (p.min a) (q.min b) :=
  ⟨Likeness.min h.1 h'.1, Likeness.min h.2 h'.2⟩

theorem Points.neg (h : L.Points k p q) : L.Points k p.neg q.neg := ⟨L.neg h.1, L.neg h.2⟩

theorem points_zero : L.Points k Point.zero Point.zero :=
  ⟨L.mono L.zero (Nat.zero_le k), L.mono L.zero (Nat.zero_le k)⟩

end

/-! ## 2. Nodes -/

/-- The fields that may be alike without being the same. -/
def boxNames : List String := ["name", "visible", "width", "height", "x", "y", "opacity"]

/-- Fields of nodes that are read alike, in a flow or not, under the same name or not. -/
structure Fields (L : Likeness) (named : Prop) (flow : Bool) (fields others : Members) : Prop where
  agree : AgreeOff boxNames fields others
  name : named → fields.get "name" = others.get "name"
  visible : Node.hides fields = Node.hides others
  width : L.like 1 (numberOf fields "width") (numberOf others "width")
  height : L.like 1 (numberOf fields "height") (numberOf others "height")
  x : flow = false → L.like 1 (numberOf fields "x") (numberOf others "x")
  y : flow = false → L.like 1 (numberOf fields "y") (numberOf others "y")
  opacity : ∀ style : Style, Node.putOpacity fields style = Node.putOpacity others style

/-- **Nodes that are read alike**, side by side in a list of children. -/
inductive Nodes (L : Likeness) (named : Prop) : Bool → List Node → List Node → Prop where
  | nil {flow} : Nodes L named flow [] []
  | other {flow v nodes others} (rest : Nodes L named flow nodes others) :
      Nodes L named flow (.other v :: nodes) (.other v :: others)
  | object {flow fields own children kept nodes others} (alike : L.Fields named flow fields own)
      (inner : Nodes L named (Node.isAutoLayout fields) children kept) (rest : Nodes L named flow nodes others) :
      Nodes L named flow (.object fields children :: nodes) (.object own kept :: others)

section

variable {named : Prop} {flow : Bool} {fields others : Members} (alike : L.Fields named flow fields others)

include alike

theorem Fields.leaf : Node.leafText? fields = Node.leafText? others :=
  Node.leafText?_agree (alike.agree.agree (by decide))

theorem Fields.asset : Asset.ofNode? fields = Asset.ofNode? others :=
  Asset.ofNode?_agree (alike.agree.agree (by decide))

theorem Fields.opaque_eq : Node.isOpaque fields = Node.isOpaque others :=
  Node.isOpaque_agree (alike.agree.agree (by decide))

theorem Fields.flows : Node.isAutoLayout fields = Node.isAutoLayout others :=
  Node.isAutoLayout_agree (alike.agree.agree (by decide))

theorem Fields.useFont : Compile.useFont fields = Compile.useFont others :=
  Compile.useFont_agree (alike.agree.agree (by decide))

end

/-! ## 3. The canvas -/

section

variable {named : Prop} {flow : Bool} {fields own : Members} {children kept nodes others : List Node}
  {j most : Nat} {sofar sofar' parent parent' : Point}

/-- Nodes stand at alike points if their parents do. -/
theorem matched_ofChild (alike : L.Fields named flow fields own) (hp : L.Points j parent parent')
    (few : j < L.most) : Matched (L.Points (j + 1)) (Point.ofChild parent flow fields)
      (Point.ofChild parent' flow own) := by
  cases flow with
  | true => exact .ok (hp.mono (Nat.le_succ j))
  | false =>
    refine (L.add hp.1 (alike.x rfl) few).bind fun x x' hx => ?_
    exact (L.add hp.2 (alike.y rfl) few).bind fun y y' hy => .ok ⟨hx, hy⟩

/-- **One step of the walk**: it finds alike points at two nodes if it does among their children. -/
theorem matched_least (room : most ≤ L.most) (alike : L.Fields named flow fields own)
    (inside : ∀ {k : Nat} {sofar sofar' parent parent' : Point}, L.Points most sofar sofar' →
      L.Points k parent parent' → k + Node.levelsIn children ≤ most → Matched (L.Points most)
        (Canvas.leastOf sofar parent (Node.isAutoLayout fields) children)
        (Canvas.leastOf sofar' parent' (Node.isAutoLayout fields) kept))
    (hs : L.Points most sofar sofar') (hp : L.Points j parent parent')
    (few : j + (Node.object fields children).levels ≤ most) :
    Matched (L.Points most) (Canvas.least sofar parent flow (.object fields children))
      (Canvas.least sofar' parent' flow (.object own kept)) := by
  rw [Node.levels] at few
  unfold Canvas.least
  rw [alike.visible, alike.opaque_eq, ← alike.flows]
  split
  · exact .ok hs
  · refine (matched_ofChild alike hp (by omega)).bind fun here here' hh => ?_
    have counted : L.Points most (if flow then sofar else sofar.min here)
        (if flow then sofar' else sofar'.min here') := by
      split
      · exact hs
      · exact hs.min (hh.mono (by omega))
    dsimp only
    split
    · exact .ok counted
    · exact inside counted hh (by omega)

/-- **The walk finds alike points** in lists of nodes that are alike. -/
theorem matched_leastOf (room : most ≤ L.most) (h : L.Nodes named flow nodes others) :
    ∀ {j : Nat} {sofar sofar' parent parent' : Point}, L.Points most sofar sofar' → L.Points j parent parent' →
      j + Node.levelsIn nodes ≤ most → Matched (L.Points most) (Canvas.leastOf sofar parent flow nodes)
        (Canvas.leastOf sofar' parent' flow others) := by
  induction h with
  | nil =>
    intro j sofar sofar' parent parent' hs _ _
    unfold Canvas.leastOf
    exact .ok hs
  | other _ ih =>
    intro j sofar sofar' parent parent' hs hp few
    rw [Node.levelsIn] at few
    unfold Canvas.leastOf Canvas.least
    exact (ih hs hp (by omega)).bind fun _ _ hn => .ok hn
  | object alike _ _ inner ih =>
    intro j sofar sofar' parent parent' hs hp few
    rw [Node.levelsIn] at few
    unfold Canvas.leastOf
    exact (ih hs hp (by omega)).bind fun _ _ hn => matched_least room alike inner hn hp (by omega)

/-- **Roots that are alike have alike shifts.** -/
theorem matched_shift (alike : L.Fields named false fields own)
    (inner : L.Nodes named (Node.isAutoLayout fields) children kept)
    (room : (Node.object fields children).levels ≤ L.most) :
    Matched (L.Points (Node.object fields children).levels) (Canvas.shift (.object fields children))
      (Canvas.shift (.object own kept)) := by
  rw [Node.levels] at room ⊢
  unfold Canvas.shift
  dsimp only
  rw [← alike.flows]
  split
  · exact .ok points_zero
  · rename_i flat
    rw [Bool.not_eq_true] at flat
    rw [flat] at inner
    have corner : L.Points 1 ⟨numberOf fields "x", numberOf fields "y"⟩ ⟨numberOf own "x", numberOf own "y"⟩ :=
      ⟨alike.x rfl, alike.y rfl⟩
    have start := (points_zero.min corner).mono (Nat.le_add_left 1 (Node.levelsIn children))
    refine (matched_leastOf room inner start (points_zero (k := 0)) (by omega)).bind fun low low' hl => ?_
    exact .ok ⟨L.abs hl.1, L.abs hl.2⟩

theorem checkShift_of_points {p q : Point} (h : L.Points k p q) (few : k ≤ L.most) :
    Node.checkShift p = Node.checkShift q := by
  unfold Node.checkShift
  rw [L.isZero h.1, L.isZero h.2, L.format h.1 few, L.format h.2 few]

end

/-! ## 4. Elements -/

section

variable {flow drawn : Bool} {fields own : Members} {place place' : Placement}
  (alike : L.Fields True flow fields own)

include alike

/-- Nodes in alike places have the same style. -/
theorem Fields.style (placed : L.Places k flow place place') (few : k < L.most) (drawn : Bool) :
    Node.style fields place drawn = Node.style own place' drawn := by
  have one : 1 ≤ L.most := by omega
  refine Node.style_agree (alike.agree.agree (by decide)) (px alike.width one) (px alike.height one) ?_ alike.opacity
  cases placed with
  | root => rfl
  | flow => rfl
  | @absolute p q origin =>
    unfold Placement.style
    dsimp only
    refine (L.sub (alike.x rfl) origin.1 few).bind_eq fun x x' hx => ?_
    rw [px hx few]
    refine congrArg _ (funext fun left => ?_)
    refine (L.sub (alike.y rfl) origin.2 few).bind_eq fun y y' hy => ?_
    rw [px hy few]

theorem Fields.description : Node.description fields = Node.description own :=
  Node.description_agree fun name hn => by
    rw [List.mem_singleton.mp hn]
    exact alike.name trivial

theorem Fields.widget : Widget.ofNode fields = Widget.ofNode own := by
  have type : Agree ["type"] fields own := alike.agree.agree (by decide)
  refine Widget.ofNode_agree fun name hn => ?_
  rcases List.mem_cons.mp hn with rfl | hn
  · exact alike.name trivial
  · exact type name hn

theorem Fields.textMarkup (placed : L.Places k flow place place') (few : k < L.most) (content : String) :
    Node.textMarkup fields content place = Node.textMarkup own content place' := by
  unfold Node.textMarkup
  rw [alike.useFont, alike.style placed few]

theorem Fields.assetMarkup (placed : L.Places k flow place place') (few : k < L.most) (asset : Asset) :
    Node.assetMarkup fields asset place = Node.assetMarkup own asset place' := by
  have image : Node.imageMarkup fields asset = Node.imageMarkup own asset := by
    unfold Node.imageMarkup
    rw [alike.description]
  unfold Node.assetMarkup
  rw [alike.style placed few, image]

/-- The input of a text field is alike if the text and the width of the field are. -/
theorem Fields.inputStyle {field field' : Members}
    (wide : L.like 1 (numberOf field "width") (numberOf field' "width"))
    (placed : L.Places k flow place place') (few : k + 2 ≤ L.most) :
    Node.inputStyle field fields place = Node.inputStyle field' own place' := by
  unfold Node.inputStyle
  rw [alike.style placed (by omega), placed.isFlow, placed.isFlow_other]
  refine congrArg _ (funext fun style => ?_)
  dsimp only
  split
  · rfl
  · rename_i still
    have still : flow = false := by simpa using still
    refine (L.sub (alike.x still) (placed.originX still) (by omega)).bind_eq fun left left' hl => ?_
    refine (L.sub wide hl (by omega)).bind_eq fun available available' ha => ?_
    rw [L.lt alike.width ha, px ha few]

theorem Fields.inputMarkup {field field' : Members}
    (wide : L.like 1 (numberOf field "width") (numberOf field' "width"))
    (placed : L.Places k flow place place') (few : k + 2 ≤ L.most) (content : String) :
    Node.inputMarkup field fields content place = Node.inputMarkup field' own content place' := by
  unfold Node.inputMarkup
  rw [alike.useFont, alike.inputStyle wide placed few]

/-- The children of nodes that are alike are in alike places. -/
theorem Fields.within {origin origin' : Point} (origins : L.Points k origin origin') :
    L.Places k (Node.isAutoLayout fields) (Placement.within fields origin) (Placement.within own origin') := by
  unfold Placement.within
  rw [← alike.flows]
  split
  · rename_i flows
    rw [flows]
    exact .flow
  · rename_i flat
    rw [Bool.not_eq_true] at flat
    rw [flat]
    exact .absolute origins

end

/-! ## 5. Drawings -/

open Node

section

variable {named : Prop} {flow : Bool} {nodes others : List Node}

theorem firstTextIn_of_nodes (h : L.Nodes named flow nodes others) : firstTextIn nodes = firstTextIn others := by
  induction h with
  | nil => rfl
  | other _ ih => rw [firstTextIn, firstTextIn, ih]
  | object alike _ _ inner ih =>
    rw [firstTextIn, firstTextIn, ih, firstText, firstText, alike.visible, alike.leaf, inner]

theorem slot_of_nodes (h : L.Nodes named flow nodes others) : Slot.ofChildren nodes = Slot.ofChildren others := by
  refine Slot.ofChildren_congr ?_
  induction h with
  | nil => rfl
  | other _ ih => rw [List.any_cons, List.any_cons, ih]
  | object alike _ _ _ ih =>
    rw [List.any_cons, List.any_cons, ih, visibleText?, visibleText?, alike.visible, alike.leaf]
    split
    · rfl
    · rw [Option.isSome_map, Option.isSome_map]

end

/-- Lists of children that are drawn the same in alike places, in a row and in a text field. -/
structure Drawn (L : Likeness) (flow : Bool) (nodes others : List Node) : Prop where
  row {k : Nat} {place place' : Placement} (placed : L.Places k flow place place') (few : k + 2 ≤ L.most) :
    markups place nodes = markups place' others
  field {k : Nat} {owner owner' : Members} (wide : L.like 1 (numberOf owner "width") (numberOf owner' "width"))
    {place place' : Placement} (placed : L.Places k flow place place') (few : k + 2 ≤ L.most) (slot : Slot) :
    fieldMarkup owner place slot nodes = fieldMarkup owner' place' slot others

variable {flow : Bool} {fields own : Members} {children kept nodes others : List Node}

/-- A node is drawn the same if its children are. -/
theorem markup_of_drawn (alike : L.Fields True flow fields own)
    (inner : L.Nodes True (isAutoLayout fields) children kept)
    (inside : L.Drawn (isAutoLayout fields) children kept) {place place' : Placement}
    (placed : L.Places k flow place place') {origin origin' : Point} (origins : L.Points k origin origin')
    (few : k + 2 ≤ L.most) :
    markup place origin (.object fields children) = markup place' origin' (.object own kept) := by
  unfold markup
  rw [alike.visible, alike.leaf, alike.asset, alike.widget, alike.style placed (by omega)]
  split
  · rfl
  · split
    · rw [alike.textMarkup placed (by omega)]
    · rw [alike.assetMarkup placed (by omega)]
    · refine bind_congr fun id => bind_congr fun widget => bind_congr fun style => ?_
      have framed : frame widget id fields children style = frame widget id own kept style := by
        unfold frame checkboxInput
        rw [firstTextIn_of_nodes inner, slot_of_nodes inner, alike.description,
          isText_agree (alike.agree.agree (by decide))]
      rw [framed, slot_of_nodes inner]
      refine bind_congr fun frame => ?_
      dsimp only
      rw [inside.row (alike.within origins) few, inside.field alike.width (alike.within origins) few]

/-- The text that a text field waits for is its input. -/
theorem fieldMarkup_text {n : Node} {content : String} (text : n.visibleText? = some (fields, content))
    (owner : Members) (place : Placement) : fieldMarkup owner place .awaited (n :: nodes) = do
      let input ← inputMarkup owner fields content place
      let others ← fieldMarkup owner place .filled nodes
      return input :: others := by
  conv_lhs => unfold fieldMarkup
  rw [text]

/-- Every other object is drawn as elsewhere. -/
theorem fieldMarkup_object (owner : Members) (place : Placement) {slot : Slot}
    (passed : slot = .awaited → visibleText? (.object fields children) = none) :
    fieldMarkup owner place slot (.object fields children :: nodes) = do
      let first ← markup place Point.zero (.object fields children)
      let others ← fieldMarkup owner place slot nodes
      return first.toList ++ others := by
  rw [fieldMarkup]
  · exact if_neg (by simp [isNull])
  · intro fields content awaited text
    rw [passed awaited] at text
    cases text

/-- A child is drawn the same in two text fields if it is drawn the same elsewhere. -/
theorem fieldMarkup_of_drawn (alike : L.Fields True flow fields own) {owner owner' : Members}
    (wide : L.like 1 (numberOf owner "width") (numberOf owner' "width")) {place place' : Placement}
    (placed : L.Places k flow place place') (few : k + 2 ≤ L.most) (slot : Slot)
    (head : markup place Point.zero (.object fields children) = markup place' Point.zero (.object own kept))
    (rest : ∀ slot, fieldMarkup owner place slot nodes = fieldMarkup owner' place' slot others) :
    fieldMarkup owner place slot (.object fields children :: nodes) =
      fieldMarkup owner' place' slot (.object own kept :: others) := by
  have texts : visibleText? (.object fields children) =
      if hides own then none else (leafText? own).map fun s => (fields, s) := by
    unfold visibleText?
    dsimp only
    rw [alike.visible, alike.leaf]
  by_cases shown : slot = .awaited ∧ ∃ content, visibleText? (.object own kept) = some (own, content)
  · obtain ⟨rfl, content, text⟩ := shown
    obtain ⟨_, same, visible, leaf⟩ := visibleText?_eq_some text
    rw [visible, leaf] at texts
    rw [fieldMarkup_text text, fieldMarkup_text texts, alike.inputMarkup wide placed few, rest]
  · have passed (awaited : slot = .awaited) : visibleText? (.object own kept) = none := by
      cases text : visibleText? (.object own kept) with
      | none => rfl
      | some found =>
        obtain ⟨_, same, -, -⟩ := visibleText?_eq_some text
        obtain ⟨rfl, rfl⟩ := Node.object.inj same
        exact absurd ⟨awaited, found.2, text⟩ shown
    have passed' (awaited : slot = .awaited) : visibleText? (.object fields children) = none := by
      have none := passed awaited
      unfold visibleText? at none
      dsimp only at none
      rw [texts]
      split at none
      · rename_i hidden
        rw [if_pos hidden]
      · rename_i visible
        rw [if_neg visible, Option.map_eq_none_iff]
        exact Option.map_eq_none_iff.mp none
    rw [fieldMarkup_object _ _ passed, fieldMarkup_object _ _ passed', head, rest]

/-- What is no object is drawn nowhere. -/
theorem fieldMarkup_other {v : Value} {owner owner' : Members} {place place' : Placement} (slot : Slot)
    (rest : fieldMarkup owner place slot nodes = fieldMarkup owner' place' slot others) :
    fieldMarkup owner place slot (.other v :: nodes) = fieldMarkup owner' place' slot (.other v :: others) := by
  by_cases taken : slot = .missing ∧ v.isNull = true
  · obtain ⟨rfl, null⟩ := taken
    unfold fieldMarkup
    simp [isNull, null]
  · have given (missing : slot = .missing) : isNull (.other v) = false := by
      simpa [isNull] using fun null => taken ⟨missing, null⟩
    rw [fieldMarkup_of_none _ _ rfl given, fieldMarkup_of_none _ _ rfl given, rest, markup, markup]

/-- **Nodes that are alike are drawn the same** in alike places. -/
theorem drawn_of_nodes (h : L.Nodes True flow nodes others) : L.Drawn flow nodes others := by
  induction h with
  | nil => exact ⟨fun _ _ => rfl, fun _ _ _ _ _ _ => rfl⟩
  | other _ ih =>
    refine ⟨fun placed few => ?_, fun wide _ _ placed few slot => ?_⟩
    · rw [markups, markups, ih.row placed few, markup, markup]
    · exact fieldMarkup_other slot (ih.field wide placed few slot)
  | object alike inner _ inside ih =>
    have same {k : Nat} {place place' : Placement} (placed : L.Places k _ place place') (few : k + 2 ≤ L.most) :=
      markup_of_drawn alike inner inside placed points_zero few
    refine ⟨fun placed few => ?_, fun wide _ _ placed few slot => ?_⟩
    · rw [markups, markups, same placed few, ih.row placed few]
    · exact fieldMarkup_of_drawn alike wide placed few slot (same placed few) (ih.field wide placed few)

/-! ## 6. Roots -/

/-- A root is drawn the same. -/
theorem rootMarkup_of_nodes (alike : L.Fields True false fields own)
    (inner : L.Nodes True (isAutoLayout fields) children kept)
    (room : (Node.object fields children).levels + 2 ≤ L.most) :
    rootMarkup (.object fields children) = rootMarkup (.object own kept) := by
  have shifts := matched_shift alike inner (by omega)
  unfold rootMarkup
  generalize Canvas.shift (.object fields children) = found at shifts ⊢
  generalize Canvas.shift (.object own kept) = other at shifts ⊢
  cases shifts with
  | error fault => rfl
  | ok shifts =>
    show (liftM (checkShift _) >>= fun _ => markup .root _ _ : Compile _) =
      (liftM (checkShift _) >>= fun _ => markup .root _ _ : Compile _)
    rw [checkShift_of_points shifts (by omega),
      markup_of_drawn alike inner (drawn_of_nodes inner) .root shifts.neg room]

/-- **Forests that are alike are drawn the same**, number by number and fault by fault. -/
theorem rootMarkups_of_nodes (h : L.Nodes True false nodes others) (room : levelsIn nodes + 2 ≤ L.most) :
    rootMarkups nodes = rootMarkups others := by
  generalize hf : false = flow at h
  induction h with
  | nil => rfl
  | other _ ih =>
    rw [levelsIn] at room
    rw [rootMarkups, rootMarkups, ih (by omega) hf]
  | object alike inner _ _ ih =>
    rw [levelsIn] at room
    subst hf
    rw [rootMarkups, rootMarkups, ih (by omega) rfl, rootMarkup_of_nodes alike inner (by omega)]

/-! ## 7. Numbers that are the same -/

/-- Numbers are alike if they are the same, however many are added up. -/
def same (most : Nat) : Likeness where
  like _ m n := m = n
  most := most
  zero := rfl
  mono h _ := h
  neg h := congrArg Number.neg h
  abs h := congrArg Number.abs h
  add h h' _ := .of_eq (by rw [h, h']) fun _ => rfl
  sub h h' _ := .of_eq (by rw [h, h']) fun _ => rfl
  lt h h' := by rw [h, h']
  isZero h := by rw [h]
  format h _ := by rw [h]

/-- Fields that agree off names and coordinates are read alike where these do not matter. -/
theorem fields_same {named : Prop} {most : Nat} {out : List String} (h : AgreeOff out fields own)
    (few : ∀ name ∈ out, name ∈ ["name", "x", "y"]) (name : named → "name" ∉ out)
    (still : flow = false → "x" ∉ out ∧ "y" ∉ out) : (same most).Fields named flow fields own := by
  have kept : AgreeOff ["name", "x", "y"] fields own := h.mono few
  have number {name : String} (hn : name ∉ out) : numberOf fields name = numberOf own name := by
    unfold numberOf
    rw [h name hn]
  have length {name : String} (hn : name ∉ ["name", "x", "y"]) : numberOf fields name = numberOf own name :=
    number fun mem => hn (few name mem)
  refine ⟨kept.mono (by decide), fun used => h "name" (name used), hides_agree (kept.agree (by decide)),
    length (by decide), length (by decide), fun flat => number (still flat).1, fun flat => number (still flat).2,
    fun style => ?_⟩
  unfold putOpacity
  rw [kept "opacity" (by decide)]

/-- Where alike numbers are the same, so are shifts. -/
theorem shift_same {named : Prop} {most : Nat} (alike : (same most).Fields named false fields own)
    (inner : (same most).Nodes named (isAutoLayout fields) children kept)
    (room : (Node.object fields children).levels ≤ most) :
    Canvas.shift (.object fields children) = Canvas.shift (.object own kept) := by
  have shifts := matched_shift alike inner room
  generalize Canvas.shift (.object fields children) = found at shifts ⊢
  generalize Canvas.shift (.object own kept) = other at shifts ⊢
  cases shifts with
  | error fault => rfl
  | @ok p q points =>
    obtain ⟨hx, hy⟩ : p.x = q.x ∧ p.y = q.y := points
    cases p
    cases q
    subst hx hy
    rfl

/-- And so are the shifts of all roots. -/
theorem shifts_of_nodes {named : Prop} {most : Nat} (h : (same most).Nodes named false nodes others)
    (room : levelsIn nodes ≤ most) : nodes.map Canvas.shift = others.map Canvas.shift := by
  generalize hf : false = flow at h
  induction h with
  | nil => rfl
  | other _ ih =>
    rw [levelsIn] at room
    rw [List.map_cons, List.map_cons, ih (by omega) hf]
  | object alike inner _ _ ih =>
    rw [levelsIn] at room
    subst hf
    rw [List.map_cons, List.map_cons, ih (by omega) rfl, shift_same alike inner (by omega)]

end Likeness

end Artboard
