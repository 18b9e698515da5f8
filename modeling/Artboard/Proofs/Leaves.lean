import Artboard.Proofs.Canvas
import Artboard.Proofs.Pruning

/-!
# What stands below a leaf

A text and a node with an image of itself are drawn without their children.  What these are does not matter
to a design, with one exception: a button is labelled with the first text below it, and the search for one goes
on below images (`Node.firstText`).  So a design whose leaves hold something else (`Node.Regrows`) compiles to
the same fonts and the same markup but for the labels of buttons, and to the very same markup exactly if the
labels of all buttons are the same (`Composition.markup_regrown`).

The two compilations are run side by side (`Compile.Paired`): they fail together, and what they draw is
alike (`Markup.Alike`).  Only the shift of a root that is itself a leaf is looked for below the leaf, and has
to be one that can be written (`Canvas.CanShift`), as it is for small whole coordinates
(`Canvas.canShift_of_small`).
-/

namespace Artboard

/-! ## 1. Markup but for the labels of buttons -/

/-- The label read out for a control. -/
def Attribute.label? : Attribute → Option String
  | label s => some s
  | _ => none

namespace Markup

/-- The attributes of an element without its label, if it is a button. -/
def withoutLabel (tag : Tag) (as : List Attribute) : List Attribute :=
  if tag = .button then as.filter (·.label?.isNone) else as

mutual

/-- Markup without the labels of its buttons. -/
def unlabelled : Markup → Markup
  | text s => text s
  | element tag as style children => element tag (withoutLabel tag as) style (unlabelledIn children)

/-- Several pieces of markup without the labels of their buttons. -/
def unlabelledIn : List Markup → List Markup
  | [] => []
  | m :: rest => unlabelled m :: unlabelledIn rest

end

theorem unlabelledIn_append : ∀ ms more : List Markup,
    unlabelledIn (ms ++ more) = unlabelledIn ms ++ unlabelledIn more
  | [], _ => rfl
  | m :: rest, more => by
    rw [List.cons_append, unlabelledIn, unlabelledIn, unlabelledIn_append rest more, List.cons_append]

/-- The label of a button. -/
def buttonLabel? : Markup → Option String
  | element .button as _ _ => as.findSome? Attribute.label?
  | _ => none

/-- Markup that is the same but for the labels of buttons, and is the same altogether where they are. -/
structure Alike (agree : Prop) (ms others : List Markup) : Prop where
  unlabelled : unlabelledIn ms = unlabelledIn others
  same : agree → ms = others

section

variable {agree : Prop} {ms others : List Markup}

theorem Alike.refl (ms : List Markup) : Alike agree ms ms := ⟨rfl, fun _ => rfl⟩

theorem Alike.weaken {stronger : Prop} (h : Alike agree ms others) (imp : stronger → agree) :
    Alike stronger ms others := ⟨h.unlabelled, fun hs => h.same (imp hs)⟩

theorem Alike.append {more rest : List Markup} (h : Alike agree ms others) (k : Alike agree more rest) :
    Alike agree (ms ++ more) (others ++ rest) where
  unlabelled := by rw [unlabelledIn_append, unlabelledIn_append, h.unlabelled, k.unlabelled]
  same hs := by rw [h.same hs, k.same hs]

/-- An element around markup that is alike. -/
theorem Alike.element {tag : Tag} {as bs : List Attribute} {style : Entries Written}
    (attributes : withoutLabel tag as = withoutLabel tag bs) (labels : agree → as = bs)
    (inside : Alike agree ms others) :
    Alike agree [.element tag as style ms] [.element tag bs style others] where
  unlabelled := by
    simp only [unlabelledIn, Markup.unlabelled, attributes, inside.unlabelled]
  same hs := by rw [labels hs, inside.same hs]

end

end Markup

/-! ## 2. Designs with other nodes below their leaves -/

namespace Node

/-- The leaves of a design hold other nodes than those of another one, which is the same design elsewhere. -/
inductive Regrows : List Node → List Node → Prop where
  | nil : Regrows [] []
  | other {v nodes others} (rest : Regrows nodes others) : Regrows (.other v :: nodes) (.other v :: others)
  /-- The children of a text or of an image are any others. -/
  | leaf {fields children grown nodes others} (whole : isOpaque fields = true) (rest : Regrows nodes others) :
      Regrows (.object fields children :: nodes) (.object fields grown :: others)
  | object {fields children grown nodes others} (inner : Regrows children grown)
      (rest : Regrows nodes others) :
      Regrows (.object fields children :: nodes) (.object fields grown :: others)

theorem Regrows.split {n : Node} {nodes grown : List Node} (h : Regrows (n :: nodes) grown) :
    ∃ other others, grown = other :: others ∧ Regrows [n] [other] ∧ Regrows nodes others := by
  cases h with
  | other rest => exact ⟨_, _, rfl, .other .nil, rest⟩
  | leaf whole rest => exact ⟨_, _, rfl, .leaf whole .nil, rest⟩
  | object inner rest => exact ⟨_, _, rfl, .object inner .nil, rest⟩

/-- The label of a node that is drawn as a button. -/
def label? : Node → Option String
  | object fields children =>
    match isOpaque fields, Widget.ofNode fields with
    | false, .ok (some .button) => firstTextIn children
    | _, _ => none
  | other _ => none

/-- The labels of all nodes that are drawn of a design, none for those that are no buttons. -/
def labels (nodes : List Node) : List (Option String) := (drawnIn nodes).map label?

section

variable {nodes others : List Node}

theorem slot_of_regrows (h : Regrows nodes others) : Slot.ofChildren nodes = Slot.ofChildren others := by
  refine Slot.ofChildren_congr ?_
  induction h with
  | nil => rfl
  | other _ ih => rw [List.any_cons, List.any_cons, ih]
  | leaf _ _ ih => rw [List.any_cons, List.any_cons, ih, visibleText?_object]
  | object _ _ _ ih => rw [List.any_cons, List.any_cons, ih, visibleText?_object]

/-- No shift counts what stands below a leaf inside the root. -/
theorem leastOf_of_regrows (h : Regrows nodes others) : ∀ sofar parent inFlow,
    Canvas.leastOf sofar parent inFlow nodes = Canvas.leastOf sofar parent inFlow others := by
  induction h with
  | nil => exact fun _ _ _ => rfl
  | other _ ih =>
    intro sofar parent inFlow
    rw [Canvas.leastOf, Canvas.leastOf, ih]
  | leaf whole _ ih =>
    intro sofar parent inFlow
    rw [Canvas.leastOf, Canvas.leastOf, ih]
    refine bind_congr fun sofar => ?_
    unfold Canvas.least
    simp only [if_pos whole]
  | object _ _ inner ih =>
    intro sofar parent inFlow
    rw [Canvas.leastOf, Canvas.leastOf, ih]
    exact bind_congr fun sofar => least_congr inner sofar parent inFlow

theorem length_labels (h : Regrows nodes others) : (labels nodes).length = (labels others).length := by
  unfold labels
  rw [List.length_map, List.length_map]
  induction h with
  | nil => rfl
  | other _ ih => rwa [drawnIn, drawnIn]
  | leaf whole _ ih =>
    rw [drawnIn, drawnIn, List.length_append, List.length_append, ih]
    unfold drawn
    split
    · rfl
    · rfl
  | object _ _ inner ih =>
    rw [drawnIn, drawnIn, List.length_append, List.length_append, ih]
    unfold drawn
    split
    · rfl
    · split
      · rfl
      · rw [List.length_cons, List.length_cons, inner]

theorem labels_one (n : Node) : labels [n] = n.drawn.map label? := by
  unfold labels
  rw [drawnIn, drawnIn, List.append_nil]

theorem labels_cons (n : Node) (nodes : List Node) : labels (n :: nodes) = labels [n] ++ labels nodes := by
  rw [labels_one]
  unfold labels
  rw [drawnIn, List.map_append]

/-- The labels of a container: its own and those below it. -/
theorem labels_container {fields : Members} {children : List Node} (shown : hides fields = false)
    (plain : isOpaque fields = false) :
    labels [.object fields children] = label? (.object fields children) :: labels children := by
  rw [labels_one, drawn_container shown plain, List.map_cons]
  rfl

theorem label?_button {fields : Members} {children : List Node} (plain : isOpaque fields = false)
    (kind : Widget.ofNode fields = .ok (some .button)) :
    label? (.object fields children) = firstTextIn children := by
  rw [label?, plain, kind]

/-- Where two designs have the same labels, so have their first nodes, and so have the others. -/
theorem labels_split {n other : Node} (head : Regrows [n] [other])
    (h : labels (n :: nodes) = labels (other :: others)) :
    labels [n] = labels [other] ∧ labels nodes = labels others := by
  rw [labels_cons, labels_cons other] at h
  exact List.append_inj h (length_labels head)

/-! ## 3. Drawings side by side -/

open Compile Markup

/-- A leaf is drawn without its children. -/
theorem markup_leaf {fields : Members} {children grown : List Node} (whole : isOpaque fields = true)
    (place : Placement) (origin start : Point) :
    markup place origin (.object fields children) = markup place start (.object fields grown) := by
  unfold markup
  split
  · rfl
  · split
    · rfl
    · rfl
    · rename_i leaf asset
      rw [isOpaque_of_none leaf asset] at whole
      cases whole

/-- Two frames that are the same but for the label of a button. -/
structure FrameAlike (agree : Prop) (f g : Frame) : Prop where
  tag : f.tag = g.tag
  style : f.style = g.style
  fixtures : f.fixtures = g.fixtures
  attributes : withoutLabel f.tag f.attributes = withoutLabel g.tag g.attributes
  same : agree → f.attributes = g.attributes

theorem FrameAlike.refl {agree : Prop} (f : Frame) : FrameAlike agree f f := ⟨rfl, rfl, rfl, rfl, fun _ => rfl⟩

/-- The frame of a node depends on the texts below it only in the label of a button. -/
theorem paired_frame {agree : Prop} {fields : Members} {children grown : List Node} {widget : Option Widget}
    (id : Int) (style : Style) (slots : Slot.ofChildren children = Slot.ofChildren grown)
    (texts : agree → widget = some .button → firstTextIn children = firstTextIn grown) :
    Paired (FrameAlike agree) (liftM (frame widget id fields children style))
      (liftM (frame widget id fields grown style)) := by
  -- only a button looks for texts, and it has a frame in any case
  by_cases button : widget = some .button
  · subst button
    refine .pure ⟨rfl, rfl, rfl, ?_, fun ha => ?_⟩
    · cases firstTextIn children <;> cases firstTextIn grown <;> rfl
    · rw [texts ha rfl]
  · have same : frame widget id fields children style = frame widget id fields grown style := by
      unfold frame
      rw [slots]
      split
      · exact absurd rfl button
      · rfl
      · rfl
      · rfl
    rw [same]
    exact .same .refl _

/-- An element of a frame around content. -/
theorem paired_styled {agree : Prop} {f g : Frame} {content others : List Markup}
    (frames : FrameAlike agree f g) (inside : Alike agree content others) :
    Paired (fun m n => Alike agree [m] [n])
      (liftM (Markup.styled f.tag f.attributes f.style (f.fixtures ++ content)))
      (liftM (Markup.styled g.tag g.attributes g.style (g.fixtures ++ others))) := by
  obtain ⟨tag, as, style, fixtures⟩ := f
  obtain ⟨htag, hstyle, hfixtures, attributes, same⟩ := frames
  dsimp only at htag hstyle hfixtures attributes same ⊢
  subst htag hstyle hfixtures
  unfold Markup.styled
  cases writeStyle g.style with
  | error fault => exact fun p => .inl ⟨fault, p, rfl, rfl⟩
  | ok written =>
    exact .pure (.element attributes same ((Alike.refl _).append inside))

/-- The markup of single nodes that is alike. -/
abbrev OneAlike (agree : Prop) (drawn other : Option Markup) : Prop := Alike agree drawn.toList other.toList

/-- Lists of children that are drawn alike, in a row and in any text field. -/
structure PairedInside (nodes others : List Node) : Prop where
  row (place : Placement) :
    Paired (Alike (labels nodes = labels others)) (markups place nodes) (markups place others)
  field (owner : Members) (place : Placement) (slot : Slot) :
    Paired (Alike (labels nodes = labels others)) (fieldMarkup owner place slot nodes)
      (fieldMarkup owner place slot others)

/-- The children of a container by its widget. -/
theorem paired_content {agree : Prop} {children grown : List Node} (inside : PairedInside children grown)
    (below : agree → labels children = labels grown) (widget : Option Widget) (owner : Members)
    (place : Placement) (slot : Slot) :
    Paired (Alike agree)
      (if widget = some .textField then fieldMarkup owner place slot children else markups place children)
      (if widget = some .textField then fieldMarkup owner place slot grown else markups place grown) := by
  split
  · exact (inside.field owner place slot).imp fun _ _ alike => alike.weaken below
  · exact (inside.row place).imp fun _ _ alike => alike.weaken below

/-- A node is drawn alike if its children are. -/
theorem paired_markup {fields : Members} {children grown : List Node} (inner : Regrows children grown)
    (inside : PairedInside children grown) (place : Placement) (origin : Point) :
    Paired (OneAlike (labels [.object fields children] = labels [.object fields grown]))
      (markup place origin (.object fields children)) (markup place origin (.object fields grown)) := by
  cases whole : isOpaque fields with
  | true =>
    rw [markup_leaf whole place origin origin]
    exact .same (fun _ => .refl _) _
  | false =>
    unfold markup
    split
    · exact .same (fun _ => .refl _) _
    · rename_i hidden
      have shown : hides fields = false := by simpa using hidden
      rw [labels_container shown whole, labels_container shown whole]
      generalize same : (_ :: labels children = _ :: labels grown) = agree
      have own : agree → label? (.object fields children) = label? (.object fields grown) :=
        fun h => (List.cons.inj (same ▸ h)).1
      have below : agree → labels children = labels grown := fun h => (List.cons.inj (same ▸ h)).2
      split
      · exact .same (fun _ => .refl _) _
      · exact .same (fun _ => .refl _) _
      · refine .bind_same _ fun id => .bind_lift fun widget kind => .bind_same _ fun style => ?_
        have slots := slot_of_regrows inner
        have texts : agree → widget = some .button → firstTextIn children = firstTextIn grown := by
          intro h button
          rw [← label?_button whole (button ▸ kind), ← label?_button whole (button ▸ kind), own h]
        refine (paired_frame id style slots texts).bind fun f g frames => ?_
        rw [slots]
        refine (paired_content inside below widget fields _ _).bind fun content others alike => ?_
        exact (paired_styled frames alike).bind fun m n drawn => .pure drawn

/-- One more child on both sides. -/
theorem PairedInside.cons {n other : Node} (rest : PairedInside nodes others) (head : Regrows [n] [other])
    (text : n.visibleText? = other.visibleText?) (null : n.isNull = other.isNull)
    (drawn : ∀ place origin, Paired (OneAlike (labels [n] = labels [other])) (markup place origin n)
      (markup place origin other)) : PairedInside (n :: nodes) (other :: others) where
  row place := by
    unfold markups
    refine (drawn place _).bind fun first second one => (rest.row place).bind fun ms ns alike => .pure ?_
    exact (one.weaken fun h => (labels_split head h).1).append (alike.weaken fun h => (labels_split head h).2)
  field owner place slot := by
    unfold fieldMarkup
    rw [text, null]
    split
    · refine .bind_same _ fun input => (rest.field owner place .filled).bind fun ms ns alike => .pure ?_
      exact (Alike.refl [input]).append (alike.weaken fun h => (labels_split head h).2)
    · split
      · exact .same .refl _
      · refine (drawn place _).bind fun first second one =>
          (rest.field owner place _).bind fun ms ns alike => .pure ?_
        exact (one.weaken fun h => (labels_split head h).1).append
          (alike.weaken fun h => (labels_split head h).2)

/-- **What stands below leaves is not drawn**, and nothing else is drawn differently but for the labels of
buttons. -/
theorem pairedInside_of_regrows (h : Regrows nodes others) : PairedInside nodes others := by
  induction h with
  | nil =>
    refine ⟨fun place => ?_, fun owner place slot => ?_⟩
    · exact .same .refl _
    · exact .same .refl _
  | other _ rest => exact rest.cons (.other .nil) rfl rfl fun _ _ => .same (fun _ => .refl _) _
  | leaf whole _ rest =>
    refine rest.cons (.leaf whole .nil) rfl rfl fun place origin => ?_
    rw [markup_leaf whole place origin origin]
    exact .same (fun _ => .refl _) _
  | object inner _ inside rest =>
    exact rest.cons (.object inner .nil) rfl rfl (paired_markup inner inside)

end

end Node

/-! ## 4. Shifts that can be written -/

namespace Canvas

/-- The shift of the root is found, and can be written. -/
def CanShift (root : Node) : Prop := ∃ shift, Canvas.shift root = .ok shift ∧ Node.checkShift shift = .ok ()

/-- A shift can be written if both of its coordinates can. -/
theorem checkShift_iff {shift : Point} :
    Node.checkShift shift = .ok () ↔ ∀ axis, ∃ s, (shift.on axis).format 2 = .ok s := by
  unfold Node.checkShift
  split
  · rename_i zero
    rw [Bool.and_eq_true] at zero
    refine iff_of_true rfl fun axis => ?_
    cases axis with
    | x => exact Number.format_of_isZero zero.1
    | y => exact Number.format_of_isZero zero.2
  · constructor
    · intro h
      obtain ⟨s, hx, h⟩ := ok_of_bind h
      obtain ⟨t, hy, h⟩ := ok_of_bind h
      intro axis
      cases axis with
      | x => exact ⟨s, hx⟩
      | y => exact ⟨t, hy⟩
    · intro h
      obtain ⟨s, hx⟩ := h .x
      obtain ⟨t, hy⟩ := h .y
      have hx : shift.x.format 2 = .ok s := hx
      have hy : shift.y.format 2 = .ok t := hy
      rw [hx, ok_bind, hy]
      rfl

/-- Where the walk over a root starts. -/
def start (fields : Members) : Point :=
  Point.zero.min ⟨(fields.get "x").numberOr (.int 0), (fields.get "y").numberOr (.int 0)⟩

/-- The shift that a walk ends with. -/
def shiftOf (corner : Point) : Point := ⟨corner.x.abs, corner.y.abs⟩

theorem on_shiftOf (corner : Point) (axis : Axis) : (shiftOf corner).on axis = (corner.on axis).abs := by
  cases axis <;> rfl

theorem leastOf_nil (sofar parent : Point) (inFlow : Bool) : leastOf sofar parent inFlow [] = .ok sofar := by
  rw [leastOf]

theorem shift_flat {fields : Members} {children : List Node} {corner : Point}
    (flat : ¬Node.isAutoLayout fields = true)
    (walked : leastOf (start fields) Point.zero false children = .ok corner) :
    Canvas.shift (.object fields children) = .ok (shiftOf corner) := by
  unfold start at walked
  unfold Canvas.shift
  dsimp only
  rw [if_neg flat, walked]
  rfl

/-- A root whose children flow stays where it is. -/
theorem canShift_of_flow {fields : Members} {children : List Node} (flows : Node.isAutoLayout fields = true) :
    CanShift (.object fields children) := by
  refine ⟨Point.zero, ?_, rfl⟩
  unfold Canvas.shift
  exact if_pos flows

/-- **A root around small whole coordinates can be shifted** if it could be without them. -/
theorem canShift_of_small {fields : Members} {children : List Node} (alone : CanShift (.object fields []))
    (whole : ∀ n ∈ children, n.Whole) (small : ∀ axis, Node.reachIn axis children < 2 ^ 53) :
    CanShift (.object fields children) := by
  by_cases flat : Node.isAutoLayout fields = true
  · exact canShift_of_flow flat
  · obtain ⟨own, found, checked⟩ := alone
    have stays := shift_flat flat (leastOf_nil (start fields) Point.zero false)
    obtain rfl : shiftOf (start fields) = own := Except.ok.inj (stays.symm.trans found)
    obtain ⟨low, walked, near⟩ := leastOf_near children whole (start fields) (fun _ => 0) false
    refine ⟨shiftOf low, shift_flat flat walked, checkShift_iff.mpr fun axis => ?_⟩
    rw [on_shiftOf]
    rcases near axis with same | ⟨i, far, bound⟩
    · rw [same, ← on_shiftOf]
      exact checkShift_iff.mp checked axis
    · have few := small axis
      rw [far]
      exact Number.format_small (by rw [Int.natAbs_natCast]; omega)

/-- A root with small whole coordinates can be shifted. -/
theorem canShift_alone {fields : Members} (own : Node.IsWhole fields)
    (small : ∀ axis, (Node.coordinate axis fields).natAbs < 2 ^ 53) : CanShift (.object fields []) := by
  by_cases flat : Node.isAutoLayout fields = true
  · exact canShift_of_flow flat
  · have starts : start fields = Point.whole fun axis => min 0 (Node.coordinate axis fields) := by
      unfold start
      rw [own.x, own.y]
      exact Point.min_whole (fun _ => 0) fun axis => Node.coordinate axis fields
    refine ⟨shiftOf (start fields), shift_flat flat (leastOf_nil _ _ _), checkShift_iff.mpr fun axis => ?_⟩
    have few := small axis
    have nearer : (min 0 (Node.coordinate axis fields)).natAbs < 2 ^ 53 := by omega
    have stands : (start fields).on axis = .int (min 0 (Node.coordinate axis fields)) := by
      rw [starts]
      cases axis <;> rfl
    rw [on_shiftOf, stands]
    exact Number.format_small nearer

end Canvas

/-! ## 5. Roots that are leaves -/

namespace Node

/-- A node that is drawn without its children. -/
def isLeaf : Node → Bool
  | object fields _ => isOpaque fields
  | other _ => false

open Compile Markup

section

variable {root grown : Node} {roots others : List Node} {p q : Progress}

/-- The run over a root that comes to its end, with other nodes below its leaves. -/
theorem rootMarkup_of_regrows {drawn : Option Markup} (h : Regrows [root] [grown])
    (free : grown.isLeaf = true → Canvas.CanShift grown) (run : (rootMarkup root).runFrom p = (.ok drawn, q)) :
    ∃ other, (rootMarkup grown).runFrom p = (.ok other, q) ∧
      OneAlike (labels [root] = labels [grown]) drawn other := by
  cases h with
  | other _ => exact ⟨drawn, run, .refl _⟩
  | leaf whole _ =>
    -- both shifts are looked for below the leaf, but nothing is drawn with them
    obtain ⟨shift, found, checked⟩ := free whole
    unfold rootMarkup at run ⊢
    obtain ⟨before, _, run⟩ := lift_bind_ok run
    obtain ⟨_, _, run⟩ := lift_bind_ok run
    rw [markup_leaf whole .root before.neg shift.neg] at run
    refine ⟨drawn, ?_, .refl _⟩
    rw [found, ← run]
    show (liftM (checkShift shift) >>= fun _ => _ : Compile _).runFrom p = _
    rw [checked]
    rfl
  | object inner _ =>
    refine Paired.ends ?_ run
    unfold rootMarkup
    rw [shift_congr (leastOf_of_regrows inner)]
    exact .bind_same _ fun shift => .bind_same _ fun _ =>
      paired_markup inner (pairedInside_of_regrows inner) .root shift.neg

/-- The run over all roots. -/
theorem rootMarkups_of_regrows {ms : List Markup} (h : Regrows roots others)
    (free : ∀ other ∈ others, other.isLeaf = true → Canvas.CanShift other)
    (run : (rootMarkups roots).runFrom p = (.ok ms, q)) :
    ∃ ns, (rootMarkups others).runFrom p = (.ok ns, q) ∧ Alike (labels roots = labels others) ms ns := by
  induction roots generalizing others p q ms with
  | nil =>
    cases h
    exact ⟨ms, run, .refl ms⟩
  | cons root rest ih =>
    obtain ⟨grown, others, rfl, head, tail⟩ := h.split
    obtain ⟨freeHead, freeTail⟩ := List.forall_mem_cons.mp free
    unfold rootMarkups at run
    obtain ⟨first, r, hr, run⟩ := bind_ok run
    obtain ⟨content, s, hs, run⟩ := bind_ok run
    obtain ⟨rfl, rfl⟩ := pure_ok run
    obtain ⟨second, drawn, one⟩ := rootMarkup_of_regrows head freeHead hr
    obtain ⟨ns, drawnRest, alike⟩ := ih tail freeTail hs
    refine ⟨second.toList ++ ns, ?_, (one.weaken fun h => (labels_split head h).1).append
      (alike.weaken fun h => (labels_split head h).2)⟩
    unfold rootMarkups
    rw [runFrom_bind, drawn]
    dsimp only
    rw [runFrom_bind, drawnRest]
    rfl

end

/-! ## 6. The labels that are read off -/

theorem label?_of_isOpaque {fields : Members} {children : List Node} (whole : isOpaque fields = true) :
    label? (.object fields children) = none := by
  rw [label?, whole]

theorem label?_other {fields : Members} {children : List Node} {widget : Option Widget}
    (kind : Widget.ofNode fields = .ok widget) (other : widget ≠ some .button) :
    label? (.object fields children) = none := by
  rw [label?, kind]
  split
  · rename_i button
    exact absurd (Except.ok.inj button) other
  · rfl

/-- The element of a button has the label of the button. -/
theorem Depicts.label {id : Int} {n : Node} {m : Markup} (h : Depicts id n m) : m.buttonLabel? = n.label? := by
  cases h with
  | text leaf _ => exact (label?_of_isOpaque (isOpaque_of_leaf leaf)).symm
  | placeholder leaf _ _ => exact (label?_of_isOpaque (isOpaque_of_leaf leaf)).symm
  | image _ carried _ _ => exact (label?_of_isOpaque (isOpaque_of_asset carried)).symm
  | @button fields children _ _ plain kind _ =>
    rw [label?_button plain kind, buttonLabel?]
    cases firstTextIn children <;> rfl
  | textField _ kind _ _ => exact (label?_other kind (by decide)).symm
  | checkbox _ kind _ => exact (label?_other kind (by decide)).symm
  | @box fields children widget style content _ kind other _ =>
    have plain : widget ≠ some .button := by rcases other with rfl | rfl <;> decide
    rw [label?_other kind plain]
    cases isText fields <;> rfl

/-- The labels of a design stand in its markup, in the elements that have numbers. -/
theorem labels_of_rootMarkups {ms : List Markup} (run : (rootMarkups roots).runFrom p = (.ok ms, q)) :
    (keyed ms).map (fun e => e.2.buttonLabel?) = labels roots := by
  have depicts := depicts_of_numbered (numbering_of_rootMarkups run).elements
  have same : List.Forall₂ (· = ·) (labels roots) ((keyed ms).map fun e => e.2.buttonLabel?) :=
    List.forall₂_map_left_iff.mpr (List.forall₂_map_right_iff.mpr (depicts.imp fun _ _ h => h.label.symm))
  exact (List.forall₂_eq_eq_eq ▸ same : labels roots = _).symm

end Node

/-! ## 7. Compositions -/

namespace Composition

open Node Markup

theorem ofRoots_of_run {roots : List Node} {ms : List Markup} {p : Progress}
    (run : (rootMarkups roots).runFrom {} = (.ok ms, p)) : ofRoots roots = .ok ⟨roots, ms, p.fonts⟩ := by
  unfold ofRoots
  rw [run]
  rfl

/-- **What stands below a leaf takes no part in a design but as the label of a button.**  A forest that compiles
does so too with other nodes below its leaves, to the same fonts and to the same markup but for the labels of
buttons; and the markup is the same altogether exactly if all labels are. -/
theorem markup_regrown {roots others : List Node} {c : Composition} (h : ofRoots roots = .ok c)
    (regrown : Regrows roots others) (free : ∀ other ∈ others, other.isLeaf = true → Canvas.CanShift other) :
    ∃ c', ofRoots others = .ok c' ∧ c'.fonts = c.fonts ∧
      unlabelledIn c'.markup = unlabelledIn c.markup ∧
      (c'.markup = c.markup ↔ labels others = labels roots) := by
  obtain ⟨p, run, fonts⟩ := run_of_ofRoots h
  obtain ⟨ns, grown, alike⟩ := rootMarkups_of_regrows regrown free run
  refine ⟨_, ofRoots_of_run grown, fonts.symm, alike.unlabelled.symm, fun same => ?_, fun agree => ?_⟩
  · rw [← labels_of_rootMarkups run, ← labels_of_rootMarkups grown, ← same]
  · exact (alike.same agree.symm).symm

/-- A button with an icon, and perhaps a text before it; other nodes stand below the icon. -/
def iconButton (before below : List Node) : Node :=
  .object [("name", .text "Close button"), ("type", .text "FRAME")]
    (before ++ [.object [("svg", .text "<svg/>")] below])

/-- An image to the left of the canvas, with other nodes below it. -/
def poster (below : List Node) : Node := .object [("svg", .text "<svg/>"), ("x", .number (.int (-20)))] below

/-- A text. -/
def caption (content : String) : Node :=
  .object [("type", .text "TEXT"), ("textContent", .text content), ("x", .number (.int (-7)))] []

theorem canShift_poster : Canvas.CanShift (poster [caption "Poster"]) := by
  have alone : Canvas.CanShift (poster []) :=
    Canvas.canShift_alone (by decide) fun axis => by cases axis <;> decide
  refine Canvas.canShift_of_small alone ?_ fun axis => by cases axis <;> decide
  exact List.forall_mem_singleton.mpr (.object (by decide) (List.forall_mem_nil _))

theorem markup_regrown_caption : ∃ c, ofRoots [iconButton [caption "Close"] [], poster []] = .ok c ∧
    Regrows [iconButton [caption "Close"] [], poster []]
      [iconButton [caption "Close"] [caption "Icon"], poster [caption "Poster"]] ∧
    (∀ other ∈ [iconButton [caption "Close"] [caption "Icon"], poster [caption "Poster"]],
      other.isLeaf = true → Canvas.CanShift other) ∧
    ∃ c', ofRoots [iconButton [caption "Close"] [caption "Icon"], poster [caption "Poster"]] = .ok c' ∧
      c'.fonts = c.fonts ∧ c'.markup = c.markup := by
  have ends : (ofRoots [iconButton [caption "Close"] [], poster []]).isOk = true := by decide +kernel
  have regrown : Regrows [iconButton [caption "Close"] [], poster []]
      [iconButton [caption "Close"] [caption "Icon"], poster [caption "Poster"]] :=
    .object (.object .nil (.leaf (by decide +kernel) .nil)) (.leaf (by decide +kernel) .nil)
  have free : ∀ other ∈ [iconButton [caption "Close"] [caption "Icon"], poster [caption "Poster"]],
      other.isLeaf = true → Canvas.CanShift other :=
    List.forall_mem_cons.mpr ⟨fun leaf => absurd leaf (by decide +kernel),
      List.forall_mem_singleton.mpr fun _ => canShift_poster⟩
  cases hc : ofRoots [iconButton [caption "Close"] [], poster []] with
  | error fault =>
    rw [hc] at ends
    cases ends
  | ok c =>
    obtain ⟨c', compiled, fonts, -, same⟩ := markup_regrown hc regrown free
    exact ⟨c, rfl, regrown, free, c', compiled, fonts, same.mpr (by decide +kernel)⟩

/-- **A label from below an image**: the icon of a button is drawn without its text, and the button is labelled
with it. -/
theorem labels_iconButton :
    Regrows [iconButton [] []] [iconButton [] [caption "Close"]] ∧
      (ofRoots [iconButton [] []]).toOption.map text ≠
        (ofRoots [iconButton [] [caption "Close"]]).toOption.map text ∧
      (ofRoots [iconButton [] []]).toOption.map (fun c => (keyed c.markup).map fun e => e.2.buttonLabel?) =
        some [none, none] ∧
      (ofRoots [iconButton [] [caption "Close"]]).toOption.map
        (fun c => (keyed c.markup).map fun e => e.2.buttonLabel?) = some [some "Close", none] :=
  ⟨.object (.leaf (by decide +kernel) .nil) .nil, by decide +kernel, by decide +kernel, by decide +kernel⟩

end Composition

end Artboard
