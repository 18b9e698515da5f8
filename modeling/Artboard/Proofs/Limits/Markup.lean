import Artboard.Proofs.Drawing
import Artboard.Proofs.Limits.Style

/-!
# Drawing within limits

A forest within limits is drawn to its end, but for the faults that the limits allow
(`Limits.passes_rootMarkups`).  Besides the numbers of its fields, a node needs a name and a type that are texts,
and its children have to be such nodes themselves (`Limits.Sound`).

The coordinates of a root and of all nodes above one another are added up for the shift, so that no more of them
are added than there are levels (`Node.levels`, `Limits.yields_leastOf`); taking the shift off the coordinates of a
child and the child's off the width of a text field are two more.
-/

namespace Artboard

/-! ## 1. Sound nodes -/

namespace Node

mutual

/-- How many nodes stand one below the other, this one the first of them. -/
def levels : Node → Nat
  | other _ => 0
  | object _ children => levelsIn children + 1

/-- How many of some nodes and of those below them stand one below the other. -/
def levelsIn : List Node → Nat
  | [] => 0
  | n :: rest => max (levels n) (levelsIn rest)

end

/-- The node is an object, and no other value in its place. -/
def IsObject (n : Node) : Prop := ∃ fields children, n = .object fields children

end Node

namespace Limits

variable {L : Limits}

/-- **A sound node** is an object within the limits, with a name and a type, above such objects. -/
inductive Sound (L : Limits) : Node → Prop where
  | object {fields : Members} {children : List Node} (own : L.AdmitsFields fields)
      (named : ∃ s, fields.get "name" = .text s) (typed : ∃ s, fields.get "type" = .text s)
      (inner : ∀ n ∈ children, Sound L n) : Sound L (.object fields children)

section

variable {fields : Members} {children : List Node} {n : Node}

theorem Sound.isObject (h : L.Sound n) : n.IsObject := by
  cases h with
  | object _ _ _ _ => exact ⟨_, _, rfl⟩

theorem Sound.own (h : L.Sound (.object fields children)) : L.AdmitsFields fields := by
  cases h with
  | object own _ _ _ => exact own

theorem Sound.inner (h : L.Sound (.object fields children)) : ∀ n ∈ children, L.Sound n := by
  cases h with
  | object _ _ _ inner => exact inner

/-- What a sound node is meant to be can be told. -/
theorem Sound.widget (h : L.Sound (.object fields children)) : Passes L.allowed (Widget.ofNode fields) := by
  cases h with
  | object _ named typed _ =>
    obtain ⟨name, hn⟩ := named
    obtain ⟨type, ht⟩ := typed
    have button : Passes L.allowed (Widget.isButton (Text.lower name) (.text type)) := by
      unfold Widget.isButton
      split <;> exact .ok trivial
    unfold Widget.ofNode
    rw [hn, ht]
    exact button.passes_then

theorem Sound.isNull (h : L.Sound n) : n.isNull = false := by
  cases h with
  | object _ _ _ _ => rfl

/-- A visible text of a sound node has its fields. -/
theorem Sound.visibleText (h : L.Sound n) {content : String} (hv : n.visibleText? = some (fields, content)) :
    L.AdmitsFields fields := by
  obtain ⟨children, rfl, -, -⟩ := Node.visibleText?_eq_some hv
  exact h.own

end

/-! ## 2. The canvas -/

/-- A point whose coordinates come from adding up so many numbers. -/
def SumPoint (L : Limits) (k : Nat) (p : Point) : Prop := L.sum k p.x ∧ L.sum k p.y

section

variable {k m : Nat} {p q : Point} {fields : Members}

theorem SumPoint.mono (h : L.SumPoint k p) (le : k ≤ m) : L.SumPoint m p :=
  ⟨L.sum_mono h.1 le, L.sum_mono h.2 le⟩

theorem SumPoint.min (hp : L.SumPoint k p) (hq : L.SumPoint k q) : L.SumPoint k (p.min q) := by
  have least {a b : Number} (ha : L.sum k a) (hb : L.sum k b) : L.sum k (a.min b) := by
    unfold Number.min
    split
    · exact hb
    · exact ha
  exact ⟨least hp.1 hq.1, least hp.2 hq.2⟩

theorem SumPoint.neg (h : L.SumPoint k p) : L.SumPoint k p.neg := ⟨L.sum_neg h.1, L.sum_neg h.2⟩

theorem sumPoint_zero : L.SumPoint k Point.zero :=
  ⟨L.sum_mono L.sum_zero (Nat.zero_le k), L.sum_mono L.sum_zero (Nat.zero_le k)⟩

/-- The point of a node, seen from another. -/
theorem yields_ofNode (h : L.SumPoint k p) (own : L.AdmitsFields fields) (few : k < L.most) :
    Yields L.allowed (L.SumPoint (k + 1)) (Point.ofNode p fields) := by
  unfold Point.ofNode
  refine (L.add h.1 (own.number "x") few).bind fun x hx => ?_
  exact (L.add h.2 (own.number "y") few).then_ok fun y hy => ⟨hx, hy⟩

theorem yields_ofChild (h : L.SumPoint k p) (own : L.AdmitsFields fields) (few : k < L.most) (inFlow : Bool) :
    Yields L.allowed (L.SumPoint (k + 1)) (Point.ofChild p inFlow fields) := by
  unfold Point.ofChild
  split
  · exact .ok (h.mono (Nat.le_succ k))
  · exact yields_ofNode h own few

end

mutual

/-- The walk over a sound node adds up no more coordinates than there are levels. -/
theorem yields_least {m : Nat} (room : m ≤ L.most) : ∀ (n : Node), L.Sound n → ∀ {k : Nat} {sofar parent : Point}
    (inFlow : Bool), L.SumPoint m sofar → L.SumPoint k parent → k + n.levels ≤ m →
    Yields L.allowed (L.SumPoint m) (Canvas.least sofar parent inFlow n)
  | .other v, _, k, sofar, parent, inFlow, hs, _, _ => by
      unfold Canvas.least
      exact .ok hs
  | .object fields children, sound, k, sofar, parent, inFlow, hs, hp, few => by
      rw [Node.levels] at few
      have below : k < L.most := by omega
      unfold Canvas.least
      split
      · exact .ok hs
      · refine (yields_ofChild hp sound.own below inFlow).bind fun here hh => ?_
        have counted : L.SumPoint m (if inFlow then sofar else sofar.min here) := by
          split
          · exact hs
          · exact hs.min (hh.mono (by omega))
        dsimp only
        split
        · exact .ok counted
        · exact yields_leastOf room children sound.inner _ counted hh (by omega)

/-- **The walk over some sound nodes** adds up no more coordinates than there are levels. -/
theorem yields_leastOf {m : Nat} (room : m ≤ L.most) : ∀ (nodes : List Node), (∀ n ∈ nodes, L.Sound n) →
    ∀ {k : Nat} {sofar parent : Point} (inFlow : Bool), L.SumPoint m sofar → L.SumPoint k parent →
    k + Node.levelsIn nodes ≤ m → Yields L.allowed (L.SumPoint m) (Canvas.leastOf sofar parent inFlow nodes)
  | [], _, k, sofar, parent, inFlow, hs, _, _ => by
      unfold Canvas.leastOf
      exact .ok hs
  | n :: rest, sound, k, sofar, parent, inFlow, hs, hp, few => by
      obtain ⟨own, others⟩ := List.forall_mem_cons.mp sound
      rw [Node.levelsIn] at few
      unfold Canvas.leastOf
      refine (yields_leastOf room rest others inFlow hs hp (by omega)).bind fun next hn => ?_
      exact yields_least room n own inFlow hn hp (by omega)

end

/-- The shift of a sound root comes from adding up no more numbers than it has levels. -/
theorem yields_shift {root : Node} (sound : L.Sound root) (room : root.levels ≤ L.most) :
    Yields L.allowed (L.SumPoint root.levels) (Canvas.shift root) := by
  cases sound with
  | @object fields children own named typed inner =>
    unfold Canvas.shift
    dsimp only
    split
    · exact .ok sumPoint_zero
    · have corner : L.SumPoint 1 ⟨(fields.get "x").numberOr (.int 0), (fields.get "y").numberOr (.int 0)⟩ :=
        ⟨L.sum_given (own.number "x"), L.sum_given (own.number "y")⟩
      have one : 1 ≤ (Node.object fields children).levels := by
        rw [Node.levels]
        omega
      have start := (sumPoint_zero.min corner).mono one
      refine (yields_leastOf room children inner false start (sumPoint_zero (k := 0)) ?_).then_ok fun low hl => ?_
      · rw [Node.levels]
        omega
      · exact ⟨L.sum_abs hl.1, L.sum_abs hl.2⟩

theorem passes_checkShift {k : Nat} {shift : Point} (h : L.SumPoint k shift) (room : k ≤ L.most) :
    Passes L.allowed (Node.checkShift shift) := by
  unfold Node.checkShift
  split
  · exact .ok trivial
  · refine (L.format h.1 room).bind fun _ _ => ?_
    exact (L.format h.2 room).passes_then

/-! ## 3. Elements -/

/-- A text, or a plain zero. -/
def isPlain : StyleValue → Bool
  | .text _ => true
  | .number n => n = .int 0

theorem writes_plain {s : Style} (plain : ∀ e ∈ s, isPlain e.2 = true) : L.Writes s := by
  rintro ⟨name, v⟩ he
  have hv := plain _ he
  cases v with
  | text text => exact passes_text text
  | number n =>
    have zero : n = .int 0 := of_decide_eq_true hv
    rw [zero]
    exact passes_whole given_zero

theorem writes_input : L.Writes Chrome.input := writes_plain (by decide)

theorem writes_label : L.Writes Chrome.label := writes_plain (by decide)

section

variable {fields : Members} {k : Nat} {place : Placement}

theorem passes_useFont (own : L.AdmitsFields fields) :
    Compile.Passes L.allowed (Compile.useFont fields) := by
  unfold Compile.useFont
  split
  · exact .pure trivial
  · refine (Compile.passes_modify _).bind fun _ _ => ?_
    exact (Compile.Yields.lift (yields_weightOf own)).bind fun _ _ => Compile.passes_modify _

theorem passes_textMarkup (own : L.AdmitsFields fields) (placed : L.Placed k place) (few : k < L.most)
    (content : String) : Compile.Passes L.allowed (Node.textMarkup fields content place) := by
  unfold Node.textMarkup
  refine Compile.passes_nextId.bind fun id _ => ?_
  refine (passes_useFont own).bind fun _ _ => ?_
  exact (Compile.Yields.lift (yields_style own placed few false)).bind fun style hs => .lift (passes_styled hs)

theorem passes_assetMarkup (own : L.AdmitsFields fields) (placed : L.Placed k place) (few : k < L.most)
    (asset : Asset) : Compile.Passes L.allowed (Node.assetMarkup fields asset place) := by
  have image : Passes L.allowed (Node.imageMarkup fields asset) := by
    cases asset <;> exact passes_styled (writes_plain (by decide))
  unfold Node.assetMarkup
  refine Compile.passes_nextId.bind fun id _ => ?_
  refine (Compile.Yields.lift (yields_style own placed few true)).bind fun style hs => ?_
  exact (Compile.Yields.lift image).bind fun _ _ => .lift (passes_styled hs)

/-- The input for a text of a text field, which is measured from the left of the text up to the width of the
field. -/
theorem yields_inputStyle {field : Members} (outer : L.AdmitsFields field) (own : L.AdmitsFields fields)
    (placed : L.Placed k place) (room : k + 2 ≤ L.most) :
    Yields L.allowed L.Writes (Node.inputStyle field fields place) := by
  have origin : L.sum k place.originX := by
    cases place with
    | absolute x y => exact placed.1
    | _ => exact L.sum_mono L.sum_zero (Nat.zero_le k)
  unfold Node.inputStyle
  refine (yields_style own placed (by omega) false).bind fun style hs => ?_
  have bare := writes_erase hs "whiteSpace"
  dsimp only
  split
  · have sized := writes_erase (writes_erase bare "width") "flexShrink"
    have one : L.given (.int 1) := L.given_small (by decide)
    exact .ok (writes_put (writes_put sized (passes_whole one)) (passes_whole given_zero))
  · refine (L.sub (own.number "x") origin (by omega)).bind fun left hl => ?_
    refine (L.sub (outer.number "width") hl (by omega)).bind fun available ha => ?_
    split
    · exact (px (L.format ha room)).then_ok fun _ _ => writes_putText bare _
    · exact .ok bare

theorem passes_inputMarkup {field : Members} (outer : L.AdmitsFields field) (own : L.AdmitsFields fields)
    (placed : L.Placed k place) (room : k + 2 ≤ L.most) (content : String) :
    Compile.Passes L.allowed (Node.inputMarkup field fields content place) := by
  unfold Node.inputMarkup
  refine Compile.passes_nextId.bind fun id _ => ?_
  refine (passes_useFont own).bind fun _ _ => ?_
  refine (Compile.Yields.lift (yields_inputStyle outer own placed room)).bind fun style hs => ?_
  exact .lift (passes_styled (writes_merge writes_input hs))

/-- The frame of a node has a style that can be written. -/
theorem yields_frame {style : Style} (hs : L.Writes style) (widget : Option Widget) (id : Int) (fields : Members)
    (children : List Node) :
    Yields L.allowed (fun f => L.Writes f.style) (Node.frame widget id fields children style) := by
  unfold Node.frame
  split
  · exact .ok (writes_merge (writes_plain (by decide)) hs)
  · have filling (slot : Node.Slot) : Passes L.allowed (Node.fillingInput id slot) := by
      unfold Node.fillingInput
      split
      · exact (passes_styled (writes_merge writes_input (writes_plain (by decide)))).passes_then
      · exact .ok trivial
    exact (filling _).then_ok fun _ _ => writes_merge writes_label hs
  · have box : Passes L.allowed (Node.checkboxInput id fields) := passes_styled (writes_plain (by decide))
    exact box.then_ok fun _ _ => writes_putText (writes_merge writes_label hs) _
  · exact .ok hs

theorem placed_within {origin : Point} (h : L.SumPoint k origin) (fields : Members) :
    L.Placed k (Placement.within fields origin) := by
  unfold Placement.within
  split
  · exact trivial
  · exact h

end

/-! ## 4. Nodes -/

mutual

/-- A sound node is drawn to its end, but for the faults that the limits allow. -/
theorem passes_markup {k : Nat} (room : k + 2 ≤ L.most) {place : Placement} {origin : Point}
    (placed : L.Placed k place) (ho : L.SumPoint k origin) :
    ∀ (n : Node), L.Sound n → Compile.Passes L.allowed (Node.markup place origin n)
  | .other v, _ => by
      unfold Node.markup
      exact .pure trivial
  | .object fields children, sound => by
      have few : k < L.most := by omega
      have inside := placed_within ho fields
      unfold Node.markup
      split
      · exact .pure trivial
      · split
        · exact (passes_textMarkup sound.own placed few _).passes_then
        · exact (passes_assetMarkup sound.own placed few _).passes_then
        · refine Compile.passes_nextId.bind fun id _ => ?_
          refine (Compile.Yields.lift sound.widget).bind fun widget _ => ?_
          refine (Compile.Yields.lift (yields_style sound.own placed few false)).bind fun style hs => ?_
          refine (Compile.Yields.lift (yields_frame hs widget id fields children)).bind fun frame hf => ?_
          refine Compile.Yields.bind (Q := fun _ => True) ?_ fun content _ => ?_
          · split
            · exact passes_fieldMarkup room sound.own inside children sound.inner _
            · exact passes_markups room inside children sound.inner
          · exact (Compile.Yields.lift (passes_styled hf)).passes_then

/-- Sound nodes in a row are drawn to their end. -/
theorem passes_markups {k : Nat} (room : k + 2 ≤ L.most) {place : Placement} (placed : L.Placed k place) :
    ∀ (nodes : List Node), (∀ n ∈ nodes, L.Sound n) → Compile.Passes L.allowed (Node.markups place nodes)
  | [], _ => by
      unfold Node.markups
      exact .pure trivial
  | n :: rest, sound => by
      obtain ⟨own, others⟩ := List.forall_mem_cons.mp sound
      unfold Node.markups
      refine (passes_markup room placed sumPoint_zero n own).bind fun _ _ => ?_
      exact (passes_markups room placed rest others).passes_then

/-- The sound children of a text field are drawn to their end. -/
theorem passes_fieldMarkup {k : Nat} (room : k + 2 ≤ L.most) {field : Members} {place : Placement}
    (outer : L.AdmitsFields field) (placed : L.Placed k place) : ∀ (nodes : List Node), (∀ n ∈ nodes, L.Sound n) →
    ∀ (slot : Node.Slot), Compile.Passes L.allowed (Node.fieldMarkup field place slot nodes)
  | [], _, slot => by
      unfold Node.fieldMarkup
      exact .pure trivial
  | n :: rest, sound, slot => by
      obtain ⟨own, others⟩ := List.forall_mem_cons.mp sound
      unfold Node.fieldMarkup
      split
      · rename_i fields content text
        refine (passes_inputMarkup outer (own.visibleText text) placed room content).bind fun _ _ => ?_
        exact (passes_fieldMarkup room outer placed rest others _).passes_then
      · rw [own.isNull, Bool.and_false, if_neg Bool.false_ne_true]
        refine (passes_markup room placed sumPoint_zero n own).bind fun _ _ => ?_
        exact (passes_fieldMarkup room outer placed rest others _).passes_then

end

/-! ## 5. Roots -/

/-- A sound root is drawn with its shift. -/
theorem passes_rootMarkup {root : Node} (sound : L.Sound root) (room : root.levels + 2 ≤ L.most) :
    Compile.Passes L.allowed (Node.rootMarkup root) := by
  unfold Node.rootMarkup
  refine (Compile.Yields.lift (yields_shift sound (by omega))).bind fun shift hs => ?_
  refine (Compile.Yields.lift (passes_checkShift hs (by omega))).bind fun _ _ => ?_
  have top : L.Placed root.levels .root := trivial
  exact passes_markup room top hs.neg root sound

/-- **A forest of sound roots is drawn to its end**, but for the faults that the limits allow. -/
theorem passes_rootMarkups {roots : List Node} (sound : ∀ r ∈ roots, L.Sound r)
    (room : Node.levelsIn roots + 2 ≤ L.most) :
    Compile.Passes L.allowed (Node.rootMarkups roots) := by
  induction roots with
  | nil => exact .pure trivial
  | cons root rest ih =>
    obtain ⟨own, others⟩ := List.forall_mem_cons.mp sound
    rw [Node.levelsIn] at room
    unfold Node.rootMarkups
    refine (passes_rootMarkup own (by omega)).bind fun _ _ => ?_
    exact (ih others (by omega)).passes_then

end Limits

end Artboard
