import Artboard.Design.Canvas
import Artboard.Proofs.Number.Whole
import Mathlib.Logic.Relation
import Mathlib.Order.Bounds.Basic

/-!
# The shift of a root

`Canvas.shift` walks through a root with the least coordinates so far.  This file says what it looks for in
terms of the nodes that are visited (`Node.Visited`) and of where they stand (`Canvas.Spot.stand`), one axis
at a time, for designs in whole coordinates (`Node.Whole`): the shift is the least one that brings the root
and all visited nodes outside of a flow onto the canvas (`Canvas.shift_isLeast`), and the order of children
does not matter.

What the walk finds below some nodes is the least of where they stand (`Canvas.leastOf_whole`); the shift of
a root follows from it, and no order of children changes what is visited (`Node.Reorders.visited`).  Whatever
the walk starts from, it ends there or at most as far out as the coordinates add up to (`Canvas.leastOf_near`).
-/

namespace Artboard

/-! ## 1. Whole coordinates -/

/-- The two axes of the canvas. -/
inductive Axis where
  | x
  | y
  deriving DecidableEq, Repr

namespace Axis

/-- The field of a node for its coordinate on an axis. -/
def field : Axis → String
  | x => "x"
  | y => "y"

end Axis

/-- The coordinate of a point on an axis. -/
def Point.on (p : Point) : Axis → Number
  | .x => p.x
  | .y => p.y

/-- The point of two whole coordinates. -/
def Point.whole (c : Axis → Int) : Point := ⟨.int (c .x), .int (c .y)⟩

namespace Node

/-- The coordinate of a node on an axis, where it is whole. -/
def coordinate (axis : Axis) (fields : Members) : Int :=
  match (fields.get axis.field).numberOr (.int 0) with
  | .int i => i
  | .real _ => 0

/-- The coordinates of the fields are whole numbers, or they are not given and count as zero. -/
def IsWhole (fields : Members) : Prop :=
  ∀ axis : Axis, (fields.get axis.field).numberOr (.int 0) = .int (coordinate axis fields)

theorem IsWhole.x {fields : Members} (own : IsWhole fields) :
    (fields.get "x").numberOr (.int 0) = .int (coordinate .x fields) :=
  own Axis.x

theorem IsWhole.y {fields : Members} (own : IsWhole fields) :
    (fields.get "y").numberOr (.int 0) = .int (coordinate .y fields) :=
  own Axis.y

instance (fields : Members) : Decidable (IsWhole fields) :=
  decidable_of_iff ((fields.get "x").numberOr (.int 0) = .int (coordinate .x fields) ∧
      (fields.get "y").numberOr (.int 0) = .int (coordinate .y fields))
    ⟨fun h axis => match axis with
      | .x => h.1
      | .y => h.2, fun h => ⟨h .x, h .y⟩⟩

/-- A design in whole coordinates. -/
inductive Whole : Node → Prop where
  | other {v : Value} : Whole (.other v)
  | object {fields : Members} {children : List Node} (own : IsWhole fields)
      (inner : ∀ n ∈ children, Whole n) : Whole (.object fields children)

theorem Whole.own {fields : Members} {children : List Node} (h : Whole (.object fields children)) :
    IsWhole fields := by
  cases h with
  | object own _ => exact own

theorem Whole.inner {fields : Members} {children : List Node} (h : Whole (.object fields children)) :
    ∀ n ∈ children, Whole n := by
  cases h with
  | object _ inner => exact inner

/-- A node with one child. -/
theorem Whole.only {fields : Members} {n : Node} (own : IsWhole fields) (inner : n.Whole) :
    Whole (.object fields [n]) := .object own (List.forall_mem_singleton.mpr inner)

mutual

/-- How far the coordinates of a node and of all below it reach on an axis, all added up. -/
def reach (axis : Axis) : Node → Nat
  | other _ => 0
  | object fields children => (coordinate axis fields).natAbs + reachIn axis children

/-- How far the coordinates of some nodes and of all below them reach. -/
def reachIn (axis : Axis) : List Node → Nat
  | [] => 0
  | n :: rest => reach axis n + reachIn axis rest

end

end Node

/-! ## 2. Points of whole coordinates -/

namespace Point

theorem zero_whole : zero = whole fun _ => 0 := rfl

theorem min_whole (c d : Axis → Int) : (whole c).min (whole d) = whole fun axis => Min.min (c axis) (d axis) := by
  unfold Point.min whole
  rw [Number.min_int, Number.min_int]

/-- The point at the coordinates of a node. -/
theorem ofNode_whole {fields : Members} (own : Node.IsWhole fields) (c : Axis → Int) :
    ofNode (whole c) fields = .ok (whole fun axis => c axis + Node.coordinate axis fields) := by
  unfold ofNode
  rw [own.x, own.y]
  rfl

end Point

/-! ## 3. What is visited -/

namespace Node

/-- **Visited nodes.**  Going down from some nodes with a state, which every node that is entered changes for
its children, a node with these fields is come to with the state `found`.  A node is come to if it and all
nodes above it show, and none above it is a text or an image. -/
inductive Visited {σ : Type} (enter : σ → Members → σ) :
    (state : σ) → (nodes : List Node) → (found : σ) → (fields : Members) → Prop where
  | here {state nodes fields children} (mem : .object fields children ∈ nodes)
      (shown : hides fields = false) : Visited enter state nodes state fields
  | deeper {state nodes fields children found inner} (mem : .object fields children ∈ nodes)
      (shown : hides fields = false) (structural : isOpaque fields = false)
      (inside : Visited enter (enter state fields) children found inner) :
      Visited enter state nodes found inner

section

variable {σ τ : Type} {enter : σ → Members → σ} {state found : σ} {n : Node} {nodes others : List Node}
  {fields inner : Members} {children : List Node}

theorem not_visited_nil (h : Visited enter state [] found inner) : False := by
  cases h with
  | here mem _ => exact absurd mem List.not_mem_nil
  | deeper mem _ _ _ => exact absurd mem List.not_mem_nil

theorem not_visited_other {v : Value} (h : Visited enter state [.other v] found inner) : False := by
  cases h with
  | here mem _ => exact absurd (List.mem_singleton.mp mem) nofun
  | deeper mem _ _ _ => exact absurd (List.mem_singleton.mp mem) nofun

/-- What is visited at one node. -/
theorem visited_object : Visited enter state [.object fields children] found inner ↔
    hides fields = false ∧ (found = state ∧ inner = fields ∨
      isOpaque fields = false ∧ Visited enter (enter state fields) children found inner) := by
  constructor
  · intro h
    cases h with
    | here mem shown =>
      obtain ⟨rfl, rfl⟩ := Node.object.inj (List.mem_singleton.mp mem)
      exact ⟨shown, .inl ⟨rfl, rfl⟩⟩
    | deeper mem shown structural inside =>
      obtain ⟨rfl, rfl⟩ := Node.object.inj (List.mem_singleton.mp mem)
      exact ⟨shown, .inr ⟨structural, inside⟩⟩
  · rintro ⟨shown, ⟨rfl, rfl⟩ | ⟨structural, inside⟩⟩
    · exact .here List.mem_cons_self shown
    · exact .deeper List.mem_cons_self shown structural inside

/-- What is visited among some nodes is visited among more. -/
theorem Visited.mono (h : Visited enter state nodes found inner) (sub : ∀ n ∈ nodes, n ∈ others) :
    Visited enter state others found inner := by
  cases h with
  | here mem shown => exact .here (sub _ mem) shown
  | deeper mem shown structural inside => exact .deeper (sub _ mem) shown structural inside

/-- What is visited among several nodes is visited at one of them. -/
theorem Visited.single (h : Visited enter state nodes found inner) :
    ∃ n ∈ nodes, Visited enter state [n] found inner := by
  cases h with
  | here mem shown => exact ⟨_, mem, .here List.mem_cons_self shown⟩
  | deeper mem shown structural inside => exact ⟨_, mem, .deeper List.mem_cons_self shown structural inside⟩

theorem visited_append : Visited enter state (nodes ++ others) found inner ↔
    Visited enter state nodes found inner ∨ Visited enter state others found inner := by
  constructor
  · intro h
    obtain ⟨m, mem, hm⟩ := h.single
    rcases List.mem_append.mp mem with mem | mem
    · exact .inl (hm.mono fun k hk => by rwa [List.mem_singleton.mp hk])
    · exact .inr (hm.mono fun k hk => by rwa [List.mem_singleton.mp hk])
  · rintro (h | h)
    · exact h.mono fun k hk => List.mem_append_left _ hk
    · exact h.mono fun k hk => List.mem_append_right _ hk

theorem visited_cons : Visited enter state (n :: nodes) found inner ↔
    Visited enter state [n] found inner ∨ Visited enter state nodes found inner := by
  rw [← visited_append, List.singleton_append]

/-- A state of which a part goes its own way. -/
theorem Visited.map {other : τ → Members → τ} (part : σ → τ)
    (commutes : ∀ state fields, part (enter state fields) = other (part state) fields)
    (h : Visited enter state nodes found inner) : Visited other (part state) nodes (part found) inner := by
  induction h with
  | here mem shown => exact .here mem shown
  | deeper mem shown structural _ ih =>
    rw [commutes] at ih
    exact .deeper mem shown structural ih

end

/-! ## 4. The order of children -/

/-- One node has its children in another order, and everything else is the same. -/
inductive Reorders : Node → Node → Prop where
  | here {fields children others} (perm : children.Perm others) :
      Reorders (.object fields children) (.object fields others)
  | inside {fields before after n m} (step : Reorders n m) :
      Reorders (.object fields (before ++ n :: after)) (.object fields (before ++ m :: after))

/-- **No order of children changes what is visited.** -/
theorem Reorders.visited {n m : Node} (h : Reorders n m) :
    ∃ fields children others, n = .object fields children ∧ m = .object fields others ∧
      ∀ {σ : Type} {enter : σ → Members → σ} {state found : σ} {inner : Members},
        Visited enter state children found inner ↔ Visited enter state others found inner := by
  induction h with
  | @here fields children others perm =>
    refine ⟨fields, children, others, rfl, rfl, fun {σ enter state found inner} => ?_⟩
    constructor
    · exact fun h => h.mono fun _ => perm.mem_iff.mp
    · exact fun h => h.mono fun _ => perm.mem_iff.mpr
  | @inside fields before after n m _ ih =>
    obtain ⟨own, children, others, rfl, rfl, same⟩ := ih
    refine ⟨fields, _, _, rfl, rfl, fun {σ enter state found inner} => ?_⟩
    have changed : Visited enter state [.object own children] found inner ↔
        Visited enter state [.object own others] found inner := by
      rw [visited_object, visited_object, same]
    rw [visited_append, visited_append, visited_cons, changed, ← visited_cons]

theorem Reorders.whole {n m : Node} (h : Reorders n m) (whole : n.Whole) : m.Whole := by
  induction h with
  | here perm => exact .object whole.own fun k hk => whole.inner k (perm.mem_iff.mpr hk)
  | inside _ ih =>
    have inner := whole.inner
    refine .object whole.own fun k hk => ?_
    rcases List.mem_append.mp hk with mem | mem
    · exact inner k (List.mem_append_left _ mem)
    · rcases List.mem_cons.mp mem with rfl | mem
      · exact ih (inner _ (List.mem_append_right _ List.mem_cons_self))
      · exact inner k (List.mem_append_right _ (List.mem_cons_of_mem _ mem))

end Node

/-! ## 5. The walk finds the least position -/

namespace Canvas

/-- Where the children of a node are: the place of their parent on an axis, and whether they are in a flow. -/
structure Spot where
  parent : Int
  flow : Bool

namespace Spot

/-- Where a node stands: in a flow where its parent does. -/
def stand (axis : Axis) (spot : Spot) (fields : Members) : Int :=
  if spot.flow then spot.parent else spot.parent + Node.coordinate axis fields

/-- Where the children of a node are. -/
def enter (axis : Axis) (spot : Spot) (fields : Members) : Spot :=
  ⟨spot.stand axis fields, Node.isAutoLayout fields⟩

/-- Where the children of a root are. -/
def root : Spot := ⟨0, false⟩

end Spot

variable {axis : Axis} {spot : Spot} {n : Node} {nodes : List Node} {fields : Members}
  {children : List Node}

/-- **The positions that count**: where visited nodes stand that are not in a flow. -/
def positions (axis : Axis) (spot : Spot) (nodes : List Node) : Set Int :=
  {position | ∃ found fields, Node.Visited (Spot.enter axis) spot nodes found fields ∧
    found.flow = false ∧ position = found.stand axis fields}

theorem positions_nil : positions axis spot [] = ∅ :=
  Set.eq_empty_iff_forall_notMem.mpr fun _ ⟨_, _, h, _⟩ => Node.not_visited_nil h

theorem positions_other {v : Value} : positions axis spot [.other v] = ∅ :=
  Set.eq_empty_iff_forall_notMem.mpr fun _ ⟨_, _, h, _⟩ => Node.not_visited_other h

theorem positions_cons :
    positions axis spot (n :: nodes) = positions axis spot nodes ∪ positions axis spot [n] := by
  ext position
  constructor
  · rintro ⟨found, fields, h, stands⟩
    rcases Node.visited_cons.mp h with h | h
    · exact .inr ⟨found, fields, h, stands⟩
    · exact .inl ⟨found, fields, h, stands⟩
  · rintro (⟨found, fields, h, stands⟩ | ⟨found, fields, h, stands⟩)
    · exact ⟨found, fields, Node.visited_cons.mpr (.inr h), stands⟩
    · exact ⟨found, fields, Node.visited_cons.mpr (.inl h), stands⟩

theorem positions_hidden (hidden : Node.hides fields = true) :
    positions axis spot [.object fields children] = ∅ := by
  refine Set.eq_empty_iff_forall_notMem.mpr fun position ⟨found, inner, h, _⟩ => ?_
  have shown := (Node.visited_object.mp h).1
  rw [hidden] at shown
  cases shown

/-- Where the node itself counts. -/
def ownPositions (axis : Axis) (spot : Spot) (fields : Members) : Set Int :=
  if spot.flow then ∅ else {spot.stand axis fields}

/-- Where the nodes below it count. -/
def innerPositions (axis : Axis) (spot : Spot) (fields : Members) (children : List Node) : Set Int :=
  if Node.isOpaque fields then ∅ else positions axis (spot.enter axis fields) children

theorem mem_ownPositions {position : Int} : position ∈ ownPositions axis spot fields ↔
    spot.flow = false ∧ position = spot.stand axis fields := by
  unfold ownPositions
  cases spot.flow <;> simp

theorem mem_innerPositions {position : Int} : position ∈ innerPositions axis spot fields children ↔
    Node.isOpaque fields = false ∧ position ∈ positions axis (spot.enter axis fields) children := by
  unfold innerPositions
  cases Node.isOpaque fields <;> simp

theorem positions_shown (shown : Node.hides fields = false) :
    positions axis spot [.object fields children] =
      ownPositions axis spot fields ∪ innerPositions axis spot fields children := by
  ext position
  rw [Set.mem_union, mem_ownPositions, mem_innerPositions]
  constructor
  · rintro ⟨found, inner, h, stands⟩
    rcases (Node.visited_object.mp h).2 with ⟨rfl, rfl⟩ | ⟨structural, h⟩
    · exact .inl stands
    · exact .inr ⟨structural, found, inner, h, stands⟩
  · rintro (stands | ⟨structural, found, inner, h, stands⟩)
    · exact ⟨spot, fields, Node.visited_object.mpr ⟨shown, .inl ⟨rfl, rfl⟩⟩, stands⟩
    · exact ⟨found, inner, Node.visited_object.mpr ⟨shown, .inr ⟨structural, h⟩⟩, stands⟩

/-- The least of more is found by going on from the least so far. -/
theorem isLeast_insert_union {sofar next low : Int} {first others : Set Int}
    (h : IsLeast (insert sofar first) next) (h' : IsLeast (insert next others) low) :
    IsLeast (insert sofar (first ∪ others)) low := by
  constructor
  · rcases Set.mem_insert_iff.mp h'.1 with rfl | mem
    · exact Set.insert_subset_insert Set.subset_union_left h.1
    · exact Set.mem_insert_of_mem _ (Set.mem_union_right _ mem)
  · have bound : low ≤ next := h'.2 (Set.mem_insert _ _)
    intro position hp
    rcases Set.mem_insert_iff.mp hp with rfl | hp
    · exact bound.trans (h.2 (Set.mem_insert _ _))
    · rcases hp with mem | mem
      · exact bound.trans (h.2 (Set.mem_insert_of_mem _ mem))
      · exact h'.2 (Set.mem_insert_of_mem _ mem)

theorem isLeast_insert_empty (sofar : Int) : IsLeast (insert sofar ∅) sofar := by
  rw [insert_empty_eq]
  exact isLeast_singleton

/-- The spot of some children on each axis. -/
def spotAt (parent : Axis → Int) (flow : Bool) (axis : Axis) : Spot := ⟨parent axis, flow⟩

/-- The least so far and of where a node stands, if it counts. -/
def counted (sofar parent : Axis → Int) (flow : Bool) (fields : Members) (axis : Axis) : Int :=
  if flow then sofar axis else min (sofar axis) ((spotAt parent flow axis).stand axis fields)

theorem isLeast_counted (sofar parent : Axis → Int) (flow : Bool) (fields : Members) (axis : Axis) :
    IsLeast (insert (sofar axis) (ownPositions axis (spotAt parent flow axis) fields))
      (counted sofar parent flow fields axis) := by
  cases flow with
  | true => exact isLeast_insert_empty _
  | false => exact isLeast_pair

/-- The point where a node is drawn. -/
theorem ofChild_whole (own : Node.IsWhole fields) (parent : Axis → Int) (flow : Bool) :
    Point.ofChild (Point.whole parent) flow fields =
      .ok (Point.whole fun axis => (spotAt parent flow axis).stand axis fields) := by
  cases flow with
  | true => rfl
  | false => exact Point.ofNode_whole own parent

/-- **One step of the walk**: a node that shows is counted before its children are walked over. -/
theorem least_object (own : Node.IsWhole fields) (shown : Node.hides fields = false)
    (sofar parent : Axis → Int) (flow : Bool) :
    least (Point.whole sofar) (Point.whole parent) flow (.object fields children) =
      if Node.isOpaque fields then .ok (Point.whole (counted sofar parent flow fields))
      else leastOf (Point.whole (counted sofar parent flow fields))
        (Point.whole fun axis => (spotAt parent flow axis).stand axis fields) (Node.isAutoLayout fields)
        children := by
  have next : (if flow then Point.whole sofar else
      (Point.whole sofar).min (Point.whole fun axis => (spotAt parent flow axis).stand axis fields)) =
      Point.whole (counted sofar parent flow fields) := by
    cases flow with
    | true => rfl
    | false => exact Point.min_whole _ _
  unfold least
  rw [if_neg (by simp [shown]), ofChild_whole own]
  dsimp only [bind, Except.bind]
  rw [next]
  rfl

mutual

/-- The walk over a node ends, and finds the least of what was so far and of the positions there. -/
theorem least_whole : ∀ (n : Node), n.Whole → ∀ (sofar parent : Axis → Int) (flow : Bool),
    ∃ low : Axis → Int, least (Point.whole sofar) (Point.whole parent) flow n = .ok (Point.whole low) ∧
      ∀ axis, IsLeast (insert (sofar axis) (positions axis (spotAt parent flow axis) [n])) (low axis)
  | .other v, _, sofar, parent, flow => by
      refine ⟨sofar, by unfold least; rfl, fun axis => ?_⟩
      rw [positions_other]
      exact isLeast_insert_empty _
  | .object fields children, whole, sofar, parent, flow => by
      cases hidden : Node.hides fields with
      | true =>
        refine ⟨sofar, by unfold least; rw [if_pos hidden], fun axis => ?_⟩
        rw [positions_hidden hidden]
        exact isLeast_insert_empty _
      | false =>
        rw [least_object whole.own hidden]
        cases flat : Node.isOpaque fields with
        | true =>
          refine ⟨counted sofar parent flow fields, if_pos rfl, fun axis => ?_⟩
          have inner : innerPositions axis (spotAt parent flow axis) fields children = ∅ := if_pos flat
          rw [positions_shown hidden, inner, Set.union_empty]
          exact isLeast_counted sofar parent flow fields axis
        | false =>
          obtain ⟨low, found, lowest⟩ := leastOf_whole children whole.inner
            (counted sofar parent flow fields) (fun axis => (spotAt parent flow axis).stand axis fields)
            (Node.isAutoLayout fields)
          refine ⟨low, found, fun axis => ?_⟩
          have inner : innerPositions axis (spotAt parent flow axis) fields children =
              positions axis ((spotAt parent flow axis).enter axis fields) children :=
            if_neg (by simp [flat])
          rw [positions_shown hidden, inner]
          exact isLeast_insert_union (isLeast_counted sofar parent flow fields axis) (lowest axis)

/-- **The walk over some nodes** ends, and finds the least of what was so far and of the positions there. -/
theorem leastOf_whole : ∀ (nodes : List Node), (∀ n ∈ nodes, n.Whole) →
    ∀ (sofar parent : Axis → Int) (flow : Bool),
    ∃ low : Axis → Int, leastOf (Point.whole sofar) (Point.whole parent) flow nodes = .ok (Point.whole low) ∧
      ∀ axis, IsLeast (insert (sofar axis) (positions axis (spotAt parent flow axis) nodes)) (low axis)
  | [], _, sofar, parent, flow => by
      refine ⟨sofar, by unfold leastOf; rfl, fun axis => ?_⟩
      rw [positions_nil]
      exact isLeast_insert_empty _
  | n :: rest, whole, sofar, parent, flow => by
      -- the rest is walked over first
      obtain ⟨next, walked, lowRest⟩ :=
        leastOf_whole rest (fun m hm => whole m (List.mem_cons_of_mem _ hm)) sofar parent flow
      obtain ⟨low, found, lowHead⟩ := least_whole n (whole n List.mem_cons_self) next parent flow
      refine ⟨low, ?_, fun axis => ?_⟩
      · unfold leastOf
        rw [walked]
        exact found
      · rw [positions_cons]
        exact isLeast_insert_union (lowRest axis) (lowHead axis)

end

/-! ## 6. The shift is the least that suffices -/

/-- Moved by `shift`, the root and all that counts below it stand on the canvas. -/
structure Suffices (axis : Axis) (fields : Members) (children : List Node) (shift : Int) : Prop where
  nonneg : 0 ≤ shift
  root : 0 ≤ Node.coordinate axis fields + shift
  below : ∀ position ∈ positions axis .root children, 0 ≤ position + shift

/-- The opposite of the least position is the least shift that suffices. -/
theorem isLeast_suffices {low : Int}
    (h : IsLeast (insert (min 0 (Node.coordinate axis fields)) (positions axis .root children)) low) :
    IsLeast {shift | Suffices axis fields children shift} low.natAbs := by
  have start : low ≤ min 0 (Node.coordinate axis fields) := h.2 (Set.mem_insert _ _)
  constructor
  · refine ⟨by omega, by omega, fun position visited => ?_⟩
    have bound : low ≤ position := h.2 (Set.mem_insert_of_mem _ visited)
    omega
  · rintro shift ⟨nonneg, root, below⟩
    rcases Set.mem_insert_iff.mp h.1 with hlow | visited
    · omega
    · have := below low visited
      omega

/-- The shift of a root whose children do not flow. -/
theorem shift_whole (whole : (Node.object fields children).Whole)
    (placed : Node.isAutoLayout fields = false) :
    ∃ shift : Axis → Int, Canvas.shift (.object fields children) = .ok (Point.whole shift) ∧
      ∀ axis, IsLeast {shift | Suffices axis fields children shift} (shift axis) := by
  have start : Point.zero.min (Point.whole fun axis => Node.coordinate axis fields) =
      Point.whole fun axis => min 0 (Node.coordinate axis fields) := by
    rw [Point.zero_whole, Point.min_whole]
  obtain ⟨low, found, least⟩ := leastOf_whole children whole.inner
    (fun axis => min 0 (Node.coordinate axis fields)) (fun _ => 0) false
  refine ⟨fun axis => (low axis).natAbs, ?_, fun axis => isLeast_suffices (least axis)⟩
  rw [← start] at found
  have walked : leastOf (Point.zero.min ⟨.int (Node.coordinate .x fields), .int (Node.coordinate .y fields)⟩)
      Point.zero false children = .ok (Point.whole low) := found
  unfold Canvas.shift
  dsimp only
  rw [if_neg (by simp [placed]), whole.own.x, whole.own.y, walked]
  rfl

/-- The same counts in every order of children. -/
theorem positions_of_reordered {root : Node}
    (steps : Relation.ReflTransGen Node.Reorders (.object fields children) root)
    (whole : (Node.object fields children).Whole) :
    ∃ others, root = .object fields others ∧ root.Whole ∧
      ∀ axis, positions axis .root children = positions axis .root others := by
  induction steps with
  | refl => exact ⟨children, rfl, whole, fun _ => rfl⟩
  | tail _ step ih =>
    obtain ⟨middle, rfl, inner, same⟩ := ih
    obtain ⟨own, old, new, hn, rfl, visited⟩ := step.visited
    obtain ⟨rfl, rfl⟩ := Node.object.inj hn
    refine ⟨new, rfl, step.whole inner, fun axis => (same axis).trans ?_⟩
    unfold positions
    simp only [visited]

theorem suffices_congr {others : List Node}
    (same : positions axis .root children = positions axis .root others) :
    Suffices axis fields children = Suffices axis fields others := by
  funext shift
  refine propext ⟨fun h => ⟨h.nonneg, h.root, ?_⟩, fun h => ⟨h.nonneg, h.root, ?_⟩⟩
  · rw [← same]
    exact h.below
  · rw [same]
    exact h.below

/-- **The shift is the least that suffices**, on each axis, and it does not depend on any order of
children. -/
theorem shift_isLeast (whole : (Node.object fields children).Whole)
    (placed : Node.isAutoLayout fields = false) :
    ∃ shift : Axis → Int, Canvas.shift (.object fields children) = .ok (Point.whole shift) ∧
      (∀ axis, IsLeast {shift | Suffices axis fields children shift} (shift axis)) ∧
      ∀ root, Relation.ReflTransGen Node.Reorders (.object fields children) root →
        Canvas.shift root = .ok (Point.whole shift) := by
  obtain ⟨shift, found, least⟩ := shift_whole whole placed
  refine ⟨shift, found, least, fun root steps => ?_⟩
  obtain ⟨others, rfl, inner, same⟩ := positions_of_reordered steps whole
  obtain ⟨shift', found', least'⟩ := shift_whole inner placed
  have agree : shift' = shift := by
    funext axis
    have own := least' axis
    rw [← suffices_congr (same axis)] at own
    exact own.unique (least axis)
  rw [found', agree]

/-- A column to the left of the canvas: where its item says it is does not count, and what is placed in the
item does. -/
def leaning : List Node :=
  [.object [("layoutMode", .text "VERTICAL"), ("x", .number (.int (-30)))]
    [.object [("x", .number (.int (-500)))]
      [.object [("x", .number (.int (-12))), ("y", .number (.int 4))] []]]]

theorem whole_leaning : (Node.object [] leaning).Whole :=
  .only (by decide) (.only (by decide) (.only (by decide) (.object (by decide) (List.forall_mem_nil _))))

theorem shift_isLeast_leaning : Node.isAutoLayout [] = false ∧
    ∃ shift : Axis → Int, shift .x = 42 ∧ shift .y = 0 ∧
      Canvas.shift (.object [] leaning) = .ok (Point.whole shift) ∧
      (∀ axis, IsLeast {shift | Suffices axis [] leaning shift} (shift axis)) := by
  have placed : Node.isAutoLayout [] = false := by decide
  obtain ⟨shift, found, least, -⟩ := shift_isLeast whole_leaning placed
  have computed : (Canvas.shift (.object [] leaning)).toOption.map (fun p => (p.x, p.y)) =
      some (.int 42, .int 0) := by decide +kernel
  rw [found] at computed
  obtain ⟨hx, hy⟩ := Prod.mk.inj (Option.some.inj computed)
  exact ⟨placed, shift, Number.int.inj hx, Number.int.inj hy, found, least⟩

/-! ## 7. How far out a shift is -/

/-- What a walk makes of a coordinate: it stays, or becomes a whole number that is not too far out. -/
def Near (bound : Nat) (sofar low : Number) : Prop := low = sofar ∨ ∃ i : Int, low = .int i ∧ i.natAbs ≤ bound

section

variable {bound more : Nat} {sofar low next : Number}

theorem Near.refl (bound : Nat) (sofar : Number) : Near bound sofar sofar := .inl rfl

theorem Near.mono (h : Near bound sofar low) (le : bound ≤ more) : Near more sofar low :=
  h.imp_right fun ⟨i, hi, near⟩ => ⟨i, hi, near.trans le⟩

theorem Near.trans (h : Near bound sofar next) (k : Near bound next low) : Near bound sofar low := by
  rcases k with rfl | far
  · exact h
  · exact .inr far

theorem near_min {i : Int} (h : i.natAbs ≤ bound) : Near bound sofar (sofar.min (.int i)) := by
  unfold Number.min
  split
  · exact .inr ⟨i, rfl, h⟩
  · exact .inl rfl

end

/-- Where a node stands is not farther out than its parent and its own coordinate together. -/
theorem natAbs_stand (parent : Axis → Int) (flow : Bool) (fields : Members) (axis : Axis) :
    ((spotAt parent flow axis).stand axis fields).natAbs ≤
      (parent axis).natAbs + (Node.coordinate axis fields).natAbs := by
  unfold Spot.stand spotAt
  dsimp only
  split
  · omega
  · omega

/-- Counting a node stays near. -/
theorem near_counted (sofar : Point) (parent : Axis → Int) (flow : Bool) (fields : Members) (axis : Axis) :
    Near ((parent axis).natAbs + (Node.coordinate axis fields).natAbs) (sofar.on axis)
      ((if flow then sofar else
        sofar.min (Point.whole fun axis => (spotAt parent flow axis).stand axis fields)).on axis) := by
  split
  · exact .refl _ _
  · cases axis with
    | x => exact near_min (natAbs_stand parent flow fields .x)
    | y => exact near_min (natAbs_stand parent flow fields .y)

mutual

/-- The walk over a node stays near. -/
theorem least_near : ∀ (n : Node), n.Whole → ∀ (sofar : Point) (parent : Axis → Int) (flow : Bool),
    ∃ low, least sofar (Point.whole parent) flow n = .ok low ∧ ∀ axis,
      Near ((parent axis).natAbs + n.reach axis) (sofar.on axis) (low.on axis)
  | .other v, _, sofar, parent, flow => ⟨sofar, by unfold least; rfl, fun _ => .refl _ _⟩
  | .object fields children, whole, sofar, parent, flow => by
      unfold least
      split
      · exact ⟨sofar, rfl, fun _ => .refl _ _⟩
      · rw [ofChild_whole whole.own, ok_bind]
        have counts := near_counted sofar parent flow fields
        dsimp only
        generalize (if flow then sofar else sofar.min _) = next at counts ⊢
        split
        · refine ⟨next, rfl, fun axis => (counts axis).mono ?_⟩
          rw [Node.reach]
          omega
        · obtain ⟨low, found, near⟩ := leastOf_near children whole.inner next
            (fun axis => (spotAt parent flow axis).stand axis fields) (Node.isAutoLayout fields)
          refine ⟨low, found, fun axis => ?_⟩
          have here := natAbs_stand parent flow fields axis
          rw [Node.reach]
          exact ((counts axis).mono (by omega)).trans ((near axis).mono (by omega))

/-- **The walk over some nodes stays near**: it finds what was so far, or a sum of coordinates. -/
theorem leastOf_near : ∀ (nodes : List Node), (∀ n ∈ nodes, n.Whole) →
    ∀ (sofar : Point) (parent : Axis → Int) (flow : Bool),
    ∃ low, leastOf sofar (Point.whole parent) flow nodes = .ok low ∧ ∀ axis,
      Near ((parent axis).natAbs + Node.reachIn axis nodes) (sofar.on axis) (low.on axis)
  | [], _, sofar, parent, flow => ⟨sofar, by unfold leastOf; rfl, fun _ => .refl _ _⟩
  | n :: rest, whole, sofar, parent, flow => by
      obtain ⟨own, inner⟩ := List.forall_mem_cons.mp whole
      obtain ⟨next, walked, nearRest⟩ := leastOf_near rest inner sofar parent flow
      obtain ⟨low, found, nearHead⟩ := least_near n own next parent flow
      refine ⟨low, ?_, fun axis => ?_⟩
      · rw [leastOf, walked]
        exact found
      · rw [Node.reachIn]
        exact ((nearRest axis).mono (by omega)).trans ((nearHead axis).mono (by omega))

end

end Canvas

end Artboard
