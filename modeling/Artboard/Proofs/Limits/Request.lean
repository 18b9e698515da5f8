import Artboard.Component
import Artboard.Proofs.Limits.Markup
import Artboard.Request.Node

/-!
# Requests within limits

A request without problems submits sound nodes (`Limits.sound_nodes`): each has a name and a type, its children are
such nodes, and the doubles put in place of what was given are within the limits if what was given is
(`Limits.accepts`).  So a component can be built of them, or a fault stops the compilation that the limits allow
(`Limits.passes_build`).
-/

namespace Artboard

namespace Node

/-! ## 1. Children among members -/

/-- Members without children. -/
def Childless (members : Members) : Prop := ∀ e ∈ members, e.1 ≠ "children"

variable {members others : Members}

theorem childrenIn_append_of_childless (h : Childless members) :
    childrenIn (members ++ others) = childrenIn others := by
  induction members with
  | nil => rfl
  | cons e rest ih =>
    obtain ⟨name, v⟩ := e
    have other : name ≠ "children" := h (name, v) List.mem_cons_self
    rw [List.cons_append, childrenIn, if_neg other]
    exact ih fun e he => h e (List.mem_cons_of_mem _ he)

theorem childrenIn_of_childless (h : Childless members) : childrenIn members = [] := by
  have alone : childrenIn (members ++ []) = childrenIn [] := childrenIn_append_of_childless h
  rwa [List.append_nil] at alone

end Node

namespace Request

variable {ms : Members}

theorem childless_cleanFields : Node.Childless (cleanFields ms) := by
  intro e he
  have names : ∀ name ∈ (cleanFields ms).map Prod.fst, name ≠ "children" := by
    show ∀ name ∈ ["name", "type", "width", "height", "x", "y", "opacity", "visible"], name ≠ "children"
    decide
  exact names e.1 (List.mem_map_of_mem he)

theorem childless_otherFields : Node.Childless (otherFields ms) := by
  intro e he same
  have kept := (List.mem_filter.mp he).2
  have known : knownFields.contains e.1 = true := by
    rw [same]
    decide
  rw [known] at kept
  cases kept

theorem shape_cleanChildren (ms : Members) : cleanChildren ms = [] ∨ ∃ v, cleanChildren ms = [("children", v)] := by
  induction ms with
  | nil => exact .inl rfl
  | cons e rest ih =>
    obtain ⟨name, v⟩ := e
    unfold cleanChildren
    split
    · cases v <;> first | exact .inr ⟨_, rfl⟩ | exact .inl rfl
    · exact ih

theorem name_cleanChildren {e : String × Value} (h : e ∈ cleanChildren ms) : e.1 = "children" := by
  rcases shape_cleanChildren ms with none | ⟨v, one⟩
  · rw [none] at h
    cases h
  · rw [one] at h
    rw [List.mem_singleton.mp h]

/-- The children of a clean node are its clean children. -/
theorem childrenIn_clean :
    Node.childrenIn (cleanFields ms ++ cleanChildren ms ++ otherFields ms) = Node.childrenIn (cleanChildren ms) := by
  rw [List.append_assoc, Node.childrenIn_append_of_childless childless_cleanFields]
  rcases shape_cleanChildren ms with none | ⟨v, one⟩
  · rw [none]
    exact Node.childrenIn_of_childless childless_otherFields
  · rw [one]
    rfl

end Request

/-! ## 2. Fields of submitted nodes -/

namespace Limits

open Request

variable {L : Limits}

/-- A value that a request may hold, what is inside it aside: also where it is taken for a double. -/
def accepts (L : Limits) (v : Value) : Prop :=
  L.admits v ∧ ∀ x, readDouble v = .ok x → x.isFinite = true → L.given (.real x)

section

variable {ms : Members}

theorem admits_of_accepts {v : Value} (h : Value.Everywhere L.accepts v) : L.Admits v := fun w hw => (h w hw).1

theorem admits_cleanDouble (h : Members.Everywhere L.accepts ms) (name : String) {default : Int}
    (small : default.natAbs < 1000) : L.Admits (cleanDouble ms name default) := by
  unfold cleanDouble
  split
  · exact Value.everywhere_flat rfl fun _ => L.given_small small
  · rename_i v found
    have given := h (name, v) (Entries.mem_of_get? found)
    split
    · rename_i x read
      exact Value.everywhere_flat rfl (given.self.2 x read)
    · exact admits_of_accepts given

theorem admits_cleanVisible (h : Members.Everywhere L.accepts ms) : L.Admits (cleanVisible ms) := by
  unfold cleanVisible
  split
  · exact Value.everywhere_flat rfl trivial
  · rename_i v found
    split
    · exact Value.everywhere_flat rfl trivial
    · exact admits_of_accepts (h (_, v) (Entries.mem_of_get? found))

/-- The fields of a clean node are within the limits. -/
theorem admitsFields_clean (h : Members.Everywhere L.accepts ms) :
    L.AdmitsFields (Entries.erase (cleanFields ms ++ cleanChildren ms ++ otherFields ms) "children") := by
  intro e he
  obtain ⟨mem, other⟩ := Entries.mem_erase he
  have text (name : String) : L.Admits (ms.get name) := by
    have null : L.accepts .null := ⟨trivial, fun x read => by cases read⟩
    exact admits_of_accepts (h.get null name)
  rcases List.mem_append.mp mem with mem | mem
  · rcases List.mem_append.mp mem with mem | mem
    · simp only [cleanFields, List.mem_cons, List.not_mem_nil, or_false] at mem
      rcases mem with rfl | rfl | rfl | rfl | rfl | rfl | rfl | rfl
      · exact text "name"
      · exact text "type"
      · exact admits_cleanDouble h "width" (by decide)
      · exact admits_cleanDouble h "height" (by decide)
      · exact admits_cleanDouble h "x" (by decide)
      · exact admits_cleanDouble h "y" (by decide)
      · exact admits_cleanDouble h "opacity" (by decide)
      · exact admits_cleanVisible h
    · exact absurd (name_cleanChildren mem) other
  · exact admits_of_accepts (h e (List.mem_filter.mp mem).1)

theorem text_of_textProblems {name : String} (h : textProblems ms name = []) : ∃ s, ms.get? name = some (.text s) := by
  unfold textProblems at h
  split at h
  · cases h
  · rename_i s found
    exact ⟨s, found⟩
  · cases h

end

/-! ## 3. Submitted nodes -/

mutual

/-- **A submitted node without problems is sound.** -/
theorem sound_cleanNode : ∀ (v : Value), nodeProblems v = [] → Value.Everywhere L.accepts v →
    L.Sound (Node.ofValue (cleanNode v))
  | .object ms, proper, within => by
      unfold nodeProblems at proper
      obtain ⟨own, inner⟩ := List.append_eq_nil_iff.mp proper
      have members : Members.Everywhere L.accepts ms := Members.everywhere_of_object within
      unfold fieldProblems at own
      simp only [List.append_eq_nil_iff] at own
      obtain ⟨name, hn⟩ := text_of_textProblems own.1.1.1.1.1.1.1
      obtain ⟨type, ht⟩ := text_of_textProblems own.1.1.1.1.1.1.2
      unfold cleanNode Node.ofValue
      rw [childrenIn_clean]
      refine .object (admitsFields_clean members) ⟨name, ?_⟩ ⟨type, ?_⟩ (sound_cleanChildren ms inner members)
      · simp [Entries.get, Entries.get?_erase, cleanFields, Entries.get?, hn]
      · simp [Entries.get, Entries.get?_erase, cleanFields, Entries.get?, ht]
  | .null, proper, _ => (List.cons_ne_nil _ _ proper).elim
  | .bool _, proper, _ => (List.cons_ne_nil _ _ proper).elim
  | .number _, proper, _ => (List.cons_ne_nil _ _ proper).elim
  | .text _, proper, _ => (List.cons_ne_nil _ _ proper).elim
  | .list _, proper, _ => (List.cons_ne_nil _ _ proper).elim

/-- The children among members without problems are sound. -/
theorem sound_cleanChildren : ∀ (ms : List (String × Value)), childProblems ms = [] →
    Members.Everywhere L.accepts ms → ∀ n ∈ Node.childrenIn (cleanChildren ms), L.Sound n
  | [], _, _ => fun n hn => by cases hn
  | (name, v) :: rest, proper, within => by
      unfold childProblems at proper
      unfold cleanChildren
      split
      · rename_i same
        rw [if_pos same, List.map_eq_nil_iff] at proper
        exact sound_cleanChildList v proper (within (name, v) List.mem_cons_self)
      · rename_i other
        rw [if_neg other] at proper
        exact sound_cleanChildren rest proper fun e he => within e (List.mem_cons_of_mem _ he)

/-- A list of children without problems is of sound nodes. -/
theorem sound_cleanChildList : ∀ (v : Value), childListProblems v = [] → Value.Everywhere L.accepts v →
    ∀ n ∈ Node.childrenIn (cleanChildList v), L.Sound n
  | .null, _, _ => fun n hn => by cases hn
  | .list items, proper, within => sound_cleanNodes items 0 proper fun v hv => within.item hv
  | .bool _, _, _ => fun n hn => by cases hn
  | .number _, _, _ => fun n hn => by cases hn
  | .text _, _, _ => fun n hn => by cases hn
  | .object _, _, _ => fun n hn => by cases hn

/-- Submitted nodes without problems are sound. -/
theorem sound_cleanNodes : ∀ (vs : List Value) (index : Nat), listProblems index vs = [] →
    (∀ v ∈ vs, Value.Everywhere L.accepts v) → ∀ n ∈ Node.ofValues (cleanNodes vs), L.Sound n
  | [], _, _, _ => fun n hn => by cases hn
  | v :: rest, index, proper, within => by
      unfold listProblems at proper
      obtain ⟨own, others⟩ := List.append_eq_nil_iff.mp proper
      rw [List.map_eq_nil_iff] at own
      obtain ⟨first, more⟩ := List.forall_mem_cons.mp within
      unfold cleanNodes Node.ofValues
      intro n hn
      rcases List.mem_cons.mp hn with rfl | hn
      · exact sound_cleanNode v own first
      · exact sound_cleanNodes rest (index + 1) others more n hn

end

/-- The nodes of a request without problems are sound. -/
theorem sound_nodes {request : Members} {nodes : List Value} (read : Request.nodes request = .ok nodes)
    (within : Value.Everywhere L.accepts (.object request)) : ∀ n ∈ Node.ofValues nodes, L.Sound n := by
  unfold Request.nodes at read
  split at read
  · cases read
    exact fun n hn => by cases hn
  · rename_i vs found
    have data : Value.Everywhere L.accepts (.list vs) :=
      within.member (Entries.mem_of_get? found)
    split at read
    · rename_i proper
      cases read
      exact sound_cleanNodes vs 0 proper fun v hv => data.item hv
    · cases read
  · cases read

end Limits

/-! ## 4. Components -/

/-- Values that describe objects are objects, and can be roots. -/
theorem Composition.rootNodes_of_objects {vs : List Value} (objects : ∀ n ∈ Node.ofValues vs, n.IsObject) :
    rootNodes vs = .ok (Node.ofValues vs) := by
  induction vs with
  | nil => rfl
  | cons v rest ih =>
    unfold Node.ofValues at objects
    obtain ⟨⟨fields, children, first⟩, others⟩ := List.forall_mem_cons.mp objects
    cases v with
    | object ms =>
      unfold rootNodes
      rw [ih others]
      rfl
    | _ => cases first

namespace Limits

variable {L : Limits}

section

variable {fields : Members} {nodes : List Value}

/-- The rule for a container within limits. -/
theorem passes_containerRule (own : L.AdmitsFields fields) (name : String) :
    Passes L.allowed (Component.containerRule fields name) := by
  unfold Component.containerRule
  refine (passes_firstSolid? (own.field "fills")).bind fun background _ => ?_
  refine (px_given (own.number "width")).bind fun width _ => ?_
  exact (px_given (own.number "height")).passes_then

/-- A composition of sound roots is a component. -/
theorem passes_ofComposition {c : Composition} (sound : ∀ n ∈ c.roots, L.Sound n) (fonts : String) :
    Passes L.allowed (Component.ofComposition c (c.firstFields.get "name") fonts) := by
  have first : L.AdmitsFields c.firstFields ∧ Passes L.allowed (Component.nameOf (c.firstFields.get "name")) := by
    unfold Composition.firstFields
    split
    · rename_i fields children rest roots
      have root := sound (.object fields children) (roots ▸ List.mem_cons_self)
      cases root with
      | object own named _ _ =>
        obtain ⟨name, hn⟩ := named
        rw [hn]
        exact ⟨own, .ok trivial⟩
    · exact ⟨fun e he => absurd he List.not_mem_nil, .ok trivial⟩
  unfold Component.ofComposition
  refine first.2.bind fun name _ => ?_
  have stylesheet : Passes L.allowed (Component.stylesheetText c.firstFields name fonts) := by
    unfold Component.stylesheetText
    exact (passes_containerRule first.1 name).passes_then
  exact stylesheet.passes_then

/-- A forest of sound nodes compiles, or comes to an allowed fault. -/
theorem yields_composition (given : nodes ≠ []) (sound : ∀ n ∈ Node.ofValues nodes, L.Sound n)
    (room : Node.levelsIn (Node.ofValues nodes) + 2 ≤ L.most) :
    Yields L.allowed (fun c => c.roots = Node.ofValues nodes) (Composition.ofValue (.list nodes)) := by
  have values : Composition.rootValues (.list nodes) = .ok nodes := by
    cases nodes with
    | nil => exact absurd rfl given
    | cons v rest => rfl
  have drawn := passes_rootMarkups sound room {}
  unfold Composition.ofValue
  rw [values, ok_bind, Composition.rootNodes_of_objects fun n hn => (sound n hn).isObject, ok_bind]
  unfold Composition.ofRoots
  exact drawn.map fun _ _ => rfl

/-- **A component can be built of the nodes of a request**, but for the faults that the limits allow. -/
theorem passes_build {request : Members} (read : Request.nodes request = .ok nodes) (given : nodes ≠ [])
    (within : Value.Everywhere L.accepts (.object request))
    (room : Node.levelsIn (Node.ofValues nodes) + 2 ≤ L.most) (world : FontWorld) (session : FontSession) :
    Passes L.allowed ((Component.build world (.list nodes)).run session).1 := by
  have sound := sound_nodes read within
  have compiled := yields_composition given sound room
  unfold Component.build
  cases hc : Composition.ofValue (.list nodes) with
  | error fault => exact .error (compiled.fault fault hc)
  | ok c =>
    have roots : c.roots = Node.ofValues nodes := compiled.result c hc
    exact passes_ofComposition (roots ▸ sound) _

end

end Limits

end Artboard
