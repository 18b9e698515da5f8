import Artboard.Proofs.Entries
import Artboard.Proofs.Limits.Request
import Artboard.Proofs.Number.Twins
import Artboard.Proofs.Sequence

/-!
# What a request normalizes

A submitted node is compiled in another form than it was given in: boxes and places have become doubles, fields that
were not given have their defaults, and nulls are gone.  For nodes whose boxes and places are whole numbers this makes
no difference to what is compiled (`Component.build_clean`): a rule that looks a field up finds the same value, or a
whole number in its other form (`Likeness.fields_clean`).
-/

namespace Artboard

/-! ## 1. Components of designs that are alike -/

namespace Likeness

variable {L : Likeness} {nodes others : List Node}

theorem containerRule_of_fields {flow : Bool} {fields own : Members} (alike : L.Fields True flow fields own)
    (one : 1 ≤ L.most) (name : String) : Component.containerRule fields name = Component.containerRule own name := by
  unfold Component.containerRule
  rw [alike.agree "fills" (by decide), px alike.width one, px alike.height one]

/-- The same markup of roots that are alike makes the same component. -/
theorem ofComposition_of_nodes (h : L.Nodes True false nodes others) (one : 1 ≤ L.most) (markup : List Markup)
    (usage : FontUsage) (fonts : String) :
    Component.ofComposition ⟨nodes, markup, usage⟩ ((Composition.firstFields ⟨nodes, markup, usage⟩).get "name") fonts =
      Component.ofComposition ⟨others, markup, usage⟩
        ((Composition.firstFields ⟨others, markup, usage⟩).get "name") fonts := by
  have text : Composition.text ⟨nodes, markup, usage⟩ = Composition.text ⟨others, markup, usage⟩ := rfl
  unfold Component.ofComposition Component.stylesheetText
  rw [text]
  cases h with
  | nil => rfl
  | other _ => rfl
  | object alike _ _ =>
    dsimp only [Composition.firstFields]
    rw [alike.name trivial]
    refine bind_congr fun name => ?_
    rw [containerRule_of_fields alike one name]

/-- What is like objects are objects. -/
theorem Nodes.objects {named : Prop} {flow : Bool} (h : L.Nodes named flow nodes others)
    (objects : ∀ n ∈ nodes, n.IsObject) : ∀ n ∈ others, n.IsObject := by
  induction h with
  | nil => exact objects
  | other _ ih =>
    obtain ⟨first, rest⟩ := List.forall_mem_cons.mp objects
    exact List.forall_mem_cons.mpr ⟨first, ih rest⟩
  | object _ _ _ _ ih =>
    exact List.forall_mem_cons.mpr ⟨⟨_, _, rfl⟩, ih (List.forall_mem_cons.mp objects).2⟩

/-- **Forests that are alike make the same component** in every state of the fonts, or come to the same fault. -/
theorem build_of_nodes {vs ws : List Value} (hv : Composition.rootNodes vs = .ok nodes)
    (hw : Composition.rootNodes ws = .ok others) (given : vs ≠ []) (given' : ws ≠ [])
    (h : L.Nodes True false nodes others) (room : Node.levelsIn nodes + 2 ≤ L.most) (world : FontWorld) :
    Component.build world (.list vs) = Component.build world (.list ws) := by
  have drawn := rootMarkups_of_nodes h room
  unfold Component.build
  rw [Composition.ofValue_list given hv, Composition.ofValue_list given' hw]
  unfold Composition.ofRoots
  rw [drawn]
  rcases (Node.rootMarkups others).runFrom {} with ⟨fault | markup, p⟩
  · rfl
  · refine bind_congr fun fonts => congrArg pure ?_
    exact ofComposition_of_nodes h (by omega) markup p.fonts fonts

end Likeness

/-! ## 2. Fields of clean nodes -/

namespace Request

/-- The fields that a node is compiled with. -/
def compiledFields (ms : Members) : Members :=
  Entries.erase (cleanFields ms ++ cleanChildren ms ++ otherFields ms) "children"

section

variable {ms : Members} {name : String}

theorem ofValue_cleanNode (ms : Members) : Node.ofValue (cleanNode (.object ms)) =
    .object (compiledFields ms) (Node.childrenIn (cleanChildren ms)) := by
  unfold cleanNode Node.ofValue compiledFields
  rw [childrenIn_clean]

theorem get?_given (other : name ≠ "children") : (Entries.erase ms "children").get? name = ms.get? name :=
  Entries.get?_erase_of_ne (Ne.symm other)

theorem get?_cleanChildren (other : name ≠ "children") : Entries.get? (cleanChildren ms) name = none := by
  refine Entries.get?_eq_none fun mem => ?_
  obtain ⟨e, he, rfl⟩ := List.mem_map.mp mem
  exact other (name_cleanChildren he)

/-- A field with a rule of its own is found as the rule leaves it. -/
theorem get?_known (known : name ∈ knownFields) (other : name ≠ "children") :
    Entries.get? (compiledFields ms) name = Entries.get? (cleanFields ms) name := by
  have apart : Entries.get? (otherFields ms) name = none := by
    refine Entries.get?_eq_none fun mem => ?_
    obtain ⟨e, he, rfl⟩ := List.mem_map.mp mem
    have kept := (List.mem_filter.mp he).2
    rw [List.contains_iff_mem.mpr known] at kept
    cases kept
  unfold compiledFields
  rw [Entries.get?_erase_of_ne (Ne.symm other), Entries.get?_append, Entries.get?_append, get?_cleanChildren other,
    apart, Option.or_none, Option.or_none]

/-- The children are none of the other fields. -/
theorem otherFields_erase (ms : Members) : otherFields (Entries.erase ms "children") = otherFields ms := by
  unfold otherFields
  induction ms with
  | nil => rfl
  | cons e rest ih =>
    obtain ⟨m, v⟩ := e
    unfold Entries.erase
    split
    · rename_i same
      have known : knownFields.contains m = true := by
        rw [same]
        decide
      have dropped : ¬((!knownFields.contains m && !v.isNull) = true) := by
        rw [known]
        exact Bool.false_ne_true
      rw [ih, List.filter_cons, if_neg dropped]
    · rw [List.filter_cons, List.filter_cons, ih]

/-- Any other field is found as it was given, unless it is null. -/
theorem get?_other (unknown : name ∉ knownFields) (once : (Entries.names (Entries.erase ms "children")).Nodup) :
    Entries.get? (compiledFields ms) name =
      (Entries.get? (Entries.erase ms "children") name).filter fun v => !v.isNull := by
  have other : name ≠ "children" := fun same => unknown (same ▸ by decide)
  have apart : Entries.get? (cleanFields ms) name = none :=
    Entries.get?_eq_none fun mem => unknown <| by
      have names : Entries.names (cleanFields ms) = knownFields.dropLast := rfl
      rw [names] at mem
      exact List.dropLast_subset _ mem
  unfold compiledFields
  rw [Entries.get?_erase_of_ne (Ne.symm other), Entries.get?_append, Entries.get?_append, apart,
    get?_cleanChildren other, ← otherFields_erase, otherFields, Entries.get?_filter once]
  simp [unknown]

/-- So a null reads as nothing. -/
theorem get_other (unknown : name ∉ knownFields) (once : (Entries.names (Entries.erase ms "children")).Nodup) :
    (compiledFields ms).get name = (Entries.erase ms "children").get name := by
  unfold Entries.get
  rw [get?_other unknown once]
  cases Entries.get? (Entries.erase ms "children") name with
  | none => rfl
  | some v => cases v <;> rfl

end

/-! ## 3. Plain nodes -/

/-- The field holds this whole number, as it is or as a double. -/
def Holds (fields : Members) (name : String) (i : Int) : Prop :=
  ∃ n, fields.get? name = some (.number n) ∧ n.Means i

/-- The field holds a whole number whose size is at most `2 ^ 31`. -/
def HoldsWhole (fields : Members) (name : String) : Prop := ∃ i : Int, i.natAbs ≤ 2 ^ 31 ∧ Holds fields name i

/-- **Plain fields**: names that come once, as in any object that is read, a box and a place in whole numbers, full
opacity and a truth value for `visible`, where the place, the opacity and `visible` need not be given.  Any other field
may hold anything. -/
structure PlainFields (fields : Members) : Prop where
  once : (Entries.names fields).Nodup
  width : HoldsWhole fields "width"
  height : HoldsWhole fields "height"
  x : fields.get? "x" = none ∨ HoldsWhole fields "x"
  y : fields.get? "y" = none ∨ HoldsWhole fields "y"
  opacity : fields.get? "opacity" = none ∨ Holds fields "opacity" 1
  visible : fields.get? "visible" = none ∨ ∃ b, fields.get? "visible" = some (.bool b)

/-- A node whose fields are plain, above such nodes. -/
inductive Plain : Node → Prop where
  | object {fields : Members} {children : List Node} (own : PlainFields fields)
      (inner : ∀ n ∈ children, Plain n) : Plain (.object fields children)

/-- Whole numbers of this size in both forms, as many of them as there are on the way down a design of less than a
hundred levels. -/
def forms : Likeness := .twins (2 ^ 31) 101 (by decide)

section

variable {ms fields : Members} {name : String} {i default : Int}

theorem Holds.number (h : Holds fields name i) (default : Int) :
    ((fields.get name).numberOr (.int default)).Means i := by
  obtain ⟨n, found, means⟩ := h
  suffices same : (Value.number n).number? = some n by
    unfold Entries.get Value.numberOr
    rw [found, Option.getD_some, same]
    exact means
  cases n with
  | int j => rfl
  | real x =>
    obtain ⟨s, units, fits, rfl, -, -⟩ := means.finite
    rfl

/-- The double put in place of a whole number is that number. -/
theorem holds_cleanDouble (h : Holds ms name i) (few : i.natAbs < 2 ^ 53)
    (found : fields.get? name = some (cleanDouble ms name default)) : Holds fields name i := by
  obtain ⟨n, given, means⟩ := h
  obtain ⟨x, double, hx⟩ := means.toDouble few
  have clean : cleanDouble ms name default = .number (.real x) := by
    unfold cleanDouble readDouble
    rw [given]
    dsimp only
    rw [double]
  exact ⟨.real x, clean ▸ found, hx⟩

theorem holds_default (none : ms.get? name = none)
    (found : fields.get? name = some (cleanDouble ms name default)) : Holds fields name default := by
  have clean : cleanDouble ms name default = .number (.int default) := by
    unfold cleanDouble
    rw [none]
  exact ⟨.int default, clean ▸ found, Number.means_int default⟩

/-- A number that is given or left out is the same whole number in the node as it is compiled. -/
theorem means_compiled (other : name ≠ "children")
    (found : Entries.get? (compiledFields ms) name = some (cleanDouble ms name default)) (few : i.natAbs < 2 ^ 53)
    (given : (Entries.erase ms "children").get? name = none ∧ i = default ∨
      Holds (Entries.erase ms "children") name i) :
    (((Entries.erase ms "children").get name).numberOr (.int default)).Means i ∧
      (((compiledFields ms).get name).numberOr (.int default)).Means i := by
  have kept : (Entries.erase ms "children").get? name = ms.get? name := get?_given other
  rcases given with ⟨none, rfl⟩ | held
  · have absent : (Entries.erase ms "children").get name = .null := by
      unfold Entries.get
      rw [none]
      rfl
    rw [absent]
    exact ⟨Number.means_int i, (holds_default (kept ▸ none) found).number i⟩
  · have submitted : Holds ms name i := by
      unfold Holds at held ⊢
      rwa [kept] at held
    exact ⟨held.number default, (holds_cleanDouble submitted few found).number default⟩

theorem like_compiled (other : name ≠ "children")
    (found : Entries.get? (compiledFields ms) name = some (cleanDouble ms name 0))
    (given : (Entries.erase ms "children").get? name = none ∨ HoldsWhole (Entries.erase ms "children") name) :
    forms.like 1 (Members.numberOf (Entries.erase ms "children") name)
      (Members.numberOf (compiledFields ms) name) := by
  rcases given with none | ⟨i, small, held⟩
  · exact ⟨0, Nat.zero_le _, means_compiled other found (by decide) (.inl ⟨none, rfl⟩)⟩
  · have few : i.natAbs < 2 ^ 53 := Nat.lt_of_le_of_lt small (by decide)
    exact ⟨i, by rwa [Nat.one_mul], means_compiled other found few (.inr held)⟩

end

section

variable {ms : Members}

theorem putOpacity_of_one {fields : Members} (h : ((fields.get "opacity").numberOr (.int 1)).Means 1) (style : Style) :
    Node.putOpacity fields style = style := by
  unfold Node.putOpacity
  dsimp only
  rw [h.lt_eq (Number.means_int 1)]
  rfl

/-- A text that has to be there stays as it is. -/
theorem get_compiled {name : String} (other : name ≠ "children")
    (found : Entries.get? (compiledFields ms) name = some (ms.get name)) :
    (Entries.erase ms "children").get name = (compiledFields ms).get name := by
  unfold Entries.get at found ⊢
  rw [found, get?_given other]
  rfl

theorem hides_compiled (given : (Entries.erase ms "children").get? "visible" = none ∨
    ∃ b, (Entries.erase ms "children").get? "visible" = some (.bool b)) :
    Node.hides (Entries.erase ms "children") = Node.hides (compiledFields ms) := by
  have found : Entries.get? (compiledFields ms) "visible" = some (cleanVisible ms) :=
    get?_known (by decide) (by decide)
  have kept : (Entries.erase ms "children").get? "visible" = ms.get? "visible" := get?_given (by decide)
  unfold Node.hides Entries.get
  rw [found, kept, Option.getD_some]
  unfold cleanVisible
  rw [kept] at given
  rcases given with none | ⟨b, held⟩
  · rw [none]
    rfl
  · rw [held]
    rfl

end

end Request

open Request

/-- **The fields of a plain node are read alike** as they are given and as they are compiled. -/
theorem Likeness.fields_clean {ms : Members} (plain : PlainFields (Entries.erase ms "children")) (flow : Bool) :
    forms.Fields True flow (Entries.erase ms "children") (compiledFields ms) where
  agree := by
    intro name off
    by_cases known : name ∈ knownFields
    · have left : name = "type" ∨ name = "children" := by
        simp only [knownFields, boxNames, List.mem_cons, List.not_mem_nil, or_false, not_or] at known off
        tauto
      rcases left with rfl | rfl
      · exact get_compiled (by decide) (get?_known (by decide) (by decide))
      · unfold compiledFields Entries.get
        rw [Entries.get?_erase, Entries.get?_erase, if_pos rfl, if_pos rfl]
    · exact (get_other known plain.once).symm
  name _ := get_compiled (by decide) (get?_known (by decide) (by decide))
  visible := hides_compiled plain.visible
  width := like_compiled (by decide) (get?_known (by decide) (by decide)) (.inr plain.width)
  height := like_compiled (by decide) (get?_known (by decide) (by decide)) (.inr plain.height)
  x _ := like_compiled (by decide) (get?_known (by decide) (by decide)) plain.x
  y _ := like_compiled (by decide) (get?_known (by decide) (by decide)) plain.y
  opacity style := by
    have found : Entries.get? (compiledFields ms) "opacity" = some (cleanDouble ms "opacity" 1) :=
      get?_known (by decide) (by decide)
    obtain ⟨submitted, compiled⟩ := means_compiled (i := 1) (by decide) found (by decide)
      (plain.opacity.imp_left fun none => ⟨none, rfl⟩)
    rw [putOpacity_of_one submitted, putOpacity_of_one compiled]

/-! ## 4. Nodes that are compiled -/

namespace Request

mutual

/-- A plain node is like the node it is compiled as, with others beside it that are alike. -/
theorem nodes_cleanNode : ∀ (v : Value), Plain (Node.ofValue v) → ∀ {flow : Bool} {nodes others : List Node},
    forms.Nodes True flow nodes others →
    forms.Nodes True flow (Node.ofValue v :: nodes) (Node.ofValue (cleanNode v) :: others)
  | .object ms, plain, flow, _, _, rest => by
      rw [ofValue_cleanNode]
      unfold Node.ofValue at plain ⊢
      cases plain with
      | object own inner => exact .object (Likeness.fields_clean own flow) (nodes_cleanChildren ms inner _) rest
  | .null, plain, _, _, _, _ => nomatch plain
  | .bool _, plain, _, _, _, _ => nomatch plain
  | .number _, plain, _, _, _, _ => nomatch plain
  | .text _, plain, _, _, _, _ => nomatch plain
  | .list _, plain, _, _, _, _ => nomatch plain

/-- The children among members are like those that are compiled. -/
theorem nodes_cleanChildren : ∀ (ms : List (String × Value)), (∀ n ∈ Node.childrenIn ms, Plain n) →
    ∀ flow : Bool, forms.Nodes True flow (Node.childrenIn ms) (Node.childrenIn (cleanChildren ms))
  | [], _, _ => .nil
  | (name, v) :: rest, plain, flow => by
      unfold Node.childrenIn at plain
      unfold cleanChildren
      rw [Node.childrenIn]
      split
      · rename_i same
        rw [if_pos same] at plain
        exact nodes_cleanChildList v plain flow
      · rename_i other
        rw [if_neg other] at plain
        exact nodes_cleanChildren rest plain flow

/-- The items of a list of children are like those that are compiled. -/
theorem nodes_cleanChildList : ∀ (v : Value), (∀ n ∈ Node.ofItems v, Plain n) →
    ∀ flow : Bool, forms.Nodes True flow (Node.ofItems v) (Node.childrenIn (cleanChildList v))
  | .list items, plain, flow => nodes_cleanNodes items plain flow
  | .null, _, _ => .nil
  | .bool _, _, _ => .nil
  | .number _, _, _ => .nil
  | .text _, _, _ => .nil
  | .object _, _, _ => .nil

/-- **Plain nodes are like the nodes they are compiled as.** -/
theorem nodes_cleanNodes : ∀ (vs : List Value), (∀ n ∈ Node.ofValues vs, Plain n) →
    ∀ flow : Bool, forms.Nodes True flow (Node.ofValues vs) (Node.ofValues (cleanNodes vs))
  | [], _, _ => .nil
  | v :: rest, plain, flow => by
      unfold Node.ofValues at plain
      obtain ⟨first, others⟩ := List.forall_mem_cons.mp plain
      unfold cleanNodes
      rw [Node.ofValues, Node.ofValues]
      exact nodes_cleanNode v first (nodes_cleanNodes rest others flow)

end

theorem Plain.isObject {n : Node} (h : Plain n) : n.IsObject := by
  cases h with
  | object _ _ => exact ⟨_, _, rfl⟩

/-- Nodes are accepted if there are no problems with them. -/
theorem nodes_eq_ok {request : Members} {vs nodes : List Value} (listed : request.get? "data" = some (.list vs)) :
    Request.nodes request = .ok nodes ↔ listProblems 0 vs = [] ∧ nodes = cleanNodes vs := by
  unfold Request.nodes
  rw [listed]
  dsimp only
  split
  · rename_i proper
    rw [and_iff_right proper, Except.ok.injEq, eq_comm]
  · rename_i problems
    exact ⟨fun accepted => (nomatch accepted), fun proper => absurd proper.1 problems⟩

end Request

/-- **Nothing is lost by what a request normalizes**: where it accepts plain nodes on less than a hundred levels, what
was submitted and what is compiled of it make the same component in every state of the fonts, or come to the same
fault. -/
theorem Component.build_clean {request : Members} {vs nodes : List Value}
    (listed : request.get? "data" = some (.list vs)) (accepted : Request.nodes request = .ok nodes)
    (few : Node.levelsIn (Node.ofValues vs) < 100) (plain : ∀ n ∈ Node.ofValues vs, Plain n) (world : FontWorld) :
    Component.build world (.list vs) = Component.build world (.list nodes) := by
  obtain ⟨-, rfl⟩ := (nodes_eq_ok listed).mp accepted
  cases vs with
  | nil => rfl
  | cons v rest =>
    have alike := nodes_cleanNodes (v :: rest) plain false
    have objects : ∀ n ∈ Node.ofValues (v :: rest), n.IsObject := fun n hn => (plain n hn).isObject
    exact Likeness.build_of_nodes (Composition.rootNodes_of_objects objects)
      (Composition.rootNodes_of_objects (alike.objects objects)) (List.cons_ne_nil _ _) (List.cons_ne_nil _ _)
      alike (Nat.add_le_add_right (Nat.le_of_lt_succ few) 2) world

/-- A board without a place, with a text on it and a hidden note. -/
def Request.board : List Value :=
  [.object [("name", .text "Board"), ("type", .text "FRAME"), ("width", .number (.int 300)),
    ("height", .number (.int 200)), ("strokes", .null), ("opacity", .number (.int 1)), ("children", .list [
      .object [("name", .text "Title"), ("type", .text "TEXT"), ("width", .number (.int 80)),
        ("height", .number (.int 20)), ("x", .number (.int (-5))), ("y", .number (.int 2147483648)),
        ("textContent", .text "Hello"), ("fontSize", .null)],
      .object [("name", .text "Note"), ("type", .text "FRAME"), ("width", .number (.int 0)),
        ("height", .number (.int 0)), ("visible", .bool false), ("children", .null)]])]]

theorem Component.build_clean_board :
    Request.nodes [("data", .list board)] = .ok (cleanNodes board) ∧
      (Composition.ofValue (.list board)).isOk = true ∧
      ∀ world, Component.build world (.list board) = Component.build world (.list (cleanNodes board)) := by
  have whole {fields : Members} {name : String} (i : Int) (small : i.natAbs ≤ 2 ^ 31)
      (found : fields.get? name = some (.number (.int i))) : HoldsWhole fields name :=
    ⟨i, small, .int i, found, Number.means_int i⟩
  have proper : listProblems 0 board = [] := List.isEmpty_iff.mp (by decide +kernel)
  have accepted : Request.nodes [("data", .list board)] = .ok (cleanNodes board) := (nodes_eq_ok rfl).mpr ⟨proper, rfl⟩
  have few : Node.levelsIn (Node.ofValues board) < 100 := by decide +kernel
  refine ⟨accepted, by decide +kernel, Component.build_clean rfl accepted few ?_⟩
  refine List.forall_mem_singleton.mpr (.object ?_ (List.forall_mem_cons.mpr ⟨.object ?_ (List.forall_mem_nil _),
    List.forall_mem_singleton.mpr (.object ?_ (List.forall_mem_nil _))⟩))
  · exact ⟨by decide, whole 300 (by decide) rfl, whole 200 (by decide) rfl, .inl rfl, .inl rfl,
      .inr ⟨.int 1, rfl, Number.means_int 1⟩, .inl rfl⟩
  · exact ⟨by decide, whole 80 (by decide) rfl, whole 20 (by decide) rfl, .inr (whole (-5) (by decide) rfl),
      .inr (whole 2147483648 (by decide) rfl), .inl rfl, .inl rfl⟩
  · exact ⟨by decide, whole 0 (by decide) rfl, whole 0 (by decide) rfl, .inl rfl, .inl rfl, .inl rfl, .inr ⟨false, rfl⟩⟩

end Artboard
