import Artboard.Proofs.Request.Described
import Artboard.Proofs.Request.Normalization

/-!
# What a request passes on

The nodes of an accepted request are those that were submitted, one for one at every level (`Request.Kept`): a field
with a rule holds the double or the truth value that its value stands for, or its default, any other field holds what
was given, and nulls are gone.  Submitted again, the nodes are accepted and stay as they are, but for defaults that are
whole numbers and become doubles (`Request.Same`).
-/

namespace Artboard

/-- The forms of a whole number lie at one place. -/
theorem Number.Means.place?_eq {i : Int} {m n : Number} (hm : m.Means i) (hn : n.Means i) : m.place? = n.place? :=
  Eq.trans hm (Eq.symm hn)

/-- No name comes twice in an object. -/
def Value.NamesOnce : Value → Prop
  | .object ms => (Entries.names ms).Nodup
  | _ => True

instance : DecidablePred Value.NamesOnce
  | .object ms => inferInstanceAs (Decidable (Entries.names ms).Nodup)
  | .null | .bool _ | .number _ | .text _ | .list _ => inferInstanceAs (Decidable True)

namespace Request

/-! ## 1. What is kept -/

/-- The field holds the double that its value stands for, or a whole number if it was not given. -/
def KeepsDouble (ms ns : Members) (name : String) (default : Int) : Prop :=
  match ms.get? name with
  | none => ns.get? name = some (.number (.int default))
  | some v => ∃ x, readDouble v = .ok x ∧ ns.get? name = some (.number (.real x))

/-- The field holds the truth value that its value stands for, or true if it was not given. -/
def KeepsTruth (ms ns : Members) (name : String) : Prop :=
  match ms.get? name with
  | none => ns.get? name = some (.bool true)
  | some v => ∃ b, readTruth v = .ok b ∧ ns.get? name = some (.bool b)

/-- **The fields of a submitted node and those it is passed on with**, the children aside. -/
structure FieldsKept (ms ns : Members) : Prop where
  name : ns.get? "name" = ms.get? "name"
  type : ns.get? "type" = ms.get? "type"
  box : ∀ name ∈ ["width", "height", "x", "y"], KeepsDouble ms ns name 0
  opacity : KeepsDouble ms ns "opacity" 1
  visible : KeepsTruth ms ns "visible"
  others : ∀ name, name ∉ knownFields → ns.get? name = (ms.get? name).filter fun v => !v.isNull
  given : ∀ e ∈ ns, e.2.isNull = false
  once : (Entries.names ns).Nodup

/-- **A submitted node and the node it is passed on as**, with the same children in the same order. -/
inductive Kept : Value → Value → Prop where
  | leaf {ms ns : Members} (fields : FieldsKept ms ns)
      (given : ms.get? "children" = none ∨ ms.get? "children" = some .null) (left : ns.get? "children" = none) :
      Kept (.object ms) (.object ns)
  | parent {ms ns : Members} {vs ws : List Value} (fields : FieldsKept ms ns)
      (given : ms.get? "children" = some (.list vs)) (left : ns.get? "children" = some (.list ws))
      (below : List.Forall₂ Kept vs ws) : Kept (.object ms) (.object ns)

mutual

/-- **Values that count as equal**: a whole number as the double of its value, and NaN as itself. -/
inductive Same : Value → Value → Prop where
  | refl (v : Value) : Same v v
  | number {m n : Number} (h : m.place? = n.place?) : Same (.number m) (.number n)
  | list {vs ws : List Value} (h : SameItems vs ws) : Same (.list vs) (.list ws)
  | object {ms ns : List (String × Value)} (h : SameMembers ms ns) : Same (.object ms) (.object ns)

/-- Items that count as equal, one for one. -/
inductive SameItems : List Value → List Value → Prop where
  | nil : SameItems [] []
  | cons {v w : Value} {vs ws : List Value} (first : Same v w) (rest : SameItems vs ws) : SameItems (v :: vs) (w :: ws)

/-- Members of the same names whose values count as equal. -/
inductive SameMembers : List (String × Value) → List (String × Value) → Prop where
  | nil : SameMembers [] []
  | cons {name : String} {v w : Value} {ms ns : List (String × Value)} (first : Same v w) (rest : SameMembers ms ns) :
      SameMembers ((name, v) :: ms) ((name, w) :: ns)

end

theorem SameMembers.refl (ms : Members) : SameMembers ms ms := by
  induction ms with
  | nil => exact .nil
  | cons e rest ih => exact .cons (.refl _) ih

theorem SameMembers.append {ms ns more others : Members} (h : SameMembers ms ns) (h' : SameMembers more others) :
    SameMembers (ms ++ more) (ns ++ others) := by
  induction ms generalizing ns with
  | nil =>
    cases h
    exact h'
  | cons e rest ih =>
    cases h with
    | cons first rest => exact .cons first (ih rest)

/-! ## 2. The members of a node that is passed on -/

/-- The members that a node is passed on with. -/
def cleanMembers (ms : Members) : Members := cleanFields ms ++ cleanChildren ms ++ otherFields ms

section

variable {ms : Members} {name : String}

theorem get?_cleanMembers_known (known : name ∈ knownFields) (other : name ≠ "children") :
    Entries.get? (cleanMembers ms) name = Entries.get? (cleanFields ms) name :=
  (get?_given other).symm.trans (get?_known known other)

theorem cleanChildren_eq (ms : Members) : cleanChildren ms = match ms.get? "children" with
    | some (.list vs) => [("children", .list (cleanNodes vs))]
    | _ => [] := by
  induction ms with
  | nil => rfl
  | cons e rest ih =>
    obtain ⟨name, v⟩ := e
    unfold cleanChildren Entries.get?
    split
    · cases v <;> rfl
    · exact ih

theorem cleanNodes_eq (vs : List Value) : cleanNodes vs = vs.map cleanNode := by
  induction vs with
  | nil => rfl
  | cons v rest ih =>
    unfold cleanNodes
    rw [ih, List.map_cons]

/-- The children of a node that is passed on. -/
theorem get?_cleanMembers_children (ms : Members) :
    Entries.get? (cleanMembers ms) "children" = Entries.get? (cleanChildren ms) "children" := by
  have absent {others : Members} (h : Node.Childless others) : Entries.get? others "children" = none := by
    refine Entries.get?_eq_none fun mem => ?_
    obtain ⟨e, he, same⟩ := List.mem_map.mp mem
    exact h e he same
  unfold cleanMembers
  rw [Entries.get?_append, Entries.get?_append, absent childless_cleanFields, absent childless_otherFields,
    Option.none_or, Option.or_none]

/-- Any other field is passed on as it was given, unless it is null. -/
theorem get?_cleanMembers_other (unknown : name ∉ knownFields) (once : (Entries.names ms).Nodup) :
    Entries.get? (cleanMembers ms) name = (ms.get? name).filter fun v => !v.isNull := by
  have other : name ≠ "children" := fun same => unknown (same ▸ by decide)
  have found := get?_other unknown (Entries.nodup_erase once "children")
  rw [get?_given other] at found
  exact (get?_given other).symm.trans found

/-- The fields with a rule come first. -/
theorem sublist_knownFields (ms : Members) :
    (Entries.names (cleanFields ms ++ cleanChildren ms)).Sublist knownFields := by
  have names : Entries.names (cleanFields ms ++ cleanChildren ms) =
      knownFields.dropLast ++ Entries.names (cleanChildren ms) := List.map_append
  have split : knownFields = knownFields.dropLast ++ ["children"] := rfl
  rw [names]
  rcases shape_cleanChildren ms with none | ⟨v, one⟩
  · rw [none]
    exact (List.append_nil _).symm ▸ List.dropLast_sublist _
  · rw [one, split]
    exact List.Sublist.refl _

theorem unknown_otherFields {n : String} (h : n ∈ Entries.names (otherFields ms)) : n ∉ knownFields := by
  obtain ⟨e, he, rfl⟩ := List.mem_map.mp h
  have kept := (List.mem_filter.mp he).2
  intro known
  rw [List.contains_iff_mem.mpr known] at kept
  cases kept

theorem nodup_cleanMembers (once : (Entries.names ms).Nodup) : (Entries.names (cleanMembers ms)).Nodup := by
  have names : Entries.names (cleanMembers ms) =
      Entries.names (cleanFields ms ++ cleanChildren ms) ++ Entries.names (otherFields ms) := List.map_append
  have first := sublist_knownFields ms
  rw [names, List.nodup_append]
  refine ⟨first.nodup (by decide), (List.filter_sublist.map _).nodup once, fun n known m other same => ?_⟩
  exact unknown_otherFields other (same ▸ first.subset known)

/-- The other fields that are passed on are passed on again. -/
theorem otherFields_cleanMembers (ms : Members) : otherFields (cleanMembers ms) = otherFields ms := by
  have dropped : otherFields (cleanFields ms ++ cleanChildren ms) = [] := by
    refine List.filter_eq_nil_iff.mpr fun e he kept => ?_
    have known := (sublist_knownFields ms).subset (List.mem_map_of_mem he)
    rw [List.contains_iff_mem.mpr known] at kept
    cases kept
  have again : otherFields (otherFields ms) = otherFields ms :=
    List.filter_eq_self.mpr fun e he => (List.mem_filter.mp he).2
  have split : otherFields (cleanMembers ms) =
      otherFields (cleanFields ms ++ cleanChildren ms) ++ otherFields (otherFields ms) := List.filter_append _ _
  rw [split, dropped, again, List.nil_append]

end

/-! ## 3. Fields -/

section

variable {ms ns : Members} {name : String} {default : Int}

/-- A double is passed on as it is read, or as its default. -/
theorem cleanDouble_cases (h : Optional GivesDouble (ms.get? name)) (default : Int) :
    (ms.get? name = none ∧ cleanDouble ms name default = .number (.int default)) ∨
      ∃ v x, ms.get? name = some v ∧ readDouble v = .ok x ∧ cleanDouble ms name default = .number (.real x) := by
  unfold cleanDouble
  cases given : Entries.get? ms name with
  | none => exact .inl ⟨rfl, rfl⟩
  | some v =>
    obtain ⟨x, read⟩ := (readDouble_iff v).mpr (h v given)
    dsimp only
    rw [read]
    exact .inr ⟨v, x, rfl, read, rfl⟩

theorem cleanVisible_cases (h : Optional GivesTruth (ms.get? "visible")) :
    (ms.get? "visible" = none ∧ cleanVisible ms = .bool true) ∨
      ∃ v b, ms.get? "visible" = some v ∧ readTruth v = .ok b ∧ cleanVisible ms = .bool b := by
  unfold cleanVisible
  cases given : Entries.get? ms "visible" with
  | none => exact .inl ⟨rfl, rfl⟩
  | some v =>
    obtain ⟨b, read⟩ := (readTruth_iff v).mpr (h v given)
    dsimp only
    rw [read]
    exact .inr ⟨v, b, rfl, read, rfl⟩

theorem keepsDouble (h : Optional GivesDouble (ms.get? name))
    (found : ns.get? name = some (cleanDouble ms name default)) : KeepsDouble ms ns name default := by
  unfold KeepsDouble
  rcases cleanDouble_cases h default with ⟨none, clean⟩ | ⟨v, x, given, read, clean⟩
  · rw [none]
    exact clean ▸ found
  · rw [given]
    exact ⟨x, read, clean ▸ found⟩

theorem keepsTruth (h : Optional GivesTruth (ms.get? "visible"))
    (found : ns.get? "visible" = some (cleanVisible ms)) : KeepsTruth ms ns "visible" := by
  unfold KeepsTruth
  rcases cleanVisible_cases h with ⟨none, clean⟩ | ⟨v, b, given, read, clean⟩
  · rw [none]
    exact clean ▸ found
  · rw [given]
    exact ⟨b, read, clean ▸ found⟩

theorem cleanDouble_of_read {v : Value} {x : Binary64} (given : ns.get? name = some v) (read : readDouble v = .ok x) :
    cleanDouble ns name default = .number (.real x) := by
  unfold cleanDouble
  rw [given]
  dsimp only
  rw [read]

/-- A number that is passed on is a double, and counts as equal when it is submitted again. -/
theorem number_again {n : Number} {x : Binary64} (double : n.toDouble = .ok x)
    (same : n.place? = (Number.real x).place?) (clean : cleanDouble ms name default = .number n)
    (found : ns.get? name = some (.number n)) :
    Required GivesDouble (ns.get? name) ∧ Same (cleanDouble ms name default) (cleanDouble ns name default) := by
  have read := readDouble_number_iff.mpr double
  rw [clean, cleanDouble_of_read found read]
  exact ⟨⟨_, found, (readDouble_iff _).mp ⟨x, read⟩⟩, .number same⟩

theorem cleanDouble_again (h : Optional GivesDouble (ms.get? name)) (small : default.natAbs < 2 ^ 53)
    (found : ns.get? name = some (cleanDouble ms name default)) :
    Required GivesDouble (ns.get? name) ∧ Same (cleanDouble ms name default) (cleanDouble ns name default) := by
  rcases cleanDouble_cases h default with ⟨-, clean⟩ | ⟨-, x, -, -, clean⟩
  · obtain ⟨x, double, means⟩ := (Number.means_int default).toDouble small
    exact number_again double ((Number.means_int default).place?_eq means) clean (clean ▸ found)
  · exact number_again (n := .real x) rfl rfl clean (clean ▸ found)

theorem cleanVisible_again (h : Optional GivesTruth (ms.get? "visible"))
    (found : ns.get? "visible" = some (cleanVisible ms)) :
    Optional GivesTruth (ns.get? "visible") ∧ cleanVisible ns = cleanVisible ms := by
  have truth : ∃ b, cleanVisible ms = .bool b := by
    rcases cleanVisible_cases h with ⟨-, clean⟩ | ⟨-, b, -, -, clean⟩
    · exact ⟨true, clean⟩
    · exact ⟨b, clean⟩
  obtain ⟨b, clean⟩ := truth
  rw [clean] at found ⊢
  refine ⟨found ▸ optional_some.mpr trivial, ?_⟩
  unfold cleanVisible
  rw [found]
  rfl

end

/-- The fields of a described node, rule by rule. -/
structure Follows (ms : Members) : Prop where
  name : ∃ s, ms.get? "name" = some (.text s)
  type : ∃ s, ms.get? "type" = some (.text s)
  box : ∀ name ∈ ["width", "height", "x", "y"], Optional GivesDouble (ms.get? name)
  opacity : Optional GivesDouble (ms.get? "opacity")
  visible : Optional GivesTruth (ms.get? "visible")

section

variable {ms : Members}

theorem text_of_required {name : String} (h : Required IsText (ms.get? name)) : ∃ s, ms.get? name = some (.text s) := by
  obtain ⟨v, given, text⟩ := h
  cases v with
  | text s => exact ⟨s, given⟩
  | _ => cases text

theorem optional_of_required {kind : Value → Prop} {given : Option Value} (h : Required kind given) :
    Optional kind given := by
  obtain ⟨v, rfl, of⟩ := h
  exact optional_some.mpr of

theorem follows_of_rules (fields : ∀ rule ∈ fieldRules, rule.2 (ms.get? rule.1)) : Follows ms := by
  unfold fieldRules at fields
  simp only [List.forall_mem_cons] at fields
  obtain ⟨name, type, width, height, x, y, opacity, visible, -, -⟩ := fields
  refine ⟨text_of_required name, text_of_required type, ?_, opacity, visible⟩
  simp only [List.forall_mem_cons]
  exact ⟨optional_of_required width, optional_of_required height, x, y, nofun⟩

/-- Where the fields with a rule are found in a node that is passed on. -/
theorem get?_cleanMembers_box {name : String} (h : name ∈ ["width", "height", "x", "y"]) :
    Entries.get? (cleanMembers ms) name = some (cleanDouble ms name 0) := by
  simp only [List.mem_cons, List.not_mem_nil, or_false] at h
  rcases h with rfl | rfl | rfl | rfl <;> exact get?_cleanMembers_known (by decide) (by decide)

theorem get?_cleanMembers_opacity (ms : Members) :
    Entries.get? (cleanMembers ms) "opacity" = some (cleanDouble ms "opacity" 1) :=
  get?_cleanMembers_known (by decide) (by decide)

theorem get?_cleanMembers_visible (ms : Members) : Entries.get? (cleanMembers ms) "visible" = some (cleanVisible ms) :=
  get?_cleanMembers_known (by decide) (by decide)

theorem get?_cleanMembers_text {name s : String} (known : name = "name" ∨ name = "type")
    (given : ms.get? name = some (.text s)) : Entries.get? (cleanMembers ms) name = some (.text s) := by
  have found : Entries.get? (cleanMembers ms) name = some (ms.get name) := by
    rcases known with rfl | rfl <;> exact get?_cleanMembers_known (by decide) (by decide)
  rw [found, Entries.get, given]
  rfl

theorem isNull_cleanDouble {name : String} (h : Optional GivesDouble (ms.get? name)) (default : Int) :
    (cleanDouble ms name default).isNull = false := by
  rcases cleanDouble_cases h default with ⟨-, clean⟩ | ⟨-, x, -, -, clean⟩ <;> rw [clean] <;> rfl

theorem isNull_cleanVisible (h : Optional GivesTruth (ms.get? "visible")) : (cleanVisible ms).isNull = false := by
  rcases cleanVisible_cases h with ⟨-, clean⟩ | ⟨-, b, -, -, clean⟩ <;> rw [clean] <;> rfl

/-- Nothing that is passed on is null. -/
theorem isNull_cleanMembers (follows : Follows ms) : ∀ e ∈ cleanMembers ms, e.2.isNull = false := by
  have text {name : String} (h : ∃ s, ms.get? name = some (.text s)) : (ms.get name).isNull = false := by
    obtain ⟨s, given⟩ := h
    rw [Entries.get, given]
    rfl
  have double (name : String) (h : name ∈ ["width", "height", "x", "y"]) :=
    isNull_cleanDouble (follows.box name h) 0
  intro e he
  rcases List.mem_append.mp he with he | other
  · rcases List.mem_append.mp he with field | child
    · simp only [cleanFields, List.mem_cons, List.not_mem_nil, or_false] at field
      rcases field with rfl | rfl | rfl | rfl | rfl | rfl | rfl | rfl
      · exact text follows.name
      · exact text follows.type
      · exact double "width" (by decide)
      · exact double "height" (by decide)
      · exact double "x" (by decide)
      · exact double "y" (by decide)
      · exact isNull_cleanDouble follows.opacity 1
      · exact isNull_cleanVisible follows.visible
    · rw [cleanChildren_eq] at child
      split at child
      · rw [List.mem_singleton.mp child]
        rfl
      · cases child
  · have kept := (List.mem_filter.mp other).2
    rw [Bool.and_eq_true] at kept
    exact Bool.not_eq_true' _ ▸ kept.2

/-- **The fields of a described node are kept.** -/
theorem fieldsKept (follows : Follows ms) (once : (Entries.names ms).Nodup) : FieldsKept ms (cleanMembers ms) := by
  obtain ⟨name, hn⟩ := follows.name
  obtain ⟨type, ht⟩ := follows.type
  exact {
    name := (get?_cleanMembers_text (.inl rfl) hn).trans hn.symm
    type := (get?_cleanMembers_text (.inr rfl) ht).trans ht.symm
    box := fun name h => keepsDouble (follows.box name h) (get?_cleanMembers_box h)
    opacity := keepsDouble follows.opacity (get?_cleanMembers_opacity ms)
    visible := keepsTruth follows.visible (get?_cleanMembers_visible ms)
    others := fun name unknown => get?_cleanMembers_other unknown once
    given := isNull_cleanMembers follows
    once := nodup_cleanMembers once }

/-- A node that is passed on follows the rules. -/
theorem rules_cleanMembers (follows : Follows ms) : ∀ rule ∈ fieldRules, rule.2 ((cleanMembers ms).get? rule.1) := by
  obtain ⟨name, hn⟩ := follows.name
  obtain ⟨type, ht⟩ := follows.type
  have double (name : String) (h : name ∈ ["width", "height", "x", "y"]) :=
    (cleanDouble_again (follows.box name h) (by decide) (get?_cleanMembers_box h)).1
  have opacity := (cleanDouble_again follows.opacity (by decide) (get?_cleanMembers_opacity ms)).1
  have visible := (cleanVisible_again follows.visible (get?_cleanMembers_visible ms)).1
  unfold fieldRules
  simp only [List.forall_mem_cons]
  refine ⟨⟨_, get?_cleanMembers_text (.inl rfl) hn, trivial⟩, ⟨_, get?_cleanMembers_text (.inr rfl) ht, trivial⟩,
    double _ (by decide), double _ (by decide), optional_of_required (double _ (by decide)),
    optional_of_required (double _ (by decide)), optional_of_required opacity, visible, ?_, nofun⟩
  rw [get?_cleanMembers_children, cleanChildren_eq]
  split
  · exact optional_some.mpr trivial
  · exact fun _ given => nomatch given

/-- Submitted again, the members of a node stay as they are. -/
theorem sameMembers_again (follows : Follows ms)
    (children : SameMembers (cleanChildren ms) (cleanChildren (cleanMembers ms))) :
    SameMembers (cleanMembers ms) (cleanMembers (cleanMembers ms)) := by
  obtain ⟨name, hn⟩ := follows.name
  obtain ⟨type, ht⟩ := follows.type
  have text {name s : String} (known : name = "name" ∨ name = "type") (given : ms.get? name = some (.text s)) :
      Same (ms.get name) ((cleanMembers ms).get name) := by
    unfold Entries.get
    rw [given, get?_cleanMembers_text known given]
    exact .refl _
  have double (name : String) (h : name ∈ ["width", "height", "x", "y"]) :=
    (cleanDouble_again (follows.box name h) (by decide) (get?_cleanMembers_box h)).2
  have opacity := (cleanDouble_again follows.opacity (by decide) (get?_cleanMembers_opacity ms)).2
  have visible := (cleanVisible_again follows.visible (get?_cleanMembers_visible ms)).2
  have fields : SameMembers (cleanFields ms) (cleanFields (cleanMembers ms)) :=
    .cons (text (.inl rfl) hn) <| .cons (text (.inr rfl) ht) <| .cons (double _ (by decide)) <|
      .cons (double _ (by decide)) <| .cons (double _ (by decide)) <| .cons (double _ (by decide)) <|
      .cons opacity <| .cons (visible ▸ .refl _) .nil
  have others : SameMembers (otherFields ms) (otherFields (cleanMembers ms)) :=
    (otherFields_cleanMembers ms).symm ▸ .refl _
  exact (fields.append children).append others

end

/-! ## 4. Nodes -/

section

variable {ms : Members} {vs : List Value} {v : Value}

theorem children_cases (fields : ∀ rule ∈ fieldRules, rule.2 (ms.get? rule.1)) :
    (ms.get? "children" = none ∨ ms.get? "children" = some .null) ∨ ∃ vs, ms.get? "children" = some (.list vs) := by
  have rule : Optional GivesChildren (ms.get? "children") := fields ("children", _) (mem_fieldRules.mpr (.inr rfl))
  cases given : Entries.get? ms "children" with
  | none => exact .inl (.inl rfl)
  | some v =>
    have kind := rule v given
    cases v with
    | null => exact .inl (.inr rfl)
    | list vs => exact .inr ⟨vs, rfl⟩
    | _ => exact kind.elim

/-- A node without children has none when it is passed on. -/
theorem cleanChildren_leaf (h : ms.get? "children" = none ∨ ms.get? "children" = some .null) :
    cleanChildren ms = [] ∧ (cleanMembers ms).get? "children" = none := by
  have none : cleanChildren ms = [] := by
    rw [cleanChildren_eq]
    rcases h with given | given <;> rw [given]
  rw [get?_cleanMembers_children, none]
  exact ⟨rfl, rfl⟩

theorem cleanChildren_parent (h : ms.get? "children" = some (.list vs)) :
    cleanChildren ms = [("children", .list (cleanNodes vs))] ∧
      (cleanMembers ms).get? "children" = some (.list (cleanNodes vs)) := by
  have one : cleanChildren ms = [("children", .list (cleanNodes vs))] := by
    rw [cleanChildren_eq, h]
  rw [get?_cleanMembers_children, one]
  exact ⟨rfl, rfl⟩

/-- **A described node is kept.** -/
theorem kept_cleanNode (described : Described v) (once : Value.Everywhere Value.NamesOnce v) :
    Kept v (cleanNode v) := by
  induction described with
  | @object ms fields _ below =>
    have kept := fieldsKept (follows_of_rules fields) once.self
    rcases children_cases fields with leaf | ⟨vs, listed⟩
    · exact .leaf kept leaf (cleanChildren_leaf leaf).2
    · refine .parent kept listed (cleanChildren_parent listed).2 ?_
      rw [cleanNodes_eq, List.forall₂_map_right_iff, List.forall₂_same]
      have items : Value.Everywhere Value.NamesOnce (.list vs) := once.member (Entries.mem_of_get? listed)
      exact fun w mem => below vs listed w mem (items.item mem)

/-- **A node that is passed on is described again.** -/
theorem described_cleanNode (described : Described v) : Described (cleanNode v) := by
  induction described with
  | @object ms fields _ below =>
    refine .object (rules_cleanMembers (follows_of_rules fields)) fun ws listed => ?_
    rcases children_cases fields with leaf | ⟨vs, given⟩
    · cases (cleanChildren_leaf leaf).2.symm.trans listed
    · cases (cleanChildren_parent given).2.symm.trans listed
      rw [cleanNodes_eq, List.forall_mem_map]
      exact below vs given

theorem sameItems_again (h : ∀ v ∈ vs, Same (cleanNode v) (cleanNode (cleanNode v))) :
    SameItems (cleanNodes vs) (cleanNodes (cleanNodes vs)) := by
  induction vs with
  | nil => exact .nil
  | cons v rest ih =>
    obtain ⟨first, others⟩ := List.forall_mem_cons.mp h
    exact .cons first (ih others)

/-- **A node that is passed on stays as it is** when it is submitted again. -/
theorem same_cleanNode (described : Described v) : Same (cleanNode v) (cleanNode (cleanNode v)) := by
  induction described with
  | @object ms fields _ below =>
    refine .object (sameMembers_again (follows_of_rules fields) ?_)
    rcases children_cases fields with leaf | ⟨vs, given⟩
    · obtain ⟨none, left⟩ := cleanChildren_leaf leaf
      rw [none, (cleanChildren_leaf (.inl left)).1]
      exact .nil
    · obtain ⟨one, left⟩ := cleanChildren_parent given
      rw [one, (cleanChildren_parent left).1]
      exact .cons (.list (sameItems_again (below vs given))) .nil

end

/-! ## 5. Requests -/

/-- What is accepted are described nodes, and they are passed on one by one. -/
theorem nodes_cases {request : Members} {ns : List Value} (accepted : nodes request = .ok ns) :
    (request.get? "data" = none ∧ ns = []) ∨
      ∃ vs, request.get? "data" = some (.list vs) ∧ (∀ v ∈ vs, Described v) ∧ ns = cleanNodes vs := by
  rcases (accepts_iff request).mp ⟨ns, accepted⟩ with none | ⟨vs, listed, described⟩
  · refine .inl ⟨none, ?_⟩
    unfold nodes at accepted
    rw [none] at accepted
    exact (Except.ok.inj accepted).symm
  · exact .inr ⟨vs, listed, described, ((nodes_eq_ok listed).mp accepted).2⟩

/-- A form whose box is given as a text and a truth value, with nulls on two levels, above a field of no certain
width. -/
def form : List Value :=
  [.object [("name", .text "Form"), ("type", .text "FRAME"), ("width", .text " 3e2 "), ("height", .bool true),
    ("visible", .text "Yes"), ("id", .null), ("fills", .list [.null, .object [("color", .null)]]), ("children", .list [
      .object [("name", .text "Field"), ("type", .text "TEXT"), ("width", .number (.real .nan)),
        ("height", .number (.int 20)), ("opacity", .number (.int 1)), ("children", .null)]])]]

/-- A form with a name and a width that are none, above an empty object and a null. -/
def misfit : List Value :=
  [.object [("name", .number (.int 1)), ("type", .text "FRAME"), ("width", .text "wide"), ("height", .bool true),
    ("children", .list [.object [], .null])]]

end Request

end Artboard
