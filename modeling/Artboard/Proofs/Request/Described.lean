import Artboard.Proofs.Json.Parts
import Artboard.Proofs.Number.Nearest
import Artboard.Proofs.Number.Twins
import Artboard.Request.Node

/-!
# Described nodes, and where a request offends

What a request has to look like is said here apart from how it is checked.  Each field of a node has a rule
(`Request.fieldRules`), a node is an object whose fields follow their rules, and its children are such nodes
(`Request.Described`).  A place offends where a field breaks its rule, or where there is no object for a node
(`Request.Offends`).  The check finds just these places, in the order of the nodes and of their fields.
-/

namespace Artboard

namespace Request

/-! ## 1. Rules -/

/-- What may stand for a text. -/
def IsText : Value → Prop
  | .text _ => True
  | _ => False

/-- **What may stand for a double**: a number, unless it is a whole one beyond the range of doubles, a truth value, or
a text that spells a double. -/
def GivesDouble : Value → Prop
  | .number (.int i) => i.natAbs < Binary64.wholeLimit
  | .number (.real _) => True
  | .bool _ => True
  | .text s => (Numeral.readDouble? s).isSome = true
  | _ => False

/-- **What may stand for a truth value**: zero, one, or a word for true or false, its letters large or small. -/
def GivesTruth : Value → Prop
  | .number n => n.Means 0 ∨ n.Means 1
  | .bool _ => True
  | .text s => lowerAscii s ∈ trueWords ∨ lowerAscii s ∈ falseWords
  | _ => False

/-- What may stand for children. -/
def GivesChildren : Value → Prop
  | .list _ => True
  | .null => True
  | _ => False

/-- The field is there, and of a kind. -/
def Required (kind : Value → Prop) (given : Option Value) : Prop := ∃ v, given = some v ∧ kind v

/-- The field is of a kind, if it is there. -/
def Optional (kind : Value → Prop) (given : Option Value) : Prop := ∀ v, given = some v → kind v

/-- The fields of a node that have a rule, in their order. -/
def fieldRules : List (String × (Option Value → Prop)) :=
  [("name", Required IsText), ("type", Required IsText), ("width", Required GivesDouble),
   ("height", Required GivesDouble), ("x", Optional GivesDouble), ("y", Optional GivesDouble),
   ("opacity", Optional GivesDouble), ("visible", Optional GivesTruth), ("children", Optional GivesChildren)]

/-- **A node as it is described**: an object whose fields follow their rules, above such nodes. -/
inductive Described : Value → Prop where
  | object {ms : Members} (fields : ∀ rule ∈ fieldRules, rule.2 (ms.get? rule.1))
      (children : ∀ vs, ms.get? "children" = some (.list vs) → ∀ v ∈ vs, Described v) : Described (.object ms)

/-- **The places where a node offends**: its own place if it is no object, the field if one breaks its rule, and the
places where its children do. -/
inductive Offends : Value → List Step → Prop where
  | node {v : Value} (other : v.members? = none) : Offends v []
  | field {ms : Members} {rule : String × (Option Value → Prop)} (known : rule ∈ fieldRules)
      (broken : ¬rule.2 (ms.get? rule.1)) : Offends (.object ms) [.field rule.1]
  | child {ms : Members} {vs : List Value} {i : Nat} {v : Value} {place : List Step}
      (listed : ms.get? "children" = some (.list vs)) (here : vs[i]? = some v) (inner : Offends v place) :
      Offends (.object ms) (.field "children" :: .item i :: place)

/-- The request has no nodes, or a list of nodes as they are described. -/
def Accepts (request : Members) : Prop :=
  request.get? "data" = none ∨ ∃ vs, request.get? "data" = some (.list vs) ∧ ∀ v ∈ vs, Described v

/-- **The places where a request offends.** -/
inductive Offending (request : Members) : List Step → Prop where
  | data {v : Value} (given : request.get? "data" = some v) (other : ∀ vs, v ≠ .list vs) :
      Offending request [.field "data"]
  | node {vs : List Value} {i : Nat} {v : Value} {place : List Step}
      (listed : request.get? "data" = some (.list vs)) (here : vs[i]? = some v) (inner : Offends v place) :
      Offending request (.field "data" :: .item i :: place)

/-- The position of a step among others from the same value: of a field among those with a rule, of an item in its
list. -/
def Step.rank : Step → Nat
  | .field name => knownFields.idxOf name
  | .item index => index

/-- **A place comes before another** where they part: by the order of the nodes, and of the fields of a node. -/
def Before (place other : List Step) : Prop := place.map Step.rank < other.map Step.rank

/-- The places of problems. -/
def places (problems : List Problem) : List (List Step) := problems.map Problem.place

/-! ## 2. Readings of a field -/

theorem readDouble_number_iff {n : Number} {x : Binary64} : readDouble (.number n) = .ok x ↔ n.toDouble = .ok x := by
  unfold readDouble
  dsimp only
  cases n.toDouble with
  | ok y => simp only [Except.ok.injEq]
  | error fault => exact ⟨fun read => (nomatch read), fun read => (nomatch read)⟩

theorem readDouble_iff (v : Value) : (∃ x, readDouble v = .ok x) ↔ GivesDouble v := by
  cases v with
  | number n =>
    rw [exists_congr fun x => readDouble_number_iff]
    cases n with
    | int i => exact Number.toDouble_int_iff i
    | real x => exact ⟨fun _ => trivial, fun _ => ⟨x, rfl⟩⟩
  | bool b => exact ⟨fun _ => trivial, fun _ => ⟨_, rfl⟩⟩
  | text s =>
    unfold readDouble GivesDouble
    dsimp only
    cases Numeral.readDouble? s with
    | none => simp
    | some x => simp
  | null => exact ⟨fun ⟨_, read⟩ => (nomatch read), False.elim⟩
  | list _ => exact ⟨fun ⟨_, read⟩ => (nomatch read), False.elim⟩
  | object _ => exact ⟨fun ⟨_, read⟩ => (nomatch read), False.elim⟩

theorem truthOfInt_iff (i : Int) : (∃ b, truthOfInt i = .ok b) ↔ i = 0 ∨ i = 1 := by
  unfold truthOfInt
  split_ifs with zero one <;> simp [*]

/-- A double counts as an integer of 64 bits if it is one. -/
theorem integerOf?_eq_some {x : Binary64} {i : Int} (few : i.natAbs < 2 ^ 63) :
    integerOf? x = some i ↔ (Number.real x).Means i := by
  constructor
  · intro h
    unfold integerOf? at h
    split at h
    · rename_i j _
      split at h
      · rename_i fitting
        simp only [Bool.and_eq_true, decide_eq_true_eq] at fitting
        obtain rfl := Option.some.inj h
        exact fitting.1.1.symm
      · cases h
    · cases h
  · intro means
    have place : (Number.int i).place? = (Number.real x).place? := means.symm
    have size : -Int.pow 2 63 < i ∧ i < Int.pow 2 63 := by
      have power : Int.pow 2 63 = 2 ^ 63 := rfl
      rw [power]
      omega
    obtain ⟨s, units, fits, rfl, whole, value⟩ := means.finite
    have truncated : (Binary64.finite s units fits).truncate? = some i := by
      have quotient : units / unitsPerOne = i.natAbs := whole ▸ Nat.mul_div_cancel _ unitsPerOne_pos
      unfold Binary64.truncate?
      dsimp only
      rw [quotient, value]
    unfold integerOf?
    rw [truncated]
    dsimp only
    rw [if_pos]
    simp only [Bool.and_eq_true, decide_eq_true_eq]
    exact ⟨⟨place, size.1⟩, size.2⟩

theorem readTruth_iff (v : Value) : (∃ b, readTruth v = .ok b) ↔ GivesTruth v := by
  cases v with
  | number n =>
    cases n with
    | int i =>
      have means (j : Int) : (Number.int i).Means j ↔ i = j :=
        ⟨fun h => h.int_eq, fun same => same ▸ Number.means_int i⟩
      show (∃ b, truthOfInt i = .ok b) ↔ (Number.int i).Means 0 ∨ (Number.int i).Means 1
      rw [truthOfInt_iff, means, means]
    | real x =>
      show (∃ b, readTruth (.number (.real x)) = .ok b) ↔ (Number.real x).Means 0 ∨ (Number.real x).Means 1
      rw [← integerOf?_eq_some (by decide), ← integerOf?_eq_some (by decide)]
      unfold readTruth
      dsimp only
      cases integerOf? x with
      | none => simp
      | some i =>
        dsimp only
        rw [truthOfInt_iff, Option.some.injEq, Option.some.injEq]
  | bool b => exact ⟨fun _ => trivial, fun _ => ⟨b, rfl⟩⟩
  | text s =>
    unfold readTruth GivesTruth
    dsimp only
    split_ifs with yes no
    · simp [List.contains_iff_mem.mp yes]
    · simp [List.contains_iff_mem.mp no]
    · simp only [List.contains_iff_mem] at yes no
      simp [yes, no]
  | null => exact ⟨fun ⟨_, read⟩ => (nomatch read), False.elim⟩
  | list _ => exact ⟨fun ⟨_, read⟩ => (nomatch read), False.elim⟩
  | object _ => exact ⟨fun ⟨_, read⟩ => (nomatch read), False.elim⟩

/-! ## 3. Problems of fields -/

theorem places_append (problems others : List Problem) :
    places (problems ++ others) = places problems ++ places others := List.map_append

/-- Steps are taken in front of a place alike. -/
theorem before_cons {step : Step} {place other : List Step} :
    Before (step :: place) (step :: other) ↔ Before place other := by
  unfold Before
  rw [List.map_cons, List.map_cons, List.cons_lt_cons_iff]
  simp

/-- The first step decides. -/
theorem before_of_rank {step next : Step} (h : step.rank < next.rank) (place other : List Step) :
    Before (step :: place) (next :: other) :=
  List.cons_lt_cons_iff.mpr (.inl h)

/-- A field is reported once if its rule is broken, and not at all if it is followed. -/
inductive Reports (name : String) (followed : Prop) : List Problem → Prop where
  | none (h : followed) : Reports name followed []
  | one (h : ¬followed) {p : Problem} (here : p.place = [.field name]) : Reports name followed [p]

section

variable {ms : Members} {name : String}

theorem reports_text (ms : Members) (name : String) :
    Reports name (Required IsText (ms.get? name)) (textProblems ms name) := by
  unfold textProblems
  split
  · rename_i missing
    exact .one (fun ⟨v, given, _⟩ => nomatch missing.symm.trans given) rfl
  · rename_i s given
    exact .none ⟨.text s, given, trivial⟩
  · rename_i v other given
    refine .one (fun ⟨w, given', text⟩ => ?_) rfl
    obtain rfl := Option.some.inj (given.symm.trans given')
    cases v with
    | text s => exact other s rfl
    | _ => exact text

/-- What a value is read as is reported if it is nothing. -/
theorem reports_reading {α : Type} {followed : Prop} (name : String) (v : Value) {reading : Except ProblemKind α}
    (h : (∃ x, reading = .ok x) ↔ followed) : Reports name followed (readingProblems name v reading) := by
  cases reading with
  | ok x => exact .none (h.mp ⟨x, rfl⟩)
  | error kind => exact .one (fun followed => nomatch (h.mpr followed).choose_spec) rfl

theorem required_some {kind : Value → Prop} {v : Value} : Required kind (some v) ↔ kind v :=
  ⟨fun ⟨_, given, h⟩ => Option.some.inj given ▸ h, fun h => ⟨v, rfl, h⟩⟩

theorem optional_some {kind : Value → Prop} {v : Value} : Optional kind (some v) ↔ kind v :=
  ⟨fun h => h v rfl, fun h _ given => Option.some.inj given ▸ h⟩

theorem reports_required (ms : Members) (name : String) :
    Reports name (Required GivesDouble (ms.get? name)) (requiredDoubleProblems ms name) := by
  unfold requiredDoubleProblems
  cases Entries.get? ms name with
  | none => exact .one (fun ⟨_, given, _⟩ => nomatch given) rfl
  | some v => exact reports_reading name v ((readDouble_iff v).trans required_some.symm)

theorem reports_optional (ms : Members) (name : String) :
    Reports name (Optional GivesDouble (ms.get? name)) (optionalDoubleProblems ms name) := by
  unfold optionalDoubleProblems
  cases Entries.get? ms name with
  | none => exact .none fun _ given => nomatch given
  | some v => exact reports_reading name v ((readDouble_iff v).trans optional_some.symm)

theorem reports_truth (ms : Members) (name : String) :
    Reports name (Optional GivesTruth (ms.get? name)) (optionalTruthProblems ms name) := by
  unfold optionalTruthProblems
  cases Entries.get? ms name with
  | none => exact .none fun _ given => nomatch given
  | some v => exact reports_reading name v ((readTruth_iff v).trans optional_some.symm)

end

/-- Fields are reported one after the other. -/
inductive ReportsAll (ms : Members) : List (String × (Option Value → Prop)) → List Problem → Prop where
  | nil : ReportsAll ms [] []
  | cons {rule : String × (Option Value → Prop)} {rules : List (String × (Option Value → Prop))}
      {own others : List Problem} (first : Reports rule.1 (rule.2 (ms.get? rule.1)) own)
      (rest : ReportsAll ms rules others) : ReportsAll ms (rule :: rules) (own ++ others)

theorem reportsAll_fieldProblems (ms : Members) : ReportsAll ms fieldRules.dropLast (fieldProblems ms) := by
  have all : ReportsAll ms fieldRules.dropLast (textProblems ms "name" ++ (textProblems ms "type" ++
      (requiredDoubleProblems ms "width" ++ (requiredDoubleProblems ms "height" ++
      (optionalDoubleProblems ms "x" ++ (optionalDoubleProblems ms "y" ++
      (optionalDoubleProblems ms "opacity" ++ (optionalTruthProblems ms "visible" ++ [])))))))) :=
    .cons (reports_text ms _) <| .cons (reports_text ms _) <| .cons (reports_required ms _) <|
      .cons (reports_required ms _) <| .cons (reports_optional ms _) <| .cons (reports_optional ms _) <|
      .cons (reports_optional ms _) <| .cons (reports_truth ms _) .nil
  unfold fieldProblems
  simpa only [List.append_assoc, List.append_nil] using all

section

variable {ms : Members} {rules : List (String × (Option Value → Prop))} {problems : List Problem}

theorem Reports.mem_places {name : String} {followed : Prop} (h : Reports name followed problems) (place : List Step) :
    place ∈ places problems ↔ ¬followed ∧ place = [.field name] := by
  cases h with
  | none followed => simp [places, followed]
  | one broken here => simp [places, broken, here]

theorem ReportsAll.mem_places (h : ReportsAll ms rules problems) (place : List Step) :
    place ∈ places problems ↔ ∃ rule ∈ rules, ¬rule.2 (ms.get? rule.1) ∧ place = [.field rule.1] := by
  induction h with
  | nil => simp [places]
  | cons first rest ih =>
    rw [places_append, List.mem_append, first.mem_places, ih]
    simp

/-- The reports come in the order of the rules. -/
theorem ReportsAll.ascending (h : ReportsAll ms rules problems)
    (order : rules.Pairwise fun rule next => (Step.field rule.1).rank < (Step.field next.1).rank) :
    (places problems).Pairwise Before := by
  induction h with
  | nil => exact .nil
  | cons first rest ih =>
    obtain ⟨above, order⟩ := List.pairwise_cons.mp order
    rw [places_append, List.pairwise_append]
    refine ⟨?_, ih order, fun place here other later => ?_⟩
    · cases first with
      | none _ => exact .nil
      | one _ _ => exact List.pairwise_singleton _ _
    · obtain ⟨-, rfl⟩ := (first.mem_places place).mp here
      obtain ⟨next, known, -, rfl⟩ := (rest.mem_places other).mp later
      exact before_of_rank (above next known) _ _

end

/-! ## 4. Problems of nodes -/

/-- What holds of a value if it holds of the children listed in it holds of all values. -/
theorem node_induction {P : Value → Prop} (step : ∀ v, (∀ ms vs, v = .object ms →
    Entries.get? ms "children" = some (.list vs) → ∀ w ∈ vs, P w) → P v) (v : Value) : P v := by
  refine step v fun ms vs object listed w mem => ?_
  have smaller : sizeOf w < sizeOf v := by
    have item := List.sizeOf_lt_of_mem mem
    have member := List.sizeOf_lt_of_mem (Entries.mem_of_get? listed)
    rw [object]
    simp only [Value.object.sizeOf_spec, Prod.mk.sizeOf_spec, Value.list.sizeOf_spec] at member ⊢
    omega
  exact node_induction step w
termination_by sizeOf v

/-- The first children count. -/
theorem childProblems_eq (ms : Members) : childProblems ms = match ms.get? "children" with
    | none => []
    | some v => (childListProblems v).map (·.inside (.field "children")) := by
  induction ms with
  | nil => rfl
  | cons e rest ih =>
    obtain ⟨name, v⟩ := e
    unfold childProblems Entries.get?
    split
    · rfl
    · exact ih

theorem places_inside (problems : List Problem) (step : Step) :
    places (problems.map (·.inside step)) = (places problems).map (step :: ·) := by
  unfold places
  rw [List.map_map, List.map_map]
  rfl

/-- Problems seen from one step further out stay in order. -/
theorem ascending_inside {problems : List Problem} (h : (places problems).Pairwise Before) (step : Step) :
    (places (problems.map (·.inside step))).Pairwise Before := by
  rw [places_inside, List.pairwise_map]
  exact h.imp before_cons.mpr

theorem mem_places_listProblems (index : Nat) (vs : List Value) (place : List Step) :
    place ∈ places (listProblems index vs) ↔
      ∃ i v inner, vs[i]? = some v ∧ inner ∈ places (nodeProblems v) ∧ place = .item (index + i) :: inner := by
  induction vs generalizing index with
  | nil => simp [listProblems, places]
  | cons v rest ih =>
    unfold listProblems
    rw [places_append, List.mem_append, places_inside, List.mem_map, ih]
    constructor
    · rintro (⟨inner, mem, rfl⟩ | ⟨i, w, inner, here, mem, rfl⟩)
      · exact ⟨0, v, inner, rfl, mem, rfl⟩
      · exact ⟨i + 1, w, inner, here, mem, by rw [Nat.add_right_comm, Nat.add_assoc]⟩
    · rintro ⟨i, w, inner, here, mem, rfl⟩
      cases i with
      | zero =>
        obtain rfl := Option.some.inj here
        exact .inl ⟨inner, mem, rfl⟩
      | succ i => exact .inr ⟨i, w, inner, here, mem, by rw [Nat.add_right_comm, Nat.add_assoc]⟩

/-- The problems of the items of a list are counted from its start. -/
theorem mem_places_items (vs : List Value) (place : List Step) :
    place ∈ places (listProblems 0 vs) ↔
      ∃ i v inner, vs[i]? = some v ∧ inner ∈ places (nodeProblems v) ∧ place = .item i :: inner := by
  rw [mem_places_listProblems]
  simp only [Nat.zero_add]

theorem ascending_listProblems (index : Nat) {vs : List Value}
    (h : ∀ v ∈ vs, (places (nodeProblems v)).Pairwise Before) : (places (listProblems index vs)).Pairwise Before := by
  induction vs generalizing index with
  | nil => exact .nil
  | cons v rest ih =>
    obtain ⟨own, others⟩ := List.forall_mem_cons.mp h
    unfold listProblems
    rw [places_append, List.pairwise_append]
    refine ⟨ascending_inside own _, ih _ others, fun place here other later => ?_⟩
    rw [places_inside] at here
    obtain ⟨inner, -, rfl⟩ := List.mem_map.mp here
    obtain ⟨i, w, inner', -, -, rfl⟩ := (mem_places_listProblems _ _ _).mp later
    refine before_of_rank ?_ _ _
    show index < index + 1 + i
    omega

theorem mem_places_childProblems (ms : Members) (place : List Step) : place ∈ places (childProblems ms) ↔
    (¬Optional GivesChildren (ms.get? "children") ∧ place = [.field "children"]) ∨
      ∃ vs i v inner, ms.get? "children" = some (.list vs) ∧ vs[i]? = some v ∧ inner ∈ places (nodeProblems v) ∧
        place = .field "children" :: .item i :: inner := by
  rw [childProblems_eq]
  cases Entries.get? ms "children" with
  | none => simp [places, Optional]
  | some v =>
    rw [places_inside, List.mem_map, optional_some]
    cases v with
    | list vs =>
      constructor
      · rintro ⟨outer, mem, rfl⟩
        obtain ⟨i, v, inner, here, below, rfl⟩ := (mem_places_items vs outer).mp mem
        exact .inr ⟨vs, i, v, inner, rfl, here, below, rfl⟩
      · rintro (⟨broken, -⟩ | ⟨ws, i, v, inner, listed, here, mem, rfl⟩)
        · exact absurd trivial broken
        · cases listed
          exact ⟨_, (mem_places_items vs _).mpr ⟨i, v, inner, here, mem, rfl⟩, rfl⟩
    | null => simp [GivesChildren, childListProblems, places]
    | bool _ | number _ | text _ | object _ => simp [GivesChildren, childListProblems, places, eq_comm]

theorem mem_fieldRules {rule : String × (Option Value → Prop)} :
    rule ∈ fieldRules ↔ rule ∈ fieldRules.dropLast ∨ rule = ("children", Optional GivesChildren) := by
  have split : fieldRules = fieldRules.dropLast ++ [("children", Optional GivesChildren)] := rfl
  rw [split, List.mem_append, List.mem_singleton]
  rfl

theorem nodeProblems_other {v : Value} (h : v.members? = none) : nodeProblems v = [⟨.notObject, [], v⟩] := by
  cases v with
  | object ms => cases h
  | null | bool _ | number _ | text _ | list _ => rfl

/-- **The check of a node reports just the places where it offends.** -/
theorem mem_places_nodeProblems (v : Value) :
    ∀ place, place ∈ places (nodeProblems v) ↔ Offends v place := by
  induction v using node_induction with
  | step v below =>
    intro place
    cases v with
    | object ms =>
      unfold nodeProblems
      rw [places_append, List.mem_append, (reportsAll_fieldProblems ms).mem_places, mem_places_childProblems]
      constructor
      · rintro (⟨rule, known, broken, rfl⟩ | ⟨broken, rfl⟩ | ⟨vs, i, w, inner, listed, here, mem, rfl⟩)
        · exact .field (mem_fieldRules.mpr (.inl known)) broken
        · have known : ("children", Optional GivesChildren) ∈ fieldRules := mem_fieldRules.mpr (.inr rfl)
          exact .field known broken
        · exact .child listed here ((below ms vs rfl listed w (List.mem_of_getElem? here) inner).mp mem)
      · intro offends
        cases offends with
        | node other => cases other
        | field known broken =>
          rcases mem_fieldRules.mp known with known | rfl
          · exact .inl ⟨_, known, broken, rfl⟩
          · exact .inr (.inl ⟨broken, rfl⟩)
        | child listed here inner =>
          have mem := (below ms _ rfl listed _ (List.mem_of_getElem? here) _).mpr inner
          exact .inr (.inr ⟨_, _, _, _, listed, here, mem, rfl⟩)
    | null | bool _ | number _ | text _ | list _ =>
      rw [nodeProblems_other rfl]
      constructor
      · intro mem
        obtain rfl := List.mem_singleton.mp mem
        exact .node rfl
      · intro offends
        cases offends
        exact List.mem_singleton.mpr rfl

/-- **The check of a node reports in the order of nodes and fields.** -/
theorem ascending_nodeProblems (v : Value) : (places (nodeProblems v)).Pairwise Before := by
  induction v using node_induction with
  | step v below =>
    cases v with
    | object ms =>
      have order : fieldRules.dropLast.Pairwise fun rule next =>
          (Step.field rule.1).rank < (Step.field next.1).rank := by decide
      have last : ∀ rule ∈ fieldRules.dropLast, (Step.field rule.1).rank < (Step.field "children").rank := by decide
      unfold nodeProblems
      rw [places_append, List.pairwise_append]
      refine ⟨(reportsAll_fieldProblems ms).ascending order, ?_, fun place here other later => ?_⟩
      · rw [childProblems_eq]
        cases listed : Entries.get? ms "children" with
        | none => exact .nil
        | some v =>
          refine ascending_inside ?_ _
          cases v with
          | list vs => exact ascending_listProblems 0 (below ms vs rfl listed)
          | null => exact .nil
          | bool _ | number _ | text _ | object _ => exact List.pairwise_singleton _ _
      · obtain ⟨rule, known, -, rfl⟩ := ((reportsAll_fieldProblems ms).mem_places place).mp here
        rcases (mem_places_childProblems ms other).mp later with ⟨-, rfl⟩ | ⟨vs, i, w, inner, -, -, -, rfl⟩
        · exact before_of_rank (last rule known) _ _
        · exact before_of_rank (last rule known) _ _
    | null | bool _ | number _ | text _ | list _ =>
      rw [nodeProblems_other rfl]
      exact List.pairwise_singleton _ _

/-! ## 5. Requests -/

/-- Nodes are as described where nothing offends. -/
theorem described_iff (v : Value) : Described v ↔ ∀ place, ¬Offends v place := by
  constructor
  · intro described
    induction described with
    | object fields _ below =>
      intro place offends
      cases offends with
      | node other => cases other
      | field known broken => exact broken (fields _ known)
      | child listed here inner => exact below _ listed _ (List.mem_of_getElem? here) _ inner
  · intro proper
    induction v using node_induction with
    | step v below =>
      cases v with
      | object ms =>
        refine .object (fun rule known => ?_) fun vs listed w mem => below ms vs rfl listed w mem fun place inner => ?_
        · by_contra broken
          exact proper _ (.field known broken)
        · obtain ⟨i, here⟩ := List.getElem?_of_mem mem
          exact proper _ (.child listed here inner)
      | null | bool _ | number _ | text _ | list _ => exact absurd (.node rfl) (proper [])

theorem eq_nil_iff_places {problems : List Problem} : problems = [] ↔ ∀ place, place ∉ places problems := by
  unfold places
  rw [← List.eq_nil_iff_forall_not_mem, List.map_eq_nil_iff]

theorem nodeProblems_eq_nil (v : Value) : nodeProblems v = [] ↔ Described v := by
  rw [eq_nil_iff_places, described_iff]
  exact forall_congr' fun place => not_congr (mem_places_nodeProblems v place)

theorem listProblems_eq_nil (index : Nat) (vs : List Value) : listProblems index vs = [] ↔ ∀ v ∈ vs, Described v := by
  induction vs generalizing index with
  | nil => simp [listProblems]
  | cons v rest ih =>
    unfold listProblems
    rw [List.append_eq_nil_iff, List.map_eq_nil_iff, nodeProblems_eq_nil, ih, List.forall_mem_cons]

/-- **A request is accepted if its nodes are as described.** -/
theorem accepts_iff (request : Members) : (∃ ns, nodes request = .ok ns) ↔ Accepts request := by
  unfold nodes Accepts
  cases Entries.get? request "data" with
  | none => exact ⟨fun _ => .inl rfl, fun _ => ⟨[], rfl⟩⟩
  | some v =>
    cases v with
    | list vs =>
      have given : (some (Value.list vs) = none ∨ ∃ ws, some (Value.list vs) = some (.list ws) ∧
          ∀ w ∈ ws, Described w) ↔ listProblems 0 vs = [] := by
        rw [listProblems_eq_nil]
        simp
      rw [given]
      dsimp only
      split
      · rename_i proper
        exact ⟨fun _ => proper, fun _ => ⟨_, rfl⟩⟩
      · rename_i broken
        exact ⟨fun ⟨_, read⟩ => (nomatch read), fun proper => absurd proper broken⟩
    | null | bool _ | number _ | text _ | object _ => simp

/-- **The errors of a request are at the places where it offends**, each once, in the order of nodes and fields. -/
theorem offending_iff {request : Members} {problems : List Problem} (rejected : nodes request = .error problems) :
    (∀ place, place ∈ places problems ↔ Offending request place) ∧ (places problems).Pairwise Before := by
  unfold nodes at rejected
  split at rejected
  · cases rejected
  · rename_i vs listed
    split at rejected
    · cases rejected
    · rw [← Except.error.inj rejected]
      refine ⟨fun place => ?_, ascending_inside (ascending_listProblems 0 fun v _ => ascending_nodeProblems v) _⟩
      rw [places_inside, List.mem_map]
      constructor
      · rintro ⟨outer, mem, rfl⟩
        obtain ⟨i, v, inner, here, below, rfl⟩ := (mem_places_items vs outer).mp mem
        exact .node listed here ((mem_places_nodeProblems v inner).mp below)
      · intro offending
        cases offending with
        | data given other =>
          obtain rfl := Option.some.inj (listed.symm.trans given)
          exact absurd rfl (other vs)
        | @node ws i v inner listed' here offends =>
          cases listed.symm.trans listed'
          have below := (mem_places_nodeProblems v inner).mpr offends
          exact ⟨_, (mem_places_items vs _).mpr ⟨i, v, inner, here, below, rfl⟩, rfl⟩
  · rename_i v other given
    rw [← Except.error.inj rejected]
    refine ⟨fun place => ?_, List.pairwise_singleton _ _⟩
    constructor
    · intro mem
      obtain rfl := List.mem_singleton.mp mem
      exact .data given fun vs same => other vs same
    · intro offending
      cases offending with
      | data _ _ => exact List.mem_singleton.mpr rfl
      | node listed _ _ => exact (other _ (Option.some.inj (given.symm.trans listed))).elim

end Request

end Artboard
