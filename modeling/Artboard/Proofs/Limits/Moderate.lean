import Artboard.Proofs.Limits.Request
import Artboard.Proofs.Number.Magnitude
import Artboard.Proofs.Text.Surrogate
import Artboard.Service.Route

/-!
# Requests that are always answered

A request is answered with a component if its nodes have no problems and no number in it is too large: whatever
else is wrong with a field is passed over (`Service.handle_moderate`).  Numbers up to `Number.large` are fine, and so
is whatever is not finite, for it does not count as a number; these are the limits of moderate numbers
(`Limits.moderate`), which no fault is allowed in.

Larger numbers need not be fine, finite as they are: a channel of a colour or the size of a font is multiplied,
coordinates are added up, and whole numbers become doubles, and where that is infinite there is no answer
(`Service.handle_glaring`).
-/

namespace Artboard

namespace Binary64

/-! ## 1. Small factors -/

theorem atMost_finite {negative : Bool} {units n : Nat} {fits : Fits units} :
    (finite negative units fits).AtMost n ↔ units ≤ n * unitsPerOne := by
  constructor
  · rintro ⟨s, u, others, same, h⟩
    have : units = u := (finite.inj same).2
    rwa [this]
  · intro h
    exact ⟨negative, units, fits, rfl, h⟩

instance decidableAtMost (n : Nat) : (x : Binary64) → Decidable (x.AtMost n)
  | .nan => isFalse fun h => Bool.false_ne_true h.isFinite
  | .infinity _ => isFalse fun h => Bool.false_ne_true h.isFinite
  | .finite _ units _ => decidable_of_iff (units ≤ n * unitsPerOne) atMost_finite.symm

instance decidableNumberAtMost (n : Nat) : (m : Number) → Decidable (m.AtMost n)
  | .int i => inferInstanceAs (Decidable (i.natAbs ≤ n))
  | .real x => inferInstanceAs (Decidable (x.AtMost n))

/-- A whole number of few bits as a double. -/
theorem atMost_ofInt_small {i : Int} (h : i.natAbs < 2 ^ 53) : (ofInt i).AtMost i.natAbs := by
  have kept : roundUnits (i.natAbs * unitsPerOne) 1 = i.natAbs * unitsPerOne := by
    rw [Number.roundUnits_units, Number.roundUnits_of_log2_le (Number.log2_le h)]
  have limit : roundUnits (i.natAbs * unitsPerOne) 1 < unitsLimit := by
    rw [kept]
    exact Number.lt_unitsLimit h
  exact atMost_of_rounded _ limit (Nat.le_of_eq kept)

end Binary64

namespace Limits

open Number

variable {n : Number}

/-! ## 2. The limits -/

/-- The large number, multiplied by a small one, has few digits. -/
theorem large_lt : 255 * large < Nat.pow 10 maxDigits := by decide +kernel

/-- A moderate number multiplied by a small whole one. -/
theorem yields_mul_int {allowed : Fault → Prop} {c : Nat} (h : n.AtMost large) (few : c ≤ 2 ^ 20) :
    Yields allowed (AtMost (c * large)) (n.mul (.int c)) := by
  have one : n.AtMost (1 * large) := (Nat.one_mul large).symm ▸ h
  have factor : Yields allowed (Binary64.AtMost c) (int c).toDouble := by
    unfold toDouble
    exact Binary64.yields_bounded_atMost (Binary64.atMost_ofInt_small (i := c) (by omega))
  refine yields_combine (yields_toDouble_atMost one (by decide)) factor ?_ ?_
  · rintro a b rfl same
    cases same
    show (a * (c : Int)).natAbs ≤ c * large
    rw [Int.natAbs_mul, Int.natAbs_natCast, Nat.mul_comm]
    exact Nat.mul_le_mul_left c h
  · intro x y hx hy
    rw [Nat.one_mul] at hx
    exact Binary64.atMost_mul hx hy few

/-- A moderate number multiplied by the ratio of a line to its font. -/
theorem yields_mul_ratio {allowed : Fault → Prop} (h : n.AtMost large) :
    Yields allowed (AtMost (2 * large)) (n.mul (.real (Binary64.ofDecimal false ⟨12, -1⟩))) := by
  have one : n.AtMost (1 * large) := (Nat.one_mul large).symm ▸ h
  have ratio : (Binary64.ofDecimal false ⟨12, -1⟩).AtMost 2 := by decide +kernel
  refine yields_combine (yields_toDouble_atMost one (by decide)) (.ok ratio) (fun _ _ _ same => nomatch same) ?_
  intro x y hx hy
  rw [Nat.one_mul] at hx
  exact Binary64.atMost_mul hx hy (by decide)

theorem yields_divNat_atMost {allowed : Fault → Prop} {d : Nat} (h : n.AtMost large) (some : 0 < d) :
    Yields allowed (Binary64.AtMost (1 * large)) (n.divNat d) := by
  have one : n.AtMost (1 * large) := (Nat.one_mul large).symm ▸ h
  cases n with
  | int i =>
    unfold divNat
    refine Binary64.yields_bounded_atMost (Binary64.atMost_ofRatio _ (by decide) ?_)
    exact Nat.le_trans (Nat.mul_le_mul_right _ one) (Nat.le_mul_of_pos_right _ some)
  | real x => exact .ok (Binary64.atMost_divNat one (by decide) some)

theorem yields_roundToInt {allowed : Fault → Prop} {bound : Nat} (h : n.AtMost bound) :
    Yields allowed (fun i => i.natAbs ≤ bound) n.roundToInt := by
  cases n with
  | int i => exact .ok h
  | real x =>
    obtain ⟨s, u, fits, rfl, hu⟩ := h
    refine .ok ?_
    rw [Binary64.natAbs_signedUnits]
    exact roundDiv_le hu

/-- **Moderate numbers** lead to no fault. -/
def moderate : Limits where
  allowed _ := False
  given := AtMost large
  sum k := AtMost (k * large)
  most := 2 ^ 20
  numeral := Binary64.AtMost large
  one_le_most := by decide
  given_small h := by
    have room : 1000 ≤ large := by decide +kernel
    exact Nat.le_trans (Nat.le_of_lt h) room
  given_truncated h whole := Binary64.natAbs_truncate? h whole
  given_wholePart {x} h _ := by
    obtain ⟨s, u, fits, rfl, hu⟩ := h
    exact .ok (Binary64.natAbs_truncate? ⟨s, u, fits, rfl, hu⟩ rfl)
  sum_zero := by
    show (0 : Int).natAbs ≤ 0 * large
    omega
  sum_given h := (Nat.one_mul large).symm ▸ h
  sum_mono h le := h.mono (Nat.mul_le_mul_right _ le)
  sum_neg h := atMost_neg h
  sum_abs h := atMost_abs h
  add hm hn few := yields_add_atMost hm ((Nat.one_mul large).symm ▸ hn) few
  sub {k _ _} hm hn few := by
    rw [Nat.add_comm k 1]
    exact yields_sub_atMost ((Nat.one_mul large).symm ▸ hm) hn (by omega)
  format h few := passes_format_atMost h few
  channel h := by
    unfold Color.channel
    refine (yields_mul_int (c := 255) h (by decide)).bind fun m hm => ?_
    exact (yields_roundToInt hm).mono fun i hi => passes_writeInt (Nat.lt_of_le_of_lt hi large_lt)
  percent h := (yields_mul_int (c := 100) h (by decide)).mono fun m hm => passes_format_atMost hm (by decide)
  spread h := (yields_mul_ratio h).mono fun m hm => passes_format_atMost hm (by decide)
  hundredth h :=
    (yields_divNat_atMost h (by decide)).mono fun x hx =>
      Binary64.passes_format_atMost hx (p := 4) (by decide) (by decide)

end Limits

namespace Value

/-! ## 3. Moderate values -/

/-- A value, what is inside it aside, is no number that is too large, be it as a number or as a text that spells
one or starts with one.  What is not finite does not count, but at the start of a text. -/
def IsModerate : Value → Prop
  | .number n => n.isFinite = true → n.AtMost Number.large
  | .text s =>
    (∀ x ∈ Numeral.readNumeral? s, x.isFinite = true → x.AtMost Number.large) ∧
      (∀ x ∈ Numeral.readDouble? s, x.isFinite = true → x.AtMost Number.large) ∧
        ∀ x ∈ Numeral.readNumeral? (String.ofList (Typography.leadingNumeral s.toList)), x.AtMost Number.large
  | _ => True

instance decidableIsModerate : (v : Value) → Decidable v.IsModerate
  | .number n => inferInstanceAs (Decidable (n.isFinite = true → n.AtMost Number.large))
  | .text _ => inferInstanceAs (Decidable (_ ∧ _ ∧ _))
  | .null | .bool _ | .list _ | .object _ => isTrue trivial

end Value

namespace Limits

open Number

/-- What a moderate number is taken for is moderate. -/
theorem atMost_toDouble {n : Number} {x : Binary64} (h : n.AtMost large) (read : n.toDouble = .ok x) :
    x.AtMost large := by
  have one : n.AtMost (1 * large) := (Nat.one_mul large).symm ▸ h
  have double : Yields (fun _ => False) (Binary64.AtMost (1 * large)) n.toDouble :=
    yields_toDouble_atMost one (by decide)
  have := double.result x read
  rwa [Nat.one_mul] at this

/-- The double that a moderate value is read as is moderate, if it is finite. -/
theorem atMost_readDouble {v : Value} {x : Binary64} (h : v.IsModerate) (read : Request.readDouble v = .ok x)
    (finite : x.isFinite = true) : x.AtMost large := by
  unfold Request.readDouble at read
  split at read
  · rename_i b
    have small : (if b then 1 else 0 : Int).natAbs ≤ 1 * large := by
      cases b <;> decide +kernel
    have double := Binary64.atMost_ofInt small (by decide)
    rwa [Nat.one_mul, Except.ok.inj read] at double
  · rename_i n
    split at read
    · rename_i y double
      cases read
      have given : n.isFinite = true := by
        cases n with
        | int i => rfl
        | real z =>
          cases double
          exact finite
      exact atMost_toDouble (h given) double
    · cases read
  · split at read
    · rename_i y double
      cases read
      exact h.2.1 x double finite
    · cases read
  · cases read

/-- A request of moderate values is within the limits. -/
theorem accepts_moderate {v : Value} (h : v.IsModerate) : moderate.accepts v := by
  refine ⟨?_, fun x read finite => atMost_readDouble h read finite⟩
  cases v with
  | number n => exact h
  | text s => exact ⟨h.1, h.2.2⟩
  | _ => exact trivial

end Limits

namespace Service

/-! ## 4. Answers -/

variable {text : String} {body : Body}

theorem handle_compile (read : Body.read (some text) = .ok body) (setup : Setup) (state : State) :
    ((handle setup "POST" "/compile" (some text)).run state).1 =
      ((compile setup body).run state).1.sent body.isLone := by
  have method : Text.upper "POST" = "POST" := by decide +kernel
  have route : Route.ofPath? "/compile" = some .compile := by decide +kernel
  unfold handle answer
  rw [method, route]
  unfold respond respondTo
  rw [read]
  rfl

/-- The answer to what building a component comes to. -/
def outcomeResponse : Except Fault Component → Response
  | .ok c => componentResponse c
  | .error f => faultResponse f

theorem run_compile {nodes : List Value} (submitted : body.nodes = .ok nodes) (setup : Setup) (state : State) :
    ((compile setup body).run state).1 =
      outcomeResponse ((Component.build setup.world (.list nodes)).run state.fonts).1 := by
  unfold compile build
  rw [submitted]
  rcases run : (Component.build setup.world (.list nodes)).run state.fonts with ⟨fault | component, fonts⟩ <;>
    · simp only [bind_pure_comp, bind_assoc, pure_bind, map_pure, StateT.run_bind, StateT.run_get, StateT.run_set,
        StateT.run_map, run]
      rfl

/-- An object can be written if its names and values can. -/
theorem areMembersWritable_of_mem {isLone : Char → Bool} {ms : Members}
    (h : ∀ m ∈ ms, m.1.toList.any isLone = false ∧ m.2.isWritable isLone = true) :
    Value.areMembersWritable isLone ms = true := by
  induction ms with
  | nil => rfl
  | cons m rest ih =>
    obtain ⟨name, value⟩ := m
    obtain ⟨plain, writable⟩ := h (name, value) List.mem_cons_self
    rw [Value.areMembersWritable, ih fun m hm => h m (List.mem_cons_of_mem _ hm), plain, writable]
    simp

/-- A component is sent where files can hold its texts. -/
theorem sent_component {isLone : Char → Bool} {c : Component} (high : Text.AreHigh isLone)
    (name : c.name.toList.any isLone = false) (code : c.code.toList.any isLone = false)
    (stylesheet : c.stylesheet.toList.any isLone = false) :
    (componentResponse c).sent isLone = componentResponse c := by
  have writable : (componentResponse c).isWritable isLone = true := by
    refine areMembersWritable_of_mem fun m hm => ?_
    simp only [List.mem_cons, List.not_mem_nil, or_false] at hm
    rcases hm with rfl | rfl | rfl
    · exact ⟨Text.not_lone_of_isLow (s := "name") high (by decide), by simp [Value.isWritable, name]⟩
    · exact ⟨Text.not_lone_of_isLow (s := "component") high (by decide), by simp [Value.isWritable, code]⟩
    · exact ⟨Text.not_lone_of_isLow (s := "stylesheet") high (by decide), by simp [Value.isWritable, stylesheet]⟩
  unfold Response.sent
  rw [if_pos writable]

/-- An answer without characters that cannot be encoded is sent as it is. -/
theorem sent_componentResponse {isLone : Char → Bool} (plain : ∀ c, isLone c = false) (c : Component) :
    (componentResponse c).sent isLone = componentResponse c := by
  have text (s : String) : s.toList.any isLone = false := List.any_eq_false.mpr fun c _ => by rw [plain c]; decide
  have high : Text.AreHigh isLone := fun ch lone => by simp [plain ch] at lone
  exact sent_component high (text c.name) (text c.code) (text c.stylesheet)

/-- The nodes of a body are those of the object that it is. -/
theorem nodes_of_body {nodes : List Value} (submitted : body.nodes = .ok nodes) :
    ∃ request, body.value = .object request ∧ Request.nodes request = .ok nodes := by
  unfold Body.nodes at submitted
  split at submitted
  · rename_i request value
    split at submitted
    · cases submitted
    · split at submitted
      · rename_i clean proper
        cases submitted
        exact ⟨request, value, proper⟩
      · cases submitted
  · cases submitted

/-- **A request of moderate numbers is answered with a component.**  If a body is read and its nodes have no problems,
there are some, they are fewer than 100 levels deep, and no number in the body is too large, a component is built of
them in every state of the fonts, and it is what the request is answered with; only a character of it that cannot
be encoded stops the answer. -/
theorem handle_moderate {nodes : List Value} (read : Body.read (some text) = .ok body)
    (submitted : body.nodes = .ok nodes) (given : nodes ≠ [])
    (few : Node.levelsIn (Node.ofValues nodes) < 100) (moderate : body.value.Everywhere Value.IsModerate)
    (setup : Setup) (state : State) :
    ∃ component, ((Component.build setup.world (.list nodes)).run state.fonts).1 = .ok component ∧
      ((handle setup "POST" "/compile" (some text)).run state).1 = (componentResponse component).sent body.isLone ∧
      ((∀ c, body.isLone c = false) →
        ((handle setup "POST" "/compile" (some text)).run state).1 = componentResponse component) := by
  obtain ⟨request, value, proper⟩ := nodes_of_body submitted
  have within : Value.Everywhere Limits.moderate.accepts (.object request) :=
    fun v hv => Limits.accepts_moderate (moderate v (value ▸ hv))
  have room : Node.levelsIn (Node.ofValues nodes) + 2 ≤ Limits.moderate.most := by
    show Node.levelsIn (Node.ofValues nodes) + 2 ≤ 2 ^ 20
    omega
  obtain ⟨component, built, -⟩ :=
    (Limits.passes_build proper given within room setup.world state.fonts).succeeds
  have answered : ((compile setup body).run state).1 = componentResponse component := by
    rw [run_compile submitted, built]
    rfl
  refine ⟨component, built, ?_, fun plain => ?_⟩
  · rw [handle_compile read, answered]
  · rw [handle_compile read, answered, sent_componentResponse plain]

/-- A body without lone surrogates is read at once. -/
theorem read_plain {v : Value} (given : text ≠ "") (read : Body.readWith .usual text = .ok v)
    (plain : v.anyChar Text.StandIns.usual.has = false) : Body.read (some text) = .ok ⟨v, fun _ => false⟩ := by
  unfold Body.read
  dsimp only [Option.getD_some]
  rw [if_neg given, read]
  show (if v.anyChar Text.StandIns.usual.has = true then _ else _) = _
  rw [plain]
  rfl

/-- The body of a request with one node, filled in a colour with this much red. -/
def lamp (red : String) : String :=
  "\x7b\"data\": [\x7b\"name\": \"Lamp\", \"type\": \"FRAME\", \"width\": 10, \"height\": 10, \"fills\": [" ++
    "\x7b\"type\": \"SOLID\", \"color\": \x7b\"r\": " ++ red ++ ", \"g\": 0, \"b\": 0\x7d\x7d]\x7d]\x7d"

/-- A body without lone surrogates submits nodes, with a property. -/
def submits (check : Value → List Value → Bool) (text : String) : Bool :=
  match Body.readWith .usual text with
  | .ok v =>
    !v.anyChar Text.StandIns.usual.has &&
      match Body.nodes ⟨v, fun _ => false⟩ with
      | .ok nodes => !nodes.isEmpty && decide (Node.levelsIn (Node.ofValues nodes) < 100) && check v nodes
      | .error _ => false
  | .error _ => false

theorem of_submits {check : Value → List Value → Bool} (given : text ≠ "") (h : submits check text = true) :
    ∃ v nodes, Body.read (some text) = .ok ⟨v, fun _ => false⟩ ∧ Body.nodes ⟨v, fun _ => false⟩ = .ok nodes ∧
      nodes ≠ [] ∧ Node.levelsIn (Node.ofValues nodes) < 100 ∧ check v nodes = true := by
  unfold submits at h
  split at h
  · rename_i v read
    obtain ⟨plain, h⟩ := Bool.and_eq_true_iff.mp h
    split at h
    · rename_i nodes submitted
      simp only [Bool.and_eq_true, decide_eq_true_eq, Bool.not_eq_true', List.isEmpty_eq_false_iff] at h plain
      exact ⟨v, nodes, read_plain given read plain, submitted, h.1.1, h.1.2, h.2⟩
    · cases h
  · cases h

/-- A red that is infinite counts for no colour. -/
theorem handle_moderate_lamp : ∃ body nodes, Body.read (some (lamp "1e999")) = .ok body ∧
    body.nodes = .ok nodes ∧ ∀ setup state, ∃ component,
      ((Component.build setup.world (.list nodes)).run state.fonts).1 = .ok component ∧
        ((handle setup "POST" "/compile" (some (lamp "1e999"))).run state).1 = componentResponse component := by
  have submitted : submits (fun v _ => decide (v.Everywhere Value.IsModerate)) (lamp "1e999") = true := by
    decide +kernel
  obtain ⟨v, nodes, read, proper, given, few, moderate⟩ := of_submits (by decide +kernel) submitted
  refine ⟨_, nodes, read, proper, fun setup state => ?_⟩
  obtain ⟨component, built, -, answered⟩ :=
    handle_moderate read proper given few (of_decide_eq_true moderate) setup state
  exact ⟨component, built, answered fun _ => rfl⟩

/-- An outcome is that a number is too large. -/
def isTooLarge {α : Type} : Except Fault α → Bool
  | .error fault => fault = .tooLarge
  | .ok _ => false

theorem eq_of_isTooLarge {α : Type} {outcome : Except Fault α} (h : isTooLarge outcome = true) :
    outcome = .error .tooLarge := by
  cases outcome with
  | ok a => cases h
  | error fault => rw [of_decide_eq_true h]

/-- A red that is finite but too large is multiplied to an infinity, which has no nearest integer. -/
theorem handle_glaring : ∃ body nodes, Body.read (some (lamp "1e307")) = .ok body ∧
    body.nodes = .ok nodes ∧ nodes ≠ [] ∧ Node.levelsIn (Node.ofValues nodes) < 100 ∧ ∀ setup state,
      ((Component.build setup.world (.list nodes)).run state.fonts).1 = .error .tooLarge ∧
        ((handle setup "POST" "/compile" (some (lamp "1e307"))).run state).1 = .internal := by
  have submitted : submits (fun _ nodes => isTooLarge (Composition.ofValue (.list nodes))) (lamp "1e307") = true := by
    decide +kernel
  obtain ⟨v, nodes, read, proper, given, few, glaring⟩ := of_submits (by decide +kernel) submitted
  refine ⟨_, nodes, read, proper, given, few, fun setup state => ?_⟩
  have compiled : Composition.ofValue (.list nodes) = .error .tooLarge := eq_of_isTooLarge glaring
  have built : ((Component.build setup.world (.list nodes)).run state.fonts).1 = .error .tooLarge := by
    unfold Component.build
    rw [compiled]
    rfl
  refine ⟨built, ?_⟩
  rw [handle_compile read, run_compile proper, built]
  rfl

end Service

end Artboard
