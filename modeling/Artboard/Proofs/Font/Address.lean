import Artboard.Font.Basic
import Artboard.Proofs.Number.Notation
import Artboard.Proofs.Text.Blank
import Artboard.Proofs.Text.Percent
import Artboard.Style.Typography
import Mathlib.Data.Finset.Sort

/-!
# Addresses of stylesheets

An address is read by splitting it at its question mark and decoding the query as that of a form (`Form.parameters`).
The address of a stylesheet then gives the family with its weights (`Font.titled`) if and only if the name of the
family has nothing in it that a query does not take as it is (`Font.IsLiteral`): of all such characters only spaces are
written in another way.

Two families with weights have one address only where their names differ in pluses for spaces, or where a family
without weights is named like the other one with its weights (`Font.stylesheetUrl_eq_iff`).
-/

namespace Artboard

namespace Text

/-! ## 1. Queries -/

namespace Form

/-- The text with a space for each plus. -/
def spaced (s : List Char) : List Char := s.map fun c => if c == '+' then ' ' else c

/-- The text with a plus for each space. -/
def plussed (s : List Char) : List Char := s.map fun c => if c == ' ' then '+' else c

/-- A part of a query as it is read: a plus is a space, and then escapes are read. -/
def readPart (s : List Char) : String := String.ofList (Percent.decode (spaced s))

/-- A parameter: its name, and its value behind the first equals sign. -/
def readParameter (piece : List Char) : String × String :=
  (readPart (piece.takeWhile (· != '=')), readPart ((piece.dropWhile (· != '=')).drop 1))

/-- The parameters of a query, which stand between ampersands; where nothing does, there is none. -/
def parameters (query : List Char) : List (String × String) :=
  ((query.splitOn '&').filter fun piece => !piece.isEmpty).map readParameter

/-- The query of an address: what is behind its first question mark. -/
def queryOf (address : String) : List Char := (address.toList.dropWhile (· != '?')).drop 1

variable {s t : List Char}

theorem spaced_append (s t : List Char) : spaced (s ++ t) = spaced s ++ spaced t := List.map_append

theorem length_spaced (s : List Char) : (spaced s).length = s.length := List.length_map _

theorem spaced_eq_self_iff : spaced s = s ↔ '+' ∉ s := by
  have pointwise : spaced s = s.map id ↔ ∀ c ∈ s, (if c == '+' then ' ' else c) = id c := List.map_inj_left
  rw [List.map_id] at pointwise
  rw [pointwise]
  constructor
  · intro same plus
    exact absurd (same '+' plus) (by decide)
  · intro plusless c hc
    have other : c ≠ '+' := fun plus => plusless (plus ▸ hc)
    simp [other]

theorem plussed_append (s t : List Char) : plussed (s ++ t) = plussed s ++ plussed t := List.map_append

theorem length_plussed (s : List Char) : (plussed s).length = s.length := List.length_map _

theorem spaced_plussed (s : List Char) : spaced (plussed s) = spaced s := by
  unfold spaced plussed
  rw [List.map_map]
  refine List.map_congr_left fun c _ => ?_
  by_cases space : c = ' '
  · rw [space]
    rfl
  · simp [space]

theorem plussed_spaced (s : List Char) : plussed (spaced s) = plussed s := by
  unfold spaced plussed
  rw [List.map_map]
  refine List.map_congr_left fun c _ => ?_
  by_cases plus : c = '+'
  · rw [plus]
    rfl
  · simp [plus]

theorem plussed_eq_self (h : ' ' ∉ s) : plussed s = s := by
  refine (List.map_congr_left fun c hc => ?_).trans (List.map_id s)
  have other : c ≠ ' ' := fun space => h (space ▸ hc)
  simp [other]

/-- Only spaces and pluses are written in another way. -/
theorem mem_plussed_iff {c : Char} (space : c ≠ ' ') (plus : c ≠ '+') : c ∈ plussed s ↔ c ∈ s := by
  unfold plussed
  rw [List.mem_map]
  constructor
  · rintro ⟨d, hd, written⟩
    by_cases blank : d = ' '
    · rw [blank] at written
      exact absurd written.symm plus
    · have same : d = c := by simpa [blank] using written
      exact same ▸ hd
  · exact fun h => ⟨c, h, by simp [space]⟩

/-- A parameter is split at the equals sign behind its name. -/
theorem readParameter_append {name : List Char} (plain : '=' ∉ name) (value : List Char) :
    readParameter (name ++ '=' :: value) = (readPart name, readPart value) := by
  have others : ∀ c ∈ name, (c != '=') = true := fun c hc => by simpa using fun same : c = '=' => plain (same ▸ hc)
  obtain ⟨front, back⟩ := Numeral.takeWhile_append_stop (t := '=' :: value) others rfl
  unfold readParameter
  rw [front, back]
  rfl

/-- What is in front of the first ampersand is the first parameter. -/
theorem parameters_append {piece : List Char} (plain : '&' ∉ piece) (given : piece ≠ []) (rest : List Char) :
    parameters (piece ++ '&' :: rest) = readParameter piece :: parameters rest := by
  have split : (piece ++ '&' :: rest).splitOn '&' = piece :: rest.splitOn '&' := by
    have here : piece.splitOnP (· == '&') = [piece] := List.splitOn_eq_singleton plain
    unfold List.splitOn
    rw [List.splitOnP_append_cons piece rest (by decide), here]
    rfl
  unfold parameters
  rw [split, List.filter_cons_of_pos (by simpa using given), List.map_cons]

theorem toList_readPart (s : List Char) : (readPart s).toList = Percent.decode (spaced s) := String.toList_ofList

end Form

end Text

open Text Text.Form

namespace Font

/-! ## 2. Weights -/

/-- **A family with its weights**, as an address should say it: the name, and behind it the weights of the set,
ascending, if there are any. -/
def titled (family : String) (weights : Finset Int) : String :=
  if weights = ∅ then family
  else family ++ ":wght@" ++ ";".intercalate ((weights.sort fun a b => a ≤ b).map toString)

variable {family other : String} {weights others : List Int}

theorem pairwise_mergeSort (weights : List Int) :
    (weights.mergeSort fun a b => decide (a ≤ b)).Pairwise (· ≤ ·) := by
  have sorted : (weights.mergeSort fun a b => decide (a ≤ b)).Pairwise fun a b => decide (a ≤ b) = true :=
    List.pairwise_mergeSort (by simp only [decide_eq_true_eq]; omega)
      (by simp only [Bool.or_eq_true, decide_eq_true_eq]; omega) weights
  simpa only [decide_eq_true_eq] using sorted

/-- Weights have one ascending order, in whatever order they are listed. -/
theorem mergeSort_eq {sorted : List Int} (ascending : sorted.Pairwise (· ≤ ·)) (same : weights.Perm sorted) :
    (weights.mergeSort fun a b => decide (a ≤ b)) = sorted :=
  ((List.mergeSort_perm weights _).trans same).eq_of_pairwise (fun _ _ _ _ => Int.le_antisymm)
    (pairwise_mergeSort weights) ascending

theorem titled_eq (once : weights.Nodup) (family : String) :
    titled family weights.toFinset = family ++ addressWeights weights := by
  have same := List.perm_of_nodup_nodup_toFinset_eq once (weights.toFinset.sort_nodup fun a b => a ≤ b)
    (weights.toFinset.sort_toFinset fun a b => a ≤ b).symm
  unfold titled addressWeights
  rw [mergeSort_eq (weights.toFinset.pairwise_sort fun a b => a ≤ b) same]
  by_cases bare : weights = []
  · subst bare
    simp
  · rw [if_neg (by simpa using bare), if_neg (by simpa using bare), String.append_assoc]

/-- The characters of weights with semicolons between them. -/
theorem mem_intercalate_toString {c : Char} (h : c ∈ (";".intercalate (weights.map toString)).toList) :
    c.isDigit = true ∨ c = '-' ∨ c = ';' := by
  induction weights with
  | nil => cases h
  | cons first rest ih =>
    have own (hc : c ∈ (toString first).toList) : c.isDigit = true ∨ c = '-' ∨ c = ';' := by
      have digits := (digits_digitsOf first.natAbs).2 c
      rw [toList_toString] at hc
      split at hc
      · exact .inl (digits hc)
      · exact (List.mem_cons.mp hc).elim (fun minus => .inr (.inl minus)) fun hd => .inl (digits hd)
    cases rest with
    | nil => exact own (by simpa using h)
    | cons second more =>
      have written : (";".intercalate ((first :: second :: more).map toString)).toList =
          (toString first).toList ++ ';' :: (";".intercalate ((second :: more).map toString)).toList := by simp
      rw [written, List.mem_append, List.mem_cons] at h
      rcases h with hc | rfl | hc
      · exact own hc
      · exact .inr (.inr rfl)
      · exact ih hc

/-- What an address has behind the name of a family. -/
theorem toList_addressWeights (given : weights ≠ []) : (addressWeights weights).toList =
    ":wght".toList ++ '@' :: (";".intercalate ((weights.mergeSort fun a b => decide (a ≤ b)).map toString)).toList := by
  unfold addressWeights
  rw [if_neg (by simpa using given), String.toList_append]
  rfl

theorem mem_addressWeights {c : Char} (h : c ∈ (addressWeights weights).toList) :
    c.isDigit = true ∨ c ∈ ":wght@-;".toList := by
  by_cases given : weights = []
  · rw [given] at h
    cases h
  · rw [toList_addressWeights given, List.mem_append, List.mem_cons] at h
    rcases h with h | rfl | h
    · exact .inr (List.mem_append_left "@-;".toList h)
    · exact .inr (by decide)
    · rcases mem_intercalate_toString h with digit | rfl | rfl
      · exact .inl digit
      · exact .inr (by decide)
      · exact .inr (by decide)

/-- No character of weights means anything in a query. -/
theorem not_mem_addressWeights (c : Char) (special : c ∈ "&+% ".toList) : c ∉ (addressWeights weights).toList := by
  have all : ("&+% ".toList.all fun c => !c.isDigit && !":wght@-;".toList.contains c) = true := by decide
  have apart := List.all_eq_true.mp all c special
  simp only [Bool.and_eq_true, Bool.not_eq_true', List.contains_eq_mem, decide_eq_false_iff_not] at apart
  intro h
  rcases mem_addressWeights h with digit | mark
  · rw [apart.1] at digit
    cases digit
  · exact apart.2 mark

theorem head?_addressWeights : ∀ c ∈ (addressWeights weights).toList.head?, hexValue? c = none := by
  intro c hc
  by_cases given : weights = []
  · rw [given] at hc
    cases hc
  · rw [toList_addressWeights given] at hc
    rw [← Option.some.inj (show some ':' = some c from hc)]
    decide

/-- Weights that are written alike are the same. -/
theorem intercalate_toString_inj (given : weights ≠ []) (given' : others ≠ [])
    (same : ";".intercalate (weights.map toString) = ";".intercalate (others.map toString)) : weights = others := by
  have read {ws : List Int} (some : ws ≠ []) :
      (";".intercalate (ws.map toString)).toList.splitOn ';' = ws.map fun w => (toString w).toList := by
    have apart : ∀ l ∈ ws.map fun w => (toString w).toList, ';' ∉ l := by
      intro l hl semicolon
      obtain ⟨w, -, rfl⟩ := List.mem_map.mp hl
      have digits := (digits_digitsOf w.natAbs).2 ';'
      rw [toList_toString] at semicolon
      split at semicolon
      · exact absurd (digits semicolon) (by decide)
      · exact absurd (digits (by simpa using semicolon)) (by decide)
    rw [String.toList_intercalate, List.map_map]
    exact List.splitOn_intercalate ';' apart (by simpa using some)
  have texts : (weights.map fun w => (toString w).toList) = others.map fun w => (toString w).toList := by
    rw [← read given, ← read given', same]
  refine List.map_injective_iff.mpr (fun v w equal => ?_) texts
  have numbers := congrArg Numeral.integer? equal
  rwa [Numeral.integer?_toString, Numeral.integer?_toString, Option.some.injEq] at numbers

/-! ## 3. Families in addresses -/

/-- **A name that a query takes as it is**, but for its spaces: nothing in it ends a parameter, stands for a space or
is an escape. -/
structure IsLiteral (family : String) : Prop where
  unsplit : '&' ∉ family.toList
  plusless : '+' ∉ family.toList
  escapeless : ¬Percent.HasEscape family.toList

/-- A family of a text has no blanks at its ends. -/
theorem trimBlank_family {v : Value} (clean : Typography.family? v = some family) : trimBlank family = family := by
  unfold Typography.family? at clean
  split at clean
  · dsimp only at clean
    split at clean
    · cases clean
    · rw [← Option.some.inj clean]
      unfold trimBlank
      rw [String.toList_ofList, trimBoth_trimBoth]
  · cases clean

/-- The address of a stylesheet. -/
theorem toList_stylesheetUrl (trimmed : trimBlank family = family) (weights : List Int) :
    (stylesheetUrl family weights).toList = stylesheetBase.toList ++ '?' ::
      ("family".toList ++ '=' :: (plussed family.toList ++ (addressWeights weights).toList) ++
        '&' :: "display=swap".toList) := by
  have opening : "?family=".toList = '?' :: ("family".toList ++ ['=']) := rfl
  have ending : "&display=swap".toList = '&' :: "display=swap".toList := rfl
  unfold stylesheetUrl addressName plussed
  simp only [trimmed, String.toList_append, String.toList_ofList, opening, ending, List.append_assoc,
    List.cons_append, List.nil_append]

theorem queryOf_stylesheetUrl (trimmed : trimBlank family = family) (weights : List Int) :
    queryOf (stylesheetUrl family weights) =
      "family".toList ++ '=' :: (plussed family.toList ++ (addressWeights weights).toList) ++
        '&' :: "display=swap".toList := by
  have base : ∀ c ∈ stylesheetBase.toList, (c != '?') = true := List.all_eq_true.mp (by decide)
  unfold queryOf
  rw [toList_stylesheetUrl trimmed, (Numeral.takeWhile_append_stop base rfl).2]
  rfl

theorem spaced_addressWeights (weights : List Int) :
    spaced (addressWeights weights).toList = (addressWeights weights).toList :=
  spaced_eq_self_iff.mpr (not_mem_addressWeights '+' (by decide))

/-- A name with weights behind it is read as it is, if and only if it has neither pluses nor escapes. -/
theorem decode_titled_iff (s : List Char) (weights : List Int) :
    Percent.decode (spaced s ++ (addressWeights weights).toList) = s ++ (addressWeights weights).toList ↔
      '+' ∉ s ∧ ¬Percent.HasEscape s := by
  have bare : '%' ∉ (addressWeights weights).toList := not_mem_addressWeights '%' (by decide)
  constructor
  · intro read
    have plain : ¬Percent.HasEscape (spaced s ++ (addressWeights weights).toList) := by
      intro escape
      have shorter := Percent.length_decodeFrom_lt [] escape
      have length := congrArg List.length read
      unfold Percent.decode at length
      rw [length] at shorter
      simp [length_spaced] at shorter
    rw [Percent.decode_eq_self_iff.mpr plain, List.append_cancel_right_eq] at read
    rw [read] at plain
    refine ⟨spaced_eq_self_iff.mp read, fun ⟨high, low, digits, inside⟩ => plain ⟨high, low, digits, ?_⟩⟩
    exact inside.trans (List.prefix_append _ _).isInfix
  · rintro ⟨plusless, escapeless⟩
    rw [spaced_eq_self_iff.mpr plusless]
    exact Percent.decode_eq_self_iff.mpr fun escape => escapeless (escape.of_append head?_addressWeights bare)

/-- The value of the family ends at the first ampersand. -/
theorem parameters_family {value : List Char} (unsplit : '&' ∉ value) (rest : List Char) :
    parameters ("family".toList ++ '=' :: value ++ '&' :: rest) = ("family", readPart value) :: parameters rest := by
  have name : '=' ∉ "family".toList ∧ readPart "family".toList = "family" := by decide
  have whole : '&' ∉ "family".toList ++ '=' :: value := by
    intro mem
    rcases List.mem_append.mp mem with mem | mem
    · exact absurd mem (by decide)
    · exact unsplit ((List.mem_cons.mp mem).resolve_left (by decide))
  rw [parameters_append whole (by simp), readParameter_append name.1, name.2]

/-- **The address of a stylesheet is read as its family with its weights if and only if the name is literal.** -/
theorem parameters_iff (trimmed : trimBlank family = family) (weights : List Int) :
    parameters (queryOf (stylesheetUrl family weights)) =
      [("family", family ++ addressWeights weights), ("display", "swap")] ↔ IsLiteral family := by
  have ampersand := mem_plussed_iff (s := family.toList) (c := '&') (by decide) (by decide)
  rw [queryOf_stylesheetUrl trimmed]
  by_cases splits : '&' ∈ family.toList
  · -- the first parameter ends within the name, and reading does not make it longer
    refine iff_of_false (fun read => ?_) fun literal => literal.unsplit splits
    obtain ⟨front, back, name, unsplit⟩ := List.eq_append_cons_of_mem (ampersand.mpr splits)
    have query : "family".toList ++ '=' :: (plussed family.toList ++ (addressWeights weights).toList) ++
        '&' :: "display=swap".toList = "family".toList ++ '=' :: front ++
          '&' :: (back ++ (addressWeights weights).toList ++ '&' :: "display=swap".toList) := by simp [name]
    rw [query, parameters_family unsplit] at read
    have value := congrArg String.length (Prod.mk.inj (List.cons.inj read).1).2
    have short := Percent.length_decode_le (spaced front)
    have long := congrArg List.length name
    rw [← String.length_toList, ← String.length_toList, toList_readPart, String.toList_append,
      List.length_append] at value
    rw [length_spaced] at short
    rw [length_plussed, List.length_append, List.length_cons] at long
    omega
  · have unsplit : '&' ∉ plussed family.toList ++ (addressWeights weights).toList := by
      rw [List.mem_append, ampersand]
      exact not_or.mpr ⟨splits, not_mem_addressWeights '&' (by decide)⟩
    have display : parameters "display=swap".toList = [("display", "swap")] := by decide
    rw [parameters_family unsplit, display, List.cons.injEq, Prod.mk.injEq, and_iff_left rfl, and_iff_right rfl,
      ← String.toList_inj, toList_readPart, spaced_append, spaced_plussed, spaced_addressWeights,
      String.toList_append, decode_titled_iff]
    exact ⟨fun ⟨plusless, escapeless⟩ => ⟨splits, plusless, escapeless⟩, fun h => ⟨h.plusless, h.escapeless⟩⟩

/-! ## 4. Families with one address -/

/-- Two names that differ in pluses for spaces only. -/
def SameButPluses (family other : String) : Prop := spaced family.toList = spaced other.toList

theorem stylesheetUrl_eq_iff (trimmed : trimBlank family = family) (trimmed' : trimBlank other = other) :
    stylesheetUrl family weights = stylesheetUrl other others ↔
      spaced family.toList ++ (addressWeights weights).toList =
        spaced other.toList ++ (addressWeights others).toList := by
  rw [← String.toList_inj, toList_stylesheetUrl trimmed, toList_stylesheetUrl trimmed', List.append_cancel_left_eq,
    List.cons.injEq, and_iff_right rfl, List.append_cancel_right_eq, List.append_cancel_left_eq, List.cons.injEq,
    and_iff_right rfl]
  constructor
  · intro same
    have read := congrArg spaced same
    simpa only [spaced_append, spaced_plussed, spaced_addressWeights] using read
  · intro same
    have kept (ws : List Int) : plussed (addressWeights ws).toList = (addressWeights ws).toList :=
      plussed_eq_self (not_mem_addressWeights ' ' (by decide))
    have written := congrArg plussed same
    simpa only [plussed_append, plussed_spaced, kept] using written

theorem sameButPluses_titled (once : others.Nodup) : SameButPluses family (titled other others.toFinset) ↔
    spaced family.toList = spaced other.toList ++ (addressWeights others).toList := by
  unfold SameButPluses
  rw [titled_eq once, String.toList_append, spaced_append, spaced_addressWeights]

/-- What is behind the last at sign is found again. -/
theorem append_at_inj {a b x y : List Char} (hx : '@' ∉ x) (hy : '@' ∉ y) (same : a ++ '@' :: x = b ++ '@' :: y) :
    a = b ∧ x = y := by
  rcases List.append_eq_append_iff.mp same with ⟨rest, hb, hr⟩ | ⟨rest, ha, hr⟩
  · cases rest with
    | nil => simpa using And.intro hb.symm hr
    | cons c rest =>
      have inside : x = rest ++ '@' :: y := (List.cons.inj hr).2
      exact absurd (inside ▸ List.mem_append_right rest List.mem_cons_self) hx
  · cases rest with
    | nil => simpa using And.intro ha hr.symm
    | cons c rest =>
      have inside : y = rest ++ '@' :: x := (List.cons.inj hr).2
      exact absurd (inside ▸ List.mem_append_right rest List.mem_cons_self) hy

/-- Names with weights behind them, some for each, are the same only if both names and weights are. -/
theorem append_addressWeights_inj {s t : List Char} (given : weights ≠ []) (given' : others ≠ [])
    (same : s ++ (addressWeights weights).toList = t ++ (addressWeights others).toList) :
    s = t ∧ weights.toFinset = others.toFinset := by
  have plain (ws : List Int) : '@' ∉ (";".intercalate (ws.map toString)).toList := by
    intro mem
    rcases mem_intercalate_toString mem with digit | minus | semicolon
    · exact absurd digit (by decide)
    · exact absurd minus (by decide)
    · exact absurd semicolon (by decide)
  rw [toList_addressWeights given, toList_addressWeights given', ← List.append_assoc, ← List.append_assoc] at same
  obtain ⟨names, lists⟩ := append_at_inj (plain _) (plain _) same
  refine ⟨List.append_cancel_right names, ?_⟩
  have sorted {ws : List Int} (some : ws ≠ []) : (ws.mergeSort fun a b => decide (a ≤ b)) ≠ [] := by
    intro none
    have same := List.mergeSort_perm ws fun a b => decide (a ≤ b)
    rw [none] at same
    exact some same.symm.eq_nil
  have listed := intercalate_toString_inj (sorted given) (sorted given') (String.toList_inj.mp lists)
  rw [← List.toFinset_eq_of_perm _ _ (List.mergeSort_perm weights fun a b => decide (a ≤ b)), listed,
    List.toFinset_eq_of_perm _ _ (List.mergeSort_perm others _)]

end Font

end Artboard
