import Artboard.Proofs.Component
import Mathlib.Data.Bool.AllAny

/-!
# Names of components

A component is called by a capital and plain letters and digits (`Component.IsProper`), whatever its first root is
called: the plain letters and digits of that name, in their order (`Component.letters`), are all that counts.  The
first of them becomes a capital, a digit in front is kept behind a word, and where there are none the component has a
name of its own (`nameOfChars_cons`).  A name that is proper stays as it is, and no other does (`nameOf_text`).

Which names a component is called a given name by is settled by the same cases (`nameOfChars_eq_iff`).
-/

namespace Artboard

namespace Component

variable {c first : Char} {chars rest : List Char} {name s : String}

/-! ## 1. Plain characters -/

/-- A capital of the alphabet. -/
def IsCapital (c : Char) : Prop := 'A' ≤ c ∧ c ≤ 'Z'

/-- A plain digit. -/
def IsNumeral (c : Char) : Prop := '0' ≤ c ∧ c ≤ '9'

/-- A plain letter or digit. -/
def IsPlain (c : Char) : Prop := IsCapital c ∨ ('a' ≤ c ∧ c ≤ 'z') ∨ IsNumeral c

instance : DecidablePred IsCapital := fun c => inferInstanceAs (Decidable ('A' ≤ c ∧ c ≤ 'Z'))

instance : DecidablePred IsNumeral := fun c => inferInstanceAs (Decidable ('0' ≤ c ∧ c ≤ '9'))

instance : DecidablePred IsPlain := fun c =>
  inferInstanceAs (Decidable (IsCapital c ∨ ('a' ≤ c ∧ c ≤ 'z') ∨ IsNumeral c))

theorem isDigit_iff : c.isDigit = true ↔ IsNumeral c := by
  simp [Char.isDigit, IsNumeral, Char.le_def]

theorem isNameChar_iff : isNameChar c = true ↔ IsPlain c := by
  have upper : c.isUpper = true ↔ IsCapital c := decide_eq_true_iff
  have lower : c.isLower = true ↔ 'a' ≤ c ∧ c ≤ 'z' :=
    Bool.and_eq_true_iff.trans (and_congr decide_eq_true_iff decide_eq_true_iff)
  have letter : c.isAlpha = true ↔ IsCapital c ∨ 'a' ≤ c ∧ c ≤ 'z' :=
    Bool.or_eq_true_iff.trans (or_congr upper lower)
  exact Bool.or_eq_true_iff.trans ((or_congr letter isDigit_iff).trans or_assoc)

/-- What holds of all plain characters can be seen by looking at them. -/
theorem forall_plain {p : Char → Prop} [DecidablePred p]
    (few : ∀ n < 128, isNameChar (Char.ofNat n) = true → p (Char.ofNat n)) (h : isNameChar c = true) : p c := by
  have seen := few c.toNat (lt_of_isNameChar h) (by rwa [Char.ofNat_toNat])
  rwa [Char.ofNat_toNat] at seen

/-- A plain character that is no digit is a letter, and has a capital. -/
theorem isCapital_toUpper (h : isNameChar c = true) (letter : c.isDigit = false) : IsCapital c.toUpper :=
  forall_plain (p := fun c => c.isDigit = false → IsCapital c.toUpper) (by decide) h letter

theorem toUpper_of_isCapital (h : IsCapital c) : c.toUpper = c := by
  have plain : isNameChar c = true := isNameChar_iff.mpr (.inl h)
  exact forall_plain (p := fun c => IsCapital c → c.toUpper = c) (by decide) plain h

/-- A plain character has a capital exactly if it is this one or its small letter. -/
theorem toUpper_eq_iff (h : isNameChar c = true) (capital : IsCapital first) :
    c.toUpper = first ↔ c = first ∨ c = first.toLower := by
  have plain : isNameChar first = true := isNameChar_iff.mpr (.inl capital)
  have lowered : c.toUpper = first → c = first ∨ c = first.toLower := by
    rintro rfl
    exact forall_plain (p := fun c => c = c.toUpper ∨ c = c.toUpper.toLower) (by decide) h
  have raised : first.toLower.toUpper = first :=
    forall_plain (p := fun c => IsCapital c → c.toLower.toUpper = c) (by decide) plain capital
  refine ⟨lowered, ?_⟩
  rintro (rfl | rfl)
  · exact toUpper_of_isCapital capital
  · exact raised

theorem not_isDigit_of_isCapital (h : IsCapital c) : c.isDigit = false := by
  have plain : isNameChar c = true := isNameChar_iff.mpr (.inl h)
  exact forall_plain (p := fun c => IsCapital c → c.isDigit = false) (by decide) plain h

/-! ## 2. Proper names -/

/-- **A proper name of a component**: a capital, and then any plain letters and digits. -/
def IsProper (name : String) : Prop :=
  ∃ first rest, name.toList = first :: rest ∧ IsCapital first ∧ ∀ c ∈ rest, IsPlain c

theorem isProper_ofList (capital : IsCapital first) (plain : ∀ c ∈ rest, isNameChar c = true) :
    IsProper (String.ofList (first :: rest)) :=
  ⟨first, rest, String.toList_ofList, capital, fun c hc => isNameChar_iff.mp (plain c hc)⟩

theorem IsProper.isNamed (proper : IsProper name) : IsNamed name := by
  obtain ⟨first, rest, chars, capital, plain⟩ := proper
  intro c hc
  rw [chars] at hc
  rcases List.mem_cons.mp hc with rfl | hc
  · exact isNameChar_iff.mpr (.inl capital)
  · exact isNameChar_iff.mpr (plain c hc)

/-- The plain letters and digits of a name, in their order. -/
def letters (s : String) : List Char := s.toList.filter fun c => decide (IsPlain c)

theorem nameOf_text_eq (s : String) : nameOf (.text s) = .ok (nameOfChars (letters s)) := by
  have same : isNameChar = fun c => decide (IsPlain c) :=
    funext fun c => Bool.eq_iff_iff.mpr (by rw [isNameChar_iff, decide_eq_true_iff])
  unfold nameOf letters
  rw [same]

theorem isNameChar_of_mem_letters (h : c ∈ letters s) : isNameChar c = true :=
  isNameChar_iff.mpr (of_decide_eq_true (List.mem_filter.mp h).2)

/-- A proper name has nothing but its letters and digits. -/
theorem IsProper.letters (proper : IsProper name) : letters name = name.toList :=
  List.filter_eq_self.mpr fun c hc => decide_eq_true (isNameChar_iff.mp (proper.isNamed c hc))

/-! ## 3. Called by letters -/

theorem nameOfChars_cons (first : Char) (rest : List Char) : (nameOfChars (first :: rest)).toList =
    if first.isDigit then "Component".toList ++ first :: rest else first.toUpper :: rest := by
  rw [nameOfChars]
  split
  · rw [String.toList_append]
    exact congrArg ("Component".toList ++ ·) String.toList_ofList
  · exact String.toList_ofList

/-- **What a component is called by letters and digits is a proper name.** -/
theorem isProper_nameOfChars (plain : ∀ c ∈ chars, isNameChar c = true) : IsProper (nameOfChars chars) := by
  cases chars with
  | nil =>
    have own : IsProper (String.ofList ('F' :: "igmaComponent".toList)) :=
      isProper_ofList (by decide) (List.all_eq_true.mp (by decide))
    exact own
  | cons first rest =>
    have others : ∀ c ∈ rest, isNameChar c = true := fun c hc => plain c (List.mem_cons_of_mem _ hc)
    have chars := nameOfChars_cons first rest
    rw [← String.ofList_toList (s := nameOfChars (first :: rest)), chars]
    split
    · have word : ∀ c ∈ "omponent".toList, isNameChar c = true := List.all_eq_true.mp (by decide)
      have behind : ∀ c ∈ "omponent".toList ++ first :: rest, isNameChar c = true :=
        fun c hc => (List.mem_append.mp hc).elim (word c) (plain c)
      have capital : IsCapital 'C' := by decide
      exact isProper_ofList capital behind
    · rename_i letter
      exact isProper_ofList (isCapital_toUpper (plain first List.mem_cons_self) (Bool.not_eq_true _ ▸ letter)) others

theorem IsProper.isStep (proper : IsProper name) : Path.IsStep name := by
  have named := proper.isNamed
  obtain ⟨first, rest, chars, capital, -⟩ := proper
  have member : first ∈ name.toList := by simp [chars]
  have other {more : String} (without : more.toList.all fun c => ¬IsCapital c) : name ≠ more := by
    rintro rfl
    exact List.all_iff_forall_prop.mp without first member capital
  exact ⟨⟨fun slash => absurd (named '/' slash) (by decide), other (by decide)⟩, other (by decide), other (by decide)⟩

theorem isProper_nameOf {v : Value} (called : nameOf v = .ok name) : IsProper name := by
  unfold nameOf at called
  split at called
  · cases called
    exact isProper_nameOfChars fun c hc => (List.mem_filter.mp hc).2
  · split at called
    · cases called
    · cases called
      have none : ∀ c ∈ ([] : List Char), isNameChar c = true := fun c hc => absurd hc List.not_mem_nil
      exact isProper_nameOfChars none

/-- **Which letters and digits call a component by a name**: those of the name, with or without the capital, unless
the name starts like one that is put in front. -/
theorem nameOfChars_eq_iff (plain : ∀ c ∈ chars, isNameChar c = true) (capital : IsCapital first) (own : first ≠ 'F')
    (word : first ≠ 'C') :
    nameOfChars chars = String.ofList (first :: rest) ↔ chars = first :: rest ∨ chars = first.toLower :: rest := by
  rw [← String.toList_inj, String.toList_ofList]
  cases chars with
  | nil =>
    have other : (nameOfChars []).toList ≠ first :: rest := fun same => own (List.cons.inj same).1.symm
    simp [other]
  | cons c more =>
    rw [nameOfChars_cons]
    split
    · rename_i digit
      have other : "Component".toList ++ c :: more ≠ first :: rest := fun same => word (List.cons.inj same).1.symm
      have letter {d : Char} (h : d.isDigit = false) : c ≠ d := fun same => by
        rw [same, h] at digit
        cases digit
      have small : first.toLower.isDigit = false :=
        forall_plain (p := fun c => IsCapital c → c.toLower.isDigit = false) (by decide)
          (isNameChar_iff.mpr (.inl capital)) capital
      refine iff_of_false other ?_
      rintro (same | same)
      · exact letter (not_isDigit_of_isCapital capital) (List.cons.inj same).1
      · exact letter small (List.cons.inj same).1
    · have front := toUpper_eq_iff (plain c List.mem_cons_self) capital
      rw [List.cons.injEq, front, List.cons.injEq, List.cons.injEq, or_and_right]

/-- A proper name is called by itself. -/
theorem IsProper.nameOf (proper : IsProper name) : nameOf (.text name) = .ok name := by
  rw [nameOf_text_eq, proper.letters]
  obtain ⟨first, rest, chars, capital, -⟩ := proper
  have same : (nameOfChars (first :: rest)).toList = first :: rest := by
    rw [nameOfChars_cons, not_isDigit_of_isCapital capital, toUpper_of_isCapital capital]
    rfl
  rw [chars, ← String.ofList_toList (s := nameOfChars (first :: rest)), same, ← chars, String.ofList_toList]

/-- Plain characters have plain small letters. -/
theorem lowerChars_of_plain (plain : ∀ c ∈ chars, isNameChar c = true) (before : Bool) :
    Text.lowerChars before chars = chars.map Char.toLower := by
  induction chars generalizing before with
  | nil => rfl
  | cons c rest ih =>
    have small : c.toNat < 0x80 := lt_of_isNameChar (plain c List.mem_cons_self)
    have sigma : (c == 'Σ') = false := by
      rw [beq_eq_false_iff_ne]
      rintro rfl
      exact absurd small (by decide)
    have others := ih fun d hd => plain d (List.mem_cons_of_mem _ hd)
    simp [Text.lowerChars, sigma, Text.lowerChar, small, others]

theorem toList_lower (named : IsNamed name) : (Text.lower name).toList = name.toList.map Char.toLower :=
  String.toList_ofList.trans (lowerChars_of_plain named false)

/-- **The name of a component is proper, and of the given name only the plain letters and digits count.**  A given name
stays as it is exactly if it is proper, so that naming a component by its name changes nothing.  The letters and digits
are all kept, in their order: a letter in front becomes a capital, and a digit in front is put behind a word.  Names
with the same letters and digits come to the same. -/
theorem nameOf_text (s : String) : ∃ name, nameOf (.text s) = .ok name ∧
    IsProper name ∧
    (name = s ↔ IsProper s) ∧
    nameOf (.text name) = .ok name ∧
    (∀ first rest, letters s = first :: rest →
      name.toList = if IsNumeral first then "Component".toList ++ first :: rest else first.toUpper :: rest) ∧
    ∀ other, letters other = letters s → nameOf (.text other) = .ok name := by
  have proper : IsProper (nameOfChars (letters s)) :=
    isProper_nameOfChars fun c hc => isNameChar_of_mem_letters hc
  refine ⟨nameOfChars (letters s), nameOf_text_eq s, proper, ⟨fun same => same ▸ proper, fun given => ?_⟩,
    proper.nameOf, fun first rest given => ?_, fun other same => ?_⟩
  · exact Except.ok.inj ((nameOf_text_eq s).symm.trans given.nameOf)
  · rw [given, nameOfChars_cons]
    simp only [isDigit_iff]
  · rw [nameOf_text_eq, same]

/-- A name of a digit, letters with and without accents, and blanks. -/
theorem nameOf_text_accents : letters "3 größere Ä" = ['3', 'g', 'r', 'e', 'r', 'e'] ∧
    nameOf (.text "3 größere Ä") = .ok "Component3grere" ∧ ¬IsProper "3 größere Ä" ∧ IsProper "Component3grere" := by
  have given : letters "3 größere Ä" = ['3', 'g', 'r', 'e', 'r', 'e'] := by decide +kernel
  obtain ⟨name, called, proper, stays, -, chars, -⟩ := nameOf_text "3 größere Ä"
  have spelled : name = "Component3grere" := String.toList_inj.mp ((chars _ _ given).trans (by decide +kernel))
  subst spelled
  exact ⟨given, called, fun other => absurd (stays.mpr other) (by decide), proper⟩

end Component

end Artboard
