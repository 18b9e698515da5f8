import Artboard.Component
import Artboard.Proofs.File.Path
import Artboard.Proofs.Font.Cache
import Artboard.Proofs.Markup.Lines
import Artboard.Proofs.Run

/-!
# What a component is

The name of a component has plain letters and digits only (`Component.IsNamed`), so that its files can be named for it
unless it is too long (`IsNamed.codeFile`, `IsNamed.stylesheetFile`), and neither of its texts is empty.  In a session
whose font cache is coherent, the component of a forest is the one that the replies of the network give
(`Component.run_build_coherent`): it does not depend on the session.
-/

namespace Artboard

namespace Component

variable {name fonts : String} {fields : Members} {c : Component}

/-! ## 1. Names -/

/-- All characters of a name count in it. -/
def IsNamed (name : String) : Prop := ∀ ch ∈ name.toList, isNameChar ch = true

theorem lt_of_isNameChar {ch : Char} (h : isNameChar ch = true) : ch.toNat < 128 := by
  have letter_or_digit : ch.isAlpha = true ∨ ch.isDigit = true := Bool.or_eq_true_iff.mp h
  rcases letter_or_digit with letter | digit
  · rcases Bool.or_eq_true_iff.mp letter with upper | lower
    · have small : ch.val ≤ 90 := (of_decide_eq_true upper).2
      exact Nat.lt_of_le_of_lt (UInt32.le_iff_toNat_le.mp small) (by decide)
    · have small : ch.val ≤ 122 := of_decide_eq_true (Bool.and_eq_true_iff.mp lower).2
      exact Nat.lt_of_le_of_lt (UInt32.le_iff_toNat_le.mp small) (by decide)
  · have small : ch.val ≤ 57 := of_decide_eq_true (Bool.and_eq_true_iff.mp digit).2
    exact Nat.lt_of_le_of_lt (UInt32.le_iff_toNat_le.mp small) (by decide)

/-- Capitals of letters and digits are letters and digits. -/
theorem isNameChar_toUpper {ch : Char} (h : isNameChar ch = true) : isNameChar ch.toUpper = true := by
  have few : ∀ n < 128, isNameChar (Char.ofNat n) = true → isNameChar (Char.ofNat n).toUpper = true := by decide
  rw [← Char.ofNat_toNat ch] at h ⊢
  exact few ch.toNat (lt_of_isNameChar (by rwa [Char.ofNat_toNat] at h)) h

theorem isNamed_nameOfChars {chars : List Char} (h : ∀ ch ∈ chars, isNameChar ch = true) :
    IsNamed (nameOfChars chars) := by
  unfold nameOfChars
  split
  · exact List.all_eq_true.mp (by decide : defaultName.toList.all isNameChar = true)
  · rename_i ch rest
    have first : isNameChar ch = true := h ch List.mem_cons_self
    have others : ∀ ch ∈ rest, isNameChar ch = true := fun ch hc => h ch (List.mem_cons_of_mem _ hc)
    split
    · intro other hc
      rw [String.toList_append, String.toList_ofList] at hc
      rcases List.mem_append.mp hc with hc | hc
      · have word : "Component".toList.all isNameChar = true := by decide
        exact List.all_eq_true.mp word other hc
      · exact h other (by rwa [String.toList_ofList] at hc)
    · intro other hc
      rw [String.toList_ofList] at hc
      rcases List.mem_cons.mp hc with rfl | hc
      · exact isNameChar_toUpper first
      · exact others other hc

theorem isNamed_nameOf {v : Value} (h : nameOf v = .ok name) : IsNamed name := by
  have none : IsNamed defaultName := isNamed_nameOfChars fun ch hc => absurd hc List.not_mem_nil
  unfold nameOf at h
  split at h
  · cases h
    exact isNamed_nameOfChars fun ch hc => (List.mem_filter.mp hc).2
  · split at h
    · cases h
    · cases h
      exact none

/-- The longest name, in bytes, that files can be named for. -/
def maxBytes : Nat := FileTree.maxNameBytes - 4

/-- A name with an ending that has an `s` is a step. -/
theorem IsNamed.isStep (named : IsNamed name) {ending : String} (slashless : '/' ∉ ending.toList)
    (letter : 's' ∈ ending.toList) : Path.IsStep (name ++ ending) := by
  have other : ∀ {more : String}, 's' ∉ more.toList → name ++ ending ≠ more := by
    rintro more without rfl
    exact without (by simp [letter])
  refine ⟨⟨?_, other (by decide)⟩, other (by decide), other (by decide)⟩
  rw [String.toList_append, List.mem_append]
  rintro (hc | hc)
  · exact absurd (named '/' hc) (by decide)
  · exact slashless hc

/-- A name with an ending of four bytes is that of a file. -/
theorem IsNamed.plain (named : IsNamed name) (short : name.utf8ByteSize ≤ maxBytes) {ending : String}
    (four : ending.utf8ByteSize = 4) (slashless : '/' ∉ ending.toList) (given : FileTree.hasNull ending = false)
    (letter : 's' ∈ ending.toList) : PlainName (name ++ ending) := by
  have step := named.isStep slashless letter
  refine ⟨step.slashless, step.given, step.notHere, step.notUp, ?_⟩
  unfold FileTree.isName
  rw [Bool.and_eq_true, decide_eq_true_eq, String.utf8ByteSize_append, four]
  refine ⟨Nat.add_le_of_le_sub (by decide) short, ?_⟩
  unfold FileTree.hasNull at given ⊢
  have null : '\x00' ∉ name.toList := fun hc => absurd (named '\x00' hc) (by decide)
  have null' : '\x00' ∉ ending.toList := by simpa using given
  simp [null, null']

theorem IsNamed.codeFile (named : IsNamed name) (short : name.utf8ByteSize ≤ maxBytes) :
    PlainName (codeFile name) :=
  named.plain short (by decide +kernel) (by decide) (by decide) (by decide)

theorem IsNamed.stylesheetFile (named : IsNamed name) (short : name.utf8ByteSize ≤ maxBytes) :
    PlainName (stylesheetFile name) :=
  named.plain short (by decide +kernel) (by decide) (by decide) (by decide)

theorem codeFile_inj {other : String} : codeFile name = codeFile other ↔ name = other :=
  String.append_left_inj ".jsx"

theorem stylesheetFile_inj {other : String} : stylesheetFile name = stylesheetFile other ↔ name = other :=
  String.append_left_inj ".css"

/-- No file is that of a code and of a stylesheet: the last characters are not the same. -/
theorem codeFile_ne_stylesheetFile (name other : String) : codeFile name ≠ stylesheetFile other := by
  intro same
  have last := congrArg (fun file : String => file.toList.getLast?) same
  simp [codeFile, stylesheetFile] at last

/-! ## 2. Texts -/

/-- What a line of the markup has is in the code. -/
theorem any_codeText {p : Char → Bool} {composition : Composition} {m : Markup} {l : String}
    (hm : m ∈ composition.markup) (hl : l ∈ m.lines 0) (h : l.toList.any p = true) (name : String) :
    (codeText composition.text name).toList.any p = true := by
  have printed : (m.print 0).toList.any p = true := Markup.any_joinLines hl h
  have drawn : composition.text.toList.any p = true := Markup.any_joinLines (List.mem_map_of_mem hm) printed
  have given : composition.text ≠ "" := by
    intro empty
    rw [empty] at drawn
    cases drawn
  unfold codeText
  rw [if_neg given]
  exact Markup.any_joinLines (by simp) drawn

theorem codeText_ne_empty (markup name : String) : codeText markup name ≠ "" := by
  intro empty
  have chars := congrArg String.toList empty
  simp [codeText, String.toList_intercalate] at chars

theorem containerRule_ne_empty {rule : String} (h : containerRule fields name = .ok rule) : rule ≠ "" := by
  obtain ⟨background, -, h⟩ := ok_of_bind h
  obtain ⟨width, -, h⟩ := ok_of_bind h
  obtain ⟨height, -, h⟩ := ok_of_bind h
  rw [← Except.ok.inj h]
  intro empty
  have chars := congrArg String.toList empty
  simp at chars

theorem stylesheetText_ne_empty {sheet : String} (h : stylesheetText fields name fonts = .ok sheet) : sheet ≠ "" := by
  obtain ⟨rule, made, h⟩ := ok_of_bind h
  rw [← Except.ok.inj h]
  split
  · exact containerRule_ne_empty made
  · rename_i given
    intro empty
    have chars := congrArg String.toList empty
    simp at chars

/-- What is known of a component that was made. -/
structure IsMade (c : Component) : Prop where
  named : IsNamed c.name
  code : c.code ≠ ""
  stylesheet : c.stylesheet ≠ ""

theorem isMade_ofComposition {composition : Composition} {given : Value}
    (h : ofComposition composition given fonts = .ok c) : c.IsMade := by
  obtain ⟨name, called, h⟩ := ok_of_bind h
  obtain ⟨sheet, styled, h⟩ := ok_of_bind h
  rw [← Except.ok.inj h]
  refine ⟨isNamed_nameOf called, ?_, stylesheetText_ne_empty styled⟩
  dsimp only
  exact codeText_ne_empty composition.text name

/-! ## 3. Fonts -/

/-- The component of a forest with the replies of a network. -/
def built (network : Entries Reply) (forest : Value) : Except Fault Component :=
  match Composition.ofValue forest with
  | .error f => .error f
  | .ok c => ofComposition c (c.firstFields.get "name") (FontWorld.join (FontWorld.answers network c.fonts))

/-- The code of a component is that of the markup of the forest. -/
theorem code_of_built {network : Entries Reply} {forest : Value} (h : built network forest = .ok c) :
    ∃ composition, Composition.ofValue forest = .ok composition ∧ c.code = codeText composition.text c.name := by
  unfold built at h
  split at h
  · cases h
  · rename_i composition compiled
    obtain ⟨name, -, h⟩ := ok_of_bind h
    obtain ⟨sheet, -, h⟩ := ok_of_bind h
    rw [← Except.ok.inj h]
    refine ⟨composition, compiled, ?_⟩
    dsimp only

theorem isMade_built {network : Entries Reply} {forest : Value} (h : built network forest = .ok c) : c.IsMade := by
  unfold built at h
  split at h
  · cases h
  · exact isMade_ofComposition h

/-- **A coherent cache does not show in components.** -/
theorem run_build_coherent {world : FontWorld} {s : FontSession}
    (coherent : FontSession.Coherent world.network s.documents) (forest : Value) :
    ∃ t, (build world forest).run s = (built world.network forest, t) ∧ FontSession.Follows world.network s t := by
  unfold build built
  cases Composition.ofValue forest with
  | error f => exact ⟨s, rfl, .of_documents coherent rfl⟩
  | ok c =>
    obtain ⟨t, ran, follows⟩ := FontWorld.run_parts_coherent world c.fonts coherent
    refine ⟨t, ?_, follows⟩
    have looked : (world.stylesheet c.fonts).run s = (FontWorld.join (FontWorld.answers world.network c.fonts), t) := by
      rw [FontWorld.run_stylesheet, ran]
    dsimp only
    rw [StateT.run_bind, looked]
    rfl

end Component

end Artboard
