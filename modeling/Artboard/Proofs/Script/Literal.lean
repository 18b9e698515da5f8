import Artboard.Proofs.Script.Escape
import Artboard.Script.Literal

/-!
# Single-quoted literals

A single-quoted literal is read by the whole grammar of the 2019 edition of the language (`readLiteral?`): up to
the first quote that is not escaped, with any of its escapes, and no line feed or carriage return inside.  The
literal of a text, which writes only five of these escapes, is read as the text and to its end
(`readLiteral?_quoted`).
-/

namespace Artboard.Script

/-! ## 1. Reading -/

/-- The value of a literal behind its opening quote, and what follows its closing one. -/
def readQuoted? : List Char → Option (List Nat × List Char)
  | [] => none
  | c :: rest =>
    if c = '\'' then some ([], rest)
    else if c = '\\' then
      match _h : readEscape? rest with
      | none => none
      | some (value, behind) => (readQuoted? behind).map fun r => (value ++ r.1, r.2)
    else if c = '\n' ∨ c = '\r' then none
    else (readQuoted? rest).map fun r => (unitsOf c.toNat ++ r.1, r.2)
termination_by s => s.length
decreasing_by
  · have := length_readEscape?_lt _h
    simp only [List.length_cons]
    omega
  · exact Nat.lt_succ_self _

/-- The value of the single-quoted literal at the front of a text, and what follows it. -/
def readLiteral? : List Char → Option (List Nat × List Char)
  | '\'' :: rest => readQuoted? rest
  | _ => none

theorem readQuoted?_quote (rest : List Char) : readQuoted? ('\'' :: rest) = some ([], rest) := by
  rw [readQuoted?]
  rfl

/-- A character that needs no escape stands for itself. -/
theorem readQuoted?_plain {c : Char} (quote : c ≠ '\'') (slash : c ≠ '\\') (line : c ≠ '\n') (back : c ≠ '\r')
    (rest : List Char) :
    readQuoted? (c :: rest) = (readQuoted? rest).map fun r => (unitsOf c.toNat ++ r.1, r.2) := by
  rw [readQuoted?, if_neg quote, if_neg slash, if_neg (not_or.mpr ⟨line, back⟩)]

theorem readQuoted?_escape {value : List Nat} {s rest : List Char} (h : readEscape? s = some (value, rest)) :
    readQuoted? ('\\' :: s) = (readQuoted? rest).map fun r => (value ++ r.1, r.2) := by
  have quote : ¬('\\' = '\'') := by decide
  rw [readQuoted?, if_neg quote, if_pos rfl]
  split
  · rename_i none
    rw [h] at none
    cases none
  · rename_i found
    rw [h] at found
    cases found
    rfl

/-! ## 2. Reading what is written -/

/-- What stands for a character is read as the character. -/
theorem readQuoted?_escapeChar (c : Char) (rest : List Char) :
    readQuoted? (escapeChar c ++ rest) = (readQuoted? rest).map fun r => (unitsOf c.toNat ++ r.1, r.2) := by
  unfold escapeChar
  split
  case h_6 slash quote line back _ => exact readQuoted?_plain quote slash line back rest
  all_goals exact readQuoted?_escape rfl

theorem readQuoted?_escaped (s rest : List Char) :
    readQuoted? (s.flatMap escapeChar ++ '\'' :: rest) = some (units s, rest) := by
  induction s with
  | nil => exact readQuoted?_quote rest
  | cons c s ih =>
    rw [List.flatMap_cons, List.append_assoc, readQuoted?_escapeChar, ih]
    rfl

theorem toList_quoted (s : String) : (quoted s).toList = '\'' :: (s.toList.flatMap escapeChar ++ ['\'']) := by
  simp [quoted, escapeString]

theorem escapes_escapeChar : Escapes escapeChar := by
  intro c
  unfold escapeChar
  split
  case h_6 slash _ _ _ _ => exact .inl ⟨rfl, slash⟩
  all_goals exact .inr ⟨_, rfl⟩

/-- A line end is never written as it is. -/
theorem not_mem_escapeChar (c : Char) : '\n' ∉ escapeChar c ∧ '\r' ∉ escapeChar c := by
  unfold escapeChar
  split <;> simp_all [eq_comm]

theorem not_mem_quoted (s : String) : '\n' ∉ (quoted s).toList ∧ '\r' ∉ (quoted s).toList := by
  have inside {d : Char} (never : ∀ c, d ∉ escapeChar c) (other : d ≠ '\'') : d ∉ (quoted s).toList := by
    rw [toList_quoted]
    intro h
    simp only [List.mem_cons, List.mem_append, List.mem_flatMap, other, List.not_mem_nil, false_or,
      or_false] at h
    obtain ⟨c, -, hc⟩ := h
    exact never c hc
  exact ⟨inside (fun c => (not_mem_escapeChar c).1) (by decide),
    inside (fun c => (not_mem_escapeChar c).2) (by decide)⟩

/-! ## 3. Five passes -/

/-- The characters that are escaped, in the order in which whole texts can be rewritten: the backslash comes first, or
it would escape the others' escapes. -/
def stringPasses : List (Char × List Char) :=
  [('\\', ['\\', '\\']), ('\'', ['\\', '\'']), ('\n', ['\\', 'n']), ('\r', ['\\', 'r']), ('\t', ['\\', 't'])]

theorem replaceInTurn_stringPasses (c : Char) : replaceInTurn stringPasses [c] = escapeChar c := by
  unfold escapeChar
  split
  case h_6 slash quote line back tab =>
    refine replaceInTurn_other fun pass hp => ?_
    simp only [stringPasses, List.mem_cons, List.not_mem_nil, or_false] at hp
    rcases hp with rfl | rfl | rfl | rfl | rfl
    · exact slash
    · exact quote
    · exact line
    · exact back
    · exact tab
  all_goals rfl

/-- Escaping is five passes over the whole text. -/
theorem escapeString_eq_passes (s : String) :
    escapeString s = String.ofList (replaceInTurn stringPasses s.toList) := by
  unfold escapeString
  rw [replaceInTurn_eq_flatMap, funext replaceInTurn_stringPasses]

/-- **The literal of a text is read as the text.**  Whatever the text holds and whatever comes behind the literal, a
reading ends with its last character and gives the units of the text; no quote inside goes unescaped, no
backslash is left over for the closing quote, and no line ends.  So texts can be told from their literals.  It
makes no difference that the text is escaped in five passes, one character of the five after the other. -/
theorem readLiteral?_quoted :
    (∀ (s : String) (rest : List Char), readLiteral? ((quoted s).toList ++ rest) = some (units s.toList, rest)) ∧
    (∀ s : String, (∀ c ∈ unescaped (escapeString s).toList, c ≠ '\'' ∧ c ≠ '\\') ∧
      '\n' ∉ (quoted s).toList ∧ '\r' ∉ (quoted s).toList) ∧
    Function.Injective quoted ∧
    ∀ s : String, escapeString s = String.ofList (replaceInTurn stringPasses s.toList) := by
  have read (s : String) (rest : List Char) :
      readLiteral? ((quoted s).toList ++ rest) = some (units s.toList, rest) := by
    rw [toList_quoted, List.cons_append, List.append_assoc]
    exact readQuoted?_escaped s.toList rest
  refine ⟨read, fun s => ⟨fun c hc => ?_, not_mem_quoted s⟩, fun s t same => ?_, escapeString_eq_passes⟩
  · unfold escapeString at hc
    rw [String.toList_ofList] at hc
    obtain ⟨plain, other⟩ := eq_of_mem_unescaped escapes_escapeChar hc
    refine ⟨?_, other⟩
    rintro rfl
    cases plain
  · have values : readLiteral? ((quoted s).toList ++ []) = readLiteral? ((quoted t).toList ++ []) := by rw [same]
    rw [read, read] at values
    exact String.toList_inj.mp (units_injective (Prod.mk.inj (Option.some.inj values)).1)

end Artboard.Script
