import Artboard.Proofs.Markup.Scanner

/-!
# Reading modules

A module of script is read by its outermost pieces: the words, literals and marks that stand outside of all brackets,
and the groups that brackets make of what is in them (`Module.pieces?`).  Inside of brackets only what can hide a
bracket is followed, so markup may stand there: single-quoted literals, texts between double quotes, and templates.

The pieces are the statements of the module (`Module.read?`): its imports, one constant function or plain function after
the other, and what it exports.  Anything else is refused, comments and other declarations included, so that a module
that is read declares the names of its statements and no others (`Module.declared`).
-/

namespace Artboard.Script

/-! ## 1. Pieces -/

/-- The pieces of a module, outside of all brackets. -/
inductive Piece where
  | word (name : String)
  /-- a single-quoted literal, by the text that it stands for -/
  | literal (text : String)
  /-- what stands between brackets, by the opening one -/
  | group (opening : Char)
  | mark (c : Char)
  deriving DecidableEq, Repr

/-- The bracket that closes another one. -/
def closing? : Char → Option Char
  | '(' => some ')'
  | '[' => some ']'
  | '\x7b' => some '\x7d'
  | _ => none

/-- A bracket that closes. -/
def isClosing (c : Char) : Bool := c == ')' || c == ']' || c == '\x7d'

/-- A character inside a word. -/
def inWord (c : Char) : Bool := c.isAlphanum || c == '_' || c == '$'

/-- A character that a word can start with. -/
def startsWord (c : Char) : Bool := inWord c && !c.isDigit

/-- The marks between words. -/
def isMark (c : Char) : Bool := c == '=' || c == '>' || c == ';'

/-! ## 2. The scanner -/

/-- What a scan is in the middle of, with the characters read so far, the last of them first. -/
inductive Within where
  | code
  | word (read : List Char)
  | literal (read : List Char)
  /-- behind a backslash in a literal -/
  | escape (read : List Char)
  /-- between double quotes -/
  | plain
  /-- in a template; an open brace behind a dollar would open an expression -/
  | template (afterDollar : Bool)
  /-- behind a backslash in a template -/
  | templateEscape
  deriving DecidableEq, Repr

/-- Where a scan stands: in which brackets, the innermost first, and in the middle of what. -/
structure Spot where
  around : List Char
  within : Within
  deriving DecidableEq, Repr

namespace Spot

/-- A piece counts outside of all brackets. -/
def outside (around : List Char) (piece : Piece) : List Piece := if around.isEmpty then [piece] else []

/-- A closing bracket, which has to be that of the innermost one. -/
def close (around : List Char) (c : Char) : Option (Spot × List Piece) :=
  match around with
  | [] => none
  | o :: outer => if closing? o = some c then some (⟨outer, .code⟩, outside outer (.group o)) else none

/-- A character of code outside of all brackets. -/
def startOutside (c : Char) : Option (Spot × List Piece) :=
  if startsWord c then some (⟨[], .word [c]⟩, [])
  else if isMark c then some (⟨[], .code⟩, [.mark c])
  else none

/-- A character of code inside of brackets. -/
def startInside (around : List Char) (c : Char) : Spot :=
  ⟨around, if c = '\x22' then .plain else if c = '\x60' then .template false else .code⟩

/-- A character of code. -/
def start (around : List Char) (c : Char) : Option (Spot × List Piece) :=
  if c = ' ' ∨ c = '\n' then some (⟨around, .code⟩, [])
  else if c = '\'' then some (⟨around, .literal []⟩, [])
  else if (closing? c).isSome then some (⟨c :: around, .code⟩, [])
  else if isClosing c then close around c
  else if around.isEmpty then startOutside c
  else some (startInside around c, [])

/-- A character read: where the scan stands after it, and the pieces that have come to their end. -/
def step : Spot → Char → Option (Spot × List Piece)
  | ⟨around, .code⟩, c => start around c
  | ⟨around, .word read⟩, c =>
    if inWord c then some (⟨around, .word (c :: read)⟩, [])
    else (start around c).map fun r => (r.1, .word (String.ofList read.reverse) :: r.2)
  | ⟨around, .literal read⟩, c =>
    if c = '\'' then some (⟨around, .code⟩, outside around (.literal (String.ofList read.reverse)))
    else if c = '\\' then some (⟨around, .escape read⟩, [])
    else if c = '\n' ∨ c = '\r' then none
    else some (⟨around, .literal (c :: read)⟩, [])
  | ⟨around, .escape read⟩, c => (Reader.unescape? c).map fun a => (⟨around, .literal (a :: read)⟩, [])
  | ⟨around, .plain⟩, c => some (⟨around, if c = '\x22' then .code else .plain⟩, [])
  | ⟨around, .template afterDollar⟩, c =>
    if c = '\x60' then some (⟨around, .code⟩, [])
    else if c = '\\' then some (⟨around, .templateEscape⟩, [])
    else if afterDollar = true ∧ c = '\x7b' then none
    else some (⟨around, .template (c == '$')⟩, [])
  | ⟨around, .templateEscape⟩, _ => some (⟨around, .template false⟩, [])

end Spot

/-- A text scanned from somewhere: where the scan stands after it, and the pieces that have come to their end. -/
def scanModule : Spot → List Char → Option (Spot × List Piece)
  | s, [] => some (s, [])
  | s, c :: rest => (s.step c).bind fun r => (scanModule r.1 rest).map fun q => (q.1, r.2 ++ q.2)

/-! ## 3. Statements -/

/-- The statements of a module. -/
inductive Statement where
  /-- what another module exports by default, under a name -/
  | importDefault (name source : String)
  /-- another module for its effect only -/
  | importOnly (source : String)
  /-- a function as a constant -/
  | constant (name : String)
  | function (name : String)
  | exportDefault (name : String)
  deriving DecidableEq, Repr

/-- A module, by its statements. -/
abbrev Module := List Statement

/-- The names that a statement declares. -/
def Statement.declares : Statement → List String
  | importDefault name _ | constant name | function name => [name]
  | importOnly _ | exportDefault _ => []

namespace Module

/-- The names that a module declares outside of all brackets, in order. -/
def declared (m : Module) : List String := m.flatMap Statement.declares

/-- The pieces of a text, which ends as a line does. -/
def pieces? (text : String) : Option (List Piece) :=
  match scanModule ⟨[], .code⟩ (text.toList ++ ['\n']) with
  | some (⟨[], .code⟩, ps) => some ps
  | _ => none

/-- The module that pieces are. -/
def ofPieces? : List Piece → Option Module
  | [] => some []
  | .word "import" :: .word name :: .word "from" :: .literal source :: .mark ';' :: rest =>
    (ofPieces? rest).map (.importDefault name source :: ·)
  | .word "import" :: .literal source :: .mark ';' :: rest => (ofPieces? rest).map (.importOnly source :: ·)
  | .word "const" :: .word name :: .mark '=' :: .group '(' :: .mark '=' :: .mark '>' :: .group '\x7b' :: .mark ';' ::
      rest => (ofPieces? rest).map (.constant name :: ·)
  | .word "function" :: .word name :: .group '(' :: .group '\x7b' :: rest =>
    (ofPieces? rest).map (.function name :: ·)
  | .word "export" :: .word "default" :: .word name :: .mark ';' :: rest =>
    (ofPieces? rest).map (.exportDefault name :: ·)
  | _ => none

/-- The module that a text spells. -/
def read? (text : String) : Option Module := (pieces? text).bind ofPieces?

end Module

/-! ## 4. Scans of parts -/

variable {s t u : Spot} {a b around : List Char} {ps qs : List Piece} {read : List Char} {c : Char}

theorem scanModule_cons (first : s.step c = some (t, ps)) (rest : scanModule t a = some (u, qs)) :
    scanModule s (c :: a) = some (u, ps ++ qs) := by
  simp [scanModule, first, rest]

/-- **A scan of a text is the scans of its parts.** -/
theorem scanModule_append (first : scanModule s a = some (t, ps)) (second : scanModule t b = some (u, qs)) :
    scanModule s (a ++ b) = some (u, ps ++ qs) := by
  induction a generalizing s ps with
  | nil =>
    obtain ⟨rfl, rfl⟩ := Prod.mk.inj (Option.some.inj first)
    exact second
  | cons c a ih =>
    unfold scanModule at first
    obtain ⟨⟨v, vs⟩, hstep, hrest⟩ := Option.bind_eq_some_iff.mp first
    obtain ⟨⟨w, ws⟩, hscan, heq⟩ := Option.map_eq_some_iff.mp hrest
    obtain ⟨rfl, rfl⟩ := Prod.mk.inj heq
    rw [List.cons_append, List.append_assoc]
    exact scanModule_cons hstep (ih hscan)

theorem scanModule_char (h : s.step c = some (t, ps)) : scanModule s [c] = some (t, ps) := by
  simp [scanModule, h]

/-- Characters that a state takes in are read on in it. -/
theorem scanModule_kept {state : List Char → Within}
    (keeps : ∀ c ∈ a, ∀ read, Spot.step ⟨around, state read⟩ c = some (⟨around, state (c :: read)⟩, []))
    (read : List Char) : scanModule ⟨around, state read⟩ a = some (⟨around, state (a.reverse ++ read)⟩, []) := by
  induction a generalizing read with
  | nil => rfl
  | cons c rest ih =>
    obtain ⟨first, others⟩ := List.forall_mem_cons.mp keeps
    rw [List.reverse_cons, List.append_assoc]
    exact scanModule_cons (first read) (ih others (c :: read))

/-- Characters that a state leaves aside are passed over. -/
theorem scanModule_still (keeps : ∀ c ∈ a, s.step c = some (s, [])) : scanModule s a = some (s, []) :=
  @scanModule_kept a s.around (fun _ => s.within) (fun c hc _ => keeps c hc) []

/-! ## 5. Words and literals -/

/-- The text is a word. -/
def isWord (name : String) : Bool :=
  match name.toList with
  | [] => false
  | c :: rest => startsWord c && rest.all inWord

theorem start_of_startsWord (h : startsWord c = true) : Spot.start [] c = some (⟨[], .word [c]⟩, []) := by
  have ne {d : Char} (hd : startsWord d = false) : c ≠ d := fun same => by
    rw [same, hd] at h
    cases h
  have blank : ¬(c = ' ' ∨ c = '\n') := not_or.mpr ⟨ne (by decide), ne (by decide)⟩
  have opening : closing? c = none := by
    unfold closing?
    split
    · exact absurd rfl (ne (by decide))
    · exact absurd rfl (ne (by decide))
    · exact absurd rfl (ne (by decide))
    · rfl
  have closing : isClosing c = false := by
    simp [isClosing, ne (d := ')') (by decide), ne (d := ']') (by decide), ne (d := '\x7d') (by decide)]
  unfold Spot.start
  rw [if_neg blank, if_neg (ne (by decide)), opening, if_neg (by decide), closing, if_neg (by decide), if_pos (by rfl)]
  unfold Spot.startOutside
  rw [if_pos h]

theorem scanModule_inWord (h : ∀ c ∈ a, inWord c = true) (read : List Char) :
    scanModule ⟨[], .word read⟩ a = some (⟨[], .word (a.reverse ++ read)⟩, []) :=
  scanModule_kept (fun c hc read => by simp [Spot.step, h c hc]) read

/-- A word ends at the first character that is not of it. -/
theorem scanModule_word {name : String} (hn : isWord name = true) (stop : inWord c = false)
    (hc : Spot.start [] c = some (t, ps)) :
    scanModule ⟨[], .code⟩ (name.toList ++ [c]) = some (t, .word name :: ps) := by
  unfold isWord at hn
  split at hn
  · cases hn
  · rename_i d rest chars
    obtain ⟨hd, hrest⟩ := Bool.and_eq_true_iff.mp hn
    have first : Spot.step ⟨[], .code⟩ d = some (⟨[], .word [d]⟩, []) := start_of_startsWord hd
    have others := scanModule_inWord (List.all_eq_true.mp hrest) [d]
    have last : Spot.step ⟨[], .word (rest.reverse ++ [d])⟩ c = some (t, .word name :: ps) := by
      simp [Spot.step, stop, hc, ← chars]
    rw [chars, List.cons_append]
    exact scanModule_cons first (scanModule_append others (scanModule_char last))

/-- A character that stands for itself in a literal. -/
def isLiteral (c : Char) : Bool := c != '\'' && c != '\\' && c != '\n' && c != '\r'

theorem scanModule_inLiteral (h : ∀ c ∈ a, isLiteral c = true) (read : List Char) :
    scanModule ⟨around, .literal read⟩ a = some (⟨around, .literal (a.reverse ++ read)⟩, []) := by
  refine scanModule_kept (fun c hc read => ?_) read
  obtain ⟨⟨⟨quote, slash⟩, line⟩, back⟩ : ((c ≠ '\'' ∧ c ≠ '\\') ∧ c ≠ '\n') ∧ c ≠ '\r' := by
    simpa [isLiteral] using h c hc
  simp [Spot.step, quote, slash, line, back]

/-- A literal of characters that stand for themselves is the text of these. -/
theorem scanModule_literal {text : String} (h : ∀ c ∈ text.toList, isLiteral c = true) :
    scanModule ⟨[], .code⟩ ('\'' :: (text.toList ++ ['\''])) = some (⟨[], .code⟩, [.literal text]) := by
  have hopen : Spot.step ⟨[], .code⟩ '\'' = some (⟨[], .literal []⟩, []) := by decide
  have close : Spot.step ⟨[], .literal (text.toList.reverse ++ [])⟩ '\'' =
      some (⟨[], .code⟩, [.literal text]) := by simp [Spot.step, Spot.outside]
  exact scanModule_cons hopen (scanModule_append (scanModule_inLiteral h []) (scanModule_char close))

theorem scanModule_inPlain (h : ∀ c ∈ a, c ≠ '\x22') :
    scanModule ⟨around, .plain⟩ a = some (⟨around, .plain⟩, []) :=
  scanModule_still fun c hc => by simp [Spot.step, h c hc]

/-! ## 6. Inside of brackets -/

/-- A character that means something of its own to a module. -/
def isDelimiter (c : Char) : Bool :=
  c == '\'' || c == '\x22' || c == '\x60' || (closing? c).isSome || isClosing c

/-- Other characters of code count for nothing inside of brackets. -/
theorem start_of_not_isDelimiter (given : around ≠ []) (h : isDelimiter c = false) :
    Spot.start around c = some (⟨around, .code⟩, []) := by
  obtain ⟨⟨⟨⟨single, double⟩, tick⟩, opening⟩, closing⟩ :
      (((c ≠ '\'' ∧ c ≠ '\x22') ∧ c ≠ '\x60') ∧ (closing? c).isSome = false) ∧ isClosing c = false := by
    simpa only [isDelimiter, Bool.or_eq_false_iff, beq_eq_false_iff_ne] using h
  have inside : around.isEmpty = false := by simpa using given
  unfold Spot.start Spot.startInside
  rw [opening, closing, inside]
  simp [single, double, tick]

/-- Code without such characters is passed over inside of brackets. -/
theorem scanModule_inside (given : around ≠ []) (h : ∀ c ∈ a, isDelimiter c = false) :
    scanModule ⟨around, .code⟩ a = some (⟨around, .code⟩, []) :=
  scanModule_still fun c hc => start_of_not_isDelimiter given (h c hc)

/-- **A text in brackets is enclosed**: it leaves no bracket, literal or template open, and closes none of those around
it. -/
def IsEnclosed (text : String) : Prop :=
  ∀ around, around ≠ [] → scanModule ⟨around, .code⟩ (text.toList ++ ['\n']) = some (⟨around, .code⟩, [])

end Artboard.Script
