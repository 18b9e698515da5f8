import Artboard.Markup.Printer
import Artboard.Proofs.Number.Notation

/-!
# Reading markup: tokens

The first half of a reader of markup takes text apart into tokens, character by character (`Scan.step`), by
the rules of the language that the markup is written in: a single-quoted literal ends at the first quote that
is not escaped, cannot hold a line break, and is read as the text that it stands for; a template literal ends
at the first unescaped backtick and cannot open an expression.

A scan of a text is the scans of its parts one after another (`scan_append`), so that what the printer puts
together can be read part by part.  The main facts are that every literal that `Script.quoted` writes is one
token of the text itself (`scan_quoted`), and every template body one token of itself (`scan_template`).
-/

namespace Artboard.Reader

/-! ## 1. Tokens -/

/-- The pieces that markup is made of. -/
inductive Token where
  | less
  | slash
  | greater
  | equals
  | leftBrace
  | rightBrace
  | colon
  | comma
  | word (name : String)
  /-- what stands between double quotes, where nothing is escaped -/
  | plain (text : String)
  /-- a single-quoted literal, by the text that it stands for -/
  | literal (text : String)
  /-- a template literal, by its body as it stands -/
  | template (body : String)
  | numeral (digits : String)
  deriving DecidableEq, Repr

/-- The token that a character is by itself. -/
def single? : Char → Option Token
  | '<' => some .less
  | '/' => some .slash
  | '>' => some .greater
  | '=' => some .equals
  | '\x7b' => some .leftBrace
  | '\x7d' => some .rightBrace
  | ':' => some .colon
  | ',' => some .comma
  | _ => none

/-- A character inside a name. -/
def inName (c : Char) : Bool := c.isAlphanum || c == '_' || c == '-'

/-- A character that a name can start with: a numeral starts with the others. -/
def startsName (c : Char) : Bool := inName c && !(c.isDigit || c == '-')

/-- The character that an escape stands for inside a single-quoted literal. -/
def unescape? : Char → Option Char
  | '\\' => some '\\'
  | '\'' => some '\''
  | 'n' => some '\n'
  | 'r' => some '\r'
  | 't' => some '\t'
  | _ => none

/-! ## 2. The scanner -/

/-- Where a scan stands: between two tokens, or inside one with the characters read so far, the last of them
first. -/
inductive Scan where
  | between
  | name (read : List Char)
  | digits (read : List Char)
  | plain (read : List Char)
  | literal (read : List Char)
  /-- behind a backslash in a literal -/
  | escape (read : List Char)
  /-- in a template; an open brace behind a dollar would open an expression -/
  | template (read : List Char) (afterDollar : Bool)
  /-- behind a backslash in a template -/
  | templateEscape (read : List Char)
  deriving DecidableEq, Repr

namespace Scan

/-- A character between two tokens. -/
def start (c : Char) : Option (Scan × List Token) :=
  if c = ' ' ∨ c = '\n' then some (between, [])
  else if c = '\x22' then some (plain [], [])
  else if c = '\'' then some (literal [], [])
  else if c = '\x60' then some (template [] false, [])
  else if startsName c then some (name [c], [])
  else if c.isDigit || c == '-' then some (digits [c], [])
  else (single? c).map fun t => (between, [t])

/-- A character read: where the scan stands after it, and the tokens that have come to their end. -/
def step : Scan → Char → Option (Scan × List Token)
  | between, c => start c
  | name read, c =>
    if inName c then some (name (c :: read), [])
    else (start c).map fun r => (r.1, .word (String.ofList read.reverse) :: r.2)
  | digits read, c =>
    if Numeral.isPart c then some (digits (c :: read), [])
    else if Numeral.reads read.reverse then
      (start c).map fun r => (r.1, .numeral (String.ofList read.reverse) :: r.2)
    else none
  | plain read, c =>
    if c = '\x22' then some (between, [.plain (String.ofList read.reverse)])
    else if c = '&' then none
    else some (plain (c :: read), [])
  | literal read, c =>
    if c = '\'' then some (between, [.literal (String.ofList read.reverse)])
    else if c = '\\' then some (escape read, [])
    else if c = '\n' ∨ c = '\r' then none
    else some (literal (c :: read), [])
  | escape read, c => (unescape? c).map fun a => (literal (a :: read), [])
  | template read afterDollar, c =>
    if c = '\x60' then some (between, [.template (String.ofList read.reverse)])
    else if c = '\\' then some (templateEscape read, [])
    else if afterDollar = true ∧ c = '\x7b' then none
    else some (template (c :: read) (c == '$'), [])
  | templateEscape read, c =>
    if c = '\\' ∨ c = '\x60' ∨ c = '$' then some (template (c :: '\\' :: read) false, []) else none

end Scan

/-- A text scanned from somewhere: where the scan stands after it, and the tokens that have come to their
end. -/
def scan : Scan → List Char → Option (Scan × List Token)
  | s, [] => some (s, [])
  | s, c :: rest => (s.step c).bind fun r => (scan r.1 rest).map fun q => (q.1, r.2 ++ q.2)

/-- The tokens of a text, which ends as a line does. -/
def tokens? (text : String) : Option (List Token) :=
  match scan .between (text.toList ++ ['\n']) with
  | some (.between, ts) => some ts
  | _ => none

/-! ## 3. Scans of parts -/

variable {s t u : Scan} {a b : List Char} {ts us : List Token}

theorem scan_cons {c : Char} (first : s.step c = some (t, ts)) (rest : scan t a = some (u, us)) :
    scan s (c :: a) = some (u, ts ++ us) := by
  simp [scan, first, rest]

/-- **A scan of a text is the scans of its parts.** -/
theorem scan_append (first : scan s a = some (t, ts)) (second : scan t b = some (u, us)) :
    scan s (a ++ b) = some (u, ts ++ us) := by
  induction a generalizing s ts with
  | nil =>
    obtain ⟨rfl, rfl⟩ := Prod.mk.inj (Option.some.inj first)
    exact second
  | cons c a ih =>
    unfold scan at first
    obtain ⟨⟨v, vs⟩, hstep, hrest⟩ := Option.bind_eq_some_iff.mp first
    obtain ⟨⟨w, ws⟩, hscan, heq⟩ := Option.map_eq_some_iff.mp hrest
    obtain ⟨rfl, rfl⟩ := Prod.mk.inj heq
    rw [List.cons_append, List.append_assoc]
    exact scan_cons hstep (ih hscan)

/-- The next part when no token has come to its end so far. -/
theorem scan_append_silent (first : scan s a = some (t, [])) (second : scan t b = some (u, us)) :
    scan s (a ++ b) = some (u, us) := scan_append first second

/-- A character by itself. -/
theorem scan_char {c : Char} (h : s.step c = some (t, ts)) : scan s [c] = some (t, ts) := by
  simp [scan, h]

/-- What stands for each character is read on in one state, if it is for every character. -/
theorem scan_flatMap {state : List Char → Scan} {f g : Char → List Char}
    (keeps : ∀ c ∈ a, ∀ read, scan (state read) (f c) = some (state ((g c).reverse ++ read), []))
    (read : List Char) :
    scan (state read) (a.flatMap f) = some (state ((a.flatMap g).reverse ++ read), []) := by
  induction a generalizing read with
  | nil => rfl
  | cons c rest ih =>
    obtain ⟨first, others⟩ := List.forall_mem_cons.mp keeps
    rw [List.flatMap_cons, List.flatMap_cons, List.reverse_append, List.append_assoc]
    exact scan_append_silent (first read) (ih others _)

/-- And so are characters that stand for themselves. -/
theorem scan_kept {state : List Char → Scan}
    (keeps : ∀ c ∈ a, ∀ read, (state read).step c = some (state (c :: read), [])) (read : List Char) :
    scan (state read) a = some (state (a.reverse ++ read), []) := by
  have each : ∀ c ∈ a, ∀ read, scan (state read) [c] = some (state ([c].reverse ++ read), []) :=
    fun c hc read => scan_char (keeps c hc read)
  simpa using scan_flatMap each read

/-- An indent is no token. -/
theorem scan_blanks (n : Nat) : scan .between (List.replicate n ' ') = some (.between, []) := by
  induction n with
  | zero => rfl
  | succ n ih =>
    have blank : Scan.step .between ' ' = some (.between, []) := rfl
    exact scan_cons blank ih

/-! ## 4. Names and numerals -/

/-- The text is a name. -/
def isName (name : String) : Bool :=
  match name.toList with
  | [] => false
  | c :: rest => startsName c && rest.all inName

theorem start_of_startsName {c : Char} (h : startsName c = true) :
    Scan.start c = some (.name [c], []) := by
  have ne {d : Char} (hd : startsName d = false) : c ≠ d := fun e => by
    rw [e, hd] at h
    cases h
  have blank : ¬(c = ' ' ∨ c = '\n') := not_or.mpr ⟨ne (by decide), ne (by decide)⟩
  unfold Scan.start
  rw [if_neg blank, if_neg (ne (by decide)), if_neg (ne (by decide)), if_neg (ne (by decide)), if_pos h]

theorem start_of_digit {c : Char} (h : c.isDigit = true ∨ c = '-') :
    Scan.start c = some (.digits [c], []) := by
  have digit : (c.isDigit || c == '-') = true := by simpa using h
  have ne {d : Char} (hd : (d.isDigit || d == '-') = false) : c ≠ d := fun e => by
    rw [e, hd] at digit
    cases digit
  have blank : ¬(c = ' ' ∨ c = '\n') := not_or.mpr ⟨ne (by decide), ne (by decide)⟩
  have name : ¬startsName c = true := by simp [startsName, digit]
  unfold Scan.start
  rw [if_neg blank, if_neg (ne (by decide)), if_neg (ne (by decide)), if_neg (ne (by decide)),
    if_neg name, if_pos digit]

theorem scan_inName (h : ∀ c ∈ a, inName c = true) (read : List Char) :
    scan (.name read) a = some (.name (a.reverse ++ read), []) :=
  scan_kept (fun c hc read => by simp [Scan.step, h c hc]) read

/-- A name ends at the first character that is not of it. -/
theorem scan_name {name : String} {c : Char} (hn : isName name = true) (stop : inName c = false)
    (hc : Scan.start c = some (t, ts)) :
    scan .between (name.toList ++ [c]) = some (t, .word name :: ts) := by
  unfold isName at hn
  split at hn
  · cases hn
  · rename_i d rest heq
    obtain ⟨hd, hrest⟩ := Bool.and_eq_true_iff.mp hn
    have first : Scan.step .between d = some (.name [d], []) := start_of_startsName hd
    have others := scan_inName (List.all_eq_true.mp hrest) [d]
    have last : Scan.step (.name (rest.reverse ++ [d])) c = some (t, .word name :: ts) := by
      simp [Scan.step, stop, hc, ← heq]
    rw [heq, List.cons_append]
    exact scan_cons first (scan_append_silent others (scan_char last))

theorem scan_isPart (h : ∀ c ∈ a, Numeral.isPart c = true) (read : List Char) :
    scan (.digits read) a = some (.digits (a.reverse ++ read), []) :=
  scan_kept (fun c hc read => by simp [Scan.step, h c hc]) read

/-- A numeral ends at the first character that is not of it. -/
theorem scan_numeral {digits : String} {c : Char} (hd : Numeral.Signed digits.toList)
    (stop : Numeral.isPart c = false) (hc : Scan.start c = some (t, ts)) :
    scan .between (digits.toList ++ [c]) = some (t, .numeral digits :: ts) := by
  obtain ⟨d, rest, heq, hstart⟩ := hd.start
  have parts : ∀ e ∈ rest, Numeral.isPart e = true := fun e he =>
    hd.parts e (by rw [heq]; exact List.mem_cons_of_mem _ he)
  have first : Scan.step .between d = some (.digits [d], []) := start_of_digit hstart
  have last : Scan.step (.digits (rest.reverse ++ [d])) c = some (t, .numeral digits :: ts) := by
    simp [Scan.step, stop, hc, ← heq, hd.reads]
  rw [heq, List.cons_append]
  exact scan_cons first (scan_append_silent (scan_isPart parts [d]) (scan_char last))

/-! ## 5. Texts in quotes -/

theorem scan_inPlain (h : ∀ c ∈ a, c ≠ '\x22' ∧ c ≠ '&') (read : List Char) :
    scan (.plain read) (a ++ ['\x22']) = some (.between, [.plain (String.ofList (read.reverse ++ a))]) := by
  have inside : scan (.plain read) a = some (.plain (a.reverse ++ read), []) :=
    scan_kept (fun c hc read => by simp [Scan.step, h c hc]) read
  have close : Scan.step (.plain (a.reverse ++ read)) '\x22' =
      some (.between, [.plain (String.ofList (read.reverse ++ a))]) := by simp [Scan.step]
  exact scan_append_silent inside (scan_char close)

/-- What stands for a character inside a single-quoted literal is read as that character. -/
theorem scan_escapeChar (c : Char) (read : List Char) :
    scan (.literal read) (Script.escapeChar c) = some (.literal (c :: read), []) := by
  unfold Script.escapeChar
  split
  case h_6 slash quote line back _ =>
    have break' : ¬(c = '\n' ∨ c = '\r') := not_or.mpr ⟨line, back⟩
    exact scan_char (by simp only [Scan.step, if_neg quote, if_neg slash, if_neg break'])
  all_goals rfl

theorem scan_escaped (s : List Char) (read : List Char) :
    scan (.literal read) (s.flatMap Script.escapeChar) = some (.literal (s.reverse ++ read), []) := by
  have each : ∀ c ∈ s, ∀ read, scan (.literal read) (Script.escapeChar c) =
      some (.literal ([c].reverse ++ read), []) := fun c _ read => scan_escapeChar c read
  simpa using scan_flatMap each read

/-- **A single-quoted literal is read as the text that it was written for**, whatever that holds. -/
theorem scan_quoted (text : String) :
    scan .between (Script.quoted text).toList = some (.between, [.literal text]) := by
  have hopen : Scan.step .between '\'' = some (.literal [], []) := rfl
  have inside := scan_escaped text.toList []
  have close : Scan.step (.literal (text.toList.reverse ++ [])) '\'' =
      some (.between, [.literal text]) := by simp [Scan.step]
  have heq : (Script.quoted text).toList = '\'' :: (text.toList.flatMap Script.escapeChar ++ ['\'']) := by
    simp [Script.quoted, Script.escapeString]
  rw [heq]
  exact scan_cons hopen (scan_append_silent inside (scan_char close))

/-! ## 6. Templates -/

/-- What stands for a character inside a template literal leaves the template open, and no dollar behind. -/
theorem scan_escapeTemplateChar (c : Char) (read : List Char) :
    scan (.template read false) (Script.escapeTemplateChar c) =
      some (.template ((Script.escapeTemplateChar c).reverse ++ read) false, []) := by
  unfold Script.escapeTemplateChar
  split
  · rename_i h
    have special : c = '\\' ∨ c = '\x60' ∨ c = '$' := by simpa [or_assoc] using h
    have first : Scan.step (.template read false) '\\' = some (.templateEscape read, []) := rfl
    have second : Scan.step (.templateEscape read) c = some (.template (c :: '\\' :: read) false, []) := by
      simp only [Scan.step, if_pos special]
    exact scan_cons first (scan_char second)
  · rename_i h
    obtain ⟨⟨slash, tick⟩, dollar⟩ : (c ≠ '\\' ∧ c ≠ '\x60') ∧ c ≠ '$' := by simpa using h
    have : Scan.step (.template read false) c = some (.template (c :: read) false, []) := by
      simp [Scan.step, slash, tick, dollar]
    exact scan_char this

theorem scan_inTemplate (s : List Char) (read : List Char) :
    scan (.template read false) (s.flatMap Script.escapeTemplateChar) =
      some (.template ((s.flatMap Script.escapeTemplateChar).reverse ++ read) false, []) :=
  scan_flatMap (fun c _ read => scan_escapeTemplateChar c read) read

/-- **A template literal of escaped characters is one token**, of what stands between its backticks. -/
theorem scan_template {body : String} {s : List Char} (h : body.toList = s.flatMap Script.escapeTemplateChar) :
    scan .between ('\x60' :: (body.toList ++ ['\x60'])) = some (.between, [.template body]) := by
  have hopen : Scan.step .between '\x60' = some (.template [] false, []) := rfl
  have inside := scan_inTemplate s []
  rw [← h] at inside
  have close : Scan.step (.template (body.toList.reverse ++ []) false) '\x60' =
      some (.between, [.template body]) := by simp [Scan.step]
  exact scan_cons hopen (scan_append_silent inside (scan_char close))

end Artboard.Reader
