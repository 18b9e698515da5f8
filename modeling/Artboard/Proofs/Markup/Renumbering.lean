import Artboard.Proofs.Markup.RoundTrip
import Artboard.Proofs.Numbering

/-!
# Markup further in and under later numbers

Markup can be written further in, and its nodes can have later numbers.  What becomes of its text is said line by
line: each line moves in by the same blanks, and where it gives a key the number of the key is raised
(`Markup.moveLine`).  No more than that happens to markup that is legible (`Markup.print_renumber`), for nothing that
a payload says ends a line, and nothing starts one with a key.

The lines of a text are read off the text itself (`Markup.textLines`), and so are the numbers (`Markup.keyOf?`).
-/

namespace Artboard

/-! ## 1. Later numbers -/

/-- An attribute of a node under a later number. -/
def Attribute.renumber (more : Int) : Attribute → Attribute
  | key id => key (id + more)
  | inputKey id => inputKey (id + more)
  | a => a

namespace Markup

mutual

/-- Markup whose nodes have later numbers. -/
def renumber (more : Int) : Markup → Markup
  | text s => text s
  | element tag as style children =>
    element tag (as.map (Attribute.renumber more)) style (renumberIn more children)

/-- Several pieces of markup whose nodes have later numbers. -/
def renumberIn (more : Int) : List Markup → List Markup
  | [] => []
  | m :: rest => renumber more m :: renumberIn more rest

end

theorem renumberIn_eq_map (more : Int) (ms : List Markup) : renumberIn more ms = ms.map (renumber more) := by
  induction ms with
  | nil => rfl
  | cons m rest ih => rw [renumberIn, ih, List.map_cons]

/-! ## 2. The lines of a text -/

/-- The lines of a text; a text without characters has none. -/
def textLines (s : String) : List String := if s = "" then [] else (s.toList.splitOn '\n').map String.ofList

/-- Text that does not break a line. -/
def NoBreak (s : String) : Prop := '\n' ∉ s.toList

instance (s : String) : Decidable (NoBreak s) := inferInstanceAs (Decidable ('\n' ∉ s.toList))

theorem NoBreak.append {s t : String} (h : NoBreak s) (k : NoBreak t) : NoBreak (s ++ t) := by
  unfold NoBreak at h k ⊢
  rw [String.toList_append, List.mem_append]
  exact not_or.mpr ⟨h, k⟩

/-- Text that is a line, and not an empty one. -/
def IsLine (l : String) : Prop := l ≠ "" ∧ NoBreak l

theorem IsLine.append {s t : String} (h : IsLine s) (k : NoBreak t) : IsLine (s ++ t) := by
  refine ⟨fun none => h.1 ?_, h.2.append k⟩
  exact (String.append_eq_empty_iff.mp none).1

/-- **The lines of a text are those that were put together.** -/
theorem textLines_joinLines {ls : List String} (h : ∀ l ∈ ls, IsLine l) : textLines (joinLines ls) = ls := by
  cases ls with
  | nil => rfl
  | cons l rest =>
    have given : joinLines (l :: rest) ≠ "" := by
      intro none
      have chars := toList_joinLines l rest
      rw [none, spread_cons] at chars
      have length := congrArg List.length chars
      have some : l.toList.length ≠ 0 := by simpa using (h l List.mem_cons_self).1
      simp only [List.length_append, List.length_singleton, String.toList_empty, List.length_nil] at length
      omega
    have chars : (joinLines (l :: rest)).toList = ['\n'].intercalate ((l :: rest).map String.toList) := by
      unfold joinLines
      rw [String.toList_intercalate]
      rfl
    have apart : ∀ cs ∈ (l :: rest).map String.toList, '\n' ∉ cs := by
      intro cs hc
      obtain ⟨line, hl, rfl⟩ := List.mem_map.mp hc
      exact (h line hl).2
    unfold textLines
    rw [if_neg given, chars, List.splitOn_intercalate '\n' apart (by simp), List.map_map]
    simp [Function.comp_def]

/-! ## 3. Lines further in and with later keys -/

/-- So many blanks. -/
def blanks (n : Nat) : String := String.ofList (List.replicate n ' ')

/-- The blanks that a line starts with. -/
def padOf (line : String) : String := String.ofList (line.toList.takeWhile (· == ' '))

/-- The key that a line gives, read between its quotes. -/
def keyOf? (line : String) : Option Attribute :=
  (keyLine? line).bind fun said => Reader.key? (String.ofList (said.toList.drop 5).dropLast)

/-- A line whose key, if it gives one, has a later number. -/
def raiseKey (more : Int) (line : String) : String :=
  match keyOf? line with
  | some a => padOf line ++ (a.renumber more).text
  | none => line

/-- A line further in, its key with a later number. -/
def moveLine (more : Int) (n : Nat) (line : String) : String := blanks n ++ raiseKey more line

/-- A text further in, its keys with later numbers. -/
def move (more : Int) (n : Nat) (s : String) : String := joinLines ((textLines s).map (moveLine more n))

theorem raiseKey_none {line : String} (h : keyLine? line = none) (more : Int) : raiseKey more line = line := by
  simp [raiseKey, keyOf?, h]

theorem raiseKey_pad {pad : String} (h : IsPad pad) (more : Int) (line : String) :
    raiseKey more (pad ++ line) = pad ++ raiseKey more line := by
  have key : keyOf? (pad ++ line) = keyOf? line := by rw [keyOf?, keyLine?_pad h, keyOf?]
  have blank : padOf (pad ++ line) = pad ++ padOf line := by
    obtain ⟨n, hn⟩ := h
    have all : ∀ c ∈ pad.toList, (c == ' ') = true := by
      rw [hn]
      intro c hc
      simpa using List.eq_of_mem_replicate hc
    unfold padOf
    rw [String.toList_append, List.takeWhile_append_of_pos all, String.ofList_append, String.ofList_toList]
  unfold raiseKey
  rw [key, blank]
  split
  · exact String.append_assoc ..
  · rfl

/-- A key is read off its line. -/
private theorem raiseKey_key {a : Attribute} {name : String} (more : Int) (key : a.isAnyKey = true)
    (text : a.text.toList = 'k' :: 'e' :: 'y' :: '=' :: '\x22' :: (name.toList ++ ['\x22']))
    (read : Reader.key? name = some a) : raiseKey more a.text = (a.renumber more).text := by
  have quoted : String.ofList ((a.text.toList.drop 5).dropLast) = name := by
    rw [text]
    simp
  have found : keyOf? a.text = some a := by
    rw [keyOf?, keyLine?_attribute, if_pos key, Option.bind_some, quoted, read]
  have flush : padOf a.text = "" := by
    rw [padOf, text]
    rfl
  rw [raiseKey, found]
  dsimp only
  rw [flush, String.empty_append]

/-- The line of an attribute is that of the attribute with a later number. -/
theorem raiseKey_attribute (more : Int) (a : Attribute) : raiseKey more a.text = (a.renumber more).text := by
  have other (none : a.isAnyKey = false) (same : a.renumber more = a) :
      raiseKey more a.text = (a.renumber more).text := by
    rw [raiseKey_none (by rw [keyLine?_attribute, none, if_neg Bool.false_ne_true]), same]
  cases a with
  | key id =>
    refine raiseKey_key more rfl ?_ (Reader.key?_key id)
    simp [Attribute.text, Attribute.name, Attribute.value]
  | inputKey id =>
    refine raiseKey_key more rfl ?_ (Reader.key?_inputKey id)
    simp [Attribute.text, Attribute.name, Attribute.value]
  | control _ | label _ | placeholder _ | source _ | description _ | innerHtml _ => exact other rfl rfl

theorem moveLine_pad {pad : String} (h : IsPad pad) (more : Int) (n : Nat) (line : String) :
    moveLine more n (pad ++ line) = blanks n ++ pad ++ raiseKey more line := by
  rw [moveLine, raiseKey_pad h, String.append_assoc]

/-- A line that gives no key only moves. -/
theorem moveLine_none {pad line : String} (h : IsPad pad) (none : keyLine? line = none) (more : Int) (n : Nat) :
    moveLine more n (pad ++ line) = blanks n ++ pad ++ line := by
  rw [moveLine_pad h, raiseKey_none none]

/-! ## 4. The lines of markup move -/

/-- An indent that is `n` levels deeper. -/
theorem indent_add (d k : Nat) : indent ((d + k : Nat) : Int) = blanks (2 * k) ++ indent (d : Int) := by
  unfold indent blanks
  rw [← String.ofList_append, List.replicate_append_replicate]
  congr 2
  omega

/-- From level zero on, all children are one level below their element. -/
theorem childLevel_natCast (d : Nat) (m : Markup) : childLevel (d : Int) m = ((d + 1 : Nat) : Int) := by
  unfold childLevel
  split
  · rw [Int.toNat_natCast]
    rfl
  · rfl

/-- The lines of a style move. -/
theorem styleLines_move {pad : String} (hp : IsPad pad) {style : Entries Written} (h : LegibleStyle style)
    (more : Int) (n : Nat) : styleLines (blanks n ++ pad) style = (styleLines pad style).map (moveLine more n) := by
  have open' : keyLine? "style=\x7b\x7b" = none := keyLine?_other rfl (by decide) (by decide)
  have close : keyLine? "\x7d\x7d" = none := keyLine?_other rfl (by decide) (by decide)
  unfold styleLines
  split
  · rfl
  · rw [List.map_append, List.map_cons, List.map_singleton, List.map_map, moveLine_none hp open',
      moveLine_none hp close]
    congr 2
    refine List.map_congr_left fun e he => ?_
    have parts (p : String) : p ++ step ++ e.1 ++ ": " ++ e.2.text ++ "," =
        p ++ step ++ (e.1 ++ (": " ++ e.2.text ++ ",")) := by
      simp [String.append_assoc]
    rw [Function.comp_apply, parts, parts, moveLine_none hp.step (keyLine?_property (h e he).1 _)]
    simp [String.append_assoc]

/-- The lines of an opening move. -/
theorem openingLines_move {pad : String} (hp : IsPad pad) {style : Entries Written} (h : LegibleStyle style)
    (tag : Tag) (as : List Attribute) (more : Int) (n : Nat) :
    openingLines (blanks n ++ pad) tag (as.map (Attribute.renumber more)) style =
      (openingLines pad tag as style).map (moveLine more n) := by
  have start : keyLine? ("<" ++ tag.name) = none :=
    keyLine?_other (String.toList_append ..) (by decide) (by decide)
  have attributes : (as.map (Attribute.renumber more)).map (fun a => blanks n ++ pad ++ step ++ a.text) =
      (as.map fun a => pad ++ step ++ a.text).map (moveLine more n) := by
    rw [List.map_map, List.map_map]
    refine List.map_congr_left fun a _ => ?_
    rw [Function.comp_apply, Function.comp_apply, moveLine_pad hp.step, raiseKey_attribute]
    simp [String.append_assoc]
  have own : moveLine more n (pad ++ "<" ++ tag.name) = blanks n ++ pad ++ "<" ++ tag.name := by
    rw [String.append_assoc, moveLine_none hp start]
    simp only [String.append_assoc]
  unfold openingLines
  rw [List.map_append, List.map_cons, own, ← styleLines_move hp.step h more n, ← attributes]
  simp [String.append_assoc]

/-- The lines of children move if those of each do. -/
theorem childLines_renumber (more : Int) (d k : Nat) {ms : List Markup} (h : ∀ m ∈ ms, ∀ d : Nat,
      (m.renumber more).lines ((d + k : Nat) : Int) = (m.lines (d : Int)).map (moveLine more (2 * k))) :
    childLines ((d + k : Nat) : Int) (renumberIn more ms) =
      (childLines (d : Int) ms).map (moveLine more (2 * k)) := by
  induction ms with
  | nil => rfl
  | cons m rest ih =>
    obtain ⟨first, others⟩ := List.forall_mem_cons.mp h
    have deeper : d + k + 1 = d + 1 + k := by omega
    rw [renumberIn, childLines, childLines, List.map_append, ih others, childLevel_natCast, childLevel_natCast, deeper,
      first]

/-- **The lines of legible markup move**: `k` levels further in, and under later numbers. -/
theorem lines_renumber {m : Markup} (h : m.Legible) (more : Int) (d k : Nat) :
    (m.renumber more).lines ((d + k : Nat) : Int) = (m.lines (d : Int)).map (moveLine more (2 * k)) := by
  induction h generalizing d with
  | @text s =>
    have line : keyLine? ("\x7b" ++ (Script.quoted s ++ "\x7d")) = none :=
      keyLine?_other (String.toList_append ..) (by decide) (by decide)
    have parts (p : String) : p ++ "\x7b" ++ Script.quoted s ++ "\x7d" =
        p ++ ("\x7b" ++ (Script.quoted s ++ "\x7d")) := by
      simp only [String.append_assoc]
    rw [renumber, lines, lines, List.map_singleton, parts, parts, moveLine_none (isPad_indent _) line, indent_add]
  | @element tag as style children named styled inside ih =>
    have pad := isPad_indent (d : Int)
    have bracket {l : String} {c : Char} {rest : List Char} (hl : l.toList = c :: rest) (blank : c ≠ ' ')
        (hk : c ≠ 'k') : moveLine more (2 * k) (indent d ++ l) = blanks (2 * k) ++ indent d ++ l :=
      moveLine_none pad (keyLine?_other hl blank hk) more (2 * k)
    rw [renumber, lines, lines, List.map_append, indent_add, openingLines_move pad styled]
    congr 1
    cases children with
    | nil =>
      have close : moveLine more (2 * k) (indent d ++ "/>") = _ := bracket rfl (by decide) (by decide)
      simp [renumberIn, close]
    | cons c others =>
      have greater : moveLine more (2 * k) (indent d ++ ">") = _ := bracket rfl (by decide) (by decide)
      have close : moveLine more (2 * k) (indent d ++ "</" ++ tag.name ++ ">") =
          blanks (2 * k) ++ indent d ++ "</" ++ tag.name ++ ">" := by
        have parts (p : String) : p ++ "</" ++ tag.name ++ ">" = p ++ ("</" ++ (tag.name ++ ">")) := by
          simp only [String.append_assoc]
        rw [parts, parts]
        exact bracket (String.toList_append ..) (by decide) (by decide)
      have same := childLines_renumber more d k ih
      rw [renumberIn] at same ⊢
      rw [if_neg (by simp), if_neg (by simp), same, List.map_append, List.map_cons, List.map_singleton, greater, close]

/-! ## 5. Lines are not broken -/

/-- No escape breaks a line. -/
theorem noBreak_quoted (s : String) : NoBreak (Script.quoted s) := by
  have escaped : ∀ c, '\n' ∉ Script.escapeChar c := by
    intro c
    unfold Script.escapeChar
    split <;> simp_all [eq_comm]
  have inside : NoBreak (Script.escapeString s) := by
    unfold NoBreak Script.escapeString
    rw [String.toList_ofList, List.mem_flatMap]
    rintro ⟨c, _, hc⟩
    exact escaped c hc
  exact (NoBreak.append (by decide) inside).append (by decide)

theorem noBreak_escapeTemplate (s : String) : NoBreak (Script.escapeTemplate s) := by
  unfold NoBreak Script.escapeTemplate
  rw [String.toList_ofList]
  intro h
  exact absurd (Text.eq_space_of_mem_collapseBlank h (by decide)) (by decide)

/-- A character of a numeral does not break a line. -/
theorem noBreak_signed {s : String} (h : Numeral.Signed s.toList) : NoBreak s := fun mem =>
  absurd (h.parts _ mem) (by decide)

theorem noBreak_attribute {a : Attribute} (h : a.Legible) : NoBreak a.text := by
  have number (id : Int) : NoBreak (toString id) := noBreak_signed (signed_toString id)
  have braces (s : String) : NoBreak ("\x7b" ++ Script.quoted s ++ "\x7d") :=
    (NoBreak.append (by decide) (noBreak_quoted s)).append (by decide)
  have named (name value : String) (hn : NoBreak name) (hv : NoBreak value) : NoBreak (name ++ "=" ++ value) :=
    (hn.append (by decide)).append hv
  cases a with
  | key id => exact named "key" _ (by decide) ((NoBreak.append (by decide) (number id)).append (by decide))
  | inputKey id => exact named "key" _ (by decide) ((NoBreak.append (by decide) (number id)).append (by decide))
  | control kind => cases kind <;> decide
  | label s => exact named "aria-label" _ (by decide) (braces s)
  | placeholder s => exact named "placeholder" _ (by decide) (braces s)
  | source s => exact named "src" _ (by decide) (braces s)
  | description s => exact named "alt" _ (by decide) (braces s)
  | innerHtml body =>
    obtain ⟨payload, rfl⟩ := h
    exact named "dangerouslySetInnerHTML" _ (by decide)
      ((NoBreak.append (by decide) (noBreak_escapeTemplate payload)).append (by decide))

theorem noBreak_written {w : Written} (h : w.Legible) : NoBreak w.text := by
  cases w with
  | bare digits => exact noBreak_signed h
  | quoted s => exact noBreak_quoted s

/-- No property of a style breaks a line. -/
theorem noBreak_property {name : String} (h : name ∈ Style.properties) : NoBreak name := by
  have all : ∀ n ∈ Style.properties, NoBreak n := by decide
  exact all name h

theorem isLine_indent (level : Int) : IsLine (indent level) := by
  unfold IsLine NoBreak indent
  rw [String.toList_ofList]
  refine ⟨fun none => ?_, fun mem => absurd (List.eq_of_mem_replicate mem) (by decide)⟩
  have length := congrArg String.length none
  simp at length

/-- The lines of an opening are lines. -/
theorem isLine_openingLines {pad : String} (hp : IsLine pad) {as : List Attribute} {style : Entries Written}
    (named : ∀ a ∈ as, a.Legible) (styled : LegibleStyle style) (tag : Tag) :
    ∀ l ∈ openingLines pad tag as style, IsLine l := by
  have deeper : IsLine (pad ++ step) := hp.append (by decide)
  have style' : ∀ l ∈ styleLines (pad ++ step) style, IsLine l := by
    unfold styleLines
    split
    · exact List.forall_mem_nil _
    · refine List.forall_mem_append.mpr ⟨List.forall_mem_cons.mpr ⟨deeper.append (by decide), ?_⟩,
        List.forall_mem_singleton.mpr (deeper.append (by decide))⟩
      refine List.forall_mem_map.mpr fun e he => ?_
      have property := noBreak_property (styled e he).1
      exact ((((deeper.append (by decide)).append property).append (by decide)).append
        (noBreak_written (styled e he).2)).append (by decide)
  have start : IsLine (pad ++ "<" ++ tag.name) := (hp.append (by decide)).append (by cases tag <;> decide)
  unfold openingLines
  refine List.forall_mem_append.mpr ⟨List.forall_mem_cons.mpr ⟨start, ?_⟩, style'⟩
  exact List.forall_mem_map.mpr fun a ha => deeper.append (noBreak_attribute (named a ha))

/-- **Each line of legible markup is one line.** -/
theorem isLine_lines {m : Markup} (h : m.Legible) (level : Int) : ∀ l ∈ m.lines level, IsLine l := by
  induction h generalizing level with
  | @text s =>
    unfold lines
    exact List.forall_mem_singleton.mpr
      ((((isLine_indent level).append (by decide)).append (noBreak_quoted s)).append (by decide))
  | @element tag as style children named styled inside ih =>
    have pad := isLine_indent level
    have content : ∀ l ∈ childLines level children, IsLine l := by
      intro l hl
      obtain ⟨m, hm, there⟩ := mem_childLines.mp hl
      exact ih m hm _ l there
    unfold lines
    refine List.forall_mem_append.mpr ⟨isLine_openingLines pad named styled tag, ?_⟩
    split
    · exact List.forall_mem_singleton.mpr (pad.append (by decide))
    · refine List.forall_mem_append.mpr ⟨List.forall_mem_cons.mpr ⟨pad.append (by decide),
        content⟩, List.forall_mem_singleton.mpr ?_⟩
      exact ((pad.append (by decide)).append (by cases tag <;> decide)).append (by decide)

/-! ## 6. Texts of markup -/

/-- Lines that stand alike in a text are put together alike. -/
theorem joinLines_congr {ls ms : List String} (hl : ls ≠ []) (hm : ms ≠ []) (h : spread ls = spread ms) :
    joinLines ls = joinLines ms := by
  obtain ⟨l, rest, rfl⟩ := List.exists_cons_of_ne_nil hl
  obtain ⟨m, more, rfl⟩ := List.exists_cons_of_ne_nil hm
  rw [← toList_joinLines, ← toList_joinLines] at h
  exact String.toList_injective (List.append_cancel_right h)

/-- Pieces of markup are written as all their lines. -/
theorem joinLines_print (level : Int) (ms : List Markup) :
    joinLines (ms.map (print level)) = joinLines (ms.flatMap (lines level)) := by
  cases ms with
  | nil => rfl
  | cons m rest =>
    refine joinLines_congr (by simp) ?_ ?_
    · simp [lines_ne_nil]
    · rw [spread_print]
      unfold spread
      rw [List.flatMap_assoc]

/-- The lines of written markup. -/
theorem textLines_print {ms : List Markup} (h : ∀ m ∈ ms, m.Legible) (level : Int) :
    textLines (joinLines (ms.map (print level))) = ms.flatMap (lines level) := by
  rw [joinLines_print]
  refine textLines_joinLines fun l hl => ?_
  obtain ⟨m, hm, hl⟩ := List.mem_flatMap.mp hl
  exact isLine_lines (h m hm) level l hl

/-- **Markup further in and under later numbers** is written as what was written before, each line moved in and each
key raised. -/
theorem print_renumber {ms : List Markup} (h : ∀ m ∈ ms, m.Legible) (more : Int) (d k : Nat) :
    joinLines ((ms.map (renumber more)).map (print ((d + k : Nat) : Int))) =
      move more (2 * k) (joinLines (ms.map (print (d : Int)))) := by
  unfold move
  rw [textLines_print h, joinLines_print, List.map_flatMap, List.flatMap_map]
  congr 1
  exact List.flatMap_congr fun m hm => lines_renumber (h m hm) more d k

-- only what starts a line is a key
example : move 5 2 "  <div\n  key=\"node_8\"\n  \x7b'key=\"node_9\"'\x7d" =
    "    <div\n    key=\"node_13\"\n    \x7b'key=\"node_9\"'\x7d" := by decide +kernel

end Markup

end Artboard
