import Artboard.Composition
import Artboard.Proofs.Markup.Legible
import Artboard.Proofs.Markup.Lines
import Artboard.Proofs.Markup.Reader
import Artboard.Proofs.Script.Template

/-!
# Markup is read back as it was drawn

Markup has a list of tokens of its own (`Reader.tokens`).  The printer's lines scan to these tokens, whatever
the texts inside are (`scan_lines`), and the tokens are read as the markup again, wherever they stand
(`read_tokens`).  Together: what a composition prints spells its markup and nothing else
(`Composition.read_text`).
-/

namespace Artboard.Reader

/-! ## 1. The tokens of markup -/

/-- The tokens of the value of an attribute. -/
def valueTokens : Attribute → List Token
  | .key id => [.plain ("node_" ++ toString id)]
  | .inputKey id => [.plain ("node_" ++ toString id ++ "_input")]
  | .control kind => [.plain kind.name]
  | .label s | .placeholder s | .source s | .description s => [.leftBrace, .literal s, .rightBrace]
  | .innerHtml body =>
    [.leftBrace, .leftBrace, .word "__html", .colon, .template body, .rightBrace, .rightBrace]

/-- The tokens of an attribute. -/
def attributeTokens (a : Attribute) : List Token := .word a.name :: .equals :: valueTokens a

/-- The token of a style value. -/
def styleToken : Written → Token
  | .bare digits => .numeral digits
  | .quoted s => .literal s

/-- The tokens of a style property. -/
def propertyTokens (e : String × Written) : List Token := [.word e.1, .colon, styleToken e.2, .comma]

/-- The tokens of a style, none where there are no properties. -/
def styleTokens (style : Entries Written) : List Token :=
  if style.isEmpty then []
  else .word "style" :: .equals :: .leftBrace :: .leftBrace ::
    (style.flatMap propertyTokens ++ [.rightBrace, .rightBrace])

/-- The tokens up to the closing bracket of an element. -/
def openingTokens (tag : Tag) (attributes : List Attribute) (style : Entries Written) : List Token :=
  .less :: .word tag.name :: (attributes.flatMap attributeTokens ++ styleTokens style)

mutual

/-- The tokens of markup. -/
def tokens : Markup → List Token
  | .text s => [.leftBrace, .literal s, .rightBrace]
  | .element tag attributes style children =>
    openingTokens tag attributes style ++
      (if children.isEmpty then [.slash, .greater]
      else .greater :: (tokensIn children ++ [.less, .slash, .word tag.name, .greater]))

/-- The tokens of several pieces of markup. -/
def tokensIn : List Markup → List Token
  | [] => []
  | m :: rest => tokens m ++ tokensIn rest

end

/-! ## 2. The printer's lines scan to the tokens -/

variable {a : List Char} {ts us : List Token}

/-- Lines that scan to tokens have these tokens. -/
theorem tokens?_joinLines {ls : List String} (h : scan .between (Markup.spread ls) = some (.between, ts)) :
    tokens? (Markup.joinLines ls) = some ts := by
  unfold tokens?
  cases ls with
  | nil =>
    cases h
    rfl
  | cons l rest => rw [Markup.toList_joinLines, h]

/-- A line is scanned without its indent. -/
theorem scan_line {pad l : String} (hp : Markup.IsPad pad)
    (h : scan .between (l.toList ++ ['\n']) = some (.between, ts)) :
    scan .between ((pad ++ l).toList ++ ['\n']) = some (.between, ts) := by
  obtain ⟨n, hn⟩ := hp
  rw [String.toList_append, hn, List.append_assoc]
  exact scan_append_silent (scan_blanks n) h

/-- A line at the end of others. -/
theorem scan_lastLine {pad l : String} (hp : Markup.IsPad pad)
    (h : scan .between (l.toList ++ ['\n']) = some (.between, ts)) :
    scan .between (Markup.spread [pad ++ l]) = some (.between, ts) := by
  have := scan_line hp h
  simpa [Markup.spread] using this

theorem isName_property {name : String} (h : name ∈ Style.properties) : isName name = true := by
  have all : ∀ n ∈ Style.properties, isName n = true := by decide
  exact all name h

/-- A text between double quotes at the end of a line. -/
theorem scan_plain {text : String} (h : ∀ c ∈ text.toList, c ≠ '\x22' ∧ c ≠ '&') :
    scan .between ('\x22' :: (text.toList ++ ['\x22'] ++ ['\n'])) = some (.between, [.plain text]) := by
  have hopen : Scan.step .between '\x22' = some (.plain [], []) := by decide
  have hend : scan .between ['\n'] = some (.between, []) := by decide
  have := scan_cons hopen (scan_append (scan_inPlain h []) hend)
  simpa using this

/-- A literal between braces at the end of a line. -/
theorem scan_braced (s : String) :
    scan .between (("\x7b" ++ Script.quoted s ++ "\x7d").toList ++ ['\n']) =
      some (.between, [.leftBrace, .literal s, .rightBrace]) := by
  have hopen : Scan.step .between '\x7b' = some (.between, [.leftBrace]) := by decide
  have close : scan .between ['\x7d', '\n'] = some (.between, [.rightBrace]) := by decide
  have := scan_cons hopen (scan_append (scan_quoted s) close)
  simpa using this

/-- A template in an object at the end of a line. -/
theorem scan_html {body payload : String} (hb : body = Script.escapeTemplate payload) :
    scan .between (("\x7b\x7b __html: \x60" ++ body ++ "\x60 \x7d\x7d").toList ++ ['\n']) =
      some (.between, [.leftBrace, .leftBrace, .word "__html", .colon, .template body, .rightBrace,
        .rightBrace]) := by
  have hopen : scan .between "\x7b\x7b __html: ".toList =
      some (.between, [.leftBrace, .leftBrace, .word "__html", .colon]) := by decide
  have close : scan .between " \x7d\x7d\n".toList = some (.between, [.rightBrace, .rightBrace]) := by decide
  have escaped : body.toList = (Text.collapseBlank payload.toList).flatMap Script.escapeTemplateChar := by
    rw [hb, Script.toList_escapeTemplate]
  have := scan_append hopen (scan_append (scan_template escaped) close)
  simpa using this

/-- The characters of the number of a node need no escapes. -/
theorem plain_of_mem_toString {id : Int} {c : Char} (h : c ∈ (toString id).toList) :
    c ≠ '\x22' ∧ c ≠ '&' := by
  have part := (signed_toString id).parts c h
  refine ⟨?_, ?_⟩ <;> rintro rfl <;> revert part <;> decide

/-- Characters that need no escapes, which a test finds. -/
theorem plain_of_all {s : List Char} (h : s.all (fun c => c != '\x22' && c != '&') = true) :
    ∀ c ∈ s, c ≠ '\x22' ∧ c ≠ '&' := by
  intro c hc
  simpa using List.all_eq_true.mp h c hc

/-- The tokens of a value. -/
theorem scan_value {entry : Attribute} (h : entry.Legible) :
    scan .between (entry.value.toList ++ ['\n']) = some (.between, valueTokens entry) := by
  have node : ∀ c ∈ "node_".toList, c ≠ '\x22' ∧ c ≠ '&' := plain_of_all (by decide)
  have input : ∀ c ∈ "_input".toList, c ≠ '\x22' ∧ c ≠ '&' := plain_of_all (by decide)
  cases entry with
  | key id =>
    have plain : ∀ c ∈ ("node_" ++ toString id).toList, c ≠ '\x22' ∧ c ≠ '&' := fun c hc => by
      rw [String.toList_append] at hc
      exact (List.mem_append.mp hc).elim (node c) plain_of_mem_toString
    have := scan_plain plain
    simpa [Attribute.value, valueTokens] using this
  | inputKey id =>
    have plain : ∀ c ∈ ("node_" ++ toString id ++ "_input").toList, c ≠ '\x22' ∧ c ≠ '&' := fun c hc => by
      rw [String.toList_append, String.toList_append] at hc
      rcases List.mem_append.mp hc with hc | hc
      · exact (List.mem_append.mp hc).elim (node c) plain_of_mem_toString
      · exact input c hc
    have := scan_plain plain
    simpa [Attribute.value, valueTokens] using this
  | control kind => cases kind <;> decide
  | label s | placeholder s | source s | description s => exact scan_braced s
  | innerHtml body =>
    obtain ⟨payload, hb⟩ := h
    exact scan_html hb

/-- **An attribute is scanned to its tokens.** -/
theorem scan_attribute {entry : Attribute} (h : entry.Legible) :
    scan .between (entry.text.toList ++ ['\n']) = some (.between, attributeTokens entry) := by
  have name : isName entry.name = true := by
    unfold Attribute.name
    split <;> decide
  have stop : inName '=' = false := by decide
  have equals : Scan.start '=' = some (.between, [.equals]) := by decide
  have := scan_append (scan_name name stop equals) (scan_value h)
  simpa [Attribute.text, attributeTokens] using this

/-- A style property is scanned to its tokens. -/
theorem scan_property {e : String × Written} (hn : e.1 ∈ Style.properties) (hv : e.2.Legible) :
    scan .between ((e.1 ++ ": " ++ e.2.text ++ ",").toList ++ ['\n']) =
      some (.between, propertyTokens e) := by
  obtain ⟨name, value⟩ := e
  have stop : inName ':' = false := by decide
  have colon : Scan.start ':' = some (.between, [.colon]) := by decide
  have blank : scan .between [' '] = some (.between, []) := by decide
  have line : scan .between ['\n'] = some (.between, []) := by decide
  have comma : Scan.start ',' = some (.between, [.comma]) := by decide
  have tail : scan .between (value.text.toList ++ [',']) = some (.between, [styleToken value, .comma]) := by
    cases value with
    | bare digits => exact scan_numeral hv (by decide) comma
    | quoted s => exact scan_append (scan_quoted s) (scan_char comma)
  have := scan_append (scan_name (isName_property hn) stop colon)
    (scan_append_silent blank (scan_append tail line))
  simpa [propertyTokens] using this

/-- The lines of style properties are scanned to their tokens. -/
theorem scan_properties {pad : String} (hp : Markup.IsPad pad) {es : Entries Written} (h : LegibleStyle es) :
    scan .between (Markup.spread (es.map fun e => pad ++ e.1 ++ ": " ++ e.2.text ++ ",")) =
      some (.between, es.flatMap propertyTokens) := by
  induction es with
  | nil => rfl
  | cons e rest ih =>
    obtain ⟨hn, hv⟩ := h e List.mem_cons_self
    have line : pad ++ e.1 ++ ": " ++ e.2.text ++ "," = pad ++ (e.1 ++ ": " ++ e.2.text ++ ",") := by
      simp [String.append_assoc]
    rw [List.map_cons, Markup.spread_cons, List.flatMap_cons, line]
    exact scan_append (scan_line hp (scan_property hn hv)) (ih fun e hm => h e (List.mem_cons_of_mem _ hm))

/-- The lines of a style are scanned to its tokens. -/
theorem scan_styleLines {pad : String} (hp : Markup.IsPad pad) {style : Entries Written}
    (h : LegibleStyle style) :
    scan .between (Markup.spread (Markup.styleLines pad style)) = some (.between, styleTokens style) := by
  have first : scan .between ("style=\x7b\x7b".toList ++ ['\n']) =
      some (.between, [.word "style", .equals, .leftBrace, .leftBrace]) := by decide
  have last : scan .between ("\x7d\x7d".toList ++ ['\n']) =
      some (.between, [.rightBrace, .rightBrace]) := by decide
  unfold Markup.styleLines styleTokens
  split
  · rfl
  · rw [List.cons_append, Markup.spread_cons, Markup.spread_append]
    exact scan_append (scan_line hp first) (scan_append (scan_properties hp.step h) (scan_lastLine hp last))

/-- The lines of attributes are scanned to their tokens. -/
theorem scan_attributeLines {pad : String} (hp : Markup.IsPad pad) {attributes : List Attribute}
    (h : ∀ a ∈ attributes, a.Legible) :
    scan .between (Markup.spread (attributes.map fun a => pad ++ a.text)) =
      some (.between, attributes.flatMap attributeTokens) := by
  induction attributes with
  | nil => rfl
  | cons a rest ih =>
    rw [List.map_cons, Markup.spread_cons, List.flatMap_cons]
    exact scan_append (scan_line hp (scan_attribute (h a List.mem_cons_self)))
      (ih fun b hb => h b (List.mem_cons_of_mem _ hb))

/-- The opening of an element is scanned to its tokens. -/
theorem scan_openingLines {pad : String} (hp : Markup.IsPad pad) (tag : Tag) {attributes : List Attribute}
    {style : Entries Written} (ha : ∀ a ∈ attributes, a.Legible) (hs : LegibleStyle style) :
    scan .between (Markup.spread (Markup.openingLines pad tag attributes style)) =
      some (.between, openingTokens tag attributes style) := by
  have first : scan .between (("<" ++ tag.name).toList ++ ['\n']) =
      some (.between, [.less, .word tag.name]) := by cases tag <;> decide
  unfold Markup.openingLines
  rw [List.cons_append, Markup.spread_cons, Markup.spread_append, String.append_assoc]
  exact scan_append (scan_line hp first)
    (scan_append (scan_attributeLines hp.step ha) (scan_styleLines hp.step hs))

/-- The lines of children are scanned to the tokens of all of them if those of each are. -/
theorem scan_childLines (level : Int) {ms : List Markup}
    (h : ∀ m ∈ ms, ∀ level, scan .between (Markup.spread (m.lines level)) = some (.between, tokens m)) :
    scan .between (Markup.spread (Markup.childLines level ms)) = some (.between, tokensIn ms) := by
  induction ms with
  | nil => rfl
  | cons m rest ih =>
    obtain ⟨first, others⟩ := List.forall_mem_cons.mp h
    unfold Markup.childLines tokensIn
    rw [Markup.spread_append]
    exact scan_append (first _) (ih others)

/-- **The lines of legible markup are scanned to its tokens**, whatever its texts hold. -/
theorem scan_lines {m : Markup} (h : m.Legible) (level : Int) :
    scan .between (Markup.spread (m.lines level)) = some (.between, tokens m) := by
  induction h generalizing level with
  | @text s =>
    have line : Markup.indent level ++ "\x7b" ++ Script.quoted s ++ "\x7d" =
        Markup.indent level ++ ("\x7b" ++ Script.quoted s ++ "\x7d") := by
      simp [String.append_assoc]
    unfold Markup.lines tokens
    rw [line]
    exact scan_lastLine (Markup.isPad_indent level) (scan_braced s)
  | @element tag attributes style children named styled inside ih =>
    have pad := Markup.isPad_indent level
    have opening := scan_openingLines pad tag named styled
    unfold Markup.lines tokens
    dsimp only
    rw [Markup.spread_append]
    refine scan_append opening ?_
    split
    · have last : scan .between ("/>".toList ++ ['\n']) = some (.between, [.slash, .greater]) := by decide
      exact scan_lastLine pad last
    · have greater : scan .between (">".toList ++ ['\n']) = some (.between, [.greater]) := by decide
      have last : scan .between (("</" ++ tag.name ++ ">").toList ++ ['\n']) =
          some (.between, [.less, .slash, .word tag.name, .greater]) := by cases tag <;> decide
      have line : Markup.indent level ++ "</" ++ tag.name ++ ">" =
          Markup.indent level ++ ("</" ++ tag.name ++ ">") := by simp [String.append_assoc]
      rw [List.cons_append, Markup.spread_cons, Markup.spread_append, line]
      exact scan_append (scan_line pad greater)
        (scan_append (scan_childLines level ih) (scan_lastLine pad last))

/-! ## 3. The tokens are read as the markup -/

variable {around : List Opened} {here : List Markup} {tag : Tag} {attributes : List Attribute}
  {style : Entries Written} {rest : List Token}

theorem tag?_name (tag : Tag) : tag? tag.name = some tag := by
  cases tag <;> decide

/-- The characters of the number of a node up to what may come behind. -/
private theorem split_toString (id : Int) {tail : List Char} (stop : tail.takeWhile (· != '_') = []) :
    ((toString id).toList ++ tail).takeWhile (· != '_') = (toString id).toList ∧
      ((toString id).toList ++ tail).dropWhile (· != '_') = tail := by
  refine Numeral.takeWhile_append_stop (fun c hc => ?_) stop
  have part := (signed_toString id).parts c hc
  rw [bne_iff_ne]
  rintro rfl
  revert part
  decide

theorem key?_key (id : Int) : key? ("node_" ++ toString id) = some (.key id) := by
  have heq : ("node_" ++ toString id).toList =
      'n' :: 'o' :: 'd' :: 'e' :: '_' :: ((toString id).toList ++ []) := by simp
  have stop : ([] : List Char).takeWhile (· != '_') = [] := rfl
  obtain ⟨htake, hdrop⟩ := split_toString id stop
  unfold key?
  rw [heq]
  simp only [htake, hdrop, Numeral.integer?_toString, Option.bind_some, if_true]

theorem key?_inputKey (id : Int) : key? ("node_" ++ toString id ++ "_input") = some (.inputKey id) := by
  have heq : ("node_" ++ toString id ++ "_input").toList =
      'n' :: 'o' :: 'd' :: 'e' :: '_' :: ((toString id).toList ++ "_input".toList) := by simp
  have stop : "_input".toList.takeWhile (· != '_') = [] := by decide
  have some' : "_input".toList ≠ [] := by decide
  obtain ⟨htake, hdrop⟩ := split_toString id stop
  unfold key?
  rw [heq]
  simp only [htake, hdrop, Numeral.integer?_toString, Option.bind_some, if_neg some', if_true]

theorem readAttributes_plain {name s : String} {a : Attribute} (h : plainAttribute? name s = some a) :
    readAttributes around here tag attributes (.word name :: .equals :: .plain s :: rest) =
      readAttributes around here tag (attributes ++ [a]) rest := by
  rw [readAttributes, h, Option.bind_some]

theorem readAttributes_literal {name s : String} {a : Attribute} (h : literalAttribute? name s = some a) :
    readAttributes around here tag attributes
        (.word name :: .equals :: .leftBrace :: .literal s :: .rightBrace :: rest) =
      readAttributes around here tag (attributes ++ [a]) rest := by
  rw [readAttributes, h, Option.bind_some]

/-- An attribute is read from its tokens. -/
theorem read_attribute (a : Attribute) :
    readAttributes around here tag attributes (attributeTokens a ++ rest) =
      readAttributes around here tag (attributes ++ [a]) rest := by
  cases a with
  | key id => exact readAttributes_plain (key?_key id)
  | inputKey id => exact readAttributes_plain (key?_inputKey id)
  | control kind =>
    have h : plainAttribute? "type" kind.name = some (.control kind) := by cases kind <;> decide
    exact readAttributes_plain h
  | label s | placeholder s | source s | description s => exact readAttributes_literal rfl
  | innerHtml body =>
    have h : templateAttribute? "dangerouslySetInnerHTML" "__html" body = some (.innerHtml body) := rfl
    unfold attributeTokens valueTokens
    rw [List.cons_append, List.cons_append]
    simp only [List.cons_append, List.nil_append, Attribute.name]
    rw [readAttributes, h, Option.bind_some]

theorem read_attributes (more : List Attribute) :
    readAttributes around here tag attributes (more.flatMap attributeTokens ++ rest) =
      readAttributes around here tag (attributes ++ more) rest := by
  induction more generalizing attributes with
  | nil => rw [List.append_nil, List.flatMap_nil, List.nil_append]
  | cons a others ih =>
    rw [List.flatMap_cons, List.append_assoc, read_attribute, ih, List.append_assoc]
    rfl

/-- A style property is read from its tokens. -/
theorem read_property (e : String × Written) :
    readStyle around here tag attributes style (propertyTokens e ++ rest) =
      readStyle around here tag attributes (style ++ [e]) rest := by
  obtain ⟨name, value⟩ := e
  cases value with
  | bare digits => rfl
  | quoted s => rfl

theorem read_properties (more : Entries Written) :
    readStyle around here tag attributes style (more.flatMap propertyTokens ++ rest) =
      readStyle around here tag attributes (style ++ more) rest := by
  induction more generalizing style with
  | nil => rw [List.append_nil, List.flatMap_nil, List.nil_append]
  | cons e others ih =>
    rw [List.flatMap_cons, List.append_assoc, read_property, ih, List.append_assoc]
    rfl

/-- A style that has properties is read up to its end. -/
theorem read_style (e : String × Written) (others : Entries Written) :
    readAttributes around here tag attributes (styleTokens (e :: others) ++ rest) =
      readStyle around here tag attributes (e :: others) (.rightBrace :: .rightBrace :: rest) := by
  have properties : readStyle around here tag attributes []
      ((e :: others).flatMap propertyTokens ++ .rightBrace :: .rightBrace :: rest) =
      readStyle around here tag attributes (e :: others) (.rightBrace :: .rightBrace :: rest) :=
    read_properties (e :: others)
  have heq : styleTokens (e :: others) ++ rest = .word "style" :: .equals :: .leftBrace :: .leftBrace ::
      ((e :: others).flatMap propertyTokens ++ .rightBrace :: .rightBrace :: rest) := by
    simp [styleTokens]
  obtain ⟨name, value⟩ := e
  rw [heq, ← properties]
  -- no property starts like the object of a template
  cases value with
  | bare digits => rfl
  | quoted s => rfl

/-- An element without children is read from behind its attributes. -/
theorem read_closed (style : Entries Written) :
    readAttributes around here tag attributes (styleTokens style ++ .slash :: .greater :: rest) =
      readContent around (here ++ [.element tag attributes style []]) rest := by
  cases style with
  | nil => rfl
  | cons e others =>
    rw [read_style]
    rfl

/-- An element with children is opened from behind its attributes. -/
theorem read_opened (style : Entries Written) :
    readAttributes around here tag attributes (styleTokens style ++ .greater :: rest) =
      readContent (⟨here, tag, attributes, style⟩ :: around) [] rest := by
  cases style with
  | nil => rfl
  | cons e others =>
    rw [read_style]
    rfl

/-- The opening of an element is read up to its style. -/
theorem read_opening (tag : Tag) (attributes : List Attribute) (style : Entries Written) :
    readContent around here (openingTokens tag attributes style ++ rest) =
      readAttributes around here tag attributes (styleTokens style ++ rest) := by
  have heq : openingTokens tag attributes style ++ rest =
      .less :: .word tag.name :: (attributes.flatMap attributeTokens ++ (styleTokens style ++ rest)) := by
    simp [openingTokens]
  rw [heq, readContent, tag?_name, Option.bind_some, read_attributes]
  rfl

/-- The innermost element is closed. -/
theorem read_end (before : List Markup) (tag : Tag) (attributes : List Attribute) (style : Entries Written) :
    readContent (⟨before, tag, attributes, style⟩ :: around) here
        (.less :: .slash :: .word tag.name :: .greater :: rest) =
      readContent around (before ++ [.element tag attributes style here]) rest := by
  rw [readContent, if_pos rfl]

mutual

/-- **The tokens of markup are read as the markup**, wherever they stand. -/
theorem read_tokens : ∀ (m : Markup) {around : List Opened} {here : List Markup} {rest : List Token},
    readContent around here (tokens m ++ rest) = readContent around (here ++ [m]) rest
  | .text s, around, here, rest => rfl
  | .element tag attributes style children, around, here, rest => by
      unfold tokens
      rw [List.append_assoc, read_opening]
      cases children with
      | nil => exact read_closed style
      | cons m others =>
        have inside : readContent (⟨here, tag, attributes, style⟩ :: around) []
            (tokensIn (m :: others) ++ .less :: .slash :: .word tag.name :: .greater :: rest) =
            readContent (⟨here, tag, attributes, style⟩ :: around) (m :: others)
              (.less :: .slash :: .word tag.name :: .greater :: rest) := read_tokensIn (m :: others)
        rw [if_neg (by simp), List.cons_append, read_opened, List.append_assoc]
        exact inside.trans (read_end ..)

/-- The tokens of several pieces of markup are read as these pieces. -/
theorem read_tokensIn : ∀ (ms : List Markup) {around : List Opened} {here : List Markup}
    {rest : List Token}, readContent around here (tokensIn ms ++ rest) = readContent around (here ++ ms) rest
  | [], around, here, rest => by rw [List.append_nil]; rfl
  | m :: others, around, here, rest => by
      unfold tokensIn
      rw [List.append_assoc, read_tokens m, read_tokensIn others, List.append_assoc]
      rfl

end

end Artboard.Reader

namespace Artboard

/-! ## 4. Whole texts -/

namespace Markup

/-- Pieces of legible markup, one after another, are scanned to their tokens. -/
theorem scan_printed {ms : List Markup} (h : ∀ m ∈ ms, m.Legible) (level : Int) :
    Reader.scan .between (spread (ms.map (print level))) = some (.between, Reader.tokensIn ms) := by
  rw [spread_print]
  induction ms with
  | nil => rfl
  | cons m rest ih =>
    rw [List.flatMap_cons]
    unfold Reader.tokensIn
    exact Reader.scan_append (Reader.scan_lines (h m List.mem_cons_self) level)
      (ih fun c hc => h c (List.mem_cons_of_mem _ hc))

/-- **Legible markup is read back from its text**, one piece after another and nothing else. -/
theorem read?_print {ms : List Markup} (h : ∀ m ∈ ms, m.Legible) (level : Int) :
    read? (joinLines (ms.map (print level))) = some ms := by
  unfold read?
  rw [Reader.tokens?_joinLines (scan_printed h level), Option.bind_some]
  have read : Reader.readContent [] [] (Reader.tokensIn ms ++ []) = Reader.readContent [] ms [] :=
    Reader.read_tokensIn ms
  rw [List.append_nil] at read
  exact read

end Markup

/-- **What a composition prints spells its markup**: read as a text of the language, it is the elements that
were drawn, whatever texts, names and payloads the design holds. -/
theorem Composition.read_text {roots : List Node} {c : Composition} (h : ofRoots roots = .ok c) :
    Markup.read? c.text = some c.markup := by
  unfold ofRoots at h
  rcases hrun : (Node.rootMarkups roots).runFrom {} with ⟨outcome, progress⟩
  rw [hrun] at h
  cases outcome with
  | error e => cases h
  | ok markup =>
    cases h
    exact Markup.read?_print (Node.legible_rootMarkups roots hrun) 0

/-- A button with quotes in its name, around a text and an image that would end their literals. -/
theorem Composition.read_text_delimiters : ∃ c,
    ofRoots [.object [("name", .text "a 'button'"), ("type", .text "FRAME")]
      [.object [("type", .text "TEXT"), ("textContent", .text "it's \\ `$\x7b1\x7d` </div>\n\u2028'\x7d")] [],
        .object [("svg", .text "<svg>`$\x7b1\x7d\\\n</svg>")] []]] = .ok c ∧
      Markup.read? c.text = some c.markup := by
  generalize hr : [Node.object [("name", .text "a 'button'"), ("type", .text "FRAME")] _] = roots
  have ends : (ofRoots roots).isOk = true := by
    rw [← hr]
    decide +kernel
  cases hc : ofRoots roots with
  | error e =>
    rw [hc] at ends
    cases ends
  | ok c => exact ⟨c, rfl, read_text hc⟩

end Artboard
