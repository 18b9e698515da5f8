import Artboard.Proofs.Font.Usage
import Artboard.Proofs.Leaves
import Artboard.Proofs.Markup.Renumbering

/-!
# Drawings one after another

A drawing depends on the progress that it starts from only by the numbers that it gives to its nodes: from a later
number on it is the same drawing with all its numbers raised, whatever fonts have been noted (`Compile.Moves`).  So a
node can be drawn anywhere in a forest, and at any level, and its text differs by the indent and by the numbers of its
keys only; and a forest of two parts compiles to what the parts compile to, one after the other, with the fonts of
both (`Composition.compositional`).
-/

namespace Artboard

/-! ## 1. Steps at a later number -/

namespace Compile

variable {α β γ δ : Type} {more : Int} {f : α → β} {g : γ → δ}

/-- **A step at a later number** comes out as another step, but for what is done to its result: it fails with the same
fault or comes to an end as well, it gives out as many numbers, and it notes the same fonts where as many have been
noted before. -/
def Moves (more : Int) (f : α → β) (x : Compile α) (y : Compile β) : Prop :=
  ∀ p p' : Progress, p'.counter = p.counter + more →
    (y.runFrom p').1 = (x.runFrom p).1.map f ∧ (y.runFrom p').2.counter = (x.runFrom p).2.counter + more ∧
      (p'.fonts = p.fonts → (y.runFrom p').2.fonts = (x.runFrom p).2.fonts)

namespace Moves

theorem pure {a : α} {b : β} (h : f a = b) : Moves more f (pure a) (pure b) :=
  fun _ _ later => ⟨congrArg Except.ok h.symm, later, fun same => same⟩

/-- Steps that only compute. -/
theorem lift {e : Except Fault α} {e' : Except Fault β} (h : e' = e.map f) : Moves more f (liftM e) (liftM e') :=
  fun _ _ later => ⟨h, later, fun same => same⟩

/-- A step that only computes gives the same at a later number. -/
theorem lift_same (e : Except Fault α) : Moves more id (liftM e) (liftM e) := .lift (by cases e <;> rfl)

theorem bind {x : Compile α} {y : Compile β} {h : α → Compile γ} {k : β → Compile δ} (first : Moves more f x y)
    (next : ∀ a, Moves more g (h a) (k (f a))) : Moves more g (x >>= h) (y >>= k) := by
  intro p p' later
  obtain ⟨outcome, counter, fonts⟩ := first p p' later
  rw [runFrom_bind, runFrom_bind]
  rcases hx : x.runFrom p with ⟨fault | a, q⟩
  · rcases hy : y.runFrom p' with ⟨fault' | b, q'⟩
    · rw [hx, hy] at outcome counter fonts
      cases outcome
      exact ⟨rfl, counter, fonts⟩
    · rw [hx, hy] at outcome
      cases outcome
  · rcases hy : y.runFrom p' with ⟨fault' | b, q'⟩
    · rw [hx, hy] at outcome
      cases outcome
    · rw [hx, hy] at outcome counter fonts
      cases outcome
      obtain ⟨outcome', counter', fonts'⟩ := next a q q' counter
      exact ⟨outcome', counter', fun same => fonts' (fonts same)⟩

theorem nextId : Moves more (· + more) nextId nextId := by
  intro p p' later
  refine ⟨congrArg Except.ok later, ?_, fun same => same⟩
  show p'.counter + 1 = p.counter + 1 + more
  omega

theorem useFont (fields : Members) : Moves more id (useFont fields) (useFont fields) := by
  unfold Compile.useFont
  split
  · exact .pure rfl
  · rename_i family _
    have touch (change : FontUsage → FontUsage) : Moves more id
        (modify fun p => { p with fonts := change p.fonts } : Compile Unit)
        (modify fun p => { p with fonts := change p.fonts } : Compile Unit) :=
      fun _ _ later => ⟨rfl, later, congrArg change⟩
    exact (touch (·.touch family)).bind fun _ => (lift_same _).bind fun weight => touch (·.add family weight)

/-- A run at a later number. -/
theorem run {x : Compile α} {y : Compile β} {p p' q : Progress} {a : α} (h : Moves more f x y)
    (later : p'.counter = p.counter + more) (ends : x.runFrom p = (.ok a, q)) :
    ∃ q', y.runFrom p' = (.ok (f a), q') ∧ q'.counter = q.counter + more ∧
      (p'.fonts = p.fonts → q'.fonts = q.fonts) := by
  obtain ⟨outcome, counter, fonts⟩ := h p p' later
  rw [ends] at outcome counter fonts
  exact ⟨(y.runFrom p').2, Prod.ext outcome rfl, counter, fonts⟩

end Moves

end Compile

/-! ## 2. Elements at a later number -/

open Compile Markup

variable {more : Int}

theorem Markup.renumberIn_append (ms ns : List Markup) :
    renumberIn more (ms ++ ns) = renumberIn more ms ++ renumberIn more ns := by
  rw [renumberIn_eq_map, renumberIn_eq_map, renumberIn_eq_map, List.map_append]

/-- What is drawn of a node and what is drawn behind it. -/
theorem Markup.renumberIn_drawn (first : Option Markup) (others : List Markup) :
    renumberIn more (first.toList ++ others) = (first.map (renumber more)).toList ++ renumberIn more others := by
  cases first <;> rfl

theorem Markup.styled_renumber (more : Int) (tag : Tag) (as : List Attribute) (style : Style)
    (children : List Markup) : styled tag (as.map (Attribute.renumber more)) style (renumberIn more children) =
      (styled tag as style children).map (renumber more) := by
  unfold styled
  cases writeStyle style <;> rfl

namespace Node

/-- A frame of a node under a later number. -/
def Frame.renumber (more : Int) (f : Frame) : Frame :=
  { f with attributes := f.attributes.map (Attribute.renumber more), fixtures := renumberIn more f.fixtures }

/-- The frame of a node is the same under a later number. -/
theorem frame_renumber (widget : Option Widget) (id : Int) (fields : Members) (children : List Node)
    (style : Style) : frame widget (id + more) fields children style =
      (frame widget id fields children style).map (Frame.renumber more) := by
  have control (looks : Style) (kind : List Attribute) (fixed : kind.map (Attribute.renumber more) = kind) :
      styled .input (.inputKey (id + more) :: kind) looks [] =
        (styled .input (.inputKey id :: kind) looks []).map (renumber more) := by
    rw [← styled_renumber, List.map_cons, fixed]
    rfl
  unfold frame
  split
  · cases firstTextIn children <;> rfl
  · unfold fillingInput
    split
    · rw [control _ _ rfl]
      cases styled .input [.inputKey id, .control .text] (Chrome.input.merge Chrome.fill) [] <;> rfl
    · rfl
  · unfold checkboxInput
    rw [control _ _ rfl]
    cases styled .input [.inputKey id, .control .checkbox, .label (description fields)] Chrome.hiddenCheckbox [] <;> rfl
  · rfl

/-- An image has no number. -/
theorem imageMarkup_renumber (more : Int) (fields : Members) (asset : Asset) :
    imageMarkup fields asset = (imageMarkup fields asset).map (renumber more) := by
  cases asset with
  | vector body => exact styled_renumber more .div [.innerHtml body] Chrome.vector []
  | raster source =>
    exact styled_renumber more .img [.source source, .description (description fields)] (Chrome.raster Asset.fit) []

theorem moves_textMarkup (fields : Members) (content : String) (place : Placement) :
    Moves more (renumber more) (textMarkup fields content place) (textMarkup fields content place) := by
  refine Moves.nextId.bind fun id => (Moves.useFont fields).bind fun _ => (Moves.lift_same _).bind fun style => ?_
  exact .lift (styled_renumber more .span [.key id] style [.text content])

theorem moves_assetMarkup (fields : Members) (asset : Asset) (place : Placement) :
    Moves more (renumber more) (assetMarkup fields asset place) (assetMarkup fields asset place) := by
  refine Moves.nextId.bind fun id => (Moves.lift_same _).bind fun style =>
    (Moves.lift (imageMarkup_renumber more fields asset)).bind fun image => ?_
  exact .lift (styled_renumber more .div [.key id] style [image])

theorem moves_inputMarkup (field fields : Members) (content : String) (place : Placement) :
    Moves more (renumber more) (inputMarkup field fields content place) (inputMarkup field fields content place) := by
  refine Moves.nextId.bind fun id => (Moves.useFont fields).bind fun _ => (Moves.lift_same _).bind fun style => ?_
  exact .lift
    (styled_renumber more .input [.key id, .control .text, .placeholder content] (Chrome.input.merge style) [])

/-! ## 3. Drawings at a later number -/

mutual

/-- **A node is drawn the same at a later number**, with all its numbers raised. -/
theorem moves_markup (place : Placement) (origin : Point) : ∀ n : Node,
    Moves more (Option.map (renumber more)) (markup place origin n) (markup place origin n)
  | .other v => by
      unfold markup
      exact .pure rfl
  | .object fields children => by
      unfold markup
      split
      · exact .pure rfl
      · split
        · rename_i content _
          exact (moves_textMarkup fields content place).bind fun m => .pure rfl
        · rename_i asset _ _
          exact (moves_assetMarkup fields asset place).bind fun m => .pure rfl
        · refine Moves.nextId.bind fun id => (Moves.lift_same _).bind fun widget =>
            (Moves.lift_same _).bind fun style => (Moves.lift (frame_renumber ..)).bind fun frame => ?_
          have inside : Moves more (renumberIn more)
              (if widget = some .textField then
                fieldMarkup fields (Placement.within fields origin) (Slot.ofChildren children) children
              else markups (Placement.within fields origin) children)
              (if widget = some .textField then
                fieldMarkup fields (Placement.within fields origin) (Slot.ofChildren children) children
              else markups (Placement.within fields origin) children) := by
            split
            · exact moves_fieldMarkup fields _ children _
            · exact moves_markups _ children
          refine inside.bind fun content => Moves.bind (.lift ?_) fun m => .pure rfl
          rw [← styled_renumber, renumberIn_append]
          rfl

theorem moves_markups (place : Placement) : ∀ nodes : List Node,
    Moves more (renumberIn more) (markups place nodes) (markups place nodes)
  | [] => by
      unfold markups
      exact .pure rfl
  | n :: rest => by
      unfold markups
      refine (moves_markup place Point.zero n).bind fun first => (moves_markups place rest).bind fun others => ?_
      exact .pure (renumberIn_drawn first others)

theorem moves_fieldMarkup (field : Members) (place : Placement) : ∀ (nodes : List Node) (slot : Slot),
    Moves more (renumberIn more) (fieldMarkup field place slot nodes) (fieldMarkup field place slot nodes)
  | [], slot => by
      unfold fieldMarkup
      exact .pure rfl
  | n :: rest, slot => by
      unfold fieldMarkup
      split
      · rename_i fields content _
        exact (moves_inputMarkup field fields content place).bind fun input =>
          (moves_fieldMarkup field place rest .filled).bind fun others => .pure rfl
      · split
        · exact Moves.nextId.bind fun _ => .lift rfl
        · refine (moves_markup place Point.zero n).bind fun first =>
            (moves_fieldMarkup field place rest _).bind fun others => ?_
          exact .pure (renumberIn_drawn first others)

end

/-- A root is drawn the same at a later number. -/
theorem moves_rootMarkup (root : Node) :
    Moves more (Option.map (renumber more)) (rootMarkup root) (rootMarkup root) := by
  unfold rootMarkup
  exact (Moves.lift_same _).bind fun shift => (Moves.lift_same _).bind fun _ => moves_markup _ _ root

/-- And so are several roots. -/
theorem moves_rootMarkups : ∀ roots : List Node,
    Moves more (renumberIn more) (rootMarkups roots) (rootMarkups roots)
  | [] => by
      unfold rootMarkups
      exact .pure rfl
  | root :: rest => by
      unfold rootMarkups
      refine (moves_rootMarkup root).bind fun first => (moves_rootMarkups rest).bind fun others => ?_
      exact .pure (renumberIn_drawn first others)

/-- Roots of two parts are drawn one part after the other. -/
theorem rootMarkups_append (roots more : List Node) : rootMarkups (roots ++ more) = do
    let drawn ← rootMarkups roots
    let others ← rootMarkups more
    return drawn ++ others := by
  induction roots with
  | nil => simp [rootMarkups]
  | cons root rest ih =>
    rw [List.cons_append, rootMarkups, rootMarkups, ih]
    simp only [bind_assoc, pure_bind, List.append_assoc]

/-- **A drawing moved**: all its numbers are raised, and any levels further in its text is the same with each line
moved in and each key raised. -/
structure Moved (more : Int) (drawn moved : Option Markup) : Prop where
  numbers : moved = drawn.map (renumber more)
  text : ∀ d k : Nat, joinLines (moved.toList.map (print ((d + k : Nat) : Int))) =
    move more (2 * k) (joinLines (drawn.toList.map (print (d : Int))))

/-- **A node anywhere.**  From another number on a node is drawn too, moved to that number, and notes the same fonts. -/
theorem markup_moved {place : Placement} {origin : Point} {n : Node} {start start' done : Progress}
    {drawn : Option Markup} (run : (markup place origin n).runFrom start = (.ok drawn, done))
    (fonts : start'.fonts = start.fonts) : ∃ moved,
      (markup place origin n).runFrom start' =
        (.ok moved, ⟨done.counter - start.counter + start'.counter, done.fonts⟩) ∧
      Moved (start'.counter - start.counter) drawn moved := by
  have raised : start'.counter = start.counter + (start'.counter - start.counter) := by omega
  obtain ⟨⟨counter, noted⟩, run', later, same⟩ := (moves_markup place origin n).run raised run
  obtain rfl : counter = done.counter - start.counter + start'.counter := by
    dsimp only at later
    omega
  obtain rfl : noted = done.fonts := same fonts
  refine ⟨_, run', rfl, fun d k => ?_⟩
  have written := print_renumber (legible_of_draws (draws_of_markup n run)) (start'.counter - start.counter) d k
  cases drawn with
  | none => exact written
  | some m => exact written

end Node

/-! ## 4. Texts of two parts -/

namespace Markup

theorem joinLines_append {ls ms : List String} (hl : ls ≠ []) (hm : ms ≠ []) :
    joinLines (ls ++ ms) = joinLines ls ++ "\n" ++ joinLines ms := by
  obtain ⟨l, rest, rfl⟩ := List.exists_cons_of_ne_nil hl
  obtain ⟨m, others, rfl⟩ := List.exists_cons_of_ne_nil hm
  suffices ended : (joinLines (l :: rest ++ m :: others)).toList ++ ['\n'] =
      (joinLines (l :: rest) ++ "\n" ++ joinLines (m :: others)).toList ++ ['\n'] from
    String.toList_injective (List.append_cancel_right ended)
  have whole := toList_joinLines l (rest ++ m :: others)
  rw [← List.cons_append, spread_append, ← toList_joinLines l, ← toList_joinLines m] at whole
  rw [whole]
  simp

/-- Only where there is no markup there is no text. -/
theorem joinLines_print_eq_empty {ms : List Markup} (legible : ∀ m ∈ ms, m.Legible) (level : Int) :
    joinLines (ms.map (print level)) = "" ↔ ms = [] := by
  constructor
  · intro none
    have lines := textLines_print legible level
    rw [none] at lines
    cases ms with
    | nil => rfl
    | cons m rest =>
      rw [List.flatMap_cons] at lines
      exact absurd (List.append_eq_nil_iff.mp lines.symm).1 (lines_ne_nil m level)
  · rintro rfl
    rfl

end Markup

/-! ## 5. Forests of two parts -/

namespace Composition

open Markup

theorem rootNodes_append {as bs : List Value} {roots others : List Node} (h : rootNodes as = .ok roots)
    (k : rootNodes bs = .ok others) : rootNodes (as ++ bs) = .ok (roots ++ others) := by
  induction as generalizing roots with
  | nil =>
    cases h
    exact k
  | cons v rest ih =>
    cases v with
    | object ms =>
      obtain ⟨nodes, hr, h⟩ := ok_of_bind h
      cases h
      rw [List.cons_append, rootNodes, ih hr]
      rfl
    | _ => cases h

/-- The roots of a list that compiles. -/
theorem rootNodes_of_ofValue {vs : List Value} {c : Composition} (h : ofValue (.list vs) = .ok c) :
    vs ≠ [] ∧ rootNodes vs = .ok c.roots := by
  obtain ⟨values, listed, h⟩ := ok_of_bind h
  obtain ⟨roots, nodes, compiled⟩ := ok_of_bind h
  cases vs with
  | nil => cases listed
  | cons v rest =>
    cases listed
    rw [roots_of_ofRoots compiled]
    exact ⟨List.cons_ne_nil _ _, nodes⟩

/-- A list of several values compiles as their roots do. -/
theorem ofValue_list {vs : List Value} {roots : List Node} (given : vs ≠ []) (nodes : rootNodes vs = .ok roots) :
    ofValue (.list vs) = ofRoots roots := by
  have listed : rootValues (.list vs) = .ok vs := by
    cases vs with
    | nil => exact absurd rfl given
    | cons v rest => rfl
  unfold ofValue
  rw [listed, ok_bind, nodes, ok_bind]

/-- The text of markup in two parts. -/
theorem text_append {ms ns : List Markup} (first : ∀ m ∈ ms, m.Legible) (second : ∀ m ∈ ns, m.Legible) (more : Int) :
    joinLines ((ms ++ renumberIn more ns).map (print 0)) = joinLines (ms.map (print 0)) ++
      (if joinLines (ms.map (print 0)) = "" ∨ joinLines (ns.map (print 0)) = "" then "" else "\n") ++
        move more 0 (joinLines (ns.map (print 0))) := by
  have later : joinLines ((ns.map (renumber more)).map (print 0)) = move more 0 (joinLines (ns.map (print 0))) :=
    print_renumber second more 0 0
  simp only [joinLines_print_eq_empty first, joinLines_print_eq_empty second]
  rw [← later, renumberIn_eq_map, List.map_append]
  split
  · rename_i none
    rcases none with rfl | rfl
    · simp [joinLines]
    · simp [joinLines]
  · rename_i both
    obtain ⟨some, some'⟩ := not_or.mp both
    rw [joinLines_append (by simpa using some) (by simpa using some')]

/-- **A composition of two parts**: their roots and their markup one after the other, with the numbers of the second
part behind those of the first, and the fonts of both.  Nothing else about a root depends on other roots. -/
structure Joins (a b c : Composition) : Prop where
  roots : c.roots = a.roots ++ b.roots
  shifts : c.roots.map Canvas.shift = a.roots.map Canvas.shift ++ b.roots.map Canvas.shift
  markup : c.markup = a.markup ++ renumberIn (keyed a.markup).length b.markup
  fonts : FontUsage.IsUnion a.fonts b.fonts c.fonts
  text : c.text = a.text ++ (if a.text = "" ∨ b.text = "" then "" else "\n") ++ move (keyed a.markup).length 0 b.text

/-- **A forest of two parts** compiles where its parts do. -/
theorem ofValue_append {as bs : List Value} {a b : Composition} (ha : ofValue (.list as) = .ok a)
    (hb : ofValue (.list bs) = .ok b) : ∃ c, ofValue (.list (as ++ bs)) = .ok c ∧ Joins a b c := by
  obtain ⟨given, nodes⟩ := rootNodes_of_ofValue ha
  obtain ⟨-, others⟩ := rootNodes_of_ofValue hb
  obtain ⟨p, run, fonts⟩ := run_of_ofRoots (ofRoots_of_ofValue ha)
  obtain ⟨q, other, fontsOther⟩ := run_of_ofRoots (ofRoots_of_ofValue hb)
  have counted : p.counter = (keyed a.markup).length := by
    have numbering := Node.numbering_of_rootMarkups run
    have length := (Node.depicts_of_numbered numbering.elements).length_eq
    rw [numbering.count, length]
    exact Int.zero_add _
  -- the second part is drawn from where the first has come to
  obtain ⟨r, later, -, -⟩ := (Node.moves_rootMarkups b.roots).run (by rw [Int.zero_add]) other
  have whole : (Node.rootMarkups (a.roots ++ b.roots)).runFrom {} =
      (.ok (a.markup ++ renumberIn p.counter b.markup), r) := by
    rw [Node.rootMarkups_append, Compile.runFrom_bind, run]
    dsimp only
    rw [Compile.runFrom_bind, later]
    rfl
  have own := Node.notes_of_forest run
  refine ⟨_, (ofValue_list (by simp [given]) (rootNodes_append nodes others)).trans (ofRoots_of_run whole), ?_⟩
  refine ⟨rfl, List.map_append, by rw [counted], ?_, ?_⟩
  · rw [fonts, fontsOther]
    exact own.isUnion (Node.notes_of_forest other) (Node.notes_of_rootMarkups later own)
  · rw [← counted]
    exact text_append (Node.legible_rootMarkups _ run) (Node.legible_rootMarkups _ other) p.counter

/-- **Compiling is compositional.**  A node is drawn the same in every place of the numbering, and its text is the
same at every level, but for its keys and its indent; so a forest of two parts compiles to what its parts compile to,
one after the other. -/
theorem compositional :
    (∀ (place : Placement) (origin : Point) (n : Node) (start start' done : Progress) (drawn : Option Markup),
      (Node.markup place origin n).runFrom start = (.ok drawn, done) → start'.fonts = start.fonts →
        ∃ moved, (Node.markup place origin n).runFrom start' =
            (.ok moved, ⟨done.counter - start.counter + start'.counter, done.fonts⟩) ∧
          Node.Moved (start'.counter - start.counter) drawn moved) ∧
      ∀ (as bs : List Value) (a b : Composition), ofValue (.list as) = .ok a → ofValue (.list bs) = .ok b →
        ∃ c, ofValue (.list (as ++ bs)) = .ok c ∧ Joins a b c :=
  ⟨fun _ _ _ _ _ _ _ run fonts => Node.markup_moved run fonts, fun _ _ _ _ ha hb => ofValue_append ha hb⟩

/-- A box of a text in two lines, the second of which looks like a key. -/
def note (family : String) : Value :=
  .object [("x", .number (.int (-30))), ("children", .list [.object [("type", .text "TEXT"),
    ("textContent", .text "to do\n  key=\"node_9\""), ("fontFamily", .text family), ("x", .number (.int 5))]])]

theorem compositional_notes :
    (∃ drawn moved done, (Node.markup .root Point.zero (Node.ofValue (note "Inter"))).runFrom {} =
        (.ok (some drawn), done) ∧ done.counter = 2 ∧
      (Node.markup .root Point.zero (Node.ofValue (note "Inter"))).runFrom ⟨7, []⟩ =
        (.ok moved, ⟨done.counter - 0 + 7, done.fonts⟩) ∧ Node.Moved (7 - 0) (some drawn) moved) ∧
      ∃ a b c, ofValue (.list [note "Inter"]) = .ok a ∧ ofValue (.list [note "Lato"]) = .ok b ∧
        ofValue (.list ([note "Inter"] ++ [note "Lato"])) = .ok c ∧ Joins a b c := by
  refine ⟨?_, ?_⟩
  · have ends : ((Node.markup .root Point.zero (Node.ofValue (note "Inter"))).runFrom {}).1.toOption.join.isSome =
        true := by decide +kernel
    have two : ((Node.markup .root Point.zero (Node.ofValue (note "Inter"))).runFrom {}).2.counter = 2 := by
      decide +kernel
    obtain ⟨drawn, done, run⟩ := Compile.exists_ok ends
    obtain ⟨moved, later, same⟩ := compositional.1 _ _ _ {} ⟨7, []⟩ _ _ run rfl
    rw [run] at two
    exact ⟨drawn, moved, done, run, two, later, same⟩
  · have first : (ofValue (.list [note "Inter"])).isOk = true := by decide +kernel
    have second : (ofValue (.list [note "Lato"])).isOk = true := by decide +kernel
    cases ha : ofValue (.list [note "Inter"]) with
    | error fault =>
      rw [ha] at first
      cases first
    | ok a =>
      cases hb : ofValue (.list [note "Lato"]) with
      | error fault =>
        rw [hb] at second
        cases second
      | ok b =>
        obtain ⟨c, hc, joins⟩ := compositional.2 _ _ a b ha hb
        exact ⟨a, b, c, rfl, rfl, hc, joins⟩

end Composition

end Artboard
