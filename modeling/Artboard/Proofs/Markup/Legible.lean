import Artboard.Proofs.Drawing
import Artboard.Proofs.Number.Notation
import Artboard.Proofs.Style.Property

/-!
# What drawn markup is made of

Three things in markup are not written as literals: the names of style properties, numbers, and the bodies
of templates.  In markup that is drawn from a design none of them is what a payload says (`Markup.Legible`):
the names are of one fixed list, the numbers are numerals, and the bodies have been escaped.
`Node.legible_of_draws` is the main result.
-/

namespace Artboard

/-! ## 1. Legible markup -/

/-- A written number is a numeral. -/
def Written.Legible : Written → Prop
  | .bare digits => Numeral.Signed digits.toList
  | .quoted _ => True

namespace Attribute

/-- The attribute is written as a template. -/
def isTemplate : Attribute → Bool
  | innerHtml _ => true
  | _ => false

/-- A template body is that of an escaped payload. -/
def Legible : Attribute → Prop
  | innerHtml body => ∃ payload, body = Script.escapeTemplate payload
  | _ => True

/-- Attributes are legible unless one of them is a template. -/
theorem legible_of_all {attributes : List Attribute}
    (h : (attributes.all fun a => !a.isTemplate) = true) : ∀ a ∈ attributes, a.Legible := by
  intro a ha
  cases a with
  | innerHtml body => exact absurd (List.all_eq_true.mp h _ ha) (by simp [isTemplate])
  | _ => trivial

end Attribute

/-- A written style of known properties, whose numbers are numerals. -/
def LegibleStyle (style : Entries Written) : Prop := ∀ e ∈ style, e.1 ∈ Style.properties ∧ e.2.Legible

/-- Markup whose names, numbers and templates can be told from the text around them. -/
inductive Markup.Legible : Markup → Prop where
  | text {s : String} : Legible (.text s)
  | element {tag : Tag} {attributes : List Attribute} {style : Entries Written} {children : List Markup}
      (named : ∀ a ∈ attributes, a.Legible) (styled : LegibleStyle style)
      (inside : ∀ m ∈ children, Legible m) : Legible (.element tag attributes style children)

/-! ## 2. Styles and images -/

theorem legible_write {v : StyleValue} {w : Written} (h : v.write = .ok w) : w.Legible := by
  cases v with
  | text s =>
    cases h
    trivial
  | number n =>
    obtain ⟨digits, hd, h⟩ := ok_of_bind h
    cases h
    exact Number.format_signed hd

/-- A style of known properties is legible once it is written. -/
theorem legible_writeStyle : ∀ {s : Style} {w : Entries Written}, s.Known → writeStyle s = .ok w →
    LegibleStyle w
  | [], w, _, h => by
      cases h
      exact nofun
  | (name, v) :: rest, w, known, h => by
      unfold writeStyle at h
      obtain ⟨first, hf, h⟩ := ok_of_bind h
      obtain ⟨others, ho, h⟩ := ok_of_bind h
      cases h
      intro e he
      rcases List.mem_cons.mp he with rfl | he
      · exact ⟨known name List.mem_cons_self, legible_write hf⟩
      · exact legible_writeStyle (fun n hn => known n (List.mem_cons_of_mem _ hn)) ho e he

/-- The body of a vector image is that of an escaped payload. -/
theorem Asset.escaped_vectorIn {fields : Members} {name body : String}
    (h : vectorIn? fields name = some (.vector body)) : ∃ payload, body = Script.escapeTemplate payload := by
  obtain ⟨payload, _, h⟩ := Option.map_eq_some_iff.mp h
  cases h
  exact ⟨payload, rfl⟩

theorem Asset.escaped_ofNode {fields : Members} {body : String}
    (h : ofNode? fields = some (.vector body)) : ∃ payload, body = Script.escapeTemplate payload := by
  rcases Option.or_eq_some_iff.mp h with h | ⟨-, h⟩
  · exact escaped_vectorIn h
  · rcases Option.or_eq_some_iff.mp h with h | ⟨-, h⟩
    · exact escaped_vectorIn h
    · unfold rasterIn? at h
      split at h
      · dsimp only at h
        split at h <;> cases h
      · cases h

namespace Node

variable {m : Markup}

/-- Where there is no markup, all of it is legible. -/
theorem legible_of_mem_nil (h : m ∈ ([] : List Markup)) : m.Legible := absurd h List.not_mem_nil

theorem legible_of_mem_singleton {c : Markup} (hc : c.Legible) (h : m ∈ [c]) : m.Legible :=
  List.mem_singleton.mp h ▸ hc

theorem legible_imageMarkup {fields : Members} {asset : Asset} (drawn : Asset.ofNode? fields = some asset)
    (h : imageMarkup fields asset = .ok m) : m.Legible := by
  cases pictures_of_imageMarkup h with
  | vector wrote =>
    refine .element (fun a ha => ?_) (legible_writeStyle (by decide) wrote) fun _ => legible_of_mem_nil
    rw [List.mem_singleton.mp ha]
    exact Asset.escaped_ofNode drawn
  | raster wrote =>
    exact .element (Attribute.legible_of_all rfl) (legible_writeStyle (by decide) wrote) fun _ => legible_of_mem_nil

/-- The frame of a node has no templates, and its fixtures are legible. -/
theorem legible_frame {widget : Option Widget} {id : Int} {fields : Members} {children : List Node}
    {style : Style} {f : Frame} (h : frame widget id fields children style = .ok f) :
    (∀ a ∈ f.attributes, a.Legible) ∧ ∀ m ∈ f.fixtures, m.Legible := by
  have control {looks : Entries Written} {attributes : List Attribute} {reset : Style}
      (wrote : writeStyle reset = .ok looks) (known : reset.Known) (named : ∀ a ∈ attributes, a.Legible) :
      (Markup.element .input attributes looks []).Legible :=
    .element named (legible_writeStyle known wrote) fun _ => legible_of_mem_nil
  cases frames_of_frame h with
  | button =>
    refine ⟨Attribute.legible_of_all ?_, fun _ => legible_of_mem_nil⟩
    cases firstTextIn children <;> rfl
  | emptyField _ wrote =>
    exact ⟨Attribute.legible_of_all rfl, fun _ => legible_of_mem_singleton
      (control wrote (by decide) (Attribute.legible_of_all rfl))⟩
  | textField _ => exact ⟨Attribute.legible_of_all rfl, fun _ => legible_of_mem_nil⟩
  | checkbox wrote =>
    exact ⟨Attribute.legible_of_all rfl, fun _ => legible_of_mem_singleton
      (control wrote (by decide) (Attribute.legible_of_all rfl))⟩
  | box _ => exact ⟨Attribute.legible_of_all rfl, fun _ => legible_of_mem_nil⟩

/-! ## 3. Drawings -/

/-- **Whatever is drawn is legible.** -/
theorem legible_of_draws {task : Task} {p q : Progress} {drawn : List Markup}
    (h : Draws task p drawn q) : ∀ m ∈ drawn, m.Legible := by
  induction h with
  | other => exact fun _ => legible_of_mem_nil
  | hidden _ => exact fun _ => legible_of_mem_nil
  | text _ _ _ styled wrote =>
    exact fun _ => legible_of_mem_singleton (.element (Attribute.legible_of_all rfl)
      (legible_writeStyle (known_style styled) wrote) fun _ => legible_of_mem_singleton .text)
  | asset _ _ drawn pictured styled wrote =>
    exact fun _ => legible_of_mem_singleton (.element (Attribute.legible_of_all rfl)
      (legible_writeStyle (known_style styled) wrote)
      fun _ => legible_of_mem_singleton (legible_imageMarkup drawn pictured))
  | container _ _ _ _ styled framed wrote _ ih =>
    obtain ⟨named, fixed⟩ := legible_frame framed
    have style := legible_writeStyle (known_frame (known_style styled) framed) wrote
    exact fun _ => legible_of_mem_singleton (.element named style fun c hc =>
      (List.mem_append.mp hc).elim (fixed c) (ih c))
  | rowNil => exact fun _ => legible_of_mem_nil
  | rowCons _ _ head tail => exact fun m hm => (List.mem_append.mp hm).elim (head m) (tail m)
  | fieldNil => exact fun _ => legible_of_mem_nil
  | fieldInput _ _ styled wrote _ tail =>
    have reset : Style.Known Chrome.input := by decide
    have known := Style.within_merge reset (known_inputStyle styled)
    intro m hm
    rcases List.mem_cons.mp hm with rfl | hm
    · exact .element (Attribute.legible_of_all rfl) (legible_writeStyle known wrote)
        fun _ => legible_of_mem_nil
    · exact tail m hm
  | fieldChild _ _ _ _ head tail => exact fun m hm => (List.mem_append.mp hm).elim (head m) (tail m)

/-- The markup of roots is legible. -/
theorem legible_rootMarkups (roots : List Node) {p q : Progress} {drawn : List Markup}
    (h : (rootMarkups roots).runFrom p = (.ok drawn, q)) : ∀ m ∈ drawn, m.Legible := by
  replace h := drawsRoots_of_rootMarkups h
  induction h with
  | nil => exact fun _ => legible_of_mem_nil
  | cons _ head _ ih => exact List.forall_mem_append.mpr ⟨legible_of_draws head, ih⟩

end Node

end Artboard
