import Artboard.Proofs.Style.Lawful

/-!
# Shorthands

A shorthand such as `border` sets several properties at once, and it takes back what one of them has said before it.
So the order of properties in a style matters (`Style.Ordered`): a shorthand may stand before its longhands, but not
after one of them.

The style of a node has no property together with its shorthand (`Style.Apart`), in whatever order.  A reset is made
of shorthands and goes before it, so that the style with the reset is ordered (`Style.ordered_reset`).
-/

namespace Artboard

namespace Style

/-- The properties that a shorthand sets. -/
def longhands : String → List String
  | "padding" => ["paddingTop", "paddingRight", "paddingBottom", "paddingLeft"]
  | "border" => ["borderWidth", "borderStyle", "borderColor"]
  | "background" => ["backgroundColor"]
  | "font" => ["fontSize", "fontFamily", "fontWeight", "lineHeight"]
  | "flex" => ["flexShrink"]
  | _ => []

/-- **The order of properties is one in which no shorthand overrides its longhands**, and where an element takes the
space that is left it has no other rule for shrinking. -/
structure Ordered (names : List String) : Prop where
  /-- a shorthand comes before its longhands -/
  first : names.Pairwise fun earlier later => earlier ∉ longhands later
  grows : ¬("flex" ∈ names ∧ "flexShrink" ∈ names)

instance (names : List String) : Decidable (Ordered names) :=
  decidable_of_iff (names.Pairwise (fun earlier later => earlier ∉ longhands later) ∧
    ¬("flex" ∈ names ∧ "flexShrink" ∈ names)) ⟨fun h => ⟨h.1, h.2⟩, fun h => ⟨h.first, h.grows⟩⟩

/-- No property is together with its shorthand. -/
def Apart (names : List String) : Prop := ∀ n ∈ names, ∀ short ∈ names, n ∉ longhands short

variable {names : List String} {reset style : Style}

theorem Apart.ordered (h : Apart names) : Ordered names where
  first := List.pairwise_of_forall_mem_list h
  grows := fun ⟨flex, shrink⟩ => h _ shrink _ flex (by decide)

theorem Apart.mono {fewer : List String} (h : Apart names) (sub : ∀ n ∈ fewer, n ∈ names) : Apart fewer :=
  fun n there short present => h n (sub n there) short (sub short present)

/-- A property put into a style that has none of its longhands, and no shorthand of it. -/
theorem Apart.put {name : String} (h : Apart (Entries.names style)) (own : name ∉ longhands name)
    (aside : ∀ n ∈ Entries.names style, n ∉ longhands name ∧ name ∉ longhands n) (v : StyleValue) :
    Apart (Entries.names (Entries.put style name v)) := by
  intro n there short present
  rcases Entries.mem_names_put.mp there with rfl | old <;>
    rcases Entries.mem_names_put.mp present with rfl | before
  · exact own
  · exact (aside short before).2
  · exact (aside n old).1
  · exact h n old short before

/-! ## 1. Resets -/

/-- **A style that goes over a reset is ordered**, if it has no property together with its shorthand and the reset
has no longhand. -/
theorem ordered_reset (once : (Entries.names style).Nodup) (apart : Apart (Entries.names style))
    (ordered : Ordered (Entries.names reset))
    (short : ∀ n ∈ Entries.names reset, ∀ later ∈ inputProperties, n ∉ longhands later)
    (still : ∀ n ∈ Entries.names reset, n ≠ "flex" ∧ n ≠ "flexShrink")
    (within : Within inputProperties style) : Ordered (Entries.names (Entries.merge reset style)) := by
  constructor
  · rw [Entries.names_merge_of_nodup once, List.pairwise_append]
    refine ⟨ordered.first, ?_, fun n early later late => ?_⟩
    · exact apart.ordered.first.sublist List.filter_sublist
    · exact short n early later (within later (List.mem_of_mem_filter late))
  · rw [Entries.mem_names_merge, Entries.mem_names_merge]
    rintro ⟨flex, shrink⟩
    have flex := flex.resolve_left fun there => (still _ there).1 rfl
    have shrink := shrink.resolve_left fun there => (still _ there).2 rfl
    exact apart.ordered.grows ⟨flex, shrink⟩

/-- A property that is no shorthand can be put into an ordered style. -/
theorem Ordered.put {name : String} (h : Ordered (Entries.names style)) (plain : longhands name = [])
    (still : name ≠ "flex" ∧ name ≠ "flexShrink") (v : StyleValue) :
    Ordered (Entries.names (Entries.put style name v)) := by
  by_cases there : name ∈ Entries.names style
  · rwa [Entries.names_put there]
  · rw [Entries.put_new there]
    have last : Entries.names (style ++ [(name, v)]) = Entries.names style ++ [name] := List.map_append
    rw [last]
    constructor
    · rw [List.pairwise_append]
      refine ⟨h.first, List.pairwise_singleton _ _, fun n _ later hl => ?_⟩
      rw [List.mem_singleton.mp hl, plain]
      exact List.not_mem_nil
    · rintro ⟨flex, shrink⟩
      simp only [List.mem_append, List.mem_singleton, still.1.symm, still.2.symm, or_false] at flex shrink
      exact h.grows ⟨flex, shrink⟩

end Style

/-! ## 2. The styles of nodes -/

namespace Node

open Style

variable {fields : Members} {place : Placement} {drawn : Bool} {style : Style}

/-- **The style of a node has no property together with its shorthand.** -/
theorem apart_style (h : Node.style fields place drawn = .ok style) : Apart (Entries.names style) := by
  -- of the shorthands a node can only have a background, which is not there beside a background colour
  have shorthands : ∀ short ∈ nodeProperties, short ≠ "background" → longhands short = [] := by decide
  intro n there short present longhand
  by_cases background : short = "background"
  · subst background
    rw [List.mem_singleton.mp longhand] at there
    exact (lawful_style h).background ⟨present, there⟩
  · rw [shorthands short (within_style h short present) background] at longhand
    exact List.not_mem_nil longhand

/-- Nor has the style of the input of a text field. -/
theorem apart_inputStyle {owner : Members} (h : inputStyle owner fields place = .ok style) :
    Apart (Entries.names style) := by
  obtain ⟨own, styled, cases⟩ := inputStyle_ok h
  have apart := apart_style styled
  have kept : ∀ n ∈ Entries.names (Entries.erase own "whiteSpace"), n ∈ Entries.names own :=
    fun n there => (Entries.mem_names_erase.mp there).1
  rcases cases with rfl | ⟨width, rfl⟩ | rfl
  · have erased : ∀ n ∈ Entries.names (Entries.erase (Entries.erase (Entries.erase own "whiteSpace") "width")
        "flexShrink"), n ∈ Entries.names own ∧ n ≠ "flexShrink" := by
      intro n there
      obtain ⟨there, shrink⟩ := Entries.mem_names_erase.mp there
      exact ⟨kept n (Entries.mem_names_erase.mp there).1, shrink⟩
    have flex : ∀ n ∈ nodeProperties, "flex" ∉ longhands n := by decide
    have minWidth : ∀ n ∈ inputProperties, n ∉ longhands "minWidth" ∧ "minWidth" ∉ longhands n := by decide
    have rest := apart.mono fun n there => (erased n there).1
    refine (rest.put (by decide) (fun n there => ⟨fun shrink => ?_, ?_⟩) (.whole 1)).put (by decide)
      (fun n there => minWidth n ?_) _
    · exact (erased n there).2 (List.mem_singleton.mp shrink)
    · exact flex n (within_style styled n (erased n there).1)
    rcases Entries.mem_names_put.mp there with rfl | there
    · decide
    · exact List.mem_append_left _ (within_style styled n (erased n there).1)
  · refine apart.mono fun n there => ?_
    rcases Entries.mem_names_put.mp there with rfl | there
    · exact (prefix_style styled).subset (by decide)
    · exact kept n there
  · exact apart.mono kept

/-- **The style of an element is ordered**, whatever widget the element is. -/
theorem ordered_frame {widget : Option Widget} {id : Int} {children : List Node} {f : Frame}
    (styled : Node.style fields place drawn = .ok style)
    (h : frame widget id fields children style = .ok f) : Ordered (Entries.names f.style) := by
  have apart := apart_style styled
  have within : Within inputProperties style := (within_style styled).mono (by decide)
  have button : Ordered (Entries.names (Chrome.button.merge style)) :=
    ordered_reset (nodup_style styled) apart (by decide) (by decide) (by decide) within
  have label : Ordered (Entries.names (Chrome.label.merge style)) :=
    ordered_reset (nodup_style styled) apart (by decide) (by decide) (by decide) within
  cases frames_of_frame h with
  | button => exact button
  | emptyField _ _ => exact label
  | textField _ => exact label
  | checkbox _ => exact label.put (by decide) (by decide) _
  | box _ => exact apart.ordered

/-- So is the style of an input that shows a text of a text field. -/
theorem ordered_input {owner : Members} (h : inputStyle owner fields place = .ok style) :
    Ordered (Entries.names (Chrome.input.merge style)) :=
  ordered_reset (nodup_inputStyle h) (apart_inputStyle h) (by decide) (by decide) (by decide)
    (within_inputStyle h)

end Node

end Artboard
