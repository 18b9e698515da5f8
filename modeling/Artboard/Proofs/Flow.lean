import Artboard.Proofs.Design.Likeness

/-!
# Coordinates in a flow

A node whose parent has a flow is placed by the flow, and its own coordinates are not read: not by its style, not by
the input that it may be in a text field, and not by the walk over the canvas, where it stands at its parent.  So
whatever its coordinates are, be they far off, no numbers at all or missing, a forest compiles to the same markup and
fonts, or to the same fault, and no root is shifted differently (`Composition.output_of_slides`).
-/

namespace Artboard

namespace Node

/-- **Nodes in a flow slide**: they have any other coordinates, or none, wherever their parent has a flow, and all else
in two lists of nodes is the same.  The flag says whether the nodes of the lists are in a flow themselves. -/
inductive Slides : Bool → List Node → List Node → Prop where
  | nil {flow} : Slides flow [] []
  | other {flow v nodes others} (rest : Slides flow nodes others) :
      Slides flow (.other v :: nodes) (.other v :: others)
  | still {fields children kept nodes others} (inner : Slides (isAutoLayout fields) children kept)
      (rest : Slides false nodes others) :
      Slides false (.object fields children :: nodes) (.object fields kept :: others)
  | slid {fields moved children kept nodes others} (aside : Members.AgreeOff ["x", "y"] fields moved)
      (inner : Slides (isAutoLayout fields) children kept) (rest : Slides true nodes others) :
      Slides true (.object fields children :: nodes) (.object moved kept :: others)

/-- Nodes that slide are read alike. -/
theorem Slides.alike {flow : Bool} {nodes others : List Node} (h : Slides flow nodes others) (most : Nat) :
    (Likeness.same most).Nodes True flow nodes others := by
  induction h with
  | nil => exact .nil
  | other _ rest => exact .other rest
  | still _ _ inner rest =>
    refine .object (Likeness.fields_same (.refl [] _) ?_ ?_ ?_) inner rest
    · exact List.forall_mem_nil _
    · exact fun _ => List.not_mem_nil
    · exact fun _ => ⟨List.not_mem_nil, List.not_mem_nil⟩
  | slid aside _ _ inner rest =>
    exact .object (Likeness.fields_same aside (by decide) (fun _ => by decide) nofun) inner rest

end Node

namespace Composition

/-- **Coordinates in a flow do not show.**  With any other coordinates for nodes whose parents have a flow, at any
depth, a forest compiles to the same markup and the same fonts, or to the same fault, and all its shifts are the
same. -/
theorem output_of_slides {roots others : List Node} (h : Node.Slides false roots others) :
    output roots = output others ∧ roots.map Canvas.shift = others.map Canvas.shift :=
  ⟨output_congr (Likeness.rootMarkups_of_nodes (h.alike (Node.levelsIn roots + 2)) (Nat.le_refl _)),
    Likeness.shifts_of_nodes (h.alike (Node.levelsIn roots)) (Nat.le_refl _)⟩

/-- A search field with a flow of a text and of a box, which are somewhere; what is in the box is to its left. -/
def searchBar (somewhere : Members) : Node :=
  .object [("name", .text "Search"), ("layoutMode", .text "HORIZONTAL"), ("x", .number (.int 30))] [
    .object (somewhere ++ [("type", .text "TEXT"), ("textContent", .text "Find"), ("fontFamily", .text "Inter")]) [],
    .object (somewhere ++ [("width", .number (.int 20))]) [.object [("x", .number (.int (-42)))] []]]

theorem output_of_slides_searchBar :
    Node.Slides false [.object [] [searchBar []]]
        [.object [] [searchBar [("x", .number (.int (-500))), ("y", .text "far")]]] ∧
      (output [.object [] [searchBar []]]).isOk = true ∧
      output [.object [] [searchBar []]] =
        output [.object [] [searchBar [("x", .number (.int (-500))), ("y", .text "far")]]] ∧
      [Node.object [] [searchBar []]].map Canvas.shift =
        [Node.object [] [searchBar [("x", .number (.int (-500))), ("y", .text "far")]]].map Canvas.shift := by
  have aside (fields : Members) : Members.AgreeOff ["x", "y"] ([] ++ fields)
      ([("x", .number (.int (-500))), ("y", .text "far")] ++ fields) := by
    intro name apart
    obtain ⟨hx, hy⟩ : "x" ≠ name ∧ "y" ≠ name := by simpa [eq_comm] using apart
    simp [Entries.get, Entries.get?, hx, hy]
  have slides : Node.Slides false [.object [] [searchBar []]]
      [.object [] [searchBar [("x", .number (.int (-500))), ("y", .text "far")]]] := by
    refine .still (.still ?_ .nil) .nil
    exact .slid (aside _) .nil (.slid (aside _) (.still .nil .nil) .nil)
  exact ⟨slides, by decide +kernel, output_of_slides slides⟩

end Composition

end Artboard
