import Artboard.Proofs.Component.Name
import Artboard.Proofs.Markup.Enclosed

/-!
# What the modules of a component declare

The two modules that are written for a component, read as modules (`Script.Module.read?`): the code imports React and
declares the component (`Component.read?_codeText`), and the application imports React and the component and declares
itself (`Component.read?_appEntry`).  Nothing else is declared, whatever markup stands in the code, as long as the
brackets around enclose it.

A component that is called like one of the others is declared twice in a module, which is no module then.  The names
that this happens for are those that are spelled `React` or `App` by their letters and digits, with or without the
capital (`Component.declared_nodup_iff`).
-/

namespace Artboard

open Script

namespace Component

variable {name markup directory line : String} {lines : List String} {around : List Char} {s t u : Spot}
  {ps qs : List Piece}

/-! ## 1. Lines -/

/-- A scan of lines is the scans of them. -/
theorem scanModule_spread (first : scanModule s (line.toList ++ ['\n']) = some (t, ps))
    (others : scanModule t (Markup.spread lines) = some (u, qs)) :
    scanModule s (Markup.spread (line :: lines)) = some (u, ps ++ qs) := by
  rw [Markup.spread_cons]
  exact scanModule_append first others

/-- The pieces of a text are those of its lines. -/
theorem pieces?_joinLines (h : scanModule ⟨[], .code⟩ (Markup.spread (line :: lines)) = some (⟨[], .code⟩, ps)) :
    Module.pieces? (Markup.joinLines (line :: lines)) = some ps := by
  unfold Module.pieces?
  rw [Markup.toList_joinLines, h]

theorem scan_importReact : scanModule ⟨[], .code⟩ ("import React from 'react';".toList ++ ['\n']) =
    some (⟨[], .code⟩, [.word "import", .word "React", .word "from", .literal "react", .mark ';']) := by
  decide +kernel

theorem scan_blank : scanModule ⟨[], .code⟩ ("".toList ++ ['\n']) = some (⟨[], .code⟩, []) := by
  decide

/-! ## 2. Lines with the name -/

/-- A plain character is part of a word, and no delimiter. -/
theorem inWord_of_isNameChar {c : Char} (h : isNameChar c = true) :
    inWord c = true ∧ isDelimiter c = false ∧ isLiteral c = true ∧ c.toLower ≠ '\x22' :=
  forall_plain (p := fun c => inWord c = true ∧ isDelimiter c = false ∧ isLiteral c = true ∧ c.toLower ≠ '\x22')
    (by decide) h

theorem IsProper.isWord (proper : IsProper name) : isWord name = true := by
  obtain ⟨first, rest, chars, capital, plain⟩ := proper
  have starts : startsWord first = true :=
    forall_plain (p := fun c => IsCapital c → startsWord c = true) (by decide) (isNameChar_iff.mpr (.inl capital))
      capital
  unfold Script.isWord
  rw [chars, Bool.and_eq_true, List.all_eq_true]
  exact ⟨starts, fun c hc => (inWord_of_isNameChar (isNameChar_iff.mpr (plain c hc))).1⟩

theorem scan_import : scanModule ⟨[], .code⟩ "import ".toList = some (⟨[], .code⟩, [.word "import"]) := by
  decide +kernel

/-- A literal with a semicolon behind it ends its line. -/
theorem scan_source {text : String} (plain : ∀ c ∈ text.toList, isLiteral c = true) :
    scanModule ⟨[], .code⟩ ('\'' :: (text.toList ++ ['\'']) ++ [';', '\n']) =
      some (⟨[], .code⟩, [.literal text, .mark ';']) := by
  have close : scanModule ⟨[], .code⟩ [';', '\n'] = some (⟨[], .code⟩, [.mark ';']) := by decide
  exact scanModule_append (scanModule_literal plain) close

theorem scan_importStylesheet (proper : IsProper name) :
    scanModule ⟨[], .code⟩ (("import './" ++ stylesheetFile name ++ "';").toList ++ ['\n']) =
      some (⟨[], .code⟩, [.word "import", .literal ("./" ++ stylesheetFile name), .mark ';']) := by
  have source : ∀ c ∈ ("./" ++ stylesheetFile name).toList, isLiteral c = true := by
    have around : ∀ c ∈ "./".toList ++ ".css".toList, isLiteral c = true := List.all_eq_true.mp (by decide)
    intro c hc
    simp only [stylesheetFile, String.toList_append, List.mem_append] at hc
    rcases hc with hc | hc | hc
    · exact around c (List.mem_append_left _ hc)
    · exact (inWord_of_isNameChar (proper.isNamed c hc)).2.2.1
    · exact around c (List.mem_append_right _ hc)
  simpa using scanModule_append scan_import (scan_source source)

theorem scan_constant (proper : IsProper name) :
    scanModule ⟨[], .code⟩ (("const " ++ name ++ " = () => \x7b").toList ++ ['\n']) =
      some (⟨['\x7b'], .code⟩, [.word "const", .word name, .mark '=', .group '(', .mark '=', .mark '>']) := by
  have word : scanModule ⟨[], .code⟩ "const ".toList = some (⟨[], .code⟩, [.word "const"]) := by decide +kernel
  have named : scanModule ⟨[], .code⟩ (name.toList ++ [' ']) = some (⟨[], .code⟩, [.word name]) :=
    scanModule_word proper.isWord (by decide) rfl
  have function : scanModule ⟨[], .code⟩ ("= () => \x7b".toList ++ ['\n']) =
      some (⟨['\x7b'], .code⟩, [.mark '=', .group '(', .mark '=', .mark '>']) := by decide +kernel
  simpa using scanModule_append word (scanModule_append named function)

theorem scan_container (named : IsNamed name) :
    scanModule ⟨['(', '\x7b'], .code⟩ (("    <div className=\"" ++ containerClass name ++ "\">").toList ++ ['\n']) =
      some (⟨['(', '\x7b'], .code⟩, []) := by
  have quoteless : ∀ c ∈ (containerClass name).toList, c ≠ '\x22' := by
    have ending : ∀ c ∈ "-container".toList, c ≠ '\x22' := List.all_iff_forall_prop.mp (by decide)
    intro c hc
    rw [containerClass, String.toList_append, toList_lower named] at hc
    rcases List.mem_append.mp hc with hc | hc
    · obtain ⟨d, hd, rfl⟩ := List.mem_map.mp hc
      exact (inWord_of_isNameChar (named d hd)).2.2.2
    · exact ending c hc
  have opening : scanModule ⟨['(', '\x7b'], .code⟩ "    <div className=\"".toList =
      some (⟨['(', '\x7b'], .plain⟩, []) := by decide +kernel
  have close : scanModule ⟨['(', '\x7b'], .plain⟩ ("\">".toList ++ ['\n']) =
      some (⟨['(', '\x7b'], .code⟩, []) := by decide
  simpa using scanModule_append opening (scanModule_append (scanModule_inPlain quoteless) close)

theorem scan_exportDefault (proper : IsProper name) :
    scanModule ⟨[], .code⟩ (("export default " ++ name ++ ";").toList ++ ['\n']) =
      some (⟨[], .code⟩, [.word "export", .word "default", .word name, .mark ';']) := by
  have words : scanModule ⟨[], .code⟩ "export default ".toList =
      some (⟨[], .code⟩, [.word "export", .word "default"]) := by decide +kernel
  have named : scanModule ⟨[], .code⟩ (name.toList ++ [';']) = some (⟨[], .code⟩, [.word name, .mark ';']) :=
    scanModule_word proper.isWord (by decide) rfl
  have close : scanModule ⟨[], .code⟩ ['\n'] = some (⟨[], .code⟩, []) := by decide
  simpa using scanModule_append words (scanModule_append named close)

theorem scan_importComponent (proper : IsProper name) {source : String}
    (plain : ∀ c ∈ source.toList, isLiteral c = true) :
    scanModule ⟨[], .code⟩ (("import " ++ name ++ " from '" ++ source ++ "';").toList ++ ['\n']) =
      some (⟨[], .code⟩, [.word "import", .word name, .word "from", .literal source, .mark ';']) := by
  have named : scanModule ⟨[], .code⟩ (name.toList ++ [' ']) = some (⟨[], .code⟩, [.word name]) :=
    scanModule_word proper.isWord (by decide) rfl
  have further : scanModule ⟨[], .code⟩ "from ".toList = some (⟨[], .code⟩, [.word "from"]) := by decide +kernel
  simpa using
    scanModule_append scan_import (scanModule_append named (scanModule_append further (scan_source plain)))

theorem scan_element (named : IsNamed name) :
    scanModule ⟨['(', '\x7b'], .code⟩ (("      <" ++ name ++ " />").toList ++ ['\n']) =
      some (⟨['(', '\x7b'], .code⟩, []) := by
  refine scanModule_inside (List.cons_ne_nil _ _) fun c hc => ?_
  have others : ∀ c ∈ "      <".toList ++ " />".toList ++ ['\n'], isDelimiter c = false :=
    List.all_iff_forall_prop.mp (by decide)
  simp only [String.toList_append, List.mem_append] at hc others
  rcases hc with (((hc | hc) | hc) | hc)
  · exact others c (.inl (.inl hc))
  · exact (inWord_of_isNameChar (named c hc)).2.1
  · exact others c (.inl (.inr hc))
  · exact others c (.inr hc)

/-! ## 3. The two modules -/

theorem scan_drawn (enclosed : IsEnclosed markup) (given : around ≠ []) :
    scanModule ⟨around, .code⟩ (Markup.spread (if markup = "" then [] else [markup])) =
      some (⟨around, .code⟩, []) := by
  split
  · rfl
  · exact scanModule_spread (enclosed around given) rfl

/-- **The code of a component as a module.** -/
theorem read?_codeText (proper : IsProper name) (enclosed : IsEnclosed markup) :
    Module.read? (codeText markup name) = some [.importDefault "React" "react",
      .importOnly ("./" ++ stylesheetFile name), .constant name, .exportDefault name] := by
  have body : scanModule ⟨['\x7b'], .code⟩ ("  return (".toList ++ ['\n']) =
      some (⟨['(', '\x7b'], .code⟩, []) := by decide
  have closing : scanModule ⟨['(', '\x7b'], .code⟩ (Markup.spread ["    </div>", "  );", "\x7d;", ""]) =
      some (⟨[], .code⟩, [.group '\x7b', .mark ';']) := by decide +kernel
  have opening : scanModule ⟨[], .code⟩ (Markup.spread ["import React from 'react';",
      "import './" ++ stylesheetFile name ++ "';", "", "const " ++ name ++ " = () => \x7b", "  return (",
      "    <div className=\"" ++ containerClass name ++ "\">"]) = _ :=
    scanModule_spread scan_importReact (scanModule_spread (scan_importStylesheet proper) (scanModule_spread scan_blank
      (scanModule_spread (scan_constant proper) (scanModule_spread body (scanModule_spread
        (scan_container proper.isNamed) rfl)))))
  have ending : scanModule ⟨[], .code⟩ (Markup.spread ["export default " ++ name ++ ";", ""]) = _ :=
    scanModule_spread (scan_exportDefault proper) (scanModule_spread scan_blank rfl)
  have scanned := scanModule_append opening
    (scanModule_append (scan_drawn enclosed (List.cons_ne_nil _ _)) (scanModule_append closing ending))
  rw [← Markup.spread_append, ← Markup.spread_append, ← Markup.spread_append] at scanned
  have pieces : Module.pieces? (codeText markup name) = _ := pieces?_joinLines scanned
  unfold Module.read?
  rw [pieces]
  rfl

/-- A name in a directory stands for itself in a literal if the directory does. -/
theorem isLiteral_join (named : IsNamed name) (plain : ∀ c ∈ directory.toList, isLiteral c = true) :
    ∀ c ∈ (Path.join directory name).toList, isLiteral c = true := by
  have own : ∀ c ∈ name.toList, isLiteral c = true := fun c hc => (inWord_of_isNameChar (named c hc)).2.2.1
  intro c hc
  unfold Path.join at hc
  split at hc
  · exact own c hc
  · split at hc
    · rw [String.toList_append] at hc
      exact (List.mem_append.mp hc).elim (plain c) (own c)
    · rw [String.toList_append, String.toList_append, List.mem_append, List.mem_append] at hc
      rcases hc with (hc | hc) | hc
      · exact plain c hc
      · obtain rfl : c = '/' := List.mem_singleton.mp hc
        decide
      · exact own c hc

/-- **The code of an application as a module.** -/
theorem read?_appEntry (proper : IsProper name) (plain : ∀ c ∈ directory.toList, isLiteral c = true) :
    Module.read? (appEntry name directory) = some [.importDefault "React" "react",
      .importDefault name (Path.join directory name), .function "App", .exportDefault "App"] := by
  have source : ∀ c ∈ (Path.join directory name).toList, isLiteral c = true := isLiteral_join proper.isNamed plain
  have opening : scanModule ⟨[], .code⟩ (Markup.spread ["import React from 'react';",
      "import " ++ name ++ " from '" ++ Path.join directory name ++ "';", ""]) = _ :=
    scanModule_spread scan_importReact (scanModule_spread (scan_importComponent proper source)
      (scanModule_spread scan_blank rfl))
  have function : scanModule ⟨[], .code⟩ (Markup.spread ["function App() \x7b", "  return (",
      "    <div className=\"App\">"]) =
      some (⟨['(', '\x7b'], .code⟩, [.word "function", .word "App", .group '(']) := by decide +kernel
  have ending : scanModule ⟨['(', '\x7b'], .code⟩ (Markup.spread ["    </div>", "  );", "\x7d", "",
      "export default App;", ""]) =
      some (⟨[], .code⟩, [.group '\x7b', .word "export", .word "default", .word "App", .mark ';']) := by decide +kernel
  have scanned := scanModule_append opening
    (scanModule_append function (scanModule_spread (scan_element proper.isNamed) ending))
  rw [← Markup.spread_append, ← Markup.spread_append] at scanned
  have pieces : Module.pieces? (appEntry name directory) = _ := pieces?_joinLines scanned
  unfold Module.read?
  rw [pieces]
  rfl

/-! ## 4. Names declared twice -/

/-- The value that names a root, which may have no name. -/
def rootName (given : Option String) : Value := given.elim .null .text

/-- A given name spells a word that starts with a capital: its letters and digits are those of the word, and only the
first of them may be small. -/
def Spells (given : Option String) (word : String) : Prop :=
  letters (given.getD "") = word.toList ∨ letters (given.getD "") = word.toList.modifyHead Char.toLower

instance (given : Option String) (word : String) : Decidable (Spells given word) :=
  inferInstanceAs (Decidable (_ ∨ _))

theorem nameOf_rootName (given : Option String) :
    nameOf (rootName given) = .ok (nameOfChars (letters (given.getD ""))) := by
  cases given with
  | none => rfl
  | some s => exact nameOf_text_eq s

/-- A component is called by a word, of those that can clash, exactly if the given name spells it. -/
theorem nameOfChars_eq_iff_spells (given : Option String) (rest : List Char) {first : Char} (capital : IsCapital first)
    (own : first ≠ 'F') (word : first ≠ 'C') :
    nameOfChars (letters (given.getD "")) = String.ofList (first :: rest) ↔
      Spells given (String.ofList (first :: rest)) := by
  unfold Spells
  rw [nameOfChars_eq_iff (fun c hc => isNameChar_of_mem_letters hc) capital own word, String.toList_ofList]
  rfl

/-- **The modules of a component declare every name once, unless the given name spells one of the others.**  Every root
has a name for its component, whether it has one of its own or not.  The code of the component declares React and that
name, and the application declares both and itself; the import of the stylesheet and what stands in brackets declare
nothing, whatever a composition prints there.  A name comes twice in the code exactly if the given one spells `React`,
and in the application exactly if it spells `React` or `App`. -/
theorem declared_nodup_iff (given : Option String) (enclosed : IsEnclosed markup)
    (plain : ∀ c ∈ directory.toList, isLiteral c = true) :
    (∀ roots composition, Composition.ofRoots roots = .ok composition → IsEnclosed composition.text) ∧
    ∃ name code app, nameOf (rootName given) = .ok name ∧
      Module.read? (codeText markup name) = some code ∧ code.declared = ["React", name] ∧
      Module.read? (appEntry name directory) = some app ∧ app.declared = ["React", name, "App"] ∧
      (code.declared.Nodup ↔ ¬Spells given "React") ∧
      (app.declared.Nodup ↔ ¬Spells given "React" ∧ ¬Spells given "App") := by
  have proper := isProper_nameOf (nameOf_rootName given)
  have capital : IsCapital 'R' := by decide
  have capital' : IsCapital 'A' := by decide
  have react : _ ↔ Spells given "React" :=
    nameOfChars_eq_iff_spells given "eact".toList capital (by decide) (by decide)
  have app : _ ↔ Spells given "App" :=
    nameOfChars_eq_iff_spells given "pp".toList capital' (by decide) (by decide)
  refine ⟨fun _ _ compiled => Composition.isEnclosed_text compiled, _, _, _, nameOf_rootName given,
    read?_codeText proper enclosed, rfl, read?_appEntry proper plain, rfl, ?_, ?_⟩
  · rw [← react]
    show ["React", _].Nodup ↔ _
    simp [eq_comm]
  · rw [← react, ← app]
    show ["React", _, "App"].Nodup ↔ _
    simp [eq_comm]

/-- A root with a name that clashes with nothing. -/
def closeButton : List Node := [.object [("name", .text "Close Button"), ("width", .number (.int 20))] []]

theorem declared_nodup_iff_closeButton : ∃ composition, Composition.ofRoots closeButton = .ok composition ∧
    ¬Spells (some "Close Button") "React" ∧ ¬Spells (some "Close Button") "App" ∧
    ∃ code app, Module.read? (codeText composition.text "CloseButton") = some code ∧ code.declared.Nodup ∧
      Module.read? (appEntry "CloseButton" "./components") = some app ∧ app.declared.Nodup := by
  have compiled : (Composition.ofRoots closeButton).isOk = true := by decide +kernel
  obtain ⟨composition, drawn⟩ : ∃ composition, Composition.ofRoots closeButton = .ok composition := by
    rcases same : Composition.ofRoots closeButton with fault | composition
    · rw [same] at compiled
      cases compiled
    · exact ⟨composition, rfl⟩
  have other : ¬Spells (some "Close Button") "React" := by decide +kernel
  have further : ¬Spells (some "Close Button") "App" := by decide +kernel
  have plain : ∀ c ∈ "./components".toList, isLiteral c = true := List.all_eq_true.mp (by decide)
  have called : nameOf (rootName (some "Close Button")) = .ok "CloseButton" := by decide +kernel
  obtain ⟨-, name, code, app, named, readCode, -, readApp, -, inCode, inApp⟩ :=
    declared_nodup_iff (some "Close Button") (Composition.isEnclosed_text drawn) plain
  cases called.symm.trans named
  exact ⟨composition, drawn, other, further, code, app, readCode, inCode.mpr other, readApp, inApp.mpr ⟨other, further⟩⟩

/-- **A component called `App` is declared twice in the application, and one called `React` twice in both modules.** -/
theorem declared_twice :
    (∃ app, nameOf (.text "App") = .ok "App" ∧ Module.read? (appEntry "App" "./components") = some app ∧
      app.declared = ["React", "App", "App"]) ∧
    ∃ code app, nameOf (.text "react") = .ok "React" ∧ Module.read? (codeText "" "React") = some code ∧
      code.declared = ["React", "React"] ∧ Module.read? (appEntry "React" "./components") = some app ∧
      app.declared = ["React", "React", "App"] := by
  have app : IsProper "App" := ⟨'A', ['p', 'p'], rfl, by decide, List.all_iff_forall_prop.mp (by decide)⟩
  have react : IsProper "React" := ⟨'R', ['e', 'a', 'c', 't'], rfl, by decide, List.all_iff_forall_prop.mp (by decide)⟩
  have blank : IsEnclosed "" := fun _ _ => rfl
  have plain : ∀ c ∈ "./components".toList, isLiteral c = true := List.all_eq_true.mp (by decide)
  exact ⟨⟨_, by decide +kernel, read?_appEntry app plain, rfl⟩,
    _, _, by decide +kernel, read?_codeText react blank, rfl, read?_appEntry react plain, rfl⟩

end Component

end Artboard
