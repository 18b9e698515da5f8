import Artboard.Proofs.Component.Declared
import Artboard.Proofs.Project.Upkeep

/-!
# What the application imports

An import that starts with `./` or `../` is looked up from the directory of the module (`Script.IsRelative`), and any
other one among packages.  The application imports a component by the way from its own directory to that of the
components (`ProjectPlan.importSteps`), and then by the name of the component.  That is where the code was written,
without its ending, whatever directory the components are put in (`ProjectPlan.reduce_importPath`).

The import is a relative one unless the components are put in a hidden directory right beside the application
(`ProjectPlan.isRelative_importPath`): then the way starts with a dot and no `./` is put in front of it.  Both are said
of what is in the files after a component is written (`ProjectPlan.imports_written`).
-/

namespace Artboard

open Script FileTree

/-! ## 1. Relative imports -/

/-- **An import that is looked up from the directory of the module.** -/
def Script.IsRelative (source : String) : Prop := "./".toList <+: source.toList ∨ "../".toList <+: source.toList

instance (source : String) : Decidable (IsRelative source) := inferInstanceAs (Decidable (_ ∨ _))

namespace Path

variable {name other : String} {rest pieces : List String}

/-- Pieces before a slash are the same if one begins with the other. -/
theorem prefix_slash_iff {a b : List Char} (first : '/' ∉ a) (second : '/' ∉ b) (after : List Char) :
    a ++ ['/'] <+: b ++ '/' :: after ↔ a = b := by
  induction a generalizing b with
  | nil =>
    cases b with
    | nil => simp
    | cons d b =>
      have notSlash : '/' ≠ d := fun same => second (same ▸ List.mem_cons_self)
      simp [notSlash]
  | cons c a ih =>
    obtain ⟨notSlash, first⟩ : '/' ≠ c ∧ '/' ∉ a := by simpa using first
    cases b with
    | nil => simp [notSlash.symm]
    | cons d b =>
      obtain ⟨-, second⟩ : '/' ≠ d ∧ '/' ∉ b := by simpa using second
      have others := ih first second
      simp only [List.cons_append, List.cons_prefix_cons, List.cons.injEq, others]

/-- A path is a relative import if its first piece is `.` or `..`, and there are more. -/
theorem isRelative_intercalate (piece : IsPiece name) (given : rest ≠ []) :
    IsRelative ("/".intercalate (name :: rest)) ↔ name = "." ∨ name = ".." := by
  have chars : ("/".intercalate (name :: rest)).toList = name.toList ++ '/' :: ("/".intercalate rest).toList := by
    rw [intercalate_cons given]
    simp
  have here := prefix_slash_iff (a := ".".toList) (by decide) piece.slashless ("/".intercalate rest).toList
  have up := prefix_slash_iff (a := "..".toList) (by decide) piece.slashless ("/".intercalate rest).toList
  unfold IsRelative
  rw [chars]
  exact or_congr (here.trans (String.toList_inj.trans eq_comm)) (up.trans (String.toList_inj.trans eq_comm))

/-- One more piece. -/
theorem intercalate_concat (given : pieces ≠ []) (name : String) :
    "/".intercalate (pieces ++ [name]) = "/".intercalate pieces ++ "/" ++ name := by
  induction pieces with
  | nil => exact absurd rfl given
  | cons first rest ih =>
    by_cases last : rest = []
    · simp [last]
    · rw [List.cons_append, intercalate_cons (by simp), ih last, intercalate_cons last]
      simp [String.append_assoc]

/-- What pieces make ends as the last of them does. -/
theorem not_endsInSlash_intercalate (given : pieces ≠ []) (all : ∀ n ∈ pieces, IsPiece n) :
    "/".intercalate pieces ≠ "" ∧ endsInSlash ("/".intercalate pieces) = false := by
  obtain ⟨front, last, rfl⟩ := (List.eq_nil_or_concat' pieces).resolve_left given
  have piece : IsPiece last := all last (by simp)
  obtain ⟨chars, c, whole⟩ := (List.eq_nil_or_concat' last.toList).resolve_left (by simpa using piece.given)
  have notSlash : c ≠ '/' := fun same => piece.slashless (by rw [whole, same]; simp)
  obtain ⟨before, text⟩ : ∃ before, ("/".intercalate (front ++ [last])).toList = before ++ [c] := by
    by_cases bare : front = []
    · subst bare
      exact ⟨chars, by simpa using whole⟩
    · refine ⟨("/".intercalate front).toList ++ '/' :: chars, ?_⟩
      rw [intercalate_concat bare]
      simp [whole]
  refine ⟨fun empty => ?_, ?_⟩
  · rw [empty] at text
    simp at text
  · unfold endsInSlash
    rw [text]
    simpa using notSlash

/-- A name joined to pieces is one more of them. -/
theorem join_intercalate (given : pieces ≠ []) (all : ∀ n ∈ pieces, IsPiece n) (slashless : '/' ∉ name.toList) :
    join ("/".intercalate pieces) name = "/".intercalate (pieces ++ [name]) := by
  obtain ⟨nonempty, open_ended⟩ := not_endsInSlash_intercalate given all
  unfold join
  rw [relative_of_slashless slashless, if_neg Bool.false_ne_true, open_ended, if_neg (by simpa using nonempty),
    intercalate_concat given]

/-- An ending goes with the name that is joined. -/
theorem join_append {dir ending : String} (piece : IsPiece name) (slashless : '/' ∉ (name ++ ending).toList) :
    join dir (name ++ ending) = join dir name ++ ending := by
  unfold join
  rw [relative_of_slashless slashless, relative_of_slashless piece.slashless]
  simp only [Bool.false_eq_true, if_false]
  split
  · exact String.append_assoc.symm
  · exact String.append_assoc.symm

/-- What pieces make starts as the first of them does. -/
theorem head?_intercalate (piece : IsPiece name) :
    ("/".intercalate (name :: rest)).toList.head? = name.toList.head? := by
  obtain ⟨c, chars, whole⟩ := List.exists_cons_of_ne_nil (l := name.toList) (by simpa using piece.given)
  by_cases last : rest = []
  · simp [last]
  · rw [intercalate_cons last]
    simp [whole]

end Path

namespace ProjectPlan

variable {plan : ProjectPlan} {isLone : Char → Bool} {c : Component} {t u : FileTree} {path name : String}

/-! ## 2. The way to the components -/

/-- What leads from the application to the components, piece by piece. -/
def importSteps (plan : ProjectPlan) : List String :=
  let way := Path.way plan.componentsPath plan.sourcePath
  if way.head?.any (·.toList.head? == some '.') then way else "." :: way

theorem importPath_eq_intercalate (plan : ProjectPlan) : plan.importPath = "/".intercalate plan.importSteps := by
  obtain ⟨first, rest, whole⟩ := List.exists_cons_of_ne_nil (Path.way_ne_nil plan.componentsPath plan.sourcePath)
  have piece : Path.IsPiece first := Path.isPiece_of_mem_way (whole ▸ List.mem_cons_self)
  unfold importPath importSteps
  dsimp only
  rw [Path.relative_eq, whole, Path.head?_intercalate piece, List.head?_cons, Option.any_some]
  split
  · rfl
  · rw [Path.intercalate_cons (List.cons_ne_nil _ _)]
    rfl

theorem importSteps_ne_nil (plan : ProjectPlan) : plan.importSteps ≠ [] := by
  unfold importSteps
  dsimp only
  split
  · exact Path.way_ne_nil _ _
  · exact List.cons_ne_nil _ _

theorem mem_importSteps (h : name ∈ plan.importSteps) :
    name = "." ∨ name ∈ Path.way plan.componentsPath plan.sourcePath := by
  unfold importSteps at h
  dsimp only at h
  split at h
  · exact .inr h
  · exact List.mem_cons.mp h

theorem isPiece_of_mem_importSteps (h : name ∈ plan.importSteps) : Path.IsPiece name := by
  rcases mem_importSteps h with rfl | h
  · exact ⟨by decide, by decide⟩
  · exact Path.isPiece_of_mem_way h

/-- What is imported for a name. -/
theorem join_importPath (plan : ProjectPlan) (slashless : '/' ∉ name.toList) :
    Path.join plan.importPath name = "/".intercalate (plan.importSteps ++ [name]) := by
  rw [importPath_eq_intercalate]
  exact Path.join_intercalate plan.importSteps_ne_nil (fun _ hn => isPiece_of_mem_importSteps hn) slashless

/-- **An import leads from the application to the components.** -/
theorem reduce_importPath (plan : ProjectPlan) (step : Path.IsStep name) :
    Path.reduce (Path.reduce [] (Path.names plan.sourcePath)) (Path.names (Path.join plan.importPath name)) =
      Path.reduce [] (Path.names plan.componentsPath) ++ [name] := by
  have pieces : ∀ n ∈ plan.importSteps ++ [name], Path.IsPiece n := by
    intro n hn
    rcases List.mem_append.mp hn with hn | hn
    · exact isPiece_of_mem_importSteps hn
    · exact List.mem_singleton.mp hn ▸ step.toIsPiece
  have leads : Path.reduce (Path.reduce [] (Path.names plan.sourcePath)) plan.importSteps =
      Path.reduce [] (Path.names plan.componentsPath) := by
    unfold importSteps
    dsimp only
    split
    · exact Path.reduce_way _ _
    · rw [Path.reduce, if_pos rfl, Path.reduce_way]
  rw [join_importPath plan step.slashless, Path.names_intercalate pieces, Path.reduce_append, leads]
  exact Path.reduce_steps _ (by simpa using step)

/-! ## 3. Relative imports -/

/-- The components are put below a hidden directory that is right beside the application. -/
def HidesComponents (plan : ProjectPlan) : Prop := ∃ hidden below,
  Path.reduce [] (Path.names plan.componentsPath) = Path.reduce [] (Path.names plan.sourcePath) ++ hidden :: below ∧
    hidden.toList.head? = some '.'

/-- **What is imported for a name is a relative import unless the components are hidden.** -/
theorem isRelative_importPath (plan : ProjectPlan) (slashless : '/' ∉ name.toList) :
    IsRelative (Path.join plan.importPath name) ↔ ¬plan.HidesComponents := by
  obtain ⟨first, rest, whole⟩ := List.exists_cons_of_ne_nil (Path.way_ne_nil plan.componentsPath plan.sourcePath)
  have piece : Path.IsPiece first := Path.isPiece_of_mem_way (whole ▸ List.mem_cons_self)
  -- the way goes down to a hidden directory at once
  have hides : plan.HidesComponents ↔ first.toList.head? = some '.' ∧ first ≠ "." ∧ first ≠ ".." := by
    constructor
    · rintro ⟨hidden, below, spelled, dot⟩
      have same := Path.way_below (List.cons_ne_nil _ _) spelled
      obtain rfl : first = hidden := (List.cons.inj (whole.symm.trans same)).1
      have step : Path.IsStep first := Path.isStep_of_mem_place plan.componentsPath (by rw [spelled]; simp)
      exact ⟨dot, step.notHere, step.notUp⟩
    · rintro ⟨dot, notHere, notUp⟩
      exact ⟨first, rest, Path.below_of_way whole notHere notUp, dot⟩
  rw [join_importPath plan slashless, hides]
  unfold importSteps
  dsimp only
  rw [whole, List.head?_cons, Option.any_some]
  split
  · rename_i dot
    rw [List.cons_append, Path.isRelative_intercalate piece (by simp)]
    have starts : first.toList.head? = some '.' := by simpa using dot
    rw [and_iff_right starts, not_and_or, not_not, not_not]
  · rename_i dotless
    rw [List.cons_append, Path.isRelative_intercalate ⟨by decide, by decide⟩ (by simp)]
    have other : first.toList.head? ≠ some '.' := by simpa using dotless
    exact iff_of_true (.inl rfl) fun hidden => other hidden.1

/-! ## 4. What is written for an import -/

/-- Names that lead down to the components are names of their own path. -/
theorem mem_components_of_mem_way (relative : Path.isAbsolute plan.components = false)
    (h : name ∈ Path.way plan.componentsPath plan.sourcePath) :
    name = "." ∨ name = ".." ∨ name ∈ Path.names plan.components := by
  refine (Path.mem_way h).imp_right (Or.imp_right fun down => ?_)
  have spelled : Path.names plan.componentsPath = Path.names plan.project ++ Path.names plan.components :=
    Path.names_join plan.project relative
  obtain ⟨kept, added, ⟨dropped, whole⟩, leads, own⟩ :=
    Path.exists_kept (Path.reduce [] (Path.names plan.project)) (Path.names plan.components)
  -- what is kept of the place of the project is on both sides
  rw [spelled, names_sourcePath, Path.reduce_append, Path.reduce_append, plain_src.reduce, leads, ← whole,
    List.append_assoc, Path.dropCommon_append] at down
  exact own name (Path.mem_of_mem_dropCommon down)

/-- An import stands for itself in a literal if the path of the components does. -/
theorem isLiteral_importPath (relative : Path.isAbsolute plan.components = false)
    (plain : ∀ ch ∈ plan.components.toList, isLiteral ch = true) :
    ∀ ch ∈ plan.importPath.toList, isLiteral ch = true := by
  have dots : ∀ ch ∈ "..".toList, isLiteral ch = true := List.all_eq_true.mp (by decide)
  intro ch hc
  rw [importPath_eq_intercalate] at hc
  rcases Path.mem_intercalate hc with rfl | ⟨name, step, hc⟩
  · decide
  · rcases mem_importSteps step with rfl | way
    · exact dots ch (List.mem_cons_of_mem _ hc)
    · rcases mem_components_of_mem_way relative way with rfl | rfl | own
      · exact dots ch (List.mem_cons_of_mem _ hc)
      · exact dots ch hc
      · exact plain ch (Path.mem_of_mem_names own hc)

/-! ## 5. Components that are written -/

/-- **What writing a component to the end comes to**: its two files and the application are written in order. -/
theorem ok_writeFiles (h : plan.writeFiles isLone c t = .ok u) :
    ∃ code sheet entry, t.openable? (plan.codePath c.name) = some code ∧
      (t.set (file c.code) code).openable? (plan.stylesheetPath c.name) = some sheet ∧
      ((t.set (file c.code) code).set (file c.stylesheet) sheet).openable?
        (plan.appPath ((t.set (file c.code) code).set (file c.stylesheet) sheet)) = some entry ∧
      u = ((t.set (file c.code) code).set (file c.stylesheet) sheet).set
        (file (Component.appEntry c.name plan.importPath)) entry := by
  unfold writeFiles at h
  obtain ⟨first, wrote, h⟩ := ok_of_bind h
  obtain ⟨second, further, h⟩ := ok_of_bind h
  obtain ⟨code, opensCode, rfl⟩ := ok_writeText wrote
  obtain ⟨sheet, opensSheet, rfl⟩ := ok_writeText further
  obtain ⟨entry, opensEntry, rfl⟩ := ok_writeText h
  exact ⟨code, sheet, entry, opensCode, opensSheet, opensEntry, rfl⟩

theorem ok_writeComponent (h : plan.writeComponent isLone c t = (.ok path, u)) :
    path = plan.codePath c.name ∧ ∃ made, plan.writeFiles isLone c made = .ok u := by
  unfold writeComponent at h
  rcases made : t.makeDirectories plan.componentsPath with ⟨m, _ | blocked | unnameable⟩
  · rw [made] at h
    dsimp only at h
    split at h
    · cases h
    · rcases wrote : plan.writeFiles isLone c m with (⟨v, written⟩ | v) | v
      · rw [wrote] at h
        cases h
      · rw [wrote] at h
        cases h
      · rw [wrote] at h
        cases h
        exact ⟨rfl, m, wrote⟩
  · rw [made] at h
    cases h
  · rw [made] at h
    cases h

/-- A name joined to a path leads to what is below the place that the path spells. -/
theorem eq_of_place?_join {p : Place} {dir : String} (step : Path.IsStep name)
    (h : t.place? (Path.join dir name) = some p) : p = Path.reduce [] (Path.names dir) ++ [name] := by
  have leads : p = Path.reduce [] (Path.names (Path.join dir name)) := follow_eq_reduce h
  rw [leads, Path.names_join dir (Path.relative_of_slashless step.slashless), step.names, Path.reduce_append]
  exact Path.reduce_steps _ (by simpa using step)

/-- The application is a file beside its sources, and remains the same one when it is written. -/
theorem appPath_write {p : Place} (h : t.openable? (plan.appPath t) = some p) (text : String) :
    plan.appPath (t.set (file text) p) = plan.appPath t ∧
      ∃ name, p = Path.reduce [] (Path.names plan.sourcePath) ++ [name] := by
  have shares := shares_write h text
  have place := (openable?_eq_some.mp h).1
  unfold appPath at place ⊢
  dsimp only at place ⊢
  cases older : t.hasFile (Path.join plan.sourcePath "App.js") with
  | true =>
    rw [older, if_pos rfl] at place
    have stays : (t.set (file text) p).hasFile (Path.join plan.sourcePath "App.js") = true :=
      hasFile_iff.mpr ⟨p, text, (place?_congr shares _).symm.trans place, by rw [kindAt?_write h, if_pos rfl]⟩
    rw [stays]
    exact ⟨rfl, _, eq_of_place?_join plain_older.isStep place⟩
  | false =>
    rw [older, if_neg Bool.false_ne_true] at place
    have here := eq_of_place?_join plain_app.isStep place
    have stays : (t.set (file text) p).hasFile (Path.join plan.sourcePath "App.js") = false := by
      rw [Bool.eq_false_iff]
      intro there
      obtain ⟨q, s, leads, isFile⟩ := hasFile_iff.mp there
      have before := (place?_congr shares _).trans leads
      have other : q ≠ p := by
        rw [eq_of_place?_join plain_older.isStep before, here]
        simp
      rw [kindAt?_write h, if_neg other] at isFile
      exact Bool.false_ne_true (older.symm.trans (hasFile_iff.mpr ⟨q, s, before, isFile⟩))
    rw [stays]
    exact ⟨rfl, _, here⟩

/-- **The application imports the file that was written.**  After a component is written, the application is a file
beside its sources that reads as a module, which imports the component by its name.  Looked up from the directory of the
application, what it imports is the path of the code without its ending, and the code is there unless the application
itself was put in its place.  The import is a relative one unless the components are put in a hidden directory right
beside the application. -/
theorem imports_written {given : Value} (called : Component.nameOf given = .ok c.name)
    (relative : Path.isAbsolute plan.components = false)
    (plain : ∀ ch ∈ plan.components.toList, isLiteral ch = true)
    (wrote : plan.writeComponent isLone c t = (.ok path, u)) :
    ∃ code entry text app source stem,
      u.place? path = some code ∧ (code ≠ entry → u.kindAt? code = some (.file c.code)) ∧
      u.place? (plan.appPath u) = some entry ∧ u.kindAt? entry = some (.file text) ∧
      Module.read? text = some app ∧ .importDefault c.name source ∈ app ∧
      path = stem ++ ".jsx" ∧
      Path.reduce entry.dropLast (Path.names source) = Path.reduce [] (Path.names stem) ∧
      (IsRelative source ↔ ¬plan.HidesComponents) := by
  have proper : Component.IsProper c.name := Component.isProper_nameOf called
  have step := proper.isStep
  obtain ⟨rfl, made, wrote⟩ := ok_writeComponent wrote
  obtain ⟨code, sheet, entry, opensCode, opensSheet, opensEntry, rfl⟩ := ok_writeFiles wrote
  have afterCode := shares_write opensCode c.code
  have afterSheet := afterCode.trans (shares_write opensSheet c.stylesheet)
  have afterAll := afterSheet.trans (shares_write opensEntry (Component.appEntry c.name plan.importPath))
  obtain ⟨same, name, beside⟩ := appPath_write opensEntry (Component.appEntry c.name plan.importPath)
  have shares := shares_write opensEntry (Component.appEntry c.name plan.importPath)
  have codePlace := (openable?_eq_some.mp opensCode).1
  have file {ending : String} (slashless : '/' ∉ ending.toList) (letter : 's' ∈ ending.toList) :
      Path.IsStep (c.name ++ ending) := proper.isNamed.isStep slashless letter
  have apart : code ≠ sheet := by
    rw [eq_of_place?_join (file (by decide) (by decide)) codePlace,
      eq_of_place?_join (file (by decide) (by decide)) (openable?_eq_some.mp opensSheet).1]
    intro same
    exact Component.codeFile_ne_stylesheetFile c.name c.name (List.singleton_inj.mp (List.append_cancel_left same))
  refine ⟨code, entry, _, _, _, Path.join plan.componentsPath c.name, (place?_congr afterAll _).symm.trans codePlace,
    fun other => ?_, ?_, ?_, Component.read?_appEntry proper (isLiteral_importPath relative plain),
    by simp, ?_, ?_, isRelative_importPath plan step.slashless⟩
  · rw [kindAt?_write opensEntry, if_neg other, kindAt?_write opensSheet, if_neg apart, kindAt?_write opensCode,
      if_pos rfl]
  · rw [same]
    exact (place?_congr shares _).symm.trans (openable?_eq_some.mp opensEntry).1
  · rw [kindAt?_write opensEntry, if_pos rfl]
  · exact Path.join_append step.toIsPiece (file (by decide) (by decide)).slashless
  · rw [beside, List.dropLast_concat, reduce_importPath plan step,
      Path.names_join _ (Path.relative_of_slashless step.slashless), step.names, Path.reduce_append]
    exact (Path.reduce_steps _ (by simpa using step)).symm

/-- A project whose components are put beside it, in a hidden directory. -/
def besidePlan : ProjectPlan := ⟨"app", "tpl", "../shared/.ui"⟩

/-- A project with an older application. -/
def olderSources : FileTree := someSources [("App.js", .file "older")]

theorem imports_written_beside :
    (besidePlan.writeComponent (fun _ => false) someCard olderSources).1 = .ok "app/../shared/.ui/Card.jsx" ∧
    ¬besidePlan.HidesComponents ∧
    ∃ entry text app source,
      (besidePlan.writeComponent (fun _ => false) someCard olderSources).2.kindAt? entry = some (.file text) ∧
      Module.read? text = some app ∧ .importDefault "Card" source ∈ app ∧ IsRelative source ∧
      Path.reduce entry.dropLast (Path.names source) = ["shared", ".ui", "Card"] := by
  have written : (besidePlan.writeComponent (fun _ => false) someCard olderSources).1 =
      .ok "app/../shared/.ui/Card.jsx" := by decide +kernel
  have shown : ¬besidePlan.HidesComponents := by
    have components : Path.reduce [] (Path.names besidePlan.componentsPath) = ["shared", ".ui"] := by decide +kernel
    have sources : Path.reduce [] (Path.names besidePlan.sourcePath) = ["app", "src"] := by decide +kernel
    rintro ⟨hidden, below, spelled, -⟩
    rw [components, sources] at spelled
    simp at spelled
  rcases wrote : besidePlan.writeComponent (fun _ => false) someCard olderSources with ⟨outcome, u⟩
  rw [wrote] at written
  obtain rfl : outcome = .ok "app/../shared/.ui/Card.jsx" := written
  have called : Component.nameOf (.text "card") = .ok someCard.name := by decide +kernel
  obtain ⟨-, entry, text, app, source, stem, -, -, -, there, read, imported, path, leads, imports⟩ :=
    imports_written called (by decide +kernel) (List.all_eq_true.mp (by decide)) wrote
  have ending : "app/../shared/.ui/Card.jsx" = "app/../shared/.ui/Card" ++ ".jsx" := by decide +kernel
  obtain rfl : stem = "app/../shared/.ui/Card" := (String.append_left_inj ".jsx").mp (path.symm.trans ending)
  exact ⟨rfl, shown, entry, text, app, source, there, read, imported, imports.mpr shown,
    leads.trans (by decide +kernel)⟩

/-- A project whose components are put in a hidden directory right beside the application. -/
def hiddenPlan : ProjectPlan := ⟨"app", "tpl", "src/.widgets"⟩

/-- **Such a component is imported as if it were a package.** -/
theorem import_of_hidden :
    (hiddenPlan.writeComponent (fun _ => false) someCard (someSources [])).1 = .ok "app/src/.widgets/Card.jsx" ∧
    ∃ text app, (hiddenPlan.writeComponent (fun _ => false) someCard (someSources [])).2.kindAt?
        ["app", "src", "App.jsx"] = some (.file text) ∧
      Module.read? text = some app ∧ .importDefault "Card" ".widgets/Card" ∈ app ∧ ¬IsRelative ".widgets/Card" := by
  have proper : Component.IsProper "Card" :=
    ⟨'C', ['a', 'r', 'd'], rfl, by decide, List.all_iff_forall_prop.mp (by decide)⟩
  have plain : ∀ ch ∈ ".widgets".toList, isLiteral ch = true := List.all_eq_true.mp (by decide)
  have written :
      (hiddenPlan.writeComponent (fun _ => false) someCard (someSources [])).1 = .ok "app/src/.widgets/Card.jsx" ∧
      (hiddenPlan.writeComponent (fun _ => false) someCard (someSources [])).2.kindAt? ["app", "src", "App.jsx"] =
        some (.file (Component.appEntry "Card" ".widgets")) := by decide +kernel
  exact ⟨written.1, _, _, written.2, Component.read?_appEntry proper plain, by decide +kernel, by decide⟩

end ProjectPlan

end Artboard
