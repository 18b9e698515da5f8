import Artboard.Project.Output
import Artboard.Proofs.File.Access

/-!
# What is left of a component that is not written

Where a file of a component cannot be written, those written until then are taken back.  No file is left that was not
there before; but a file that was, and was opened, is gone, with the text that it had (`files_of_notWritten`).  So a
component that was written before is lost when writing it again fails (`code_lost`).

The files are opened in order, and which of them can be is settled once the directories are made: writing one of them
does not change which others can be written (`ProjectPlan.openedPlaces`).
-/

namespace Artboard

namespace ProjectPlan

open FileTree

variable {plan : ProjectPlan} {isLone : Char → Bool} {c : Component} {t u : FileTree} {written more : List String}
  {path text : String} {p q : Place}

/-! ## 1. One file -/

/-- **What writing a text to a file comes to**: it cannot be opened, or it cannot hold the text and is left empty, or
the text is in it. -/
theorem writeText_cases (isLone : Char → Bool) (written : List String) (path text : String) (t : FileTree) :
    (t.openable? path = none ∧ writeText isLone written path text t = .error (.refused t written)) ∨
    ∃ p, t.openable? path = some p ∧
      ((text.toList.any isLone = true ∧
          writeText isLone written path text t = .error (.unencodable (t.set (file "") p))) ∨
        (text.toList.any isLone = false ∧ writeText isLone written path text t = .ok (t.set (file text) p))) := by
  unfold writeText
  rw [write?_eq, write?_eq]
  cases t.openable? path with
  | none =>
    refine .inl ⟨rfl, ?_⟩
    split <;> rfl
  | some p =>
    refine .inr ⟨p, rfl, ?_⟩
    cases text.toList.any isLone with
    | true => exact .inl ⟨rfl, rfl⟩
    | false => exact .inr ⟨rfl, rfl⟩

theorem refused_writeText (h : writeText isLone written path text t = .error (.refused u more)) :
    t.openable? path = none ∧ u = t ∧ more = written := by
  rcases writeText_cases isLone written path text t with ⟨none, same⟩ | ⟨p, -, ⟨-, same⟩ | ⟨-, same⟩⟩
  · rw [same] at h
    cases h
    exact ⟨none, rfl, rfl⟩
  · rw [same] at h
    cases h
  · rw [same] at h
    cases h

theorem ok_writeText (h : writeText isLone written path text t = .ok u) :
    ∃ p, t.openable? path = some p ∧ u = t.set (file text) p := by
  rcases writeText_cases isLone written path text t with ⟨-, same⟩ | ⟨p, opens, ⟨-, same⟩ | ⟨-, same⟩⟩
  · rw [same] at h
    cases h
  · rw [same] at h
    cases h
  · rw [same] at h
    cases h
    exact ⟨p, opens, rfl⟩

/-! ## 2. All files -/

/-- The places of the files of a component that can be written, until the first that cannot. -/
def openedFrom (plan : ProjectPlan) (name : String) (t : FileTree) : List Place :=
  match t.openable? (plan.codePath name) with
  | none => []
  | some p => p :: (t.openable? (plan.stylesheetPath name)).toList

/-- The places of the files that are opened to write a component, the application apart. -/
def openedPlaces (plan : ProjectPlan) (name : String) (t : FileTree) : List Place :=
  match t.makeDirectories plan.componentsPath with
  | (_, some _) => []
  | (made, none) => plan.openedFrom name made

theorem names_codePath (plan : ProjectPlan) (name : String) : Path.names (plan.codePath name) ≠ [] := by
  have letter : 'x' ∈ (Component.codeFile name).toList := by simp [Component.codeFile]
  exact Path.names_join_ne_nil _ (Path.names_ne_nil letter (by decide))

theorem names_stylesheetPath (plan : ProjectPlan) (name : String) : Path.names (plan.stylesheetPath name) ≠ [] := by
  have letter : 's' ∈ (Component.stylesheetFile name).toList := by simp [Component.stylesheetFile]
  exact Path.names_join_ne_nil _ (Path.names_ne_nil letter (by decide))

/-- Where writing the files of a component stops, they were written in order until then. -/
theorem refused_writeFiles (h : plan.writeFiles isLone c t = .error (.refused u written)) :
    (t.openable? (plan.codePath c.name) = none ∧ u = t ∧ written = []) ∨
    ∃ p, t.openable? (plan.codePath c.name) = some p ∧
      ((t.openable? (plan.stylesheetPath c.name) = none ∧ u = t.set (file c.code) p ∧
          written = [plan.codePath c.name]) ∨
        ∃ q, t.openable? (plan.stylesheetPath c.name) = some q ∧
          u = (t.set (file c.code) p).set (file c.stylesheet) q ∧
          written = [plan.codePath c.name, plan.stylesheetPath c.name]) := by
  unfold writeFiles at h
  dsimp only at h
  rcases first : writeText isLone [] (plan.codePath c.name) c.code t with stop | t₁
  · rw [first] at h
    cases h
    exact .inl (refused_writeText first)
  obtain ⟨p, opens, rfl⟩ := ok_writeText first
  have shares := shares_write opens c.code
  refine .inr ⟨p, opens, ?_⟩
  rw [first] at h
  rcases second : writeText isLone [plan.codePath c.name] (plan.stylesheetPath c.name) c.stylesheet
      (t.set (file c.code) p) with stop | t₂
  · have stopped : stop = .refused u written := by
      simpa [bind, Except.bind, second] using h
    rw [stopped] at second
    obtain ⟨none, rfl, rfl⟩ := refused_writeText second
    exact .inl ⟨(openable?_congr shares _).trans none, rfl, rfl⟩
  · obtain ⟨q, further, rfl⟩ := ok_writeText second
    refine .inr ⟨q, (openable?_congr shares _).trans further, ?_⟩
    have third : writeText isLone [plan.codePath c.name, plan.stylesheetPath c.name]
        (plan.appPath ((t.set (file c.code) p).set (file c.stylesheet) q))
        (Component.appEntry c.name plan.importPath) ((t.set (file c.code) p).set (file c.stylesheet) q) =
          .error (.refused u written) := by
      simpa [bind, Except.bind, second] using h
    obtain ⟨-, rfl, rfl⟩ := refused_writeText third
    exact ⟨rfl, rfl⟩

@[simp] theorem takeBack_nil (t : FileTree) : takeBack [] t = t := rfl

@[simp] theorem takeBack_cons (path : String) (written : List String) (t : FileTree) :
    takeBack (path :: written) t = takeBack written (t.discard path) := rfl

/-- **What is written and taken back is gone**, and nothing else changes. -/
theorem kindAt?_takeBack (h : plan.writeFiles isLone c t = .error (.refused u written)) (q : Place) :
    (takeBack written u).kindAt? q = if q ∈ plan.openedFrom c.name t then none else t.kindAt? q := by
  unfold openedFrom
  rcases refused_writeFiles h with ⟨closed, rfl, rfl⟩ | ⟨p, opens, ⟨closed, rfl, rfl⟩ | ⟨r, further, rfl, rfl⟩⟩
  · simp [closed]
  · have shares := shares_write opens c.code
    have opened := (openable?_congr shares _).symm.trans opens
    rw [opens, closed]
    rw [takeBack_cons, takeBack_nil, kindAt?_discard opened (names_codePath plan c.name), kindAt?_write opens]
    by_cases here : q = p <;> simp [here]
  · have shares := shares_write opens c.code
    have opened := (openable?_congr shares _).symm.trans further
    have both := shares.trans (shares_write opened c.stylesheet)
    have first := (openable?_congr both _).symm.trans opens
    have all := both.trans (shares_discard first (names_codePath plan c.name))
    have second := (openable?_congr all _).symm.trans further
    rw [opens, further]
    rw [takeBack_cons, takeBack_cons, takeBack_nil, kindAt?_discard second (names_stylesheetPath plan c.name),
      kindAt?_discard first (names_codePath plan c.name), kindAt?_write opened, kindAt?_write opens]
    by_cases here : q = r
    · simp [here]
    · by_cases there : q = p <;> simp [here, there]

/-! ## 3. Components -/

/-- The files after a component is not written. -/
theorem file_iff_of_notWritten {name : String} {after : FileTree}
    (h : plan.writeComponent isLone c t = (.error (.notWritten name path), after)) :
    after.kindAt? p = some (.file text) ↔ t.kindAt? p = some (.file text) ∧ p ∉ plan.openedPlaces c.name t := by
  have widens := widens_makeDirectories t plan.componentsPath
  unfold writeComponent at h
  unfold openedPlaces
  rcases made : t.makeDirectories plan.componentsPath with ⟨m, _ | blocked | unnameable⟩
  · rw [made] at h widens
    dsimp only at h ⊢
    split at h
    · cases h
    · rcases wrote : plan.writeFiles isLone c m with (⟨u, written⟩ | u) | u
      · rw [wrote] at h
        cases h
        rw [kindAt?_takeBack wrote, ← widens.file_iff]
        by_cases opened : p ∈ plan.openedFrom c.name m <;> simp [opened]
      · rw [wrote] at h
        cases h
      · rw [wrote] at h
        cases h
  · rw [made] at h widens
    cases h
    simp [widens.file_iff]
  · rw [made] at h
    cases h

/-- **After a component is not written, the files are those that were there before and were not opened for it.**  So
none is left that was not there; and all are left that were exactly if there was none at the places that were
opened. -/
theorem files_of_notWritten {name : String}
    (h : (plan.writeComponent isLone c t).1 = .error (.notWritten name path)) :
    (∀ p text, (plan.writeComponent isLone c t).2.kindAt? p = some (.file text) ↔
      t.kindAt? p = some (.file text) ∧ p ∉ plan.openedPlaces c.name t) ∧
    ((∀ p text, t.kindAt? p = some (.file text) →
        (plan.writeComponent isLone c t).2.kindAt? p = some (.file text)) ↔
      ∀ p ∈ plan.openedPlaces c.name t, ∀ text, t.kindAt? p ≠ some (.file text)) := by
  have files : ∀ p text, (plan.writeComponent isLone c t).2.kindAt? p = some (.file text) ↔
      t.kindAt? p = some (.file text) ∧ p ∉ plan.openedPlaces c.name t :=
    fun p text => file_iff_of_notWritten (Prod.ext h rfl)
  refine ⟨files, fun kept p opened text there => ?_, fun free p text there => ?_⟩
  · exact ((files p text).mp (kept p text there)).2 opened
  · exact (files p text).mpr ⟨there, fun opened => free p opened text there⟩

/-- A project in a directory of its own. -/
def somePlan : ProjectPlan := ⟨"app", "tpl", "src/components"⟩

/-- A component to be written. -/
def someCard : Component := ⟨"Card", "const Card = () => null;\n", ".card-container \x7b\x7d\n"⟩

/-- A project with some entries in the directory of its sources. -/
def someSources (entries : List (String × FileTree)) : FileTree :=
  .directory [("app", .directory [("src", .directory entries)])]

/-- A project whose application cannot be written, with an older component in it. -/
def entryless : FileTree :=
  someSources [("App.jsx", .directory []), ("components", .directory [("Hero.jsx", .file "hero")])]

theorem files_of_notWritten_entryless :
    (somePlan.writeComponent (fun _ => false) someCard entryless).1 =
      .error (.notWritten "Card" "app/src/components/Card.jsx") ∧
    somePlan.openedPlaces "Card" entryless =
      [["app", "src", "components", "Card.jsx"], ["app", "src", "components", "Card.css"]] ∧
    ∀ p text, (somePlan.writeComponent (fun _ => false) someCard entryless).2.kindAt? p = some (.file text) ↔
      entryless.kindAt? p = some (.file text) := by
  have failed : (somePlan.writeComponent (fun _ => false) someCard entryless).1 =
      .error (.notWritten "Card" "app/src/components/Card.jsx") := by decide +kernel
  have opened : somePlan.openedPlaces "Card" entryless =
      [["app", "src", "components", "Card.jsx"], ["app", "src", "components", "Card.css"]] := by decide +kernel
  have fresh : ∀ p ∈ somePlan.openedPlaces "Card" entryless, entryless.kindAt? p = none := by
    rw [opened]
    decide +kernel
  obtain ⟨files, kept⟩ := files_of_notWritten failed
  refine ⟨failed, opened, fun p text => ⟨fun there => ((files p text).mp there).1, ?_⟩⟩
  refine kept.mpr (fun q hq text there => ?_) p text
  rw [fresh q hq] at there
  cases there

/-- A project whose application shows a component, the stylesheet of which cannot be written. -/
def styleless : FileTree :=
  someSources [("App.jsx", .file (Component.appEntry "Card" "./components")),
    ("components", .directory [("Card.jsx", .file "card"), ("Card.css", .directory [])])]

/-- A component that the application shows is lost when it is written again and its stylesheet cannot be. -/
theorem code_lost :
    (somePlan.writeComponent (fun _ => false) someCard styleless).1 =
      .error (.notWritten "Card" "app/src/components/Card.jsx") ∧
    styleless.kindAt? ["app", "src", "components", "Card.jsx"] = some (.file "card") ∧
    (somePlan.writeComponent (fun _ => false) someCard styleless).2.kindAt?
      ["app", "src", "components", "Card.jsx"] = none ∧
    (somePlan.writeComponent (fun _ => false) someCard styleless).2.kindAt? ["app", "src", "App.jsx"] =
      some (.file (Component.appEntry "Card" "./components")) := by
  decide +kernel

end ProjectPlan

end Artboard
