import Artboard.Proofs.Component
import Artboard.Proofs.Project.Provision
import Artboard.Proofs.Text.Surrogate

/-!
# A project that is kept up

A project that is made where nothing was, of templates that have an application but no components, can be written to
(`ProjectPlan.Stocked`, `stocked_provision`), and it stays so: writing a component changes its own two files and the
application, and nothing else (`Stores`, `stores_writeComponent`).  Only a character that no file can hold stops it;
then a file of the component is left empty, and the application is not changed.
-/

namespace Artboard

namespace ProjectPlan

open FileTree

variable {plan : ProjectPlan} {isLone : Char → Bool} {c : Component} {t u v templates : FileTree} {p q : Place}
  {path name text s : String}

/-! ## 1. Places -/

/-- The place of a project. -/
def home (plan : ProjectPlan) : Place := Path.reduce [] (Path.names plan.project)

/-- The place of the application. -/
def appPlace (plan : ProjectPlan) : Place := plan.home ++ ["src", "App.jsx"]

/-- The place of a file among the components. -/
def shelfPlace (plan : ProjectPlan) (name : String) : Place := plan.home ++ ["src", "components", name]

/-- The place of the code of a component. -/
def codePlace (plan : ProjectPlan) (name : String) : Place := plan.shelfPlace (Component.codeFile name)

/-- The place of the stylesheet of a component. -/
def stylesheetPlace (plan : ProjectPlan) (name : String) : Place := plan.shelfPlace (Component.stylesheetFile name)

theorem shelfPlace_inj {other : String} : plan.shelfPlace name = plan.shelfPlace other ↔ name = other := by
  simp [shelfPlace]

theorem shelfPlace_ne_appPlace (plan : ProjectPlan) (name : String) : plan.shelfPlace name ≠ plan.appPlace := by
  simp [shelfPlace, appPlace]

theorem codePlace_ne_stylesheetPlace (plan : ProjectPlan) (name other : String) :
    plan.codePlace name ≠ plan.stylesheetPlace other := by
  intro same
  exact Component.codeFile_ne_stylesheetFile name other (shelfPlace_inj.mp same)

theorem appPlace_ne_codePlace (plan : ProjectPlan) (name : String) : plan.appPlace ≠ plan.codePlace name :=
  (shelfPlace_ne_appPlace plan _).symm

theorem appPlace_ne_stylesheetPlace (plan : ProjectPlan) (name : String) : plan.appPlace ≠ plan.stylesheetPlace name :=
  (shelfPlace_ne_appPlace plan _).symm

/-- **A project that components can be written to**: its directory of components is there with files only, and its
application has the one name. -/
structure Stocked (plan : ProjectPlan) (u : FileTree) : Prop where
  components : plan.components = "src/components"
  place : u.place? plan.project = some plan.home
  package : ∃ s, u.kindAt? (plan.home ++ ["package.json"]) = some (.file s)
  shelf : u.kindAt? (plan.home ++ ["src", "components"]) = some .directory
  flat : ∀ name, u.kindAt? (plan.shelfPlace name) ≠ some .directory
  app : ∃ s, u.kindAt? plan.appPlace = some (.file s)
  older : ∀ s, u.kindAt? (plan.home ++ ["src", "App.js"]) ≠ some (.file s)

theorem plain_src : PlainName "src" := by decide +kernel

theorem plain_components : PlainName "components" := by decide +kernel

theorem plain_app : PlainName "App.jsx" := by decide +kernel

theorem plain_older : PlainName "App.js" := by decide +kernel

/-- The names of the directory of components go on from those of the project. -/
theorem names_componentsPath (components : plan.components = "src/components") :
    Path.names plan.componentsPath = Path.names plan.project ++ ["src", "components"] := by
  have below : Path.names "src/components" = ["src", "components"] := by decide +kernel
  unfold componentsPath
  rw [components, Path.names_join plan.project (by decide +kernel), below]

theorem names_sourcePath (plan : ProjectPlan) : Path.names plan.sourcePath = Path.names plan.project ++ ["src"] :=
  plain_src.names_join plan.project

/-- The application imports a component from the directory beside it. -/
theorem importPath_eq (components : plan.components = "src/components") : plan.importPath = "./components" := by
  have below : Path.reduce [] (Path.names plan.componentsPath) =
      Path.reduce [] (Path.names plan.sourcePath) ++ ["components"] := by
    rw [names_componentsPath components, names_sourcePath, Path.reduce_append, Path.reduce_append, plain_src.reduce]
    have both : ["src", "components"] = ["src"] ++ ["components"] := rfl
    rw [both, Path.reduce_append, plain_src.reduce, plain_components.reduce]
  have relative : Path.relative plan.componentsPath plan.sourcePath = "components" := by
    rw [Path.relative_below (by simp) below]
    decide +kernel
  unfold importPath
  rw [relative]
  decide +kernel

/-! ## 2. Files of a project -/

namespace Stocked

theorem isDirectory (h : Stocked plan u) : u.kindAt? plan.home = some .directory := directory_above h.shelf (by simp)

theorem source (h : Stocked plan u) : u.kindAt? (plan.home ++ ["src"]) = some .directory := by
  have shelf := h.shelf
  rw [show plan.home ++ ["src", "components"] = (plan.home ++ ["src"]) ++ ["components"] by simp] at shelf
  exact directory_above shelf (by simp)

theorem place_sourcePath (h : Stocked plan u) : u.place? plan.sourcePath = some (plan.home ++ ["src"]) :=
  place?_join plain_src h.place h.isDirectory

theorem place_componentsPath (h : Stocked plan u) :
    u.place? plan.componentsPath = some (plan.home ++ ["src", "components"]) := by
  have place : u.follow [] (Path.names plan.project) = some plan.home := h.place
  have both : ["src", "components"] = ["src"] ++ ["components"] := rfl
  unfold place?
  rw [names_componentsPath h.components, follow_append, place, Option.bind_some, both, follow_append,
    follow_plain plain_src h.isDirectory, Option.bind_some, follow_plain plain_components h.source]
  simp

theorem isMade (h : Stocked plan u) : isMade plan.project u = true := by
  rw [isMade_iff h.place h.isDirectory]
  exact h.package

/-- A file can be written among the components. -/
theorem opens_shelf (h : Stocked plan u) (plain : PlainName name) :
    u.openable? (Path.join plan.componentsPath name) = some (plan.shelfPlace name) := by
  rw [openable?_eq_some, place?_join plain h.place_componentsPath h.shelf]
  refine ⟨by simp [shelfPlace], h.flat name⟩

theorem opens_app (h : Stocked plan u) : u.openable? (plan.appPath u) = some plan.appPlace := by
  have there {name : String} (plain : PlainName name) :
      u.place? (Path.join plan.sourcePath name) = some (plan.home ++ ["src", name]) := by
    rw [place?_join plain h.place_sourcePath h.source]
    simp
  have newer : u.hasFile (Path.join plan.sourcePath "App.js") = false := by
    rw [Bool.eq_false_iff]
    intro older
    obtain ⟨p, s, place, isFile⟩ := hasFile_iff.mp older
    rw [there plain_older] at place
    cases place
    exact h.older s isFile
  obtain ⟨s, isFile⟩ := h.app
  unfold appPath
  dsimp only
  rw [newer, if_neg Bool.false_ne_true, openable?_eq_some, there plain_app]
  refine ⟨rfl, ?_⟩
  rw [isFile]
  simp

/-- A file that is written leaves such a project, except where the older application would be. -/
theorem write (h : Stocked plan u) (opens : u.openable? path = some p) (other : p ≠ plan.home ++ ["src", "App.js"])
    (text : String) : Stocked plan (u.set (file text) p) := by
  have shares := shares_write opens text
  have stays {q : Place} (isFile : ∃ s, u.kindAt? q = some (.file s)) :
      ∃ s, (u.set (file text) p).kindAt? q = some (.file s) := by
    obtain ⟨s, isFile⟩ := isFile
    rw [kindAt?_write opens]
    split
    · exact ⟨text, rfl⟩
    · exact ⟨s, isFile⟩
  exact {
    components := h.components
    place := (place?_congr shares _).symm.trans h.place
    package := stays h.package
    shelf := (shares _).mp h.shelf
    flat := fun name isDirectory => h.flat name ((shares _).mpr isDirectory)
    app := stays h.app
    older := fun s => by
      rw [kindAt?_write opens, if_neg other.symm]
      exact h.older s }

theorem write_shelf (h : Stocked plan u) (plain : PlainName name) (text : String) :
    Stocked plan (u.set (file text) (plan.shelfPlace name)) :=
  h.write (h.opens_shelf plain) (by simp [shelfPlace]) text

end Stocked

/-! ## 3. Writing a component -/

theorem writeText_lone (opens : t.openable? path = some p) (lone : text.toList.any isLone = true)
    (written : List String) : writeText isLone written path text t = .error (.unencodable (t.set (file "") p)) := by
  unfold writeText
  rw [if_pos lone, write?_eq, opens]
  rfl

theorem writeText_plain (opens : t.openable? path = some p) (plain : text.toList.any isLone = false)
    (written : List String) : writeText isLone written path text t = .ok (t.set (file text) p) := by
  unfold writeText
  rw [plain, if_neg Bool.false_ne_true, write?_eq, opens]
  rfl

/-- The files with the two of a component. -/
def withFiles (plan : ProjectPlan) (name code stylesheet : String) (t : FileTree) : FileTree :=
  (t.set (file code) (plan.codePlace name)).set (file stylesheet) (plan.stylesheetPlace name)

/-- The texts of a component can be held by files. -/
def isWritable (isLone : Char → Bool) (c : Component) : Bool :=
  !c.code.toList.any isLone && !c.stylesheet.toList.any isLone

/-- **What writing a component comes to**: to the end, its files hold its texts and the application shows it; if it
stops, one of its files is empty and the application is as before.  Nothing else changes. -/
structure Stores (plan : ProjectPlan) (c : Component) (done : Bool) (u v : FileTree) : Prop where
  stocked : Stocked plan v
  kept : ∀ q, q ≠ plan.codePlace c.name → q ≠ plan.stylesheetPlace c.name → q ≠ plan.appPlace →
    v.kindAt? q = u.kindAt? q
  app : v.kindAt? plan.appPlace =
    if done then some (.file (Component.appEntry c.name "./components")) else u.kindAt? plan.appPlace
  written : done = true → v.kindAt? (plan.codePlace c.name) = some (.file c.code) ∧
    v.kindAt? (plan.stylesheetPlace c.name) = some (.file c.stylesheet)
  spoilt : done = false → v.kindAt? (plan.codePlace c.name) = some (.file "") ∨
    v.kindAt? (plan.stylesheetPlace c.name) = some (.file "")

/-- What can be said of a component whose files can be made. -/
structure Storable (isLone : Char → Bool) (c : Component) : Prop where
  code : PlainName (Component.codeFile c.name)
  stylesheet : PlainName (Component.stylesheetFile c.name)
  nullless : hasNull c.name = false
  shown : (Component.appEntry c.name "./components").toList.any isLone = false

theorem isLow_of_isNamed (named : Component.IsNamed name) : Text.isLow name = true := by
  unfold Text.isLow
  rw [List.all_eq_true]
  intro ch hc
  have ascii := Component.lt_of_isNameChar (named ch hc)
  exact decide_eq_true (Nat.lt_trans ascii (by decide))

theorem not_isAbsolute_of_isNamed (named : Component.IsNamed name) : Path.isAbsolute name = false :=
  Path.relative_of_slashless fun slash => absurd (named '/' slash) (by decide)

/-- The files of a component can be made unless its name is too long. -/
theorem storable_of_isNamed (named : Component.IsNamed c.name) (short : c.name.utf8ByteSize ≤ Component.maxBytes)
    (high : Text.AreHigh isLone) : Storable isLone c where
  code := named.codeFile short
  stylesheet := named.stylesheetFile short
  nullless := by
    unfold hasNull
    have null : '\x00' ∉ c.name.toList := fun hc => by simpa [Component.isNameChar] using named _ hc
    simpa using null
  shown := by
    refine Text.not_lone_of_isLow high ?_
    have name := isLow_of_isNamed named
    unfold Component.appEntry Path.join
    rw [not_isAbsolute_of_isNamed named]
    simpa [Text.isLow, Text.privateStart, Path.endsInSlash] using name

/-- The files of a component are opened one after the other, and the application after both. -/
theorem opens_files (h : Stocked plan u) (storable : Storable isLone c) (code stylesheet : String) :
    u.openable? (plan.codePath c.name) = some (plan.codePlace c.name) ∧
      (u.set (file code) (plan.codePlace c.name)).openable? (plan.stylesheetPath c.name) =
        some (plan.stylesheetPlace c.name) ∧
      (plan.withFiles c.name code stylesheet u).openable? (plan.appPath (plan.withFiles c.name code stylesheet u)) =
        some plan.appPlace := by
  have first := h.write_shelf storable.code code
  exact ⟨h.opens_shelf storable.code, first.opens_shelf storable.stylesheet,
    (first.write_shelf storable.stylesheet stylesheet).opens_app⟩

/-- A component whose code no file can hold leaves an empty one. -/
theorem stores_noCode (h : Stocked plan u) (storable : Storable isLone c) :
    Stores plan c false u (u.set (file "") (plan.codePlace c.name)) := by
  obtain ⟨code, -, -⟩ := opens_files h storable "" ""
  exact {
    stocked := h.write_shelf storable.code ""
    kept := fun q hq _ _ => by rw [kindAt?_write code, if_neg hq]
    app := by simp [kindAt?_write code, appPlace_ne_codePlace]
    written := by simp
    spoilt := fun _ => .inl (by rw [kindAt?_write code, if_pos rfl]) }

/-- A component whose stylesheet no file can hold leaves an empty one beside its code. -/
theorem stores_noStylesheet (h : Stocked plan u) (storable : Storable isLone c) :
    Stores plan c false u (plan.withFiles c.name c.code "" u) := by
  obtain ⟨code, stylesheet, -⟩ := opens_files h storable c.code ""
  unfold withFiles
  exact {
    stocked := (h.write_shelf storable.code c.code).write_shelf storable.stylesheet ""
    kept := fun q hq hq' _ => by rw [kindAt?_write stylesheet, if_neg hq', kindAt?_write code, if_neg hq]
    app := by
      simp [kindAt?_write stylesheet, kindAt?_write code, appPlace_ne_codePlace, appPlace_ne_stylesheetPlace]
    written := by simp
    spoilt := fun _ => .inr (by rw [kindAt?_write stylesheet, if_pos rfl]) }

/-- A component that is written to the end is the one that the application shows. -/
theorem stores_shown (h : Stocked plan u) (storable : Storable isLone c) :
    Stores plan c true u ((plan.withFiles c.name c.code c.stylesheet u).set
      (file (Component.appEntry c.name "./components")) plan.appPlace) := by
  obtain ⟨code, stylesheet, app⟩ := opens_files h storable c.code c.stylesheet
  have both : Stocked plan (plan.withFiles c.name c.code c.stylesheet u) :=
    (h.write_shelf storable.code c.code).write_shelf storable.stylesheet c.stylesheet
  exact {
    stocked := both.write app (by simp [appPlace]) _
    kept := fun q hq hq' hq'' => by
      rw [kindAt?_write app, if_neg hq'', withFiles, kindAt?_write stylesheet, if_neg hq', kindAt?_write code,
        if_neg hq]
    app := by
      rw [kindAt?_write app, if_pos rfl]
      rfl
    written := by
      have code' : plan.codePlace c.name ≠ plan.appPlace := (appPlace_ne_codePlace plan _).symm
      have stylesheet' : plan.stylesheetPlace c.name ≠ plan.appPlace := (appPlace_ne_stylesheetPlace plan _).symm
      intro _
      rw [kindAt?_write app, if_neg code', kindAt?_write app, if_neg stylesheet', withFiles, kindAt?_write stylesheet,
        if_neg (codePlace_ne_stylesheetPlace plan _ _), kindAt?_write code, if_pos rfl, kindAt?_write stylesheet,
        if_pos rfl]
      exact ⟨rfl, rfl⟩
    spoilt := by simp }

/-- **Writing a component stores it**, to the end exactly if files can hold its texts. -/
theorem stores_writeComponent (h : Stocked plan u) (storable : Storable isLone c) :
    ∃ v, plan.writeComponent isLone c u =
        (if isWritable isLone c then .ok (plan.codePath c.name) else .error .unencodable, v) ∧
      Stores plan c (isWritable isLone c) u v := by
  obtain ⟨code, stylesheet, app⟩ := opens_files h storable c.code c.stylesheet
  unfold writeComponent isWritable
  rw [makeDirectories_of_there h.place_componentsPath h.shelf]
  dsimp only
  rw [storable.nullless, if_neg Bool.false_ne_true]
  unfold writeFiles
  dsimp only
  cases lone : c.code.toList.any isLone with
  | true =>
    rw [writeText_lone code lone]
    exact ⟨_, rfl, stores_noCode h storable⟩
  | false =>
    rw [writeText_plain code lone]
    cases lone' : c.stylesheet.toList.any isLone with
    | true =>
      simp only [bind, Except.bind, writeText_lone stylesheet lone']
      exact ⟨_, rfl, stores_noStylesheet h storable⟩
    | false =>
      have entry : (Component.appEntry c.name plan.importPath).toList.any isLone = false := by
        rw [importPath_eq h.components]
        exact storable.shown
      unfold withFiles at app
      simp only [bind, Except.bind, writeText_plain stylesheet lone', writeText_plain app entry]
      rw [importPath_eq h.components]
      exact ⟨_, rfl, stores_shown h storable⟩

/-- The files of other names stay as they are. -/
theorem Stores.files_other {done : Bool} (h : Stores plan c done u v) (other : c.name ≠ name) :
    v.kindAt? (plan.codePlace name) = u.kindAt? (plan.codePlace name) ∧
      v.kindAt? (plan.stylesheetPlace name) = u.kindAt? (plan.stylesheetPlace name) := by
  have code : plan.codePlace name ≠ plan.codePlace c.name := by
    intro same
    exact other (Component.codeFile_inj.mp (shelfPlace_inj.mp same)).symm
  have stylesheet : plan.stylesheetPlace name ≠ plan.stylesheetPlace c.name := by
    intro same
    exact other (Component.stylesheetFile_inj.mp (shelfPlace_inj.mp same)).symm
  exact ⟨h.kept _ code (codePlace_ne_stylesheetPlace plan _ _) (shelfPlace_ne_appPlace plan _),
    h.kept _ (codePlace_ne_stylesheetPlace plan _ _).symm stylesheet (shelfPlace_ne_appPlace plan _)⟩

/-- What is not written to the end leaves no component of the name in its files: none has an empty text. -/
theorem Stores.spoilt_files {old : Component} (h : Stores plan c false u v)
    (named : c.name = old.name) (texts : old.IsMade) :
    ¬(v.kindAt? (plan.codePlace old.name) = some (.file old.code) ∧
      v.kindAt? (plan.stylesheetPlace old.name) = some (.file old.stylesheet)) := by
  rintro ⟨code, stylesheet⟩
  rw [← named] at code stylesheet
  rcases h.spoilt rfl with empty | empty
  · rw [code] at empty
    exact texts.code (by simpa using empty)
  · rw [stylesheet] at empty
    exact texts.stylesheet (by simpa using empty)

/-! ## 4. Making a project -/

/-- **A place for a project to be made at**, of templates: there is nothing, so no templates are inside it, nor is it
inside the templates; an empty directory can be made there, and the templates have an application of the newer name
and no components. -/
structure Fresh (plan : ProjectPlan) (templates t : FileTree) : Prop where
  components : plan.components = "src/components"
  given : t.lookup? plan.templates = some templates
  proper : templates.isProper = true
  package : ∃ s, templates.kindAt? ["package.json"] = some (.file s)
  app : ∃ s, templates.kindAt? ["src", "App.jsx"] = some (.file s)
  older : templates.kindAt? ["src", "App.js"] = none
  bare : templates.kindAt? ["src", "components"] = none
  absent : t.kindAt? plan.home = none
  apart : ∀ source, t.place? plan.templates = some source → ¬source <+: plan.home
  creatable : (t.makeDirectories plan.project).2 = none
  empty : (plan.withProject t).at? plan.home = some (directory [])

/-- The directory that is made for names is empty where there was nothing, unless they go up. -/
theorem empty_makeFrom {here : Place} {names : List String} (start : t.kindAt? here = some .directory)
    (upless : ".." ∉ names)
    (free : t.at? (Path.reduce here names) = none ∨ t.at? (Path.reduce here names) = some (directory []))
    (made : (t.makeFrom here names).2 = none) :
    (t.makeFrom here names).1.at? (Path.reduce here names) = some (directory []) := by
  induction names generalizing t here with
  | nil =>
    refine free.resolve_left fun nothing => ?_
    have nowhere : t.kindAt? here = none := kindAt?_eq_none.mpr nothing
    rw [nowhere] at start
    cases start
  | cons name names ih =>
    have upless' : ".." ∉ names := fun up => upless (List.mem_cons_of_mem _ up)
    cases goes : step? here name with
    | none =>
      rw [makeFrom_nowhere goes] at made
      cases made
    | some next =>
      rw [makeFrom_of_step start goes] at made ⊢
      rw [reduce_of_step goes] at free ⊢
      cases there : t.kindAt? next with
      | none =>
        rw [there] at made
        have room := room_of_step start goes
        refine ih (by rw [kindAt?_set_directory room there, if_pos rfl]) upless' ?_ made
        -- only what has just been made is there
        obtain ⟨down, below⟩ := Path.prefix_reduce next upless'
        rw [← below, at?_set room]
        cases down with
        | nil => exact .inr rfl
        | cons name down => exact .inl rfl
      | some k =>
        rw [there] at made
        cases k with
        | file s => cases made
        | directory => exact ih there upless' free made

/-- Where a path does not go up and nothing is there, the directory of a project is empty. -/
theorem empty_withProject (root : t.kindAt? [] = some .directory) (upless : ".." ∉ Path.names plan.project)
    (absent : t.kindAt? plan.home = none) (creatable : (t.makeDirectories plan.project).2 = none) :
    (plan.withProject t).at? plan.home = some (directory []) :=
  empty_makeFrom root upless (.inl (kindAt?_eq_none.mp absent)) creatable

theorem not_isMade_of_absent (absent : t.kindAt? plan.home = none) : isMade plan.project t = false := by
  rw [Bool.eq_false_iff]
  intro made
  obtain ⟨p, s, place, -⟩ := hasFile_iff.mp made
  unfold place? packageFile at place
  rw [plain_package.names_join, follow_append] at place
  obtain ⟨q, toProject, place⟩ := Option.bind_eq_some_iff.mp place
  have here : q = plan.home := follow_eq_reduce toProject
  have isDirectory := directory_of_follow place
  rw [here, absent] at isDirectory
  cases isDirectory

/-- A directory in the place of an empty one. -/
theorem keeps_set_empty (empty : u.at? p = some (directory [])) (es : List (String × FileTree)) :
    Keeps u (u.set (directory es) p) := by
  refine keeps_set empty fun q hq => ?_
  cases q with
  | nil => rfl
  | cons name q => cases hq

/-- The directory of components is made in the one of sources. -/
theorem makeDirectories_components (components : plan.components = "src/components")
    (place : v.place? plan.project = some plan.home) (src : v.kindAt? (plan.home ++ ["src"]) = some .directory)
    (free : v.kindAt? (plan.home ++ ["src", "components"]) = none) :
    v.makeDirectories plan.componentsPath =
      (v.set (directory []) (plan.home ++ ["src", "components"]), none) := by
  have both : plan.home ++ ["src", "components"] = plan.home ++ ["src"] ++ ["components"] := by simp
  have atProject : v.kindAt? plan.home = some .directory := directory_above src (by simp)
  rw [both] at free ⊢
  unfold makeDirectories
  rw [names_componentsPath components, makeFrom_append place atProject,
    makeFrom_of_step atProject (step?_plain plain_src _), src]
  dsimp only
  rw [makeFrom_of_step src (step?_plain plain_components _), free]
  rfl

/-- The files with templates in the place of the project. -/
def withTemplates (plan : ProjectPlan) (templates t : FileTree) : FileTree :=
  (plan.withProject t).set templates plan.home

namespace Fresh

/-- Templates are a directory. -/
theorem entries (h : Fresh plan templates t) : ∃ es, templates = directory es := by
  obtain ⟨s, package⟩ := h.package
  cases templates with
  | file text => cases package
  | directory es => exact ⟨es, rfl⟩

theorem source (h : Fresh plan templates t) : ∃ source, t.place? plan.templates = some source ∧
    t.at? source = some templates ∧ t.kindAt? source = some .directory := by
  obtain ⟨source, toSource, atSource⟩ := Option.bind_eq_some_iff.mp h.given
  obtain ⟨es, rfl⟩ := h.entries
  exact ⟨source, toSource, atSource, kindAt?_of_at? atSource⟩

theorem place (h : Fresh plan templates t) : (plan.withProject t).place? plan.project = some plan.home ∧
    (plan.withProject t).kindAt? plan.home = some .directory := by
  obtain ⟨source, -, -, isSource⟩ := h.source
  obtain ⟨p, place, isDirectory⟩ := (makes_makeFrom (root_of_directory isSource) (Path.names plan.project)).made
    h.creatable
  obtain rfl : p = plan.home := follow_eq_reduce place
  exact ⟨place, isDirectory⟩

/-- **The templates come to stand in the place of the project**, as they are. -/
theorem copied (h : Fresh plan templates t) :
    plan.copyTemplates t = (plan.withTemplates templates t, none) := by
  obtain ⟨source, toSource, atSource, -⟩ := h.source
  obtain ⟨es, rfl⟩ := h.entries
  have apart : source ≠ plan.home := by
    rintro rfl
    exact h.apart _ toSource List.prefix_rfl
  have copies : (plan.withProject t).copyTo plan.project source es =
      ((plan.withProject t).set (directory es) plan.home, true) := by
    unfold copyTo
    rw [h.place.1]
    dsimp only
    rw [h.empty]
    dsimp only
    rw [copyInto_nil apart h.proper]
  rw [copyTemplates_of_made toSource atSource h.creatable, copies]
  rfl

theorem holds (h : Fresh plan templates t) (q : Place) :
    (plan.withTemplates templates t).kindAt? (plan.home ++ q) = templates.kindAt? q :=
  kindAt?_set (room_of_kindAt? h.place.2) _ q

theorem sources (h : Fresh plan templates t) :
    (plan.withTemplates templates t).kindAt? (plan.home ++ ["src"]) = some .directory := by
  obtain ⟨s, app⟩ := h.app
  rw [h.holds]
  exact directory_above (p := ["src"]) (q := ["App.jsx"]) app (by simp)

theorem shelfless (h : Fresh plan templates t) :
    (plan.withTemplates templates t).kindAt? (plan.home ++ ["src", "components"]) = none := by
  rw [h.holds, h.bare]

theorem toProject (h : Fresh plan templates t) :
    (plan.withTemplates templates t).place? plan.project = some plan.home := by
  obtain ⟨es, rfl⟩ := h.entries
  exact follow_mono (keeps_set_empty h.empty es) h.place.1

/-- Making such a project copies the templates and makes the directory of components, the only one missing. -/
theorem provided (h : Fresh plan templates t) : plan.provision t =
    (.ok true, (plan.withTemplates templates t).set (directory []) (plan.home ++ ["src", "components"])) := by
  obtain ⟨source, toSource, -, isSource⟩ := h.source
  have there : t.hasDirectory plan.templates = true := hasDirectory_iff.mpr ⟨source, toSource, isSource⟩
  unfold provision
  rw [not_isMade_of_absent h.absent, if_neg Bool.false_ne_true, there, h.copied]
  dsimp only
  rw [makeDirectories_components h.components h.toProject h.sources h.shelfless]
  rfl

end Fresh

/-- **A project that is made holds the templates and can be written to.** -/
theorem stocked_provision (fresh : Fresh plan templates t) : ∃ u, plan.provision t = (.ok true, u) ∧ Stocked plan u ∧
    ∀ q, q ≠ ["src", "components"] → u.kindAt? (plan.home ++ q) = templates.kindAt? q := by
  refine ⟨_, fresh.provided, ?_⟩
  obtain ⟨s, app⟩ := fresh.app
  have shelf : (plan.withTemplates templates t).Room (plan.home ++ ["src", "components"]) := by
    have both : plan.home ++ ["src", "components"] = plan.home ++ ["src"] ++ ["components"] := by simp
    exact both ▸ room_concat fresh.sources "components"
  have stays (q : Place) (hq : q ≠ ["src", "components"]) :
      ((plan.withTemplates templates t).set (directory []) (plan.home ++ ["src", "components"])).kindAt?
        (plan.home ++ q) = templates.kindAt? q := by
    rw [kindAt?_set_directory shelf fresh.shelfless, if_neg (by simpa using hq), fresh.holds]
  have within (name : String) : templates.kindAt? ["src", "components", name] = none :=
    nothing_below (p := ["src", "components"]) (q := [name]) (by rw [fresh.bare]; simp) (by simp)
  refine ⟨?_, stays⟩
  exact {
    components := fresh.components
    place := follow_mono (Widens.set_directory shelf fresh.shelfless).keeps fresh.toProject
    package := by
      rw [stays _ (by simp)]
      exact fresh.package
    shelf := by rw [kindAt?_set_directory shelf fresh.shelfless, if_pos rfl]
    flat := fun name => by
      unfold shelfPlace
      rw [stays _ (by simp), within]
      simp
    app := ⟨s, by
      unfold appPlace
      rw [stays _ (by simp), app]⟩
    older := fun s => by
      rw [stays _ (by simp), fresh.older]
      simp }

end ProjectPlan

end Artboard
