import Artboard.Proofs.File.Copy
import Artboard.Proofs.Project.Output

/-!
# What is left of a project that is not made

A project counts as made when its package file is there, and what was made before a failure remains.  The package file
is one of the templates like the others: copying goes on past an entry that fails, and the directory of components is
made after all of them.  So where a project fails to be made it still counts as made as soon as its own directory was
there and the templates have a package file, unless a directory is in the way of that file
(`ProjectPlan.isMade_of_failed`); and then it is not made later either (`half_made`).
-/

namespace Artboard

namespace ProjectPlan

open FileTree

variable {plan : ProjectPlan} {t u : FileTree} {project : String} {p : Place} {fault : ProvisionFault}

/-- The tree with the directory of a project. -/
def withProject (plan : ProjectPlan) (t : FileTree) : FileTree := (t.makeDirectories plan.project).1

/-! ## 1. The package file -/

theorem plain_package : PlainName "package.json" := by decide +kernel

/-- Where its directory is there, a project is made if the package file is in it. -/
theorem isMade_iff (place : u.place? project = some p) (isDirectory : u.kindAt? p = some .directory) :
    isMade project u = true ↔ ∃ s, u.kindAt? (p ++ ["package.json"]) = some (.file s) := by
  unfold isMade packageFile
  rw [hasFile_iff, place?_join plain_package place isDirectory]
  simp

/-- A later call finds the project exactly if it is made. -/
theorem provision_eq_found : (plan.provision t).1 = .ok false ↔ isMade plan.project t = true := by
  unfold provision
  split
  · simp_all
  · rename_i missing
    constructor
    · intro h
      split at h
      · cases h
      · split at h
        · cases h
        · split at h <;> cases h
    · exact fun made => absurd made missing

/-- What is a place in a tree is below its root. -/
theorem root_of_directory (h : t.kindAt? p = some .directory) : t.kindAt? [] = some .directory := by
  by_cases root : p = []
  · rwa [root] at h
  · exact directory_above (p := []) h root

/-! ## 2. Copying the templates -/

/-- **What the templates leave in the directory of the project**: all directories that were there, and a package file if
there was one, or nothing was and the templates have one. -/
theorem isMade_copyTo (source : Place) (templates : List (String × FileTree))
    (place : u.place? project = some p) (isDirectory : u.kindAt? p = some .directory) :
    Keeps u (u.copyTo project source templates).1 ∧
    (isMade project (u.copyTo project source templates).1 = true ↔
      isMade project u = true ∨ (u.kindAt? (p ++ ["package.json"]) = none ∧
        (Entries.get? templates "package.json").any isFile = true ∧ source ≠ p)) := by
  obtain ⟨old, there⟩ := at?_of_directory isDirectory
  have room : u.Room p := room_of_kindAt? isDirectory
  have copied : (u.copyTo project source templates).1 =
      u.set (directory (copyInto source p old templates).1) p := by
    unfold copyTo
    rw [place]
    dsimp only
    rw [there]
  have keeps : Keeps u (u.copyTo project source templates).1 := by
    rw [copied]
    exact keeps_set there (keeps_copyInto source p templates old)
  have below (es : List (String × FileTree)) : (∃ s, (directory es).kindAt? ["package.json"] = some (.file s)) ↔
      (Entries.get? es "package.json").any isFile = true := by
    rw [kindAt?_directory_cons]
    cases Entries.get? es "package.json" with
    | none => simp
    | some inner => cases inner <;> simp [isFile]
  have nothing : u.kindAt? (p ++ ["package.json"]) = none ↔ (Entries.get? old "package.json").isNone = true := by
    rw [kindAt?_append there, kindAt?_directory_cons]
    cases Entries.get? old "package.json" <;> simp
  refine ⟨keeps, ?_⟩
  rw [isMade_iff (follow_mono keeps place) (keeps p isDirectory), isMade_iff place isDirectory, copied,
    kindAt?_set room, below, file_copyInto_iff, nothing, kindAt?_append there, below]
  simp [and_assoc]

/-- A project is made in a wider tree if it was before. -/
theorem isMade_widens (widens : Widens t u) (place : t.place? project = some p)
    (isDirectory : t.kindAt? p = some .directory) : isMade project u = true ↔ isMade project t = true := by
  rw [isMade_iff (follow_mono widens.keeps place) (widens.keeps p isDirectory), isMade_iff place isDirectory]
  simp only [widens.file_iff]

/-- What a path leads to has an entry of a plain name if the path joined by this name leads to one. -/
theorem lookup?_package (place : u.place? project = some p) (isDirectory : u.kindAt? p = some .directory) :
    (u.lookup? (packageFile project)).isNone = true ↔ u.kindAt? (p ++ ["package.json"]) = none := by
  unfold lookup? packageFile
  rw [place?_join plain_package place isDirectory, kindAt?_eq_none]
  simp

/-- Where no directory can be made for a project, none is made. -/
theorem isMade_of_blocked (root : t.kindAt? [] = some .directory) (blocked : (t.makeDirectories project).2 ≠ none) :
    isMade project (t.makeDirectories project).1 = false := by
  have stopped := (makes_makeFrom root (Path.names project)).stopped blocked "package.json" []
  have nowhere : (t.makeDirectories project).1.place? (packageFile project) = none := by
    unfold place? packageFile
    rw [plain_package.names_join]
    exact stopped
  rw [Bool.eq_false_iff]
  intro made
  obtain ⟨p, s, place, -⟩ := hasFile_iff.mp made
  rw [nowhere] at place
  cases place

theorem copyTemplates_of_blocked {f : PathFault} (blocked : (t.makeDirectories plan.project).2 = some f) :
    plan.copyTemplates t = (plan.withProject t, some f) := by
  unfold copyTemplates withProject
  generalize t.makeDirectories plan.project = directories at blocked
  obtain ⟨made, fault⟩ := directories
  obtain rfl : fault = some f := blocked
  rfl

theorem copyTemplates_of_made {source : Place} {templates : List (String × FileTree)}
    (toSource : t.place? plan.templates = some source) (atSource : t.at? source = some (directory templates))
    (free : (t.makeDirectories plan.project).2 = none) :
    plan.copyTemplates t = (((plan.withProject t).copyTo plan.project source templates).1,
      if ((plan.withProject t).copyTo plan.project source templates).2 then none else some .blocked) := by
  unfold copyTemplates withProject
  rw [toSource, Option.getD_some]
  dsimp only
  rw [atSource]
  generalize t.makeDirectories plan.project = directories at free
  obtain ⟨made, fault⟩ := directories
  obtain rfl : fault = none := free
  rfl

/-- **A project after the templates were copied**, be it to the end or not. -/
theorem isMade_copyTemplates (there : t.hasDirectory plan.templates = true) :
    ((plan.copyTemplates t).2 = none → ∃ p, (plan.copyTemplates t).1.place? plan.project = some p ∧
      (plan.copyTemplates t).1.kindAt? p = some .directory) ∧
    (isMade plan.project (plan.copyTemplates t).1 = true ↔ (t.makeDirectories plan.project).2 = none ∧
      (isMade plan.project (plan.withProject t) = true ∨
        ((plan.withProject t).lookup? (packageFile plan.project)).isNone = true ∧
          t.hasFile (Path.join plan.templates "package.json") = true)) := by
  obtain ⟨source, toSource, isSource⟩ := hasDirectory_iff.mp there
  obtain ⟨templates, atSource⟩ := at?_of_directory isSource
  have root := root_of_directory isSource
  cases made : (t.makeDirectories plan.project).2 with
  | some f =>
    have unmade : isMade plan.project (plan.withProject t) = false := isMade_of_blocked root (by simp [made])
    rw [copyTemplates_of_blocked made]
    simp [unmade]
  | none =>
    have makes := makes_makeFrom root (Path.names plan.project)
    obtain ⟨p, place, isDirectory⟩ := makes.made made
    obtain ⟨keeps, after⟩ := isMade_copyTo source templates place isDirectory
    -- the templates are where they were, so if they are the project itself, its package file is theirs
    have package : t.kindAt? (source ++ ["package.json"]) = (Entries.get? templates "package.json").map kind := by
      rw [kindAt?_append atSource, kindAt?_directory_cons]
      cases Entries.get? templates "package.json" <;> rfl
    have given : t.hasFile (Path.join plan.templates "package.json") = true ↔
        (Entries.get? templates "package.json").any isFile = true := by
      rw [hasFile_iff, place?_join plain_package toSource isSource]
      cases found : Entries.get? templates "package.json" with
      | none => simp [package, found]
      | some inner => cases inner <;> simp [package, found, isFile]
    have elsewhere : (plan.withProject t).kindAt? (p ++ ["package.json"]) = none →
        (Entries.get? templates "package.json").any isFile = true → source ≠ p := by
      rintro nothing found rfl
      cases inner : Entries.get? templates "package.json" with
      | none => simp [inner] at found
      | some inner' =>
        rw [inner] at package
        have kept := makes.widens.kept _ _ package
        exact absurd (kept.symm.trans nothing) (by simp)
    rw [copyTemplates_of_made toSource atSource made]
    dsimp only
    refine ⟨fun _ => ⟨p, follow_mono keeps place, keeps p isDirectory⟩, ?_⟩
    rw [given, lookup?_package (u := plan.withProject t) place isDirectory]
    refine after.trans ?_
    rw [and_iff_right rfl]
    refine or_congr_right ⟨fun copied => ⟨copied.1, copied.2.1⟩, fun given => ?_⟩
    exact ⟨given.1, given.2, elsewhere given.1 given.2⟩

/-! ## 3. Failures -/

/-- **A project that fails to be made counts as made exactly if there were templates, its directory could be made, and
it either held a package file then, or nothing of that name while the templates have one.**  A later call finds it in
just these cases, and makes nothing then. -/
theorem isMade_of_failed (failed : (plan.provision t).1 = .error fault) :
    (isMade plan.project (plan.provision t).2 = true ↔
      t.hasDirectory plan.templates = true ∧ (t.makeDirectories plan.project).2 = none ∧
        (isMade plan.project (plan.withProject t) = true ∨
          ((plan.withProject t).lookup? (packageFile plan.project)).isNone = true ∧
            t.hasFile (Path.join plan.templates "package.json") = true)) ∧
    ((plan.provision (plan.provision t).2).1 = .ok false ↔ isMade plan.project (plan.provision t).2 = true) := by
  refine ⟨?_, provision_eq_found⟩
  have unmade : isMade plan.project t = false := by
    rw [Bool.eq_false_iff]
    intro made
    rw [provision_eq_found.mpr made] at failed
    cases failed
  unfold provision at failed ⊢
  rw [unmade, if_neg Bool.false_ne_true] at failed ⊢
  cases there : t.hasDirectory plan.templates with
  | false => simp [unmade]
  | true =>
    obtain ⟨place, after⟩ := isMade_copyTemplates there
    rw [← after]
    rcases copied : plan.copyTemplates t with ⟨v, _ | f⟩
    · rw [copied] at place
      obtain ⟨p, place, isDirectory⟩ := place rfl
      have widens := widens_makeDirectories v plan.componentsPath
      have same := isMade_widens widens place isDirectory
      rcases made : v.makeDirectories plan.componentsPath with ⟨w, _ | g⟩
      · rw [copied] at failed
        simp [there, made] at failed
      · rw [made] at same
        simpa [made] using same
    · simp

/-- Templates of a package file and an application. -/
def someTemplates : FileTree :=
  .directory [("package.json", .file "\x7b\x7d"), ("src", .directory [("App.jsx", .file "template")])]

/-- Templates, and what is where the project should be. -/
def beside (project : FileTree) : FileTree := .directory [("tpl", someTemplates), ("app", project)]

theorem isMade_of_failed_file :
    (somePlan.provision (beside (.file "notes"))).1 = .error (.notMade "app") ∧
    isMade "app" (somePlan.provision (beside (.file "notes"))).2 = false := by
  have failed : (somePlan.provision (beside (.file "notes"))).1 = .error (.notMade "app") := by decide +kernel
  refine ⟨failed, ?_⟩
  have blocked : ((beside (.file "notes")).makeDirectories "app").2 = some .blocked := by decide +kernel
  rw [Bool.eq_false_iff]
  intro made
  obtain ⟨-, free, -⟩ := (isMade_of_failed failed).1.mp made
  exact absurd (blocked.symm.trans free) (by simp)

/-- A project without a package file, where a file is in the way of the sources. -/
def sourceless : FileTree := beside (.directory [("src", .file "blocker")])

/-- A project that failed to be made counts as made, and is not made later. -/
theorem half_made :
    isMade "app" sourceless = false ∧
    (somePlan.provision sourceless).1 = .error (.notMade "app") ∧
    isMade "app" (somePlan.provision sourceless).2 = true ∧
    (somePlan.provision (somePlan.provision sourceless).2).1 = .ok false ∧
    (somePlan.provision (somePlan.provision sourceless).2).2.kindAt? ["app", "src"] = some (.file "blocker") := by
  decide +kernel

end ProjectPlan

end Artboard
