import Artboard.Proofs.File.Path
import Artboard.Proofs.File.Tree

/-!
# What file operations do to a tree

A path is followed by steps from directory to directory (`FileTree.step?`, `FileTree.follow_cons_eq_some`): so one that
leads to a place leads to the one that its names spell (`FileTree.follow_eq_reduce`), and only the directories of a tree
matter for that (`FileTree.follow_mono`).

Each operation is described by what stands where afterwards: a file can be written where `FileTree.openable?` gives a
place for it, and just this place changes (`FileTree.kindAt?_write`); a file that is taken back is gone
(`FileTree.kindAt?_discard`); and directories that are made come to what is there already, no file with them
(`FileTree.Widens`, `FileTree.makes_makeFrom`).
-/

namespace Artboard

namespace FileTree

variable {t u : FileTree} {here next p q : Place} {names more : List String} {name path s : String} {k : Kind}

/-! ## 1. Following -/

/-- The place that one name leads to from a directory. -/
def step? (here : Place) (name : String) : Option Place :=
  if name = "." then some here
  else if name = ".." then some here.dropLast
  else if isName name then some (here ++ [name])
  else none

/-- A path goes on from a directory only. -/
theorem follow_cons : t.follow here (name :: names) =
    if t.kindAt? here = some .directory then (step? here name).bind (t.follow · names) else none := by
  rw [follow.eq_def]
  unfold kindAt? step?
  cases t.at? here with
  | none => simp
  | some below =>
    cases below with
    | file s => simp
    | directory es =>
      simp only [Option.map_some, kind_directory, if_true]
      split
      · rfl
      · split
        · rfl
        · split <;> rfl

theorem follow_cons_eq_some : t.follow here (name :: names) = some p ↔
    t.kindAt? here = some .directory ∧ ∃ next, step? here name = some next ∧ t.follow next names = some p := by
  rw [follow_cons]
  split <;> simp [*, Option.bind_eq_some_iff]

theorem follow_append : t.follow here (names ++ more) = (t.follow here names).bind (t.follow · more) := by
  induction names generalizing here with
  | nil => rfl
  | cons name names ih =>
    rw [List.cons_append, follow_cons, follow_cons]
    split
    · cases step? here name with
      | none => rfl
      | some next => exact ih
    · rfl

theorem reduce_of_step (goes : step? here name = some next) (names : List String) :
    Path.reduce here (name :: names) = Path.reduce next names := by
  unfold step? at goes
  rw [Path.reduce]
  split at goes
  · rw [if_pos ‹_›, Option.some.inj goes]
  · rw [if_neg ‹_›]
    split at goes
    · rw [if_pos ‹_›, Option.some.inj goes]
    · rw [if_neg ‹_›]
      split at goes
      · rw [Option.some.inj goes]
      · cases goes

/-- **Where a path leads to is spelled by its names.** -/
theorem follow_eq_reduce (h : t.follow here names = some p) : p = Path.reduce here names := by
  induction names generalizing here with
  | nil => exact (Option.some.inj h).symm
  | cons name names ih =>
    obtain ⟨-, next, goes, h⟩ := follow_cons_eq_some.mp h
    rw [reduce_of_step goes]
    exact ih h

/-- Every directory of one tree is one of the other. -/
def Keeps (t u : FileTree) : Prop := ∀ p, t.kindAt? p = some .directory → u.kindAt? p = some .directory

theorem Keeps.refl (t : FileTree) : Keeps t t := fun _ h => h

theorem Keeps.trans {v : FileTree} (first : Keeps t u) (second : Keeps u v) : Keeps t v :=
  fun p h => second p (first p h)

/-- A tree in the place of one that has no other directories. -/
theorem keeps_set {old new : FileTree} (there : u.at? p = some old) (keeps : Keeps old new) :
    Keeps u (u.set new p) := by
  have room : u.Room p := room_of_kindAt? (kindAt?_of_at? there)
  intro q hq
  by_cases inside : p <+: q
  · obtain ⟨q, rfl⟩ := inside
    rw [kindAt?_append there] at hq
    rw [kindAt?_set room]
    exact keeps q hq
  · rw [kindAt?_set_aside room inside, hq]

/-- With more directories a path leads to the same place. -/
theorem follow_mono (keeps : Keeps t u) (h : t.follow here names = some p) : u.follow here names = some p := by
  induction names generalizing here with
  | nil => exact h
  | cons name names ih =>
    obtain ⟨isDirectory, next, goes, h⟩ := follow_cons_eq_some.mp h
    exact follow_cons_eq_some.mpr ⟨keeps here isDirectory, next, goes, ih h⟩

/-- Two trees have the same directories. -/
def Shares (t u : FileTree) : Prop := ∀ p, t.kindAt? p = some .directory ↔ u.kindAt? p = some .directory

theorem Shares.symm (h : Shares t u) : Shares u t := fun p => (h p).symm

theorem Shares.trans {v : FileTree} (first : Shares t u) (second : Shares u v) : Shares t v :=
  fun p => (first p).trans (second p)

theorem Shares.keeps (h : Shares t u) : Keeps t u := fun p => (h p).mp

/-- With the same directories all paths lead to the same places. -/
theorem follow_congr (h : Shares t u) : t.follow here names = u.follow here names := by
  apply Option.ext
  intro p
  exact ⟨follow_mono h.keeps, follow_mono h.symm.keeps⟩

/-- A path that leads further has come through a directory. -/
theorem directory_of_follow (h : t.follow here (name :: names) = some p) : t.kindAt? here = some .directory :=
  (follow_cons_eq_some.mp h).1

/-- Going back from a directory leads to a directory, be it the root. -/
theorem directory_back (isDirectory : t.kindAt? here = some .directory) :
    t.kindAt? here.dropLast = some .directory := by
  by_cases root : here = []
  · simpa [root] using isDirectory
  · exact directory_dropLast isDirectory root

theorem room_of_step (isDirectory : t.kindAt? here = some .directory) (goes : step? here name = some next) :
    t.Room next := by
  unfold step? at goes
  split at goes
  · exact Option.some.inj goes ▸ room_of_kindAt? isDirectory
  · split at goes
    · exact Option.some.inj goes ▸ room_of_kindAt? (directory_back isDirectory)
    · split at goes
      · exact Option.some.inj goes ▸ room_concat isDirectory name
      · cases goes

/-- There is room where a path leads to. -/
theorem room_of_follow (room : t.Room here) (h : t.follow here names = some p) : t.Room p := by
  induction names generalizing here with
  | nil => exact Option.some.inj h ▸ room
  | cons name names ih =>
    obtain ⟨isDirectory, next, goes, h⟩ := follow_cons_eq_some.mp h
    exact ih (room_of_step isDirectory goes) h

theorem step?_plain (plain : PlainName name) (here : Place) : step? here name = some (here ++ [name]) := by
  unfold step?
  rw [if_neg plain.notHere, if_neg plain.notUp, if_pos plain.valid]

theorem follow_plain (plain : PlainName name) (h : t.kindAt? p = some .directory) :
    t.follow p [name] = some (p ++ [name]) :=
  follow_cons_eq_some.mpr ⟨h, _, step?_plain plain p, rfl⟩

/-- What is below a directory by a plain name. -/
theorem place?_join (plain : PlainName name) (h : t.place? path = some p)
    (isDirectory : t.kindAt? p = some .directory) : t.place? (Path.join path name) = some (p ++ [name]) := by
  unfold place? at h ⊢
  rw [plain.names_join, follow_append, h]
  exact follow_plain plain isDirectory

theorem place?_congr (h : Shares t u) (path : String) : t.place? path = u.place? path := follow_congr h

theorem hasFile_iff : t.hasFile path = true ↔ ∃ p s, t.place? path = some p ∧ t.kindAt? p = some (.file s) := by
  unfold hasFile lookup? kindAt?
  cases t.place? path with
  | none => simp
  | some p => cases hp : t.at? p with
    | none => simp [hp]
    | some below => cases below <;> simp [hp]

theorem hasDirectory_iff : t.hasDirectory path = true ↔
    ∃ p, t.place? path = some p ∧ t.kindAt? p = some .directory := by
  unfold hasDirectory lookup? kindAt?
  cases t.place? path with
  | none => simp
  | some p => cases hp : t.at? p with
    | none => simp [hp]
    | some below => cases below <;> simp [hp]

/-! ## 2. Writing -/

/-- The place of a file that can be written at a path. -/
def openable? (t : FileTree) (path : String) : Option Place :=
  (t.place? path).filter fun p => t.kindAt? p != some .directory

theorem openable?_eq_some : t.openable? path = some p ↔ t.place? path = some p ∧ t.kindAt? p ≠ some .directory := by
  simp [openable?, Option.filter_eq_some_iff]

theorem openable?_congr (h : Shares t u) (path : String) : t.openable? path = u.openable? path := by
  apply Option.ext
  intro p
  rw [openable?_eq_some, openable?_eq_some, place?_congr h]
  exact and_congr_right fun _ => not_congr (h p)

theorem write?_eq (t : FileTree) (path text : String) :
    t.write? path text = (t.openable? path).map (t.set (file text)) := by
  unfold write? openable? kindAt?
  cases t.place? path with
  | none => rfl
  | some p =>
    rw [Option.filter_some]
    cases hp : t.at? p with
    | none => simp [hp]
    | some below => cases below <;> simp [hp]

theorem room_of_openable? (h : t.openable? path = some p) : t.Room p :=
  room_of_follow (.inl rfl) (openable?_eq_some.mp h).1

/-- **Writing changes just the place of the file.** -/
theorem kindAt?_write (h : t.openable? path = some p) (text : String) (q : Place) :
    (t.set (file text) p).kindAt? q = if q = p then some (.file text) else t.kindAt? q :=
  kindAt?_set_file (room_of_openable? h) (openable?_eq_some.mp h).2 text q

theorem shares_write (h : t.openable? path = some p) (text : String) : Shares t (t.set (file text) p) := by
  intro q
  rw [kindAt?_write h]
  by_cases same : q = p
  · subst same
    simp [(openable?_eq_some.mp h).2]
  · rw [if_neg same]

/-- Where a path has a name, it leads to the root only if that is a directory. -/
theorem ne_nil_of_openable? (h : t.openable? path = some p) (named : Path.names path ≠ []) : p ≠ [] := by
  obtain ⟨place, free⟩ := openable?_eq_some.mp h
  rintro rfl
  obtain ⟨name, names, same⟩ := List.exists_cons_of_ne_nil named
  unfold place? at place
  rw [same] at place
  exact free (directory_of_follow place)

/-- **A file taken back is gone**, and nothing else changes. -/
theorem kindAt?_discard (h : t.openable? path = some p) (named : Path.names path ≠ []) (q : Place) :
    (t.discard path).kindAt? q = if q = p then none else t.kindAt? q := by
  obtain ⟨place, free⟩ := openable?_eq_some.mp h
  unfold discard
  rw [place]
  dsimp only
  cases isFile : t.hasFile path with
  | true =>
    obtain ⟨p', s, place', hp⟩ := hasFile_iff.mp isFile
    rw [place] at place'
    cases place'
    rw [if_pos rfl, kindAt?_remove hp (ne_nil_of_openable? h named)]
  | false =>
    -- neither a file nor a directory
    have nothing : t.kindAt? p = none := by
      by_contra something
      obtain ⟨k, hk⟩ := Option.ne_none_iff_exists'.mp something
      cases k with
      | file s => exact absurd (hasFile_iff.mpr ⟨p, s, place, hk⟩) (by simp [isFile])
      | directory => exact free hk
    rw [if_neg Bool.false_ne_true]
    split
    · rename_i same
      rw [same, nothing]
    · rfl

theorem shares_discard (h : t.openable? path = some p) (named : Path.names path ≠ []) :
    Shares t (t.discard path) := by
  intro q
  rw [kindAt?_discard h named]
  by_cases same : q = p
  · subst same
    simp [(openable?_eq_some.mp h).2]
  · rw [if_neg same]

/-! ## 3. Making directories -/

/-- **A tree with more directories**: what is in one is in the other, which has no other file. -/
structure Widens (t u : FileTree) : Prop where
  kept : ∀ p k, t.kindAt? p = some k → u.kindAt? p = some k
  fileless : ∀ p s, u.kindAt? p = some (.file s) → t.kindAt? p = some (.file s)

namespace Widens

variable {v : FileTree}

theorem refl (t : FileTree) : Widens t t := ⟨fun _ _ h => h, fun _ _ h => h⟩

theorem trans (first : Widens t u) (second : Widens u v) : Widens t v :=
  ⟨fun p k h => second.kept p k (first.kept p k h), fun p s h => first.fileless p s (second.fileless p s h)⟩

theorem keeps (h : Widens t u) : Keeps t u := fun p => h.kept p .directory

theorem file_iff (h : Widens t u) : u.kindAt? p = some (.file s) ↔ t.kindAt? p = some (.file s) :=
  ⟨h.fileless p s, h.kept p (.file s)⟩

/-- A directory where there was nothing. -/
theorem set_directory (room : t.Room p) (free : t.kindAt? p = none) : Widens t (t.set (directory []) p) where
  kept q k h := by
    have other : q ≠ p := fun same => by simp [same, free] at h
    rw [kindAt?_set_directory room free, if_neg other, h]
  fileless q s h := by
    rw [kindAt?_set_directory room free] at h
    split at h
    · cases h
    · exact h

end Widens

/-- Nothing is made for a name that no file can have. -/
theorem makeFrom_nowhere (goes : step? here name = none) :
    t.makeFrom here (name :: names) = (t, some (if hasNull name then .unnameable else .blocked)) := by
  unfold step? at goes
  rw [makeFrom.eq_def]
  dsimp only
  split at goes
  · cases goes
  · rw [if_neg ‹_›]
    split at goes
    · cases goes
    · rw [if_neg ‹_›]
      split at goes
      · cases goes
      · rw [if_neg ‹_›]

/-- Directories are made from the place that a name leads to, and one there if there is nothing. -/
theorem makeFrom_of_step (start : t.kindAt? here = some .directory) (goes : step? here name = some next) :
    t.makeFrom here (name :: names) =
      match t.kindAt? next with
      | some (.file _) => (t, some (faultBehindFile names))
      | some .directory => t.makeFrom next names
      | none => (t.set (directory []) next).makeFrom next names := by
  unfold step? at goes
  rw [makeFrom.eq_def]
  dsimp only
  split at goes
  · rw [if_pos ‹_›, ← Option.some.inj goes, start]
  · rw [if_neg ‹_›]
    split at goes
    · rw [if_pos ‹_›, ← Option.some.inj goes, directory_back start]
    · rw [if_neg ‹_›]
      split at goes
      · rw [if_pos ‹_›, Option.some.inj goes]
        unfold kindAt?
        cases t.at? next with
        | none => rfl
        | some below => cases below <;> rfl
      · cases goes

/-- **What making directories comes to**, from a directory on: nothing but directories is new; if it goes to the end,
the names lead to a directory, and if it does not, no path that begins so leads further. -/
structure Makes (t : FileTree) (here : Place) (names : List String) (r : FileTree × Option PathFault) : Prop where
  widens : Widens t r.1
  made : r.2 = none → ∃ p, r.1.follow here names = some p ∧ r.1.kindAt? p = some .directory
  stopped : r.2 ≠ none → ∀ name more, r.1.follow here (names ++ name :: more) = none

theorem makes_makeFrom (start : t.kindAt? here = some .directory) (names : List String) :
    Makes t here names (t.makeFrom here names) := by
  induction names generalizing t here with
  | nil => exact ⟨.refl t, fun _ => ⟨here, rfl, start⟩, fun h => absurd rfl h⟩
  | cons name names ih =>
    cases goes : step? here name with
    | none =>
      rw [makeFrom_nowhere goes]
      refine ⟨.refl t, fun ok => (nomatch ok), fun _ more down => ?_⟩
      rw [List.cons_append, follow_cons, if_pos start, goes]
      rfl
    | some next =>
      -- the names that are left are followed from there
      have further {v : FileTree} (widens : Widens t v) (there : v.kindAt? next = some .directory) :
          Makes t here (name :: names) (v.makeFrom next names) := by
        have rest := ih there
        have on := (widens.trans rest.widens).keeps _ start
        refine ⟨widens.trans rest.widens, fun ok => ?_, fun stop more down => ?_⟩
        · obtain ⟨p, hp, isDirectory⟩ := rest.made ok
          exact ⟨p, follow_cons_eq_some.mpr ⟨on, next, goes, hp⟩, isDirectory⟩
        · rw [List.cons_append, follow_cons, if_pos on, goes]
          exact rest.stopped stop more down
      rw [makeFrom_of_step start goes]
      cases there : t.kindAt? next with
      | none =>
        have room := room_of_step start goes
        refine further (.set_directory room there) ?_
        rw [kindAt?_set_directory room there, if_pos rfl]
      | some k =>
        cases k with
        | directory => exact further (.refl t) there
        | file s =>
          refine ⟨.refl t, fun ok => (nomatch ok), fun _ more down => ?_⟩
          rw [List.cons_append, follow_cons, if_pos start, goes]
          cases names <;> simp [follow_cons, there]

/-- A tree that is a file gets no directory. -/
theorem makeFrom_file (text : String) (here : Place) (names : List String) :
    ((file text).makeFrom here names).1 = file text := by
  induction names generalizing here with
  | nil => rfl
  | cons name names ih =>
    have bare : ∀ p : Place, p ≠ [] → (file text).at? p = none ∧ (file text).set (directory []) p = file text := by
      intro p hp
      obtain ⟨n, p, rfl⟩ := List.exists_cons_of_ne_nil hp
      exact ⟨rfl, rfl⟩
    obtain ⟨none, unset⟩ := bare (here ++ [name]) (by simp)
    rw [makeFrom.eq_def]
    dsimp only
    rw [none]
    dsimp only
    rw [unset]
    split
    · exact ih here
    · split
      · exact ih here.dropLast
      · split
        · exact ih (here ++ [name])
        · rfl

theorem widens_makeDirectories (t : FileTree) (path : String) : Widens t (t.makeDirectories path).1 := by
  unfold makeDirectories
  cases t with
  | file text =>
    rw [makeFrom_file]
    exact .refl _
  | directory es => exact (makes_makeFrom (by rfl) _).widens

/-- What is there already is not made. -/
theorem makeFrom_append (h : t.follow here names = some p) (isDirectory : t.kindAt? p = some .directory) :
    t.makeFrom here (names ++ more) = t.makeFrom p more := by
  induction names generalizing here with
  | nil =>
    obtain rfl := Option.some.inj h
    rfl
  | cons name names ih =>
    obtain ⟨start, next, goes, h⟩ := follow_cons_eq_some.mp h
    have there : t.kindAt? next = some .directory := by
      cases names with
      | nil => exact Option.some.inj h ▸ isDirectory
      | cons n names => exact directory_of_follow h
    rw [List.cons_append, makeFrom_of_step start goes, there]
    exact ih h

theorem makeDirectories_of_there (h : t.place? path = some p) (isDirectory : t.kindAt? p = some .directory) :
    t.makeDirectories path = (t, none) := by
  have made : t.makeFrom [] (Path.names path ++ []) = (t, none) := makeFrom_append h isDirectory
  rwa [List.append_nil] at made

end FileTree

end Artboard
