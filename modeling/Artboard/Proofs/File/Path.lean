import Artboard.File.Access

/-!
# Names of paths

The names of a path that is joined of two are those of both (`Path.names_join`), and what is joined by a name of its
own adds just this name (`PlainName`).  Names of which `.` and `..` are taken out are taken one after the other
(`Path.reduce_append`).

The way between two directories goes up to the last one that both are below, and then down by names (`Path.way`): it
leads from the one to the other (`Path.reduce_way`), and goes down only if the other is below (`Path.relative_below`).
-/

namespace Artboard

namespace Path

/-! ## 1. Pieces between slashes -/

theorem splitFrom_slash (current before after : List Char) :
    splitFrom current (before ++ '/' :: after) = splitFrom current before ++ splitFrom [] after := by
  induction before generalizing current with
  | nil => rfl
  | cons c before ih =>
    by_cases slash : c = '/'
    · subst slash
      simp [splitFrom, ih]
    · simp [splitFrom, slash, ih]

theorem splitFrom_plain {chars : List Char} (plain : '/' ∉ chars) (current : List Char) :
    splitFrom current chars = [String.ofList (current.reverse ++ chars)] := by
  induction chars generalizing current with
  | nil => simp [splitFrom]
  | cons c rest ih =>
    obtain ⟨other, plain⟩ : '/' ≠ c ∧ '/' ∉ rest := by simpa using plain
    simp [splitFrom, Ne.symm other, ih plain]

/-- A piece with a character is not empty. -/
theorem exists_piece {chars : List Char} (current : List Char) (h : current ≠ [] ∨ ∃ c ∈ chars, c ≠ '/') :
    ∃ piece ∈ splitFrom current chars, piece ≠ "" := by
  induction chars generalizing current with
  | nil =>
    obtain given : current ≠ [] := by simpa using h
    exact ⟨_, List.mem_singleton_self _, by simpa using given⟩
  | cons c rest ih =>
    unfold splitFrom
    by_cases slash : c = '/'
    · subst slash
      rw [if_pos (by decide)]
      by_cases given : current = []
      · obtain ⟨c, hc, other⟩ := h.resolve_left (by simp [given])
        have later : c ∈ rest := (List.mem_cons.mp hc).resolve_left other
        obtain ⟨piece, hp, some⟩ := ih [] (.inr ⟨c, later, other⟩)
        exact ⟨piece, List.mem_cons_of_mem _ hp, some⟩
      · exact ⟨_, List.mem_cons_self, by simpa using given⟩
    · rw [if_neg (by simpa using slash)]
      exact ih _ (.inl (by simp))

@[simp] theorem names_empty : names "" = [] := rfl

/-- A path with a character other than a slash has a name. -/
theorem names_ne_nil {path : String} {c : Char} (h : c ∈ path.toList) (other : c ≠ '/') : names path ≠ [] := by
  obtain ⟨piece, hp, given⟩ := exists_piece [] (.inr ⟨c, h, other⟩)
  exact List.ne_nil_of_mem (List.mem_filter.mpr ⟨hp, by simpa using given⟩)

/-! ## 2. Joining -/

theorem names_slash (before after : String) : names (before ++ "/" ++ after) = names before ++ names after := by
  have chars : (before ++ "/" ++ after).toList = before.toList ++ '/' :: after.toList := by simp
  unfold names
  rw [chars, splitFrom_slash, List.filter_append]

/-- A joined path has the names of both. -/
theorem names_join (dir : String) {name : String} (relative : isAbsolute name = false) :
    names (join dir name) = names dir ++ names name := by
  unfold join
  rw [relative, if_neg Bool.false_ne_true]
  split
  · rename_i bare
    by_cases none : dir = ""
    · simp [none]
    · have slash : endsInSlash dir = true := by simpa [none] using bare
      have last : dir.toList.getLast? = some '/' := by simpa [endsInSlash] using slash
      obtain ⟨front, hf⟩ : ∃ front, dir.toList = front ++ ['/'] := List.getLast?_eq_some_iff.mp last
      have split : dir = String.ofList front ++ "/" ++ "" := by
        apply String.toList_inj.mp
        simp [hf]
      have joined : dir ++ name = String.ofList front ++ "/" ++ name := by
        apply String.toList_inj.mp
        simp [hf]
      rw [joined, names_slash, split, names_slash]
      simp
  · exact names_slash dir name

/-- A joined path has the names of what is joined last. -/
theorem names_join_ne_nil (dir : String) {name : String} (given : names name ≠ []) : names (join dir name) ≠ [] := by
  by_cases absolute : isAbsolute name = true
  · unfold join
    rwa [if_pos absolute]
  · rw [names_join dir (Bool.not_eq_true _ ▸ absolute)]
    exact List.append_ne_nil_of_right_ne_nil _ given

/-! ## 3. Reducing -/

theorem reduce_append (before down more : List String) :
    reduce before (down ++ more) = reduce (reduce before down) more := by
  induction down generalizing before with
  | nil => rfl
  | cons name down ih =>
    rw [List.cons_append, reduce, reduce]
    split
    · exact ih _
    · split <;> exact ih _

/-- Names that do not go up lead to what is below. -/
theorem prefix_reduce (before : List String) {down : List String} (upless : ".." ∉ down) :
    before <+: reduce before down := by
  induction down generalizing before with
  | nil => exact List.prefix_rfl
  | cons name down ih =>
    obtain ⟨notUp, upless⟩ : ".." ≠ name ∧ ".." ∉ down := by simpa using upless
    rw [reduce]
    split
    · exact ih before upless
    · rw [if_neg notUp.symm]
      exact (List.prefix_append before [name]).trans (ih (before ++ [name]) upless)

/-- What names lead to is spelled by what is kept of the place before, and by names of theirs. -/
theorem exists_kept (before names : List String) :
    ∃ kept added, kept <+: before ∧ reduce before names = kept ++ added ∧ ∀ name ∈ added, name ∈ names := by
  induction names generalizing before with
  | nil => exact ⟨before, [], List.prefix_rfl, (List.append_nil before).symm, nofun⟩
  | cons name rest ih =>
    have later {added : List String} (own : ∀ n ∈ added, n ∈ rest) : ∀ n ∈ added, n ∈ name :: rest :=
      fun n hn => List.mem_cons_of_mem _ (own n hn)
    rw [reduce]
    split
    · obtain ⟨kept, added, first, whole, own⟩ := ih before
      exact ⟨kept, added, first, whole, later own⟩
    · split
      · obtain ⟨kept, added, first, whole, own⟩ := ih before.dropLast
        exact ⟨kept, added, first.trans (List.dropLast_prefix before), whole, later own⟩
      · obtain ⟨kept, added, first, whole, own⟩ := ih (before ++ [name])
        rcases List.prefix_concat_iff.mp first with same | first
        · refine ⟨before, name :: added, List.prefix_rfl, by rw [whole, same]; simp, fun n hn => ?_⟩
          exact (List.mem_cons.mp hn).elim (fun here => here ▸ List.mem_cons_self) (later own n)
        · exact ⟨kept, added, first, whole, later own⟩

/-! ## 4. Pieces and steps -/

/-- A text that stands between slashes. -/
structure IsPiece (name : String) : Prop where
  slashless : '/' ∉ name.toList
  given : name ≠ ""

/-- **A name that goes down.** -/
structure IsStep (name : String) : Prop extends IsPiece name where
  notHere : name ≠ "."
  notUp : name ≠ ".."

theorem slashless_of_mem_splitFrom {chars current : List Char} {piece : String} (slashless : '/' ∉ current)
    (h : piece ∈ splitFrom current chars) : '/' ∉ piece.toList := by
  induction chars generalizing current with
  | nil =>
    rw [List.mem_singleton.mp h]
    simpa using slashless
  | cons c rest ih =>
    unfold splitFrom at h
    split at h
    · rcases List.mem_cons.mp h with rfl | h
      · simpa using slashless
      · exact ih List.not_mem_nil h
    · rename_i other
      have notSlash : '/' ≠ c := fun same => other (beq_iff_eq.mpr same.symm)
      exact ih (by simp [notSlash, slashless]) h

/-- The characters of pieces are those of the text. -/
theorem mem_of_mem_splitFrom {chars current : List Char} {piece : String} {c : Char}
    (h : piece ∈ splitFrom current chars) (hc : c ∈ piece.toList) : c ∈ current ∨ c ∈ chars := by
  induction chars generalizing current with
  | nil =>
    rw [List.mem_singleton.mp h] at hc
    exact .inl (by simpa using hc)
  | cons d rest ih =>
    unfold splitFrom at h
    split at h
    · rcases List.mem_cons.mp h with rfl | h
      · exact .inl (by simpa using hc)
      · exact .inr (List.mem_cons_of_mem _ ((ih h).resolve_left List.not_mem_nil))
    · rcases ih h with here | there
      · exact (List.mem_cons.mp here).elim (fun same => .inr (same ▸ List.mem_cons_self)) .inl
      · exact .inr (List.mem_cons_of_mem _ there)

theorem mem_of_mem_names {path name : String} {c : Char} (h : name ∈ names path) (hc : c ∈ name.toList) :
    c ∈ path.toList :=
  (mem_of_mem_splitFrom (List.mem_filter.mp h).1 hc).resolve_left List.not_mem_nil

theorem isPiece_of_mem_names {path name : String} (h : name ∈ names path) : IsPiece name := by
  obtain ⟨piece, given⟩ := List.mem_filter.mp h
  exact ⟨slashless_of_mem_splitFrom List.not_mem_nil piece, by simpa using given⟩

theorem relative_of_slashless {name : String} (slashless : '/' ∉ name.toList) : isAbsolute name = false := by
  unfold isAbsolute
  cases chars : name.toList with
  | nil => rfl
  | cons c rest =>
    have other : c ≠ '/' := fun slash => slashless (by simp [chars, slash])
    simp [other]

theorem IsPiece.names {name : String} (h : IsPiece name) : names name = [name] := by
  unfold Path.names
  rw [splitFrom_plain h.slashless]
  simp [h.given]

theorem intercalate_cons {name : String} {rest : List String} (given : rest ≠ []) :
    "/".intercalate (name :: rest) = name ++ "/" ++ "/".intercalate rest := by
  obtain ⟨next, rest, rfl⟩ := List.exists_cons_of_ne_nil given
  simp

/-- The characters of texts with slashes between them. -/
theorem mem_intercalate {pieces : List String} {c : Char} (h : c ∈ ("/".intercalate pieces).toList) :
    c = '/' ∨ ∃ name ∈ pieces, c ∈ name.toList := by
  induction pieces with
  | nil => cases h
  | cons name rest ih =>
    by_cases last : rest = []
    · subst last
      exact .inr ⟨name, List.mem_singleton_self name, by simpa using h⟩
    · rw [intercalate_cons last, String.toList_append, String.toList_append, List.mem_append, List.mem_append] at h
      rcases h with (h | h) | h
      · exact .inr ⟨name, List.mem_cons_self, h⟩
      · exact .inl (List.mem_singleton.mp h)
      · exact (ih h).imp_right fun ⟨n, hn, hc⟩ => ⟨n, List.mem_cons_of_mem _ hn, hc⟩

/-- The names of pieces with slashes between them are the pieces. -/
theorem names_intercalate {pieces : List String} (h : ∀ name ∈ pieces, IsPiece name) :
    names ("/".intercalate pieces) = pieces := by
  induction pieces with
  | nil => rfl
  | cons name rest ih =>
    have first : IsPiece name := h name List.mem_cons_self
    by_cases last : rest = []
    · subst last
      exact (congrArg names (by simp)).trans first.names
    · rw [intercalate_cons last, names_slash, first.names, ih fun n hn => h n (List.mem_cons_of_mem _ hn)]
      rfl

/-- What is left of pieces when `.` and `..` are taken out are steps. -/
theorem isStep_of_mem_reduce {before pieces : List String} {name : String} (steps : ∀ n ∈ before, IsStep n)
    (given : ∀ n ∈ pieces, IsPiece n) (h : name ∈ reduce before pieces) : IsStep name := by
  induction pieces generalizing before with
  | nil => exact steps name h
  | cons first rest ih =>
    have others : ∀ n ∈ rest, IsPiece n := fun n hn => given n (List.mem_cons_of_mem _ hn)
    rw [reduce] at h
    split at h
    · exact ih steps others h
    · split at h
      · exact ih (fun n hn => steps n (List.dropLast_subset before hn)) others h
      · have step : IsStep first := ⟨given first List.mem_cons_self, ‹_›, ‹_›⟩
        refine ih (fun n hn => ?_) others h
        rcases List.mem_append.mp hn with hn | hn
        · exact steps n hn
        · exact List.mem_singleton.mp hn ▸ step

/-- Where a path leads to is spelled in steps. -/
theorem isStep_of_mem_place (path : String) {name : String} (h : name ∈ reduce [] (names path)) : IsStep name :=
  isStep_of_mem_reduce (fun _ hn => absurd hn List.not_mem_nil) (fun _ hn => isPiece_of_mem_names hn) h

/-- Steps go down one by one. -/
theorem reduce_steps (before : List String) {down : List String} (steps : ∀ n ∈ down, IsStep n) :
    reduce before down = before ++ down := by
  induction down generalizing before with
  | nil => exact (List.append_nil before).symm
  | cons name rest ih =>
    have step : IsStep name := steps name List.mem_cons_self
    rw [reduce, if_neg step.notHere, if_neg step.notUp, ih _ fun n hn => steps n (List.mem_cons_of_mem _ hn)]
    simp

/-- Each `..` takes a name away. -/
theorem reduce_up (before : List String) (n : Nat) :
    reduce before (List.replicate n "..") = before.take (before.length - n) := by
  induction n generalizing before with
  | zero => exact (List.take_length).symm
  | succ n ih =>
    have fewer : min (before.length - 1 - n) (before.length - 1) = before.length - (n + 1) := by omega
    rw [List.replicate_succ, reduce, if_neg (by decide), if_pos rfl, ih, List.dropLast_eq_take, List.take_take,
      List.length_take_of_le (Nat.sub_le _ _), fewer]

/-! ## 5. Ways between directories -/

/-- Two lists are what they have in common, and then what is left of them. -/
theorem exists_common (as bs : List String) :
    ∃ common, as = common ++ (dropCommon as bs).1 ∧ bs = common ++ (dropCommon as bs).2 := by
  induction as generalizing bs with
  | nil => exact ⟨[], by simp [dropCommon], by simp [dropCommon]⟩
  | cons a as ih =>
    cases bs with
    | nil => exact ⟨[], rfl, rfl⟩
    | cons b bs =>
      rw [dropCommon]
      split
      · rename_i same
        obtain ⟨common, first, second⟩ := ih bs
        exact ⟨a :: common, congrArg (a :: ·) first, same ▸ congrArg (a :: ·) second⟩
      · exact ⟨[], rfl, rfl⟩

theorem dropCommon_append (common down up : List String) :
    dropCommon (common ++ down) (common ++ up) = dropCommon down up := by
  induction common with
  | nil => rfl
  | cons name common ih =>
    rw [List.cons_append, List.cons_append, dropCommon, if_pos rfl, ih]

theorem mem_of_mem_dropCommon {as bs : List String} {name : String} (h : name ∈ (dropCommon as bs).1) : name ∈ as := by
  obtain ⟨common, whole, -⟩ := exists_common as bs
  exact whole ▸ List.mem_append_right common h

/-- What leads from one directory to another, piece by piece. -/
def way (target start : String) : List String :=
  let (down, up) := dropCommon (reduce [] (names target)) (reduce [] (names start))
  let steps := up.map (fun _ => "..") ++ down
  if steps.isEmpty then ["."] else steps

theorem relative_eq (target start : String) : relative target start = "/".intercalate (way target start) := by
  unfold relative way
  dsimp only
  split
  · decide
  · rfl

theorem way_ne_nil (target start : String) : way target start ≠ [] := by
  unfold way
  dsimp only
  split
  · exact List.cons_ne_nil _ _
  · rename_i given
    exact fun none => given (by rw [none]; rfl)

/-- What leads down is a part of where it leads to. -/
theorem mem_way {target start name : String} (h : name ∈ way target start) :
    name = "." ∨ name = ".." ∨ name ∈ (dropCommon (reduce [] (names target)) (reduce [] (names start))).1 := by
  unfold way at h
  dsimp only at h
  split at h
  · exact .inl (List.mem_singleton.mp h)
  · rcases List.mem_append.mp h with h | h
    · obtain ⟨-, -, rfl⟩ := List.mem_map.mp h
      exact .inr (.inl rfl)
    · exact .inr (.inr h)

theorem isStep_of_mem_down {target start name : String}
    (h : name ∈ (dropCommon (reduce [] (names target)) (reduce [] (names start))).1) : IsStep name :=
  isStep_of_mem_place target (mem_of_mem_dropCommon h)

theorem isPiece_of_mem_way {target start name : String} (h : name ∈ way target start) : IsPiece name := by
  rcases mem_way h with rfl | rfl | h
  · exact ⟨by decide, by decide⟩
  · exact ⟨by decide, by decide⟩
  · exact (isStep_of_mem_down h).toIsPiece

/-- **The way from one directory to another leads there.** -/
theorem reduce_way (target start : String) :
    reduce (reduce [] (names start)) (way target start) = reduce [] (names target) := by
  obtain ⟨common, whole, origin⟩ := exists_common (reduce [] (names target)) (reduce [] (names start))
  have steps : ∀ n ∈ (dropCommon (reduce [] (names target)) (reduce [] (names start))).1, IsStep n :=
    fun n hn => isStep_of_mem_down hn
  unfold way
  dsimp only
  revert whole origin steps
  rcases dropCommon (reduce [] (names target)) (reduce [] (names start)) with ⟨down, up⟩
  intro whole origin steps
  rw [whole, origin]
  split
  · rename_i nothing
    obtain ⟨rfl, rfl⟩ : up = [] ∧ down = [] := by simpa using nothing
    rfl
  · have back : (common ++ up).take ((common ++ up).length - up.length) = common := by simp
    rw [List.map_const', reduce_append, reduce_up, back]
    exact reduce_steps common steps

/-- The way to what is below goes down only. -/
theorem way_below {target start : String} {down : List String} (given : down ≠ [])
    (below : reduce [] (names target) = reduce [] (names start) ++ down) : way target start = down := by
  obtain ⟨name, rest, rfl⟩ := List.exists_cons_of_ne_nil given
  have apart : dropCommon (reduce [] (names target)) (reduce [] (names start)) = (name :: rest, []) := by
    rw [below]
    have common := dropCommon_append (reduce [] (names start)) (name :: rest) []
    rw [List.append_nil] at common
    rw [common]
    rfl
  unfold way
  rw [apart]
  rfl

theorem relative_below {target start : String} {down : List String} (given : down ≠ [])
    (below : reduce [] (names target) = reduce [] (names start) ++ down) :
    relative target start = "/".intercalate down := by
  rw [relative_eq, way_below given below]

/-- A way that starts with neither `.` nor `..` goes down only. -/
theorem below_of_way {target start name : String} {rest : List String} (h : way target start = name :: rest)
    (notHere : name ≠ ".") (notUp : name ≠ "..") :
    reduce [] (names target) = reduce [] (names start) ++ name :: rest := by
  obtain ⟨common, whole, origin⟩ := exists_common (reduce [] (names target)) (reduce [] (names start))
  unfold way at h
  revert h whole origin
  rcases dropCommon (reduce [] (names target)) (reduce [] (names start)) with ⟨down, up⟩
  intro h whole origin
  dsimp only at h whole origin
  split at h
  · exact absurd (List.cons.inj h).1.symm notHere
  · cases up with
    | nil =>
      rw [whole, origin, ← h]
      simp
    | cons last up => exact absurd (List.cons.inj h).1.symm notUp

end Path

/-! ## 6. Plain names -/

/-- **A name that leads to an entry of a directory.** -/
structure PlainName (name : String) : Prop where
  slashless : '/' ∉ name.toList
  given : name ≠ ""
  notHere : name ≠ "."
  notUp : name ≠ ".."
  valid : FileTree.isName name = true

theorem plainName_iff {name : String} : PlainName name ↔
    '/' ∉ name.toList ∧ name ≠ "" ∧ name ≠ "." ∧ name ≠ ".." ∧ FileTree.isName name = true :=
  ⟨fun h => ⟨h.slashless, h.given, h.notHere, h.notUp, h.valid⟩, fun ⟨slashless, given, notHere, notUp, valid⟩ =>
    ⟨slashless, given, notHere, notUp, valid⟩⟩

instance (name : String) : Decidable (PlainName name) := decidable_of_iff _ plainName_iff.symm

namespace PlainName

variable {name : String} (plain : PlainName name)

include plain

theorem isStep : Path.IsStep name := ⟨⟨plain.slashless, plain.given⟩, plain.notHere, plain.notUp⟩

theorem names : Path.names name = [name] := plain.isStep.names

theorem relative : Path.isAbsolute name = false := Path.relative_of_slashless plain.slashless

/-- A plain name joined to a path is one more name. -/
theorem names_join (dir : String) : Path.names (Path.join dir name) = Path.names dir ++ [name] := by
  rw [Path.names_join dir plain.relative, plain.names]

theorem reduce (before : List String) : Path.reduce before [name] = before ++ [name] :=
  Path.reduce_steps before (by simpa using plain.isStep)

end PlainName

end Artboard
