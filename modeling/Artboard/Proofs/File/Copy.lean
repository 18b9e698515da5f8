import Artboard.Proofs.Entries
import Artboard.Proofs.File.Access

/-!
# What copies leave

A copy of a directory onto another goes on past an entry that fails, and no directory is lost by it
(`FileTree.keeps_copyInto`).  Under a name there is a file afterwards if there was one, or there was nothing and it was
copied (`FileTree.file_copyInto_iff`).  A copy of a directory into an empty one is just that directory, and nothing of
it fails (`FileTree.copyInto_nil`).
-/

namespace Artboard

namespace FileTree

variable {t u new old : FileTree} {source target : Place} {name s : String} {es more : List (String × FileTree)}

/-! ## 1. Directories stay -/

/-- An entry put under a name, which has the directories of what was there. -/
theorem keeps_put (h : ∀ old, Entries.get? es name = some old → Keeps old new) :
    Keeps (directory es) (directory (Entries.put es name new)) := by
  intro p hp
  cases p with
  | nil => rfl
  | cons n p =>
    rw [kindAt?_directory_cons] at hp ⊢
    rw [Entries.get?_put]
    by_cases here : name = n
    · subst here
      obtain ⟨old, found, hp⟩ := Option.bind_eq_some_iff.mp hp
      simpa using h old found p hp
    · rw [if_neg here]
      exact hp

/-- A file has no directories. -/
theorem keeps_file (s : String) (u : FileTree) : Keeps (file s) u := by
  intro p hp
  cases p <;> cases hp

/-- Copying one entry, and then the others. -/
theorem copyInto_cons (source target : Place) (es : List (String × FileTree)) (name : String) (t : FileTree)
    (rest : List (String × FileTree)) :
    (copyInto source target es ((name, t) :: rest)).1 =
      (copyInto source target
        ((copyOnto (source ++ [name]) (target ++ [name]) name (Entries.get? es name) t).1.elim es
          (Entries.put es name)) rest).1 := by
  rw [copyInto]
  rcases copyOnto (source ++ [name]) (target ++ [name]) name (Entries.get? es name) t with ⟨_ | new, ok⟩ <;> rfl

/-- A file is copied where no directory is, but not onto itself. -/
theorem copyOnto_file (source target : Place) (name s : String) {old : Option FileTree}
    (free : ∀ es, old ≠ some (directory es)) :
    (copyOnto source target name old (file s)).1 = if source = target then old else some (file s) := by
  rw [copyOnto]
  · split <;> rfl
  · exact free

/-- A file goes into a directory of its name, unless one is in the way there too. -/
theorem copyOnto_file_directory (source target : Place) (name s : String) (es : List (String × FileTree)) :
    ∃ es', (copyOnto source target name (some (directory es)) (file s)).1 = some (directory es') ∧
      Keeps (directory es) (directory es') := by
  rw [copyOnto]
  split
  · exact ⟨es, rfl, .refl _⟩
  · rename_i free
    split
    · exact ⟨es, rfl, .refl _⟩
    · refine ⟨_, rfl, keeps_put fun old found => ?_⟩
      cases old with
      | file text => exact keeps_file text _
      | directory inner => exact absurd found (free inner)

mutual

/-- What is copied onto something has the directories that were there. -/
theorem keeps_copyOnto (source target : Place) (name : String) (old : FileTree) : ∀ t,
    ∃ new, (copyOnto source target name (some old) t).1 = some new ∧ Keeps old new
  | .file s => by
      cases old with
      | file text =>
        rw [copyOnto_file source target name s (by simp)]
        split
        · exact ⟨_, rfl, .refl _⟩
        · exact ⟨_, rfl, keeps_file text _⟩
      | directory es =>
        obtain ⟨es', copied, keeps⟩ := copyOnto_file_directory source target name s es
        exact ⟨_, copied, keeps⟩
  | .directory more => by
      cases old with
      | file text => exact ⟨_, by rw [copyOnto], .refl _⟩
      | directory es => exact ⟨_, by rw [copyOnto], keeps_copyInto source target more es⟩

/-- **No directory is lost by copies.** -/
theorem keeps_copyInto (source target : Place) : ∀ more es,
    Keeps (directory es) (directory (copyInto source target es more).1)
  | [], es => by
      rw [copyInto]
      exact .refl _
  | (name, t) :: rest, es => by
      rw [copyInto_cons]
      refine Keeps.trans ?_ (keeps_copyInto source target rest _)
      cases found : Entries.get? es name with
      | none =>
        cases copied : (copyOnto (source ++ [name]) (target ++ [name]) name none t).1 with
        | none => exact .refl _
        | some new => exact keeps_put fun old there => by simp [found] at there
      | some old =>
        obtain ⟨new, copied, keeps⟩ := keeps_copyOnto (source ++ [name]) (target ++ [name]) name old t
        rw [copied]
        refine keeps_put fun other there => ?_
        rw [found] at there
        exact Option.some.inj there ▸ keeps

end

/-! ## 2. Files by name -/

/-- A tree is a file. -/
def isFile : FileTree → Bool
  | file _ => true
  | directory _ => false

/-- What a copy leaves is a file if a file was there, or nothing was and a file is copied; it is nothing only if the
file would be copied onto itself. -/
theorem isFile_copyOnto (source target : Place) (name : String) (old : Option FileTree) (t : FileTree) :
    ((copyOnto source target name old t).1.any isFile =
      (old.any isFile || (old.isNone && t.isFile && decide (source ≠ target)))) ∧
    ((copyOnto source target name old t).1.isNone = (old.isNone && t.isFile && decide (source = target))) := by
  cases t with
  | file s =>
    rcases old with _ | text | es
    · rw [copyOnto_file source target name s (by simp)]
      by_cases same : source = target <;> simp [same, isFile]
    · rw [copyOnto_file source target name s (by simp)]
      by_cases same : source = target <;> simp [same, isFile]
    · obtain ⟨es', copied, -⟩ := copyOnto_file_directory source target name s es
      simp [copied, isFile]
  | directory more => rcases old with _ | text | es <;> simp [copyOnto, isFile]

/-- **A file is under a name after copies if it was there, or nothing was and it is copied.** -/
theorem file_copyInto_iff (source target : Place) (es more : List (String × FileTree)) (name : String) :
    (Entries.get? (copyInto source target es more).1 name).any isFile =
      ((Entries.get? es name).any isFile ||
        ((Entries.get? es name).isNone && (Entries.get? more name).any isFile && decide (source ≠ target))) := by
  induction more generalizing es with
  | nil => simp [copyInto, Entries.get?]
  | cons entry rest ih =>
    obtain ⟨n, t⟩ := entry
    rw [copyInto_cons, ih, Entries.get?]
    by_cases here : n = name
    · subst here
      obtain ⟨files, nothing⟩ :=
        isFile_copyOnto (source ++ [n]) (target ++ [n]) n (Entries.get? es n) t
      have same : source ++ [n] = target ++ [n] ↔ source = target := List.append_left_inj [n]
      simp only [ne_eq, same] at files nothing
      rw [if_pos rfl]
      cases copied : (copyOnto (source ++ [n]) (target ++ [n]) n (Entries.get? es n) t).1 with
      | none =>
        -- the file is the one that is there already
        rw [copied] at nothing
        have itself : source = target := by simp at nothing; exact nothing.2
        simp [itself]
      | some new =>
        rw [copied] at files
        simpa [Entries.get?_put] using files
    · rw [if_neg here]
      cases (copyOnto (source ++ [n]) (target ++ [n]) n (Entries.get? es n) t).1 with
      | none => rfl
      | some new => simp only [Option.elim, Entries.get?_put, if_neg here]

/-! ## 3. Copies of whole directories -/

mutual

/-- No name comes twice in a directory of a tree. -/
def isProper : FileTree → Bool
  | file _ => true
  | directory es => decide (Entries.names es).Nodup && areProper es

/-- No name comes twice in a directory of the trees among some entries. -/
def areProper : List (String × FileTree) → Bool
  | [] => true
  | (_, t) :: rest => isProper t && areProper rest

end

mutual

/-- What is copied to where nothing is comes out as it was. -/
theorem copyOnto_none {source target : Place} (apart : source ≠ target) (name : String) : ∀ t, isProper t = true →
    copyOnto source target name none t = (some t, true)
  | .file s, _ => by
      rw [copyOnto]
      · rw [if_neg apart]
      · exact fun es => by simp
  | .directory more, proper => by
      rw [isProper, Bool.and_eq_true] at proper
      have copied := copyInto_new apart more [] (of_decide_eq_true proper.1) proper.2
      rw [copyOnto, copied]
      rfl

/-- Entries with new names come behind the others. -/
theorem copyInto_new {source target : Place} (apart : source ≠ target) : ∀ more es,
    (Entries.names es ++ Entries.names more).Nodup → areProper more = true →
      copyInto source target es more = (es ++ more, true)
  | [], es, _, _ => by rw [copyInto, List.append_nil]
  | (name, t) :: rest, es, distinct, proper => by
      rw [areProper, Bool.and_eq_true] at proper
      have shape : Entries.names es ++ Entries.names ((name, t) :: rest) =
          Entries.names es ++ name :: Entries.names rest := rfl
      have fresh : name ∉ Entries.names es := by
        rw [shape] at distinct
        exact fun old => (List.nodup_append.mp distinct).2.2 name old name List.mem_cons_self rfl
      have later : (Entries.names (es ++ [(name, t)]) ++ Entries.names rest).Nodup := by
        have same : Entries.names (es ++ [(name, t)]) ++ Entries.names rest =
            Entries.names es ++ name :: Entries.names rest := by simp [Entries.names]
        rwa [same, ← shape]
      have further : source ++ [name] ≠ target ++ [name] := fun same => apart (List.append_left_inj [name] |>.mp same)
      rw [copyInto, Entries.get?_eq_none fresh, copyOnto_none further name t proper.1]
      dsimp only
      rw [Entries.put_new fresh, copyInto_new apart rest _ later proper.2]
      simp

end

/-- **A directory without entries is a copy afterwards.** -/
theorem copyInto_nil (apart : source ≠ target) (proper : isProper (directory more) = true) :
    copyInto source target [] more = (more, true) := by
  rw [isProper, Bool.and_eq_true] at proper
  exact copyInto_new apart more [] (of_decide_eq_true proper.1) proper.2

end FileTree

end Artboard
