/-!
# Named entries in order

A list of names with values, in the order in which the names first came.  Looking a name up takes its first
entry; putting a value under a name that is there changes it in place, and under a new name adds it at the
end.  So erasing a name and putting it again moves it to the end.
-/

namespace Artboard

/-- Names with values, in order. -/
abbrev Entries (α : Type) := List (String × α)

namespace Entries

variable {α : Type}

/-- The value of a name. -/
def get? : Entries α → String → Option α
  | [], _ => none
  | (n, v) :: rest, name => if n = name then some v else get? rest name

/-- The names in order. -/
def names (es : Entries α) : List String := es.map Prod.fst

/-- The value put under a name: in place, or at the end. -/
def put : Entries α → String → α → Entries α
  | [], name, v => [(name, v)]
  | (n, w) :: rest, name, v => if n = name then (n, v) :: rest else (n, w) :: put rest name v

/-- The entries without a name. -/
def erase : Entries α → String → Entries α
  | [], _ => []
  | (n, v) :: rest, name => if n = name then erase rest name else (n, v) :: erase rest name

/-- Every entry of `more` put, in order. -/
def merge (es more : Entries α) : Entries α := more.foldl (fun acc e => acc.put e.1 e.2) es

/-! ## Laws -/

theorem get?_put (es : Entries α) (name other : String) (v : α) :
    (es.put name v).get? other = if name = other then some v else es.get? other := by
  induction es with
  | nil => simp [put, get?]
  | cons e rest ih =>
    obtain ⟨n, w⟩ := e
    by_cases h : n = name
    · subst h
      simp only [put, if_pos, get?]
      split <;> rfl
    · simp only [put, if_neg h, get?, ih]
      by_cases hn : n = other
      · subst hn
        simp [Ne.symm h]
      · simp [hn]

theorem get?_erase (es : Entries α) (name other : String) :
    (es.erase name).get? other = if name = other then none else es.get? other := by
  induction es with
  | nil => simp [erase, get?]
  | cons e rest ih =>
    obtain ⟨n, w⟩ := e
    by_cases h : n = name
    · subst h
      simp only [erase, if_pos, ih, get?]
      split <;> rfl
    · simp only [erase, if_neg h, get?, ih]
      by_cases hn : n = other
      · subst hn
        simp [Ne.symm h]
      · simp [hn]

end Entries

end Artboard
