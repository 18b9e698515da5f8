import Artboard.Proofs.Asset.DataUri
import Artboard.Proofs.Text.Blank

/-!
# Payloads give back what they carry

A text can be carried as it is, in a URI in base64 or in a URI in percent-encoding (`Payload.Carries`).  Whichever
form is taken, it comes out if an `<svg` is in it, and nothing does if there is none (`markup?_of_carries`).

Only what does not begin like a URI itself can be carried as it is, and that in any case of letters: a scheme in
capitals is read as one (`markup?_capital_scheme`).
-/

namespace Artboard

/-! ## 1. Words in a trimmed text -/

namespace Text

variable {α β : Type} {p : α → Bool} {f : α → β} {word : List β} {s : List α}

theorem holds_eq_true_iff (word s : List Char) : holds word s = true ↔ word <:+: s := by
  induction s with
  | nil => simp [holds]
  | cons c rest ih => rw [holds, Bool.or_eq_true, List.isPrefixOf_iff_prefix, ih, List.infix_cons_iff]

/-- A word is not lost with what is dropped in front of it. -/
theorem infix_map_dropWhile (h : word <:+: s.map f) (apart : ∀ c, p c = true → f c ∉ word) :
    word <:+: (s.dropWhile p).map f := by
  induction s with
  | nil => exact h
  | cons c rest ih =>
    cases hc : p c with
    | false => rwa [List.dropWhile_cons_of_neg (by simp [hc])]
    | true =>
      rw [List.dropWhile_cons_of_pos hc]
      rcases List.infix_cons_iff.mp h with front | inner
      · cases word with
        | nil => exact List.nil_infix
        | cons w ws =>
          obtain ⟨rfl, -⟩ := List.cons_prefix_cons.mp front
          exact absurd List.mem_cons_self (apart c hc)
      · exact ih inner

theorem isInfix_trimBoth (q : Char → Bool) (s : List Char) : trimBoth q s <:+: s := by
  rw [trimBoth_eq_rdropWhile]
  exact (List.rdropWhile_prefix q _).isInfix.trans (List.dropWhile_suffix q).isInfix

/-- A word is not lost with what is trimmed at both ends. -/
theorem infix_map_trimBoth {q : Char → Bool} {g : Char → β} {s : List Char} (h : word <:+: s.map g)
    (apart : ∀ c, q c = true → g c ∉ word) : word <:+: (trimBoth q s).map g := by
  -- the end of the text is the front of its reversal
  have turned : word.reverse <:+: (s.dropWhile q).reverse.map g := by
    rw [List.map_reverse]
    exact List.reverse_infix.mpr (infix_map_dropWhile h apart)
  rw [← List.reverse_infix, trimBoth, List.map_reverse, List.reverse_reverse]
  exact infix_map_dropWhile turned fun c hc => by simpa using apart c hc

end Text

namespace Payload

open Text

/-! ## 2. Images -/

/-- There is an `<svg` in the text, in whatever case of letters. -/
def HoldsImage (s : String) : Prop := "<svg".toList <:+: s.toList.map Char.toLower

theorem hasVector_iff (s : String) : hasVector s = true ↔ HoldsImage s := holds_eq_true_iff _ _

/-- Trimming keeps an image, for neither end of `<svg` is blank. -/
theorem holdsImage_trimBlank (s : String) : HoldsImage (trimBlank s) ↔ HoldsImage s := by
  have trimmed : (trimBlank s).toList = trimBoth isBlank s.toList := String.toList_ofList
  unfold HoldsImage
  rw [trimmed]
  constructor
  · exact fun h => h.trans ((isInfix_trimBoth isBlank s.toList).map Char.toLower)
  · intro h
    have solid : "<svg".toList.all (!isBlank ·) = true := by decide
    refine infix_map_trimBoth h fun c blank inside => ?_
    rw [toLower_of_isBlank blank] at inside
    have other := List.all_eq_true.mp solid c inside
    rw [blank] at other
    cases other

/-- What passes for markup of a text that has come out. -/
theorem markup?_of_unwrap? {s t : String} (h : unwrap? s = some t) :
    (HoldsImage t → markup? (.text s) = some t) ∧ (¬ HoldsImage t → markup? (.text s) = none) := by
  have passed : markup? (.text s) = (some t).filter hasVector := by rw [← h]; rfl
  rw [passed, ← hasVector_iff]
  constructor <;> intro image <;> simp [Option.filter, image]

/-! ## 3. Forms of a payload -/

/-- A text is a word that is given in lower case, each of whose letters may be a capital. -/
def AnyCase (word s : List Char) : Prop := s.map Char.toLower = word

instance (word s : List Char) : Decidable (AnyCase word s) :=
  inferInstanceAs (Decidable (s.map Char.toLower = word))

theorem AnyCase.spelt {word s : List Char} (h : AnyCase word s) : Spelt word s := by
  subst h
  exact List.forall₂_map_left_iff.mpr (List.forall₂_same.mpr fun c _ => by simp [folds])

theorem AnyCase.plain {word s : List Char} (h : AnyCase word s) (plain : Plain word) : Plain s := by
  intro c hc mark
  have lower : c.toLower = c := by rcases mark with rfl | rfl <;> decide
  have inside : c.toLower ∈ word := h ▸ List.mem_map_of_mem hc
  rw [lower] at inside
  exact plain c inside mark

/-- The parameter of a character set, or none. -/
inductive Charset : List (List Char) → Prop where
  | none : Charset []
  | some {name value : List Char} (named : AnyCase "charset=".toList name) (given : value ≠ [])
      (plain : Plain value) : Charset [name ++ value]

/-- **The forms of a payload**: a payload carries a text, and a result is to come out of it. -/
inductive Carries (s : String) : (payload result : String) → Prop where
  /-- In base64, with blanks put in anywhere. -/
  | base64 {head coding body : List Char} {charset : List (List Char)} (scheme : AnyCase scheme head)
      (set : Charset charset) (named : AnyCase "base64".toList coding)
      (spaced : Spaced (Base64.encode (utf8Bytes s.toList)) body) :
      Carries s (String.ofList (head ++ writeRest (charset ++ [coding]) body)) s
  /-- With every byte percent-encoded; the coding may be named. -/
  | percent {head body : List Char} {charset coding : List (List Char)} (scheme : AnyCase scheme head)
      (set : Charset charset) (named : coding = [] ∨ ∃ p, coding = [p] ∧ AnyCase "utf8".toList p)
      (spelled : Percent.Spells (utf8Bytes s.toList) body) :
      Carries s (String.ofList (head ++ writeRest (charset ++ coding) body)) s
  /-- As it is, up to the blanks at both ends, unless it begins like a URI. -/
  | plain (other : ¬ "data:".toList <+: (trimBlank s).toList.map Char.toLower) : Carries s s (trimBlank s)

/-! ## 4. What is read of each form -/

variable {charset rest : List (List Char)}

theorem Charset.plain (h : Charset charset) : ∀ p ∈ charset, Plain p := by
  cases h with
  | none => exact fun p hp => absurd hp List.not_mem_nil
  | some named _ plain =>
    intro p hp c hc
    obtain rfl := List.mem_singleton.mp hp
    rcases List.mem_append.mp hc with hc | hc
    · exact named.plain (by decide) c hc
    · exact plain c hc

theorem Charset.dropCharset_append (h : Charset charset) (other : ∀ p ∈ rest.head?, isCharset p = false) :
    dropCharset (charset ++ rest) = rest := by
  cases h with
  | none =>
    cases rest with
    | nil => rfl
    | cons p more =>
      rw [List.nil_append, dropCharset, other p rfl]
      rfl
  | @some name value named given _ =>
    have charset : isCharset (name ++ value) = true := by
      rw [isCharset, after?_of_spelt named.spelt]
      cases value with
      | nil => exact absurd rfl given
      | cons c t => rfl
    rw [List.singleton_append, dropCharset, if_pos charset]

theorem exists_cons_of_spelt_scheme {head : List Char} (h : Spelt scheme head) :
    ∃ c t, head = c :: t ∧ isBlank c = false := by
  cases h with
  | @cons _ c _ t same _ =>
    refine ⟨c, t, rfl, Bool.eq_false_iff.mpr fun blank => ?_⟩
    rw [folds_eq (by decide), beq_iff_eq, toLower_of_isBlank blank] at same
    subst same
    exact absurd blank (by decide)

/-- Of a URI only the body is trimmed. -/
theorem trimBoth_text (u : Uri) :
    trimBoth isBlank u.text = { u with body := u.body.rdropWhile isBlank }.text := by
  -- everything up to the comma holds, whatever the body
  let front := u.head ++ (u.parameters.flatMap (';' :: ·) ++ [','])
  have shape (body : List Char) : u.head ++ writeRest u.parameters body = front ++ body := by
    simp [front, writeRest]
  have given : front ≠ [] := by simp [front]
  have first : ∀ c ∈ front.head?, isBlank c = false := by
    obtain ⟨d, t, start, solid⟩ := exists_cons_of_spelt_scheme u.spelt
    intro c hc
    obtain rfl : d = c := by simpa [front, start] using hc
    exact solid
  have last : ∀ c ∈ front.getLast?, isBlank c = false := by
    intro c hc
    obtain rfl : ',' = c := by simpa [front] using hc
    decide
  rw [Uri.text, Uri.text, shape, trimBoth_append given first last, shape]

theorem unwrap?_text {u : Uri} {coding : Coding} (h : readAs? u.parameters = some coding) :
    unwrap? (String.ofList u.text) = coding.read? (u.body.rdropWhile isBlank) := by
  have trimmed : trimBoth isBlank (String.ofList u.text).toList =
      { u with body := u.body.rdropWhile isBlank }.text := by
    rw [String.toList_ofList, trimBoth_text]
  rw [unwrap?_of_uri _ trimmed]
  simp only [h]

theorem unwrap?_base64 {s : String} {head coding body : List Char} (spelt : AnyCase scheme head)
    (set : Charset charset) (named : AnyCase "base64".toList coding)
    (spaced : Spaced (Base64.encode (utf8Bytes s.toList)) body) :
    unwrap? (String.ofList (head ++ writeRest (charset ++ [coding]) body)) = some s := by
  have plain : ∀ p ∈ charset ++ [coding], Plain p :=
    List.forall_mem_append.mpr ⟨set.plain, List.forall_mem_singleton.mpr (named.plain (by decide))⟩
  have other : isCharset coding = false := not_isCharset_of_spelt (by decide) named.spelt
  have read : readAs? (charset ++ [coding]) = some .base64 := by
    rw [readAs?, set.dropCharset_append (by simpa using other), named?, if_pos named.spelt]
  have solid : dropBlanks (body.rdropWhile isBlank) = Base64.encode (utf8Bytes s.toList) := by
    rw [dropBlanks_rdropWhile, (spaced_iff Base64.not_isBlank_encode).mp spaced]
  let u : Uri := ⟨head, charset ++ [coding], body, spelt.spelt, plain⟩
  calc unwrap? (String.ofList u.text)
      = Coding.base64.read? (body.rdropWhile isBlank) := unwrap?_text read
    _ = (Base64.decode? (Base64.encode (utf8Bytes s.toList))).bind decodeUtf8? := by rw [Coding.read?, solid]
    _ = some s := by
      rw [Base64.decode?_encode, Option.bind_some, decodeUtf8?_utf8Bytes, String.ofList_toList]

theorem unwrap?_percent {s : String} {head body : List Char} {coding : List (List Char)}
    (spelt : AnyCase scheme head) (set : Charset charset)
    (named : coding = [] ∨ ∃ p, coding = [p] ∧ AnyCase "utf8".toList p)
    (spelled : Percent.Spells (utf8Bytes s.toList) body) :
    unwrap? (String.ofList (head ++ writeRest (charset ++ coding) body)) = some s := by
  have codings : ∀ p ∈ coding, AnyCase "utf8".toList p := by
    rcases named with rfl | ⟨q, rfl, spelt⟩
    · exact fun p hp => absurd hp List.not_mem_nil
    · exact fun p hp => List.mem_singleton.mp hp ▸ spelt
  have plain : ∀ p ∈ charset ++ coding, Plain p :=
    List.forall_mem_append.mpr ⟨set.plain, fun p hp => (codings p hp).plain (by decide)⟩
  have other : ∀ p ∈ coding.head?, isCharset p = false := fun p hp =>
    not_isCharset_of_spelt (by decide) (codings p (List.mem_of_mem_head? hp)).spelt
  have read : readAs? (charset ++ coding) = some .percent := by
    rw [readAs?, set.dropCharset_append other]
    rcases named with rfl | ⟨p, rfl, spelt⟩
    · rfl
    · exact (named?_eq_percent_iff p []).mpr ⟨spelt.spelt, rfl⟩
  have whole : body.rdropWhile isBlank = body := List.rdropWhile_eq_self_iff.mpr fun given => by
    simp [spelled.not_isBlank _ (List.getLast_mem given)]
  let u : Uri := ⟨head, charset ++ coding, body, spelt.spelt, plain⟩
  calc unwrap? (String.ofList u.text)
      = Coding.percent.read? (body.rdropWhile isBlank) := unwrap?_text read
    _ = some (String.ofList (Percent.decode body)) := by rw [Coding.read?, whole]
    _ = some s := by rw [Percent.decode_of_spells spelled, String.ofList_toList]

theorem Spelt.anyCase {word s : List Char} (h : Spelt word s) (other : 's' ∉ word ∧ 'i' ∉ word) :
    AnyCase word s := by
  induction h with
  | nil => rfl
  | @cons w c ws rest same _ ih =>
    simp only [List.mem_cons, not_or] at other
    obtain ⟨⟨notS, others⟩, notI, more⟩ := other
    rw [folds_eq ⟨Ne.symm notS, Ne.symm notI⟩, beq_iff_eq] at same
    have tail : rest.map Char.toLower = ws := ih ⟨others, more⟩
    rw [AnyCase, List.map_cons, same, tail]

theorem after?_scheme_eq_none {t : List Char} (other : ¬ "data:".toList <+: t.map Char.toLower) :
    after? scheme t = none := by
  have parts : scheme = "data:".toList ++ "image/svg+xml".toList := by decide
  rw [parts, after?_append]
  cases found : after? "data:".toList t with
  | none => rfl
  | some rest =>
    obtain ⟨front, spelt, rfl⟩ := exists_of_after? found
    have lower : front.map Char.toLower = "data:".toList := spelt.anyCase (by decide)
    rw [List.map_append, lower] at other
    exact absurd (List.prefix_append _ _) other

theorem unwrap?_plain {s : String} (other : ¬ "data:".toList <+: (trimBlank s).toList.map Char.toLower) :
    unwrap? s = some (trimBlank s) := by
  have trimmed : (trimBlank s).toList = trimBoth isBlank s.toList := String.toList_ofList
  rw [trimmed] at other
  have base64 : base64Body? (trimBoth isBlank s.toList) = none := by
    rw [base64Body?, after?_scheme_eq_none other, Option.bind_none]
  have percent : percentBody? (trimBoth isBlank s.toList) = none := by
    rw [percentBody?, after?_scheme_eq_none other, Option.bind_none]
  unfold unwrap?
  dsimp only
  rw [base64, percent]
  rfl

/-- **A payload gives back what it carries** if there is an `<svg` in it, and else nothing. -/
theorem markup?_of_carries {s payload result : String} (h : Carries s payload result) :
    (HoldsImage s → markup? (.text payload) = some result) ∧
      (¬ HoldsImage s → markup? (.text payload) = none) := by
  cases h with
  | base64 scheme set named spaced => exact markup?_of_unwrap? (unwrap?_base64 scheme set named spaced)
  | percent scheme set named spelled => exact markup?_of_unwrap? (unwrap?_percent scheme set named spelled)
  | plain other =>
    rw [← holdsImage_trimBlank]
    exact markup?_of_unwrap? (unwrap?_plain other)

/-- In base64 behind a scheme in capitals, with a line break in the body. -/
theorem markup?_of_carries_base64 :
    let payload := "DATA:IMAGE/SVG+XML;Charset=UTF-8;Base64,PFN2Zz7D\npDwvc3ZnPg=="
    Carries "<Svg>ä</svg>" payload "<Svg>ä</svg>" ∧ HoldsImage "<Svg>ä</svg>" ∧
      markup? (.text payload) = some "<Svg>ä</svg>" := by
  intro payload
  have spaced : Spaced (Base64.encode (utf8Bytes "<Svg>ä</svg>".toList)) "PFN2Zz7D\npDwvc3ZnPg==".toList :=
    (spaced_iff Base64.not_isBlank_encode).mpr (by decide)
  have set : Charset ["Charset=".toList ++ "UTF-8".toList] := .some (by decide) (by decide) (by decide)
  have carried : Carries "<Svg>ä</svg>" payload "<Svg>ä</svg>" :=
    .base64 (show AnyCase scheme "DATA:IMAGE/SVG+XML".toList by decide) set
      (show AnyCase "base64".toList "Base64".toList by decide) spaced
  have image : HoldsImage "<Svg>ä</svg>" := (hasVector_iff _).mp (by decide)
  exact ⟨carried, image, (markup?_of_carries carried).1 image⟩

/-- A text that begins with a scheme in capitals is read as a URI, and so does not come out as it is. -/
theorem markup?_capital_scheme :
    let s := "DATA:image/svg+xml,<svg>"
    HoldsImage s ∧ ¬ "data:".toList <+: (trimBlank s).toList ∧ markup? (.text s) ≠ some (trimBlank s) := by
  intro s
  exact ⟨(hasVector_iff s).mp (by decide), by decide, by decide⟩

end Payload

end Artboard
