import Artboard.Asset
import Artboard.Proofs.Text.Base64
import Artboard.Proofs.Text.Percent
import Mathlib.Data.List.Forall2

/-!
# Data URIs

A data URI of vector markup is its scheme, parameters with a semicolon in front of each, a comma and a body
(`Payload.Uri`).  The body is in base64 if the last parameter says so, else in percent-encoding (`codingOf`).

A payload is read as a URI only if its parameters have one of a few forms (`Uri.readAs?`), and then it is read by the
coding that the URI has (`codingOf_eq_of_readAs?`).  Any other URI is taken for markup as it stands: it comes out whole
wherever an `<svg` is in it, and in no other way does anything but the decoded body come out (`markup?_uri`).
-/

namespace Artboard.Payload

open Text

/-! ## 1. Cases of letters -/

theorem toLower_eq_self_or (c : Char) : c.toLower = c ∨ ∃ n < 26, c = Char.ofNat (65 + n) := by
  by_cases upper : 65 ≤ c.toNat ∧ c.toNat ≤ 90
  · refine .inr ⟨c.toNat - 65, by omega, ?_⟩
    rw [Nat.add_sub_cancel' upper.1, Char.ofNat_toNat]
  · exact .inl (dif_neg upper)

/-- What is no letter has one case only. -/
theorem eq_of_toLower_eq {c d : Char} (h : c.toLower = d) (other : d.isLower = false) : c = d := by
  have letters : ∀ n < 26, (Char.ofNat (65 + n)).toLower.isLower = true := by decide
  rcases toLower_eq_self_or c with same | ⟨n, hn, rfl⟩
  · exact same.symm.trans h
  · rw [← h, letters n hn] at other
    cases other

theorem toLower_of_isBlank {c : Char} (h : isBlank c = true) : c.toLower = c := by
  have letters : ∀ n < 26, isBlank (Char.ofNat (65 + n)) = false := by decide
  rcases toLower_eq_self_or c with same | ⟨n, hn, rfl⟩
  · exact same
  · rw [letters n hn] at h
    cases h

/-- Most characters match their two cases only. -/
theorem folds_eq {w : Char} (other : w ≠ 's' ∧ w ≠ 'i') (c : Char) : folds w c = (c.toLower == w) := by
  unfold folds
  rw [beq_false_of_ne other.1, beq_false_of_ne other.2]
  simp

/-- A comma or a semicolon stands between parameters. -/
def IsMark (c : Char) : Prop := c = ',' ∨ c = ';'

instance (c : Char) : Decidable (IsMark c) := inferInstanceAs (Decidable (c = ',' ∨ c = ';'))

theorem eq_of_folds {w c : Char} (mark : IsMark w) (h : folds w c = true) : c = w := by
  have shape : (w ≠ 's' ∧ w ≠ 'i') ∧ w.isLower = false := by
    rcases mark with rfl | rfl <;> decide
  rw [folds_eq shape.1, beq_iff_eq] at h
  exact eq_of_toLower_eq h shape.2

theorem folds_mark {w c : Char} (mark : IsMark c) : folds w c = (w == c) := by
  have own : c.toLower = c ∧ (c == '\u017F') = false ∧ (c == '\u0130' || c == '\u0131') = false := by
    rcases mark with rfl | rfl <;> decide
  rw [folds, own.1, own.2.1, own.2.2, Bool.and_false, Bool.and_false, Bool.or_false, Bool.or_false]
  exact BEq.comm

/-- A text is a word that is given in lower case, whatever the case of its letters. -/
def Spelt (word s : List Char) : Prop := List.Forall₂ (fun w c => folds w c = true) word s

instance (word s : List Char) : Decidable (Spelt word s) :=
  inferInstanceAs (Decidable (List.Forall₂ (fun w c => folds w c = true) word s))

variable {word s t p front : List Char}

theorem after?_of_spelt (h : Spelt word front) (rest : List Char) : after? word (front ++ rest) = some rest := by
  induction h with
  | nil => rfl
  | cons same _ ih => rw [List.cons_append, after?, if_pos same, ih]

theorem exists_of_after? {rest : List Char} (h : after? word s = some rest) :
    ∃ front, Spelt word front ∧ s = front ++ rest := by
  fun_induction after? word s with
  | case1 s =>
    cases h
    exact ⟨[], .nil, rfl⟩
  | case2 => cases h
  | case3 w ws c s same ih =>
    obtain ⟨front, spelt, rfl⟩ := ih h
    exact ⟨c :: front, .cons same spelt, rfl⟩
  | case4 => cases h

theorem after?_append (word more s : List Char) :
    after? (word ++ more) s = (after? word s).bind (after? more) := by
  induction word generalizing s with
  | nil => rfl
  | cons w ws ih =>
    cases s with
    | nil => rfl
    | cons c rest =>
      rw [List.cons_append, after?, after?, ih]
      split <;> rfl

/-- No mark is in the text. -/
def Plain (s : List Char) : Prop := ∀ c ∈ s, ¬ IsMark c

instance (s : List Char) : Decidable (Plain s) := List.decidableBAll (fun c => ¬ IsMark c) s

/-- A word without marks is found before the next mark or not at all. -/
theorem after?_append_mark {mark : Char} (isMark : IsMark mark) (plain : Plain word) (p t : List Char) :
    after? word (p ++ mark :: t) = (after? word p).map (· ++ mark :: t) := by
  induction word generalizing p with
  | nil => rfl
  | cons w ws ih =>
    cases p with
    | nil =>
      -- the word goes on where the mark stands, and no mark is in it
      have stops : folds w mark = false := by
        rw [folds_mark isMark]
        exact beq_false_of_ne fun same => plain w List.mem_cons_self (same ▸ isMark)
      simp [after?, stops]
    | cons c rest =>
      rw [List.cons_append, after?, after?, ih fun d hd => plain d (List.mem_cons_of_mem w hd)]
      split <;> rfl

theorem after?_eq_nil_iff : after? word p = some [] ↔ Spelt word p := by
  constructor
  · intro h
    obtain ⟨front, spelt, rfl⟩ := exists_of_after? h
    rwa [List.append_nil]
  · intro h
    simpa using after?_of_spelt h []

/-! ## 2. Data URIs -/

/-- How a body is written. -/
inductive Coding where
  | base64
  | percent
  deriving DecidableEq, Repr

/-- The text of a body. -/
def Coding.read? : Coding → List Char → Option String
  | .base64, body => (Base64.decode? (dropBlanks body)).bind decodeUtf8?
  | .percent, body => some (String.ofList (Percent.decode body))

/-- A data URI of vector markup: whatever parameters it has, none of them has a comma or a semicolon in it. -/
structure Uri where
  head : List Char
  parameters : List (List Char)
  body : List Char
  spelt : Spelt scheme head
  plain : ∀ p ∈ parameters, Plain p

/-- The parameters and the body as they are written behind the scheme. -/
def writeRest (parameters : List (List Char)) (body : List Char) : List Char :=
  parameters.flatMap (';' :: ·) ++ ',' :: body

def Uri.text (u : Uri) : List Char := u.head ++ writeRest u.parameters u.body

/-- The coding of the body is base64 if the last parameter says so. -/
def codingOf (parameters : List (List Char)) : Coding :=
  match parameters.getLast? with
  | some p => if Spelt "base64".toList p then .base64 else .percent
  | none => .percent

/-- The markup that a URI stands for. -/
def Uri.content? (u : Uri) : Option String := (codingOf u.parameters).read? u.body

/-! ## 3. Parameters that are read -/

variable {parameters : List (List Char)}

/-- A parameter that names a character set. -/
def isCharset (p : List Char) : Bool :=
  match after? "charset=".toList p with
  | some (_ :: _) => true
  | _ => false

/-- The parameters behind the character set, if there is one in front. -/
def dropCharset : List (List Char) → List (List Char)
  | [] => []
  | p :: rest => if isCharset p then rest else p :: rest

/-- The coding that parameters name: there is none of them, or a single one that names it. -/
def named? : List (List Char) → Option Coding
  | [] => some .percent
  | [p] =>
    if Spelt "base64".toList p then some .base64
    else if Spelt "utf8".toList p then some .percent
    else none
  | _ :: _ :: _ => none

/-- The coding that parameters are read as, whatever character set is in front of the one that names it. -/
def readAs? (parameters : List (List Char)) : Option Coding := named? (dropCharset parameters)

theorem named?_eq_base64_iff (p : List Char) (rest : List (List Char)) :
    named? (p :: rest) = some .base64 ↔ Spelt "base64".toList p ∧ rest = [] := by
  cases rest with
  | nil =>
    rw [named?]
    split_ifs with base64 utf8 <;> simp_all
  | cons q more => simp [named?]

theorem named?_eq_percent_iff (p : List Char) (rest : List (List Char)) :
    named? (p :: rest) = some .percent ↔ Spelt "utf8".toList p ∧ rest = [] := by
  cases rest with
  | nil =>
    have apart (base64 : Spelt "base64".toList p) : ¬ Spelt "utf8".toList p := fun utf8 =>
      absurd (base64.length_eq.trans utf8.length_eq.symm) (by decide)
    rw [named?]
    split_ifs with base64 utf8 <;> simp_all
  | cons q more => simp [named?]

theorem not_isCharset_of_spelt {w : Char} {ws : List Char} (other : w ≠ 's' ∧ w ≠ 'i' ∧ w ≠ 'c')
    (h : Spelt (w :: ws) p) : isCharset p = false := by
  cases h with
  | @cons _ c _ rest same _ =>
    rw [folds_eq ⟨other.1, other.2.1⟩, beq_iff_eq] at same
    have apart : folds 'c' c = false := by
      rw [folds_eq (by decide), same]
      exact beq_false_of_ne other.2.2
    have none : after? "charset=".toList (c :: rest) = none := by
      change after? ('c' :: "harset=".toList) (c :: rest) = none
      rw [after?, apart]
      rfl
    rw [isCharset, none]

theorem codingOf_dropCharset (parameters : List (List Char)) :
    codingOf (dropCharset parameters) = codingOf parameters := by
  cases parameters with
  | nil => rfl
  | cons p rest =>
    rw [dropCharset]
    split
    · rename_i charset
      cases rest with
      | nil =>
        have other : ¬ Spelt "base64".toList p := fun spelt => by
          rw [not_isCharset_of_spelt (by decide) spelt] at charset
          cases charset
        exact (if_neg other).symm
      | cons q more =>
        unfold codingOf
        rw [List.getLast?_cons_cons]
    · rfl

theorem codingOf_eq_of_named? {k : Coding} (h : named? parameters = some k) : codingOf parameters = k := by
  fun_cases named? parameters with
  | case1 =>
    cases h
    rfl
  | case2 p base64 =>
    rw [named?, if_pos base64] at h
    cases h
    exact if_pos base64
  | case3 p base64 utf8 =>
    rw [named?, if_neg base64, if_pos utf8] at h
    cases h
    exact if_neg base64
  | case4 p base64 utf8 =>
    rw [named?, if_neg base64, if_neg utf8] at h
    cases h
  | case5 => cases h

/-- Parameters are read as no other coding than their own. -/
theorem codingOf_eq_of_readAs? {k : Coding} (h : readAs? parameters = some k) : codingOf parameters = k := by
  rw [← codingOf_dropCharset]
  exact codingOf_eq_of_named? h

/-! ## 4. Reading the front of a URI -/

theorem writeRest_cons (p : List Char) (rest : List (List Char)) (body : List Char) :
    writeRest (p :: rest) body = ';' :: (p ++ writeRest rest body) := by
  simp [writeRest]

theorem writeRest_eq_mark (parameters : List (List Char)) (body : List Char) :
    ∃ mark t, IsMark mark ∧ writeRest parameters body = mark :: t := by
  cases parameters with
  | nil => exact ⟨',', body, .inl rfl, rfl⟩
  | cons p rest => exact ⟨';', p ++ writeRest rest body, .inr rfl, writeRest_cons p rest body⟩

/-- Behind a semicolon it is the next parameter that is looked at. -/
theorem after?_semicolon (word p : List Char) (rest : List (List Char)) (body : List Char) :
    after? (';' :: word) (writeRest (p :: rest) body) = after? word (p ++ writeRest rest body) := by
  rw [writeRest_cons]
  rfl

/-- A word without marks is found in the parameter that comes next or not at all. -/
theorem after?_append_writeRest (plain : Plain word) (p : List Char) (rest : List (List Char))
    (body : List Char) :
    after? word (p ++ writeRest rest body) = (after? word p).map (· ++ writeRest rest body) := by
  obtain ⟨mark, t, isMark, shape⟩ := writeRest_eq_mark rest body
  rw [shape, after?_append_mark isMark plain]

theorem inParameter_iff (c : Char) : inParameter c = true ↔ ¬ IsMark c := by
  simp [inParameter, IsMark]

theorem Plain.of_after? {rest : List Char} (plain : Plain p) (h : after? word p = some rest) : Plain rest := by
  obtain ⟨front, -, rfl⟩ := exists_of_after? h
  exact fun c hc => plain c (List.mem_append_right front hc)

theorem skipCharset_writeRest (plain : ∀ p ∈ parameters, Plain p) (body : List Char) :
    skipCharset (writeRest parameters body) = writeRest (dropCharset parameters) body := by
  cases parameters with
  | nil => rfl
  | cons p rest =>
    have own : after? ";charset=".toList (writeRest (p :: rest) body) =
        (after? "charset=".toList p).map (· ++ writeRest rest body) :=
      (after?_semicolon "charset=".toList p rest body).trans (after?_append_writeRest (by decide) p rest body)
    unfold skipCharset
    rw [own, dropCharset, isCharset]
    cases found : after? "charset=".toList p with
    | none => rfl
    | some value =>
      -- the value ends at the next mark, and an empty one is no character set
      have values : ∀ c ∈ value, inParameter c = true := fun c hc =>
        (inParameter_iff c).mpr ((plain p List.mem_cons_self).of_after? found c hc)
      obtain ⟨mark, t, isMark, shape⟩ := writeRest_eq_mark rest body
      have stop : inParameter mark = false := by
        rw [Bool.eq_false_iff, ne_eq, inParameter_iff]
        exact not_not_intro isMark
      have taken : (value ++ writeRest rest body).takeWhile inParameter = value := by
        rw [List.takeWhile_append_of_pos values, shape, List.takeWhile_cons_of_neg (by simp [stop]),
          List.append_nil]
      have dropped : (value ++ writeRest rest body).dropWhile inParameter = writeRest rest body := by
        rw [List.dropWhile_append_of_pos values, shape, List.dropWhile_cons_of_neg (by simp [stop])]
      simp only [Option.map_some, taken, dropped]
      cases value <;> rfl

/-- A comma follows only where there is nothing left of a parameter, and no other one. -/
theorem after?_comma (plain : Plain p) (rest : List (List Char)) (body : List Char) :
    after? [','] (p ++ writeRest rest body) = if p = [] ∧ rest = [] then some body else none := by
  cases p with
  | nil =>
    cases rest with
    | nil => rfl
    | cons q more =>
      rw [List.nil_append, writeRest_cons, if_neg (by simp)]
      rfl
  | cons c t =>
    have apart : folds ',' c = false := by
      rw [Bool.eq_false_iff]
      exact fun same => plain c List.mem_cons_self (.inl (eq_of_folds (.inl rfl) same))
    rw [List.cons_append, after?, apart, if_neg (by simp)]
    rfl

/-- One parameter behind another text: a word, and a comma behind it. -/
theorem after?_word_comma (plain : Plain word) (own : Plain p) (rest : List (List Char)) (body : List Char) :
    (after? word (p ++ writeRest rest body)).bind (after? [',']) =
      if Spelt word p ∧ rest = [] then some body else none := by
  rw [after?_append_writeRest plain]
  cases found : after? word p with
  | none =>
    have other : ¬ Spelt word p := fun spelt => by
      rw [after?_eq_nil_iff.mpr spelt] at found
      cases found
    rw [if_neg fun h => other h.1]
    rfl
  | some q =>
    have same : q = [] ↔ Spelt word p := by
      rw [← after?_eq_nil_iff, found, Option.some_inj]
    rw [Option.map_some, Option.bind_some, after?_comma (own.of_after? found)]
    simp only [same]

/-! ## 5. What comes of a URI -/

variable (u : Uri)

theorem Uri.plain_dropCharset : ∀ p ∈ dropCharset u.parameters, Plain p := by
  have plain := u.plain
  cases h : u.parameters with
  | nil => exact fun p hp => absurd hp List.not_mem_nil
  | cons q rest =>
    rw [h] at plain
    rw [dropCharset]
    split
    · exact fun p hp => plain p (List.mem_cons_of_mem q hp)
    · exact plain

/-- What is looked for behind the scheme and the character set of a URI. -/
theorem Uri.bind_after?_scheme (look : List Char → Option (List Char)) :
    ((after? scheme u.text).bind fun rest => look (skipCharset rest)) =
      look (writeRest (dropCharset u.parameters) u.body) := by
  rw [Uri.text, after?_of_spelt u.spelt, Option.bind_some, skipCharset_writeRest u.plain]

theorem base64Body?_text :
    base64Body? u.text = if readAs? u.parameters = some .base64 then some u.body else none := by
  have found : base64Body? u.text =
      (after? ";base64".toList (writeRest (dropCharset u.parameters) u.body)).bind (after? [',']) :=
    (u.bind_after?_scheme (after? ";base64,".toList)).trans (after?_append ";base64".toList [','] _)
  have plain := u.plain_dropCharset
  rw [found, readAs?]
  cases dropped : dropCharset u.parameters with
  | nil => rfl
  | cons p rest =>
    rw [dropped] at plain
    have behind : after? ";base64".toList (writeRest (p :: rest) u.body) =
        after? "base64".toList (p ++ writeRest rest u.body) := after?_semicolon _ _ _ _
    rw [behind, after?_word_comma (by decide) (plain p List.mem_cons_self)]
    simp only [named?_eq_base64_iff]

theorem percentBody?_text :
    percentBody? u.text = if readAs? u.parameters = some .percent then some u.body else none := by
  have found : percentBody? u.text =
      after? [','] (skipWord ";utf8".toList (writeRest (dropCharset u.parameters) u.body)) :=
    u.bind_after?_scheme fun rest => after? [','] (skipWord ";utf8".toList rest)
  have plain := u.plain_dropCharset
  rw [found, readAs?]
  cases dropped : dropCharset u.parameters with
  | nil => rfl
  | cons p rest =>
    rw [dropped] at plain
    have behind : after? ";utf8".toList (writeRest (p :: rest) u.body) =
        after? "utf8".toList (p ++ writeRest rest u.body) := after?_semicolon _ _ _ _
    -- where the word is not there, a semicolon stands where the comma should
    have skipped : after? [','] (skipWord ";utf8".toList (writeRest (p :: rest) u.body)) =
        (after? "utf8".toList (p ++ writeRest rest u.body)).bind (after? [',']) := by
      rw [skipWord, behind]
      cases after? "utf8".toList (p ++ writeRest rest u.body) with
      | none => rw [writeRest_cons]; rfl
      | some t => rfl
    rw [skipped, after?_word_comma (by decide) (plain p List.mem_cons_self)]
    simp only [named?_eq_percent_iff]

/-- **A URI is read as its parameters are, and where they are not understood it is taken as it stands.** -/
theorem unwrap?_of_uri {s : String} (h : trimBoth isBlank s.toList = u.text) :
    unwrap? s = match readAs? u.parameters with
      | some coding => coding.read? u.body
      | none => some (trimBlank s) := by
  unfold unwrap?
  dsimp only
  rw [h, base64Body?_text, percentBody?_text]
  cases readAs? u.parameters with
  | none => simp [trimBlank, h]
  | some coding => cases coding <;> rfl

theorem Coding.length_read?_le {coding : Coding} {body : List Char} {t : String}
    (h : coding.read? body = some t) : t.toList.length ≤ body.length := by
  cases coding with
  | base64 =>
    obtain ⟨bytes, read, text⟩ := Option.bind_eq_some_iff.mp h
    calc t.toList.length
        ≤ bytes.length := length_decodeUtf8?_le text
      _ ≤ (dropBlanks body).length := Base64.length_decode?_le read
      _ ≤ body.length := List.length_filter_le _ _
  | percent =>
    cases h
    rw [String.toList_ofList]
    exact Percent.length_decode_le body

theorem Uri.length_body_lt : u.body.length < u.text.length := by
  simp only [Uri.text, writeRest, List.length_append, List.length_cons]
  omega

/-- No URI is what its body is read as: reading makes nothing longer. -/
theorem Uri.content?_ne {s : String} (h : trimBoth isBlank s.toList = u.text) : u.content? ≠ some (trimBlank s) := by
  intro same
  have short := Coding.length_read?_le same
  rw [trimBlank, String.toList_ofList, h] at short
  exact absurd u.length_body_lt (Nat.not_lt.mpr short)

/-- What passes for markup is what has come out, or nothing passes. -/
theorem filter_eq_none_or (o : Option String) : o.filter hasVector = none ∨ o.filter hasVector = o := by
  cases o with
  | none => exact .inl rfl
  | some t => cases h : hasVector t <;> simp [Option.filter, h]

/-- **What comes of a data URI.**  The markup that it stands for comes out if its parameters are understood, and else
the URI itself, as far as there is an `<svg` in it.  So anything but the decoded body comes out exactly if the
parameters are not understood and there is one. -/
theorem markup?_uri {s : String} (h : trimBoth isBlank s.toList = u.text) :
    markup? (.text s) =
        (if (readAs? u.parameters).isSome then u.content? else some (trimBlank s)).filter hasVector ∧
      (markup? (.text s) = none ∨ markup? (.text s) = u.content? ↔
        (readAs? u.parameters).isSome ∨ hasVector (trimBlank s) = false) := by
  have whole : markup? (.text s) = (unwrap? s).filter hasVector := rfl
  rw [whole, unwrap?_of_uri u h]
  cases understood : readAs? u.parameters with
  | some coding =>
    have own : coding.read? u.body = u.content? := by rw [Uri.content?, codingOf_eq_of_readAs? understood]
    simp only [own, Option.isSome_some, if_true, true_or, iff_true, true_and]
    exact filter_eq_none_or u.content?
  | none =>
    refine ⟨rfl, ?_⟩
    -- what comes out is not the body, for it is longer
    have other := u.content?_ne h
    dsimp only
    cases image : hasVector (trimBlank s) with
    | true =>
      have passed : (some (trimBlank s)).filter hasVector = some (trimBlank s) :=
        Option.filter_eq_some_iff.mpr ⟨rfl, image⟩
      rw [passed]
      simp [Ne.symm other]
    | false => simp [image]

/-- A URI with a character set and a coding, in letters of both cases and between blanks. -/
theorem markup?_uri_padded :
    let u : Uri := ⟨"DATA:image/svg+xml".toList, ["charset=utf-8".toList, "Base64".toList],
      "PHN2 Zz48L3N2Zz4=".toList, by decide, by decide⟩
    let s := " DATA:image/svg+xml;charset=utf-8;Base64,PHN2 Zz48L3N2Zz4=\n"
    trimBoth isBlank s.toList = u.text ∧ u.content? = some "<svg></svg>" ∧
      markup? (.text s) = some "<svg></svg>" := by
  intro u s
  have trimmed : trimBoth isBlank s.toList = u.text := by decide
  have content : u.content? = some "<svg></svg>" := by decide +kernel
  have read : (readAs? u.parameters).isSome := by decide
  refine ⟨trimmed, content, ?_⟩
  rw [(markup?_uri u trimmed).1, if_pos read, content]
  decide

/-- A URI whose only parameter is neither a character set nor a coding comes out whole, and so does its scheme. -/
theorem markup?_uri_bare_charset :
    let u : Uri := ⟨scheme, ["utf-8".toList], "<svg></svg>".toList, by decide, by decide⟩
    let s := "data:image/svg+xml;utf-8,<svg></svg>"
    trimBoth isBlank s.toList = u.text ∧ u.content? = some "<svg></svg>" ∧ markup? (.text s) = some s := by
  intro u s
  exact ⟨by decide, by decide +kernel, by decide +kernel⟩

end Artboard.Payload
