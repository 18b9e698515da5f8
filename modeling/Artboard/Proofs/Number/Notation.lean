import Artboard.Number.Basic
import Mathlib.Data.List.TakeWhile

/-!
# The notation of numbers in styles

Whatever number a style holds, what is written is a numeral of one small grammar: digits, then maybe a point
with digits, then maybe a power of ten, and a minus in front of a negative number (`Numeral.Signed`).  So a
numeral starts with a digit or a minus (`Signed.start`), is made of few characters (`Signed.parts`), and
can be read as a decimal again (`Signed.reads`).  `Number.format_signed` is the main result.
-/

namespace Artboard

/-! ## 1. Lists of digits -/

/-- Digits only, and at least one. -/
def Digits (s : List Char) : Prop := s ≠ [] ∧ ∀ c ∈ s, c.isDigit = true

theorem digits_zero : Digits ['0'] := ⟨List.cons_ne_nil _ _, List.forall_mem_singleton.mpr rfl⟩

theorem digits_digitsOf (n : Nat) : Digits (digitsOf n) :=
  ⟨Nat.toDigits_ne_nil, fun _ h => Nat.isDigit_of_mem_toDigits (by decide) (by decide) h⟩

theorem Digits.append {s t : List Char} (hs : Digits s) (ht : ∀ c ∈ t, c.isDigit = true) :
    Digits (s ++ t) :=
  ⟨fun h => hs.1 (List.append_eq_nil_iff.mp h).1,
    fun c h => (List.mem_append.mp h).elim (hs.2 c) (ht c)⟩

theorem isDigit_of_mem_zeros {n : Nat} {c : Char} (h : c ∈ List.replicate n '0') : c.isDigit = true := by
  rw [List.eq_of_mem_replicate h]
  decide

/-! ## 2. The grammar -/

namespace Numeral

/-- The end of a numeral: nothing, or a power of ten with its sign. -/
inductive Ending : List Char → Prop where
  | none : Ending []
  | power {sign : Char} {digits : List Char} (signed : sign = '+' ∨ sign = '-') (h : Digits digits) :
      Ending ('e' :: sign :: digits)

/-- A numeral without sign. -/
inductive Unsigned : List Char → Prop where
  | whole {digits ending : List Char} (h : Digits digits) (he : Ending ending) :
      Unsigned (digits ++ ending)
  | fraction {digits part ending : List Char} (h : Digits digits) (hp : ∀ c ∈ part, c.isDigit = true)
      (he : Ending ending) : Unsigned (digits ++ '.' :: (part ++ ending))

/-- A numeral as it is written into a style. -/
inductive Signed : List Char → Prop where
  | plain {s : List Char} (h : Unsigned s) : Signed s
  | negative {s : List Char} (h : Unsigned s) : Signed ('-' :: s)

/-- A character of such a numeral. -/
def isPart (c : Char) : Bool := c.isDigit || c == '.' || c == 'e' || c == '+' || c == '-'

theorem isPart_of_isDigit {c : Char} (h : c.isDigit = true) : isPart c = true := by
  simp [isPart, h]

/-- The numeral can be read as a decimal behind its sign. -/
def reads : List Char → Bool
  | '-' :: rest => (decimal? rest).isSome
  | s => (decimal? s).isSome

/-! ## 3. What a numeral is made of -/

theorem Ending.parts {s : List Char} (h : Ending s) : ∀ c ∈ s, isPart c = true := by
  cases h with
  | none => simp
  | power signed hd =>
    intro c hc
    rcases List.mem_cons.mp hc with rfl | hc
    · decide
    · rcases List.mem_cons.mp hc with rfl | hc
      · rcases signed with rfl | rfl <;> decide
      · exact isPart_of_isDigit (hd.2 c hc)

theorem Unsigned.parts {s : List Char} (h : Unsigned s) : ∀ c ∈ s, isPart c = true := by
  intro c hc
  cases h with
  | whole hd he =>
    exact (List.mem_append.mp hc).elim (fun hc => isPart_of_isDigit (hd.2 c hc)) (he.parts c)
  | fraction hd hp he =>
    rcases List.mem_append.mp hc with hc | hc
    · exact isPart_of_isDigit (hd.2 c hc)
    · rcases List.mem_cons.mp hc with rfl | hc
      · decide
      · exact (List.mem_append.mp hc).elim (fun hc => isPart_of_isDigit (hp c hc)) (he.parts c)

/-- A numeral has no other characters. -/
theorem Signed.parts {s : List Char} (h : Signed s) : ∀ c ∈ s, isPart c = true := by
  cases h with
  | plain h => exact h.parts
  | negative h =>
    intro c hc
    rcases List.mem_cons.mp hc with rfl | hc
    · decide
    · exact h.parts c hc

theorem Unsigned.start {s : List Char} (h : Unsigned s) : ∃ c rest, s = c :: rest ∧ c.isDigit = true := by
  cases h with
  | whole hd _ | fraction hd _ _ =>
    obtain ⟨c, rest, rfl⟩ := List.exists_cons_of_ne_nil hd.1
    exact ⟨c, _, rfl, hd.2 c List.mem_cons_self⟩

/-- A numeral starts with a digit or a minus. -/
theorem Signed.start {s : List Char} (h : Signed s) :
    ∃ c rest, s = c :: rest ∧ (c.isDigit = true ∨ c = '-') := by
  cases h with
  | plain h =>
    obtain ⟨c, rest, rfl, hc⟩ := h.start
    exact ⟨c, rest, rfl, .inl hc⟩
  | negative h => exact ⟨'-', _, rfl, .inr rfl⟩

/-! ## 4. Reading a numeral -/

/-- Characters of a kind are taken up to the first one of another kind. -/
theorem takeWhile_append_stop {p : Char → Bool} {s t : List Char} (h : ∀ c ∈ s, p c = true)
    (stop : t.takeWhile p = []) : (s ++ t).takeWhile p = s ∧ (s ++ t).dropWhile p = t := by
  refine ⟨by rw [List.takeWhile_append_of_pos h, stop, List.append_nil], ?_⟩
  rw [List.dropWhile_append_of_pos h]
  cases t with
  | nil => rfl
  | cons c rest =>
    cases hc : p c with
    | true => simp [hc] at stop
    | false => simp [hc]

theorem Ending.stop {s : List Char} (h : Ending s) : s.takeWhile Char.isDigit = [] := by
  cases h with
  | none => rfl
  | power _ _ => rfl

theorem Ending.reads {s : List Char} (h : Ending s) : (power? s).isSome = true := by
  cases h with
  | none => rfl
  | power signed hd =>
    have hall := List.all_eq_true.mpr hd.2
    rcases signed with rfl | rfl <;> simp [power?, takeSign, hd.1, hall]

theorem Unsigned.reads {s : List Char} (h : Unsigned s) : (decimal? s).isSome = true := by
  unfold decimal?
  cases h with
  | @whole digits ending hd he =>
    obtain ⟨htake, hdrop⟩ := takeWhile_append_stop hd.2 he.stop
    rw [htake, hdrop]
    cases he with
    | none => simp [hd.1, power?]
    | power signed hp => simpa [hd.1] using (Ending.power signed hp).reads
  | @fraction digits part ending hd hp he =>
    obtain ⟨htake, hdrop⟩ := takeWhile_append_stop (t := '.' :: (part ++ ending)) hd.2 rfl
    obtain ⟨htake', hdrop'⟩ := takeWhile_append_stop hp he.stop
    rw [htake, hdrop]
    simp [htake', hdrop', hd.1, he.reads]

/-- A numeral can be read. -/
theorem Signed.reads {s : List Char} (h : Signed s) : reads s = true := by
  cases h with
  | negative h => exact h.reads
  | plain h =>
    obtain ⟨c, rest, hs, hc⟩ := h.start
    subst hs
    unfold Numeral.reads
    split
    · rename_i heq
      obtain ⟨rfl, -⟩ := List.cons.inj heq
      exact absurd hc (by decide)
    · exact h.reads

end Numeral

open Numeral

/-! ## 5. Integers -/

/-- The characters of an integer: its digits, behind a minus where it is negative. -/
theorem toList_toString (i : Int) :
    (toString i).toList = if 0 ≤ i then digitsOf i.natAbs else '-' :: digitsOf i.natAbs := by
  have h : toString i = i.repr := rfl
  rw [h, Int.repr_eq_if]
  split
  · have hi : i.toNat = i.natAbs := by omega
    rw [Nat.toList_repr, hi]
    rfl
  · have hi : (-i).toNat = i.natAbs := by omega
    rw [String.toList_append, Nat.toList_repr, hi]
    rfl

theorem signed_toString (i : Int) : Signed (toString i).toList := by
  have digits : Unsigned (digitsOf i.natAbs) := by
    have := Unsigned.whole (digits_digitsOf i.natAbs) .none
    rwa [List.append_nil] at this
  rw [toList_toString]
  split
  · exact .plain digits
  · exact .negative digits

namespace Numeral

/-- The integer that characters spell: digits, behind a minus for a negative one. -/
def integer? : List Char → Option Int
  | '-' :: digits => if digits.all Char.isDigit then some (-(Nat.ofDigitChars 10 digits 0 : Int)) else none
  | digits => if digits.all Char.isDigit then some (Nat.ofDigitChars 10 digits 0 : Int) else none

theorem integer?_digits {digits : List Char} (h : ∀ c ∈ digits, c.isDigit = true) :
    integer? digits = some (Nat.ofDigitChars 10 digits 0 : Int) := by
  unfold integer?
  split
  · exact absurd (h '-' List.mem_cons_self) (by decide)
  · rw [if_pos (List.all_eq_true.mpr h)]

/-- An integer is read as it was written. -/
theorem integer?_toString (i : Int) : integer? (toString i).toList = some i := by
  have digits := (digits_digitsOf i.natAbs).2
  have value : Nat.ofDigitChars 10 (digitsOf i.natAbs) 0 = i.natAbs := Nat.ofDigitChars_ten_toDigits
  rw [toList_toString]
  split
  · rw [integer?_digits digits, value]
    congr 1
    omega
  · have minus : integer? ('-' :: digitsOf i.natAbs) = if (digitsOf i.natAbs).all Char.isDigit then
        some (-(Nat.ofDigitChars 10 (digitsOf i.natAbs) 0 : Int)) else none := rfl
    rw [minus, if_pos (List.all_eq_true.mpr digits), value]
    congr 1
    omega

end Numeral

/-! ## 6. Doubles -/

/-- Digits of zero only spell zero. -/
private theorem ofDigitChars_zeros (s : List Char) (h : ∀ c ∈ s, c = '0') : Nat.ofDigitChars 10 s 0 = 0 := by
  rw [List.eq_replicate_of_mem h]
  induction s.length with
  | zero => rfl
  | succ n ih => exact ih

/-- A positive decimal has significant digits. -/
theorem Decimal.digits_significant {d : Decimal} (h : 0 < d.coefficient) : Digits d.significant := by
  refine ⟨fun hs => ?_, fun c hc => (digits_digitsOf d.coefficient).2 c ?_⟩
  · have zeros : ∀ c ∈ digitsOf d.coefficient, c = '0' := by
      simpa [Decimal.significant, List.dropWhile_eq_nil_iff] using hs
    have value := ofDigitChars_zeros _ zeros
    unfold digitsOf at value
    rw [Nat.ofDigitChars_ten_toDigits] at value
    omega
  · have hc := (List.dropWhile_sublist _).subset (List.mem_reverse.mp hc)
    exact List.mem_reverse.mp hc

theorem Decimal.unsigned_positional {digits : List Char} (h : Digits digits) (point : Int) :
    Unsigned (Decimal.positional digits point) := by
  unfold Decimal.positional
  split
  · have part : ∀ c ∈ List.replicate (-point).toNat '0' ++ digits, c.isDigit = true :=
      fun c hc => (List.mem_append.mp hc).elim isDigit_of_mem_zeros (h.2 c)
    have := Unsigned.fraction digits_zero part .none
    rwa [List.append_nil] at this
  · split
    · exact .fraction (h.append fun c hc => isDigit_of_mem_zeros hc) digits_zero.2 .none
    · have lead : Digits (digits.take point.toNat) := by
        refine ⟨fun hn => ?_, fun c hc => h.2 c (List.mem_of_mem_take hc)⟩
        rcases List.take_eq_nil_iff.mp hn with h0 | h0
        · omega
        · exact h.1 h0
      have part : ∀ c ∈ digits.drop point.toNat, c.isDigit = true :=
        fun c hc => h.2 c (List.mem_of_mem_drop hc)
      have := Unsigned.fraction lead part .none
      rwa [List.append_nil] at this

theorem Decimal.unsigned_scientific {digits : List Char} (h : Digits digits) (power : Int) :
    Unsigned (Decimal.scientific digits power) := by
  obtain ⟨c, tail, rfl⟩ := List.exists_cons_of_ne_nil h.1
  have lead : Digits [c] := ⟨by simp, by simpa using h.2 c List.mem_cons_self⟩
  have ending (magnitude : List Char) (hm : Digits magnitude) :
      Ending ('e' :: (if power < 0 then '-' else '+') :: magnitude) := by
    refine .power ?_ hm
    split
    · exact .inr rfl
    · exact .inl rfl
  have padded : Digits (if (digitsOf power.natAbs).length < 2 then '0' :: digitsOf power.natAbs
      else digitsOf power.natAbs) := by
    split
    · exact digits_zero.append (digits_digitsOf _).2
    · exact digits_digitsOf _
  unfold Decimal.scientific
  cases tail with
  | nil => exact .whole lead (ending _ padded)
  | cons b rest =>
    have part : ∀ a ∈ b :: rest, a.isDigit = true := fun a ha => h.2 a (List.mem_cons_of_mem _ ha)
    have := Unsigned.fraction lead part (ending _ padded)
    simpa using this

theorem Decimal.unsigned_text {d : Decimal} (h : 0 < d.coefficient) : Unsigned d.text := by
  unfold Decimal.text
  dsimp only
  split
  · exact unsigned_positional (digits_significant h) _
  · exact unsigned_scientific (digits_significant h) _

theorem roundUnits_zero (den : Nat) : roundUnits 0 den = 0 := by
  simp [roundUnits, roundDiv]

/-- Zero does not read back as a positive number of units. -/
private theorem not_readsBack_zero {units drop : Nat} (h : 0 < units) : readsBack units drop 0 = false := by
  unfold readsBack
  rw [Nat.zero_mul, roundUnits_zero, beq_eq_false_iff_ne]
  exact h.ne

theorem exactCoefficient_pos {units : Nat} (h : 0 < units) : 0 < exactCoefficient units := by
  unfold exactCoefficient
  generalize 1074 = n
  exact Nat.mul_pos h (Nat.pow_pos (by decide))

theorem nearerHit?_pos {lowReads highReads : Bool} {low rest grid c : Nat}
    (hl : lowReads = true → 0 < low) (h : nearerHit? lowReads highReads low rest grid = some c) : 0 < c := by
  unfold nearerHit? at h
  split at h
  · obtain rfl := Option.some.inj h
    split
    · exact hl rfl
    · split
      · exact Nat.succ_pos _
      · split
        · exact hl rfl
        · exact Nat.succ_pos _
  · obtain rfl := Option.some.inj h
    exact hl rfl
  · obtain rfl := Option.some.inj h
    exact Nat.succ_pos _
  · cases h

theorem gridHit?_pos {units drop c : Nat} (h : 0 < units) (hc : gridHit? units drop = some c) : 0 < c := by
  unfold gridHit? at hc
  refine nearerHit?_pos (fun hl => Nat.pos_of_ne_zero fun h0 => ?_) hc
  rw [h0, not_readsBack_zero h] at hl
  exact Bool.false_ne_true hl

/-- The fewest digits of a positive number are not zero. -/
theorem shortest_pos {units : Nat} (h : 0 < units) {d : Decimal} (hd : shortest units = d) :
    0 < d.coefficient := by
  unfold shortest at hd
  dsimp only at hd
  generalize hf : List.findSome? _ _ = found at hd
  cases found with
  | none =>
    rw [Option.getD_none] at hd
    rw [← hd]
    exact exactCoefficient_pos h
  | some d =>
    rw [Option.getD_some] at hd
    obtain ⟨i, _, hi⟩ := List.exists_of_findSome?_eq_some hf
    obtain ⟨c, hc, hi⟩ := Option.map_eq_some_iff.mp hi
    rw [← hd, ← hi]
    exact gridHit?_pos h hc

theorem signed_finite (negative : Bool) (units : Nat) (fits : Fits units) :
    Signed (Binary64.finite negative units fits).text.toList := by
  have digits : Unsigned (if units = 0 then ['0', '.', '0'] else (shortest units).text) := by
    split
    · exact .fraction digits_zero digits_zero.2 .none
    · exact Decimal.unsigned_text (shortest_pos (by omega) rfl)
  unfold Binary64.text
  dsimp only
  rw [String.toList_ofList]
  cases negative with
  | false =>
    rw [if_neg Bool.false_ne_true]
    exact .plain digits
  | true =>
    rw [if_pos rfl]
    exact .negative digits

theorem Binary64.ofRatio_ne_nan (negative : Bool) (num den : Nat) : ofRatio negative num den ≠ .nan := by
  unfold ofRatio
  split <;> exact nofun

theorem Binary64.ofDecimal_ne_nan (negative : Bool) (d : Decimal) : ofDecimal negative d ≠ .nan := by
  unfold ofDecimal
  dsimp only
  split
  · exact ofRatio_ne_nan _ _ _
  · split
    · exact nofun
    · split <;> exact ofRatio_ne_nan _ _ _

theorem Binary64.roundTo_finite_ne_nan {negative : Bool} {units : Nat} {fits : Fits units} (places : Int) :
    (finite negative units fits).roundTo places ≠ .nan := by
  unfold roundTo
  exact ofDecimal_ne_nan _ _

theorem Binary64.format_signed {places : Int} {x : Binary64} {s : String}
    (h : x.format places = .ok s) : Signed s.toList := by
  cases x with
  | nan => cases h
  | infinity _ => cases h
  | finite negative units fits =>
    unfold Binary64.format at h
    dsimp only at h
    split at h
    · rw [← Except.ok.inj h]
      exact signed_toString _
    · cases hv : (Binary64.finite negative units fits).roundTo places with
      | nan => exact absurd hv (roundTo_finite_ne_nan _)
      | infinity t =>
        rw [hv] at h
        cases h
      | finite t u f =>
        rw [hv] at h
        dsimp only at h
        rw [← Except.ok.inj h]
        exact signed_finite t u f

/-- **A number that can be written into a style is a numeral there.** -/
theorem Number.format_signed {places : Int} {n : Number} {s : String} (h : n.format places = .ok s) :
    Signed s.toList := by
  unfold Number.format at h
  cases hx : n.toDouble with
  | error e =>
    rw [hx] at h
    cases h
  | ok x =>
    rw [hx] at h
    exact Binary64.format_signed h

end Artboard
