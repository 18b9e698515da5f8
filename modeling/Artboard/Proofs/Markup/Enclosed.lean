import Artboard.Proofs.Markup.RoundTrip
import Artboard.Proofs.Pruning
import Artboard.Proofs.Script.Module
import Mathlib.Data.Bool.AllAny

/-!
# Markup in a module

A module that markup stands in is read past it: what the reader of markup scans to tokens, the reader of modules scans
to the brackets of these tokens, as long as it is inside of others (`Reader.scanModule_of_scan`).  The tokens of
markup leave no bracket over (`Reader.closes_tokens`), so legible markup is enclosed by the brackets around it
(`Markup.isEnclosed_print`), and so is what a composition prints (`Composition.isEnclosed_text`).
-/

namespace Artboard

open Script

namespace Reader

variable {around after : List Char} {c : Char} {s t : Scan} {ts us : List Token}

/-! ## 1. One scan follows the other -/

/-- What a scan of markup is in the middle of, for a scan of a module in which the markup stands. -/
def within : Scan → Within
  | .between | .name _ | .digits _ => .code
  | .plain _ => .plain
  | .literal read => .literal read
  | .escape read => .escape read
  | .template _ afterDollar => .template afterDollar
  | .templateEscape _ => .templateEscape

/-- The brackets around after some tokens: braces only, and those around from the start are not left. -/
def braces? (around : List Char) : List Token → Option (List Char)
  | [] => some around
  | .leftBrace :: ts => braces? ('\x7b' :: around) ts
  | .rightBrace :: ts =>
    if around.head? = some '\x7b' ∧ around.tail ≠ [] then braces? around.tail ts else none
  | _ :: ts => braces? around ts

theorem braces?_append : braces? around (ts ++ us) = (braces? around ts).bind (braces? · us) := by
  induction ts generalizing around with
  | nil => rfl
  | cons first ts ih =>
    cases first with
    | leftBrace => exact ih
    | rightBrace =>
      rw [List.cons_append, braces?, braces?]
      split
      · exact ih
      · rfl
    | _ => exact ih

theorem braces?_ne_nil (given : around ≠ []) (h : braces? around ts = some after) : after ≠ [] := by
  induction ts generalizing around with
  | nil => exact Option.some.inj h ▸ given
  | cons first ts ih =>
    cases first with
    | leftBrace => exact ih (List.cons_ne_nil _ _) h
    | rightBrace =>
      unfold braces? at h
      split at h
      · rename_i inner
        exact ih inner.2 h
      · cases h
    | _ => exact ih given h

/-- A character that is part of a name or of a numeral is no delimiter. -/
theorem not_isDelimiter {p : Char → Bool} (others : ∀ d ∈ "'\x22\x60([\x7b)]\x7d".toList, p d = false)
    (h : p c = true) : isDelimiter c = false := by
  rw [Bool.eq_false_iff]
  intro delimits
  have known : c ∈ "'\x22\x60([\x7b)]\x7d".toList := by
    unfold isDelimiter closing? isClosing at delimits
    split at delimits
    · decide
    · decide
    · decide
    · simp at delimits ⊢
      tauto
  rw [others c known] at h
  cases h

/-- A token of a single character: only braces are brackets of a module too. -/
theorem start_of_single {token : Token} (given : around ≠ []) (h : single? c = some token)
    (left : braces? around [token] = some after) : Spot.start around c = some (⟨after, .code⟩, []) := by
  unfold single? at h
  split at h
  -- an open brace
  case h_5 =>
    cases h
    cases left
    rfl
  -- a closed brace
  case h_6 =>
    cases h
    unfold braces? at left
    split at left
    · rename_i inner
      obtain ⟨outer, rfl⟩ := List.head?_eq_some_iff.mp inner.1
      have further : outer ≠ [] := inner.2
      cases left
      simp [Spot.start, closing?, isClosing, Spot.close, Spot.outside, further]
    · cases left
  case h_9 => cases h
  all_goals
    cases h
    cases left
    exact start_of_not_isDelimiter given (by decide)

/-- The start of a token of markup in a module. -/
theorem start_of_start (given : around ≠ []) (h : Scan.start c = some (t, ts)) (left : braces? around ts = some after) :
    Spot.start around c = some (⟨after, within t⟩, []) := by
  unfold Scan.start at h
  have inside : around.isEmpty = false := by simpa using given
  by_cases blank : c = ' ' ∨ c = '\n'
  · rw [if_pos blank] at h
    cases h
    cases left
    unfold Spot.start
    rw [if_pos blank]
    rfl
  rw [if_neg blank] at h
  by_cases double : c = '\x22'
  · subst double
    cases h
    cases left
    simp [Spot.start, Spot.startInside, closing?, isClosing, inside, within]
  rw [if_neg double] at h
  by_cases single : c = '\''
  · subst single
    cases h
    cases left
    simp [Spot.start, within]
  rw [if_neg single] at h
  by_cases tick : c = '\x60'
  · subst tick
    cases h
    cases left
    simp [Spot.start, Spot.startInside, closing?, isClosing, inside, within]
  rw [if_neg tick] at h
  split at h
  · rename_i name
    cases h
    cases left
    exact start_of_not_isDelimiter given (not_isDelimiter (List.all_iff_forall_prop.mp (by decide)) name)
  split at h
  · rename_i digit
    cases h
    cases left
    exact start_of_not_isDelimiter given
      (not_isDelimiter (p := fun c => c.isDigit || c == '-') (List.all_iff_forall_prop.mp (by decide)) digit)
  · obtain ⟨token, single, heq⟩ := Option.map_eq_some_iff.mp h
    obtain ⟨rfl, rfl⟩ := Prod.mk.inj heq
    exact start_of_single given single left

/-- The start of a token right behind one that is no brace. -/
theorem start_of_behind {token : Token} (given : around ≠ [])
    (braceless : ∀ us, braces? around (token :: us) = braces? around us)
    (h : (Scan.start c).map (fun r => (r.1, token :: r.2)) = some (t, ts)) (left : braces? around ts = some after) :
    Spot.start around c = some (⟨after, within t⟩, []) := by
  obtain ⟨⟨v, vs⟩, started, heq⟩ := Option.map_eq_some_iff.mp h
  obtain ⟨rfl, rfl⟩ := Prod.mk.inj heq
  rw [braceless] at left
  exact start_of_start given started left

/-- A character inside a name, or the first one behind it. -/
theorem step_of_name {read : List Char} (given : around ≠ []) (h : (Scan.name read).step c = some (t, ts))
    (left : braces? around ts = some after) : Spot.start around c = some (⟨after, within t⟩, []) := by
  simp only [Scan.step] at h
  split at h
  · rename_i name
    cases h
    cases left
    exact start_of_not_isDelimiter given (not_isDelimiter (List.all_iff_forall_prop.mp (by decide)) name)
  · exact start_of_behind given (fun _ => rfl) h left

/-- A character inside a numeral, or the first one behind it. -/
theorem step_of_digits {read : List Char} (given : around ≠ []) (h : (Scan.digits read).step c = some (t, ts))
    (left : braces? around ts = some after) : Spot.start around c = some (⟨after, within t⟩, []) := by
  simp only [Scan.step] at h
  split at h
  · rename_i part
    cases h
    cases left
    exact start_of_not_isDelimiter given (not_isDelimiter (List.all_iff_forall_prop.mp (by decide)) part)
  · split at h
    · exact start_of_behind given (fun _ => rfl) h left
    · cases h

theorem step_of_plain {read : List Char} (h : (Scan.plain read).step c = some (t, ts))
    (left : braces? around ts = some after) :
    Spot.step ⟨around, .plain⟩ c = some (⟨after, within t⟩, []) := by
  simp only [Scan.step] at h
  split at h
  · rename_i quote
    cases h
    cases left
    simp [Spot.step, within, quote]
  · rename_i other
    split at h
    · cases h
    · cases h
      cases left
      simp [Spot.step, within, other]

theorem step_of_literal {read : List Char} (given : around ≠ []) (h : (Scan.literal read).step c = some (t, ts))
    (left : braces? around ts = some after) :
    Spot.step ⟨around, .literal read⟩ c = some (⟨after, within t⟩, []) := by
  simp only [Scan.step] at h
  simp only [Spot.step]
  split at h
  · rename_i quote
    cases h
    cases left
    simp [quote, Spot.outside, given, within]
  · rename_i other
    rw [if_neg other]
    split at h
    · rename_i slash
      cases h
      cases left
      rw [if_pos slash]
      rfl
    · rename_i plain
      rw [if_neg plain]
      split at h
      · cases h
      · rename_i line
        cases h
        cases left
        rw [if_neg line]
        rfl

theorem step_of_escape {read : List Char} (h : (Scan.escape read).step c = some (t, ts))
    (left : braces? around ts = some after) :
    Spot.step ⟨around, .escape read⟩ c = some (⟨after, within t⟩, []) := by
  obtain ⟨a, escaped, heq⟩ := Option.map_eq_some_iff.mp h
  obtain ⟨rfl, rfl⟩ := Prod.mk.inj heq
  cases left
  simp [Spot.step, within, escaped]

theorem step_of_template {read : List Char} {afterDollar : Bool}
    (h : (Scan.template read afterDollar).step c = some (t, ts)) (left : braces? around ts = some after) :
    Spot.step ⟨around, .template afterDollar⟩ c = some (⟨after, within t⟩, []) := by
  simp only [Scan.step] at h
  simp only [Spot.step]
  split at h
  · rename_i tick
    cases h
    cases left
    rw [if_pos tick]
    rfl
  · rename_i other
    rw [if_neg other]
    split at h
    · rename_i slash
      cases h
      cases left
      rw [if_pos slash]
      rfl
    · rename_i plain
      rw [if_neg plain]
      split at h
      · cases h
      · rename_i closed
        cases h
        cases left
        rw [if_neg closed]
        rfl

theorem step_of_templateEscape {read : List Char} (h : (Scan.templateEscape read).step c = some (t, ts))
    (left : braces? around ts = some after) :
    Spot.step ⟨around, .templateEscape⟩ c = some (⟨after, within t⟩, []) := by
  simp only [Scan.step] at h
  split at h
  · cases h
    cases left
    rfl
  · cases h

/-- **A character of markup in a module.** -/
theorem step_of_step (given : around ≠ []) (h : s.step c = some (t, ts)) (left : braces? around ts = some after) :
    Spot.step ⟨around, within s⟩ c = some (⟨after, within t⟩, []) := by
  cases s with
  | between => exact start_of_start given h left
  | name read => exact step_of_name given h left
  | digits read => exact step_of_digits given h left
  | plain read => exact step_of_plain h left
  | literal read => exact step_of_literal given h left
  | escape read => exact step_of_escape h left
  | template read afterDollar => exact step_of_template h left
  | templateEscape read => exact step_of_templateEscape h left

/-- **What is scanned to tokens of markup is scanned to their brackets in a module.** -/
theorem scanModule_of_scan {a : List Char} (given : around ≠ []) (h : scan s a = some (t, ts))
    (left : braces? around ts = some after) :
    scanModule ⟨around, within s⟩ a = some (⟨after, within t⟩, []) := by
  induction a generalizing s around ts with
  | nil =>
    obtain ⟨rfl, rfl⟩ := Prod.mk.inj (Option.some.inj h)
    cases left
    rfl
  | cons c a ih =>
    unfold scan at h
    obtain ⟨⟨v, vs⟩, hstep, hrest⟩ := Option.bind_eq_some_iff.mp h
    obtain ⟨⟨w, ws⟩, hscan, heq⟩ := Option.map_eq_some_iff.mp hrest
    obtain ⟨rfl, rfl⟩ := Prod.mk.inj heq
    rw [braces?_append] at left
    obtain ⟨between, first, rest⟩ := Option.bind_eq_some_iff.mp left
    exact scanModule_cons (step_of_step given hstep first) (ih (braces?_ne_nil given first) hscan rest)

/-! ## 2. Markup leaves no bracket over -/

/-- Tokens leave no bracket over. -/
def Closes (ts : List Token) : Prop := ∀ around, around ≠ [] → braces? around ts = some around

theorem closes_nil : Closes [] := fun _ _ => rfl

theorem Closes.append (first : Closes ts) (second : Closes us) : Closes (ts ++ us) := by
  intro around given
  rw [braces?_append, first around given]
  exact second around given

theorem closes_flatMap {α : Type} {f : α → List Token} (h : ∀ a, Closes (f a)) (as : List α) :
    Closes (as.flatMap f) := by
  induction as with
  | nil => exact closes_nil
  | cons a as ih => exact (h a).append ih

/-- Tokens between braces. -/
theorem Closes.braced (h : Closes ts) : Closes (.leftBrace :: (ts ++ [.rightBrace])) := by
  intro around given
  rw [braces?, braces?_append, h _ (List.cons_ne_nil _ _), Option.bind_some, braces?, if_pos ⟨rfl, given⟩]
  rfl

theorem closes_value (a : Attribute) : Closes (valueTokens a) := by
  have literal (s : String) : Closes [.literal s] := fun _ _ => rfl
  cases a with
  | key | inputKey | control => exact fun _ _ => rfl
  | label s | placeholder s | source s | description s => exact (literal s).braced
  | innerHtml body =>
    have inner : Closes [.word "__html", .colon, .template body] := fun _ _ => rfl
    exact inner.braced.braced

theorem closes_attribute (a : Attribute) : Closes (attributeTokens a) := by
  have front : Closes [.word a.name, .equals] := fun _ _ => rfl
  exact front.append (closes_value a)

theorem closes_property (e : String × Written) : Closes (propertyTokens e) := by
  intro around _
  unfold propertyTokens styleToken
  cases e.2 <;> rfl

theorem closes_style (style : Entries Written) : Closes (styleTokens style) := by
  unfold styleTokens
  split
  · exact closes_nil
  · have properties := closes_flatMap closes_property style
    have braced := (properties.braced).braced
    have written : [.leftBrace, .leftBrace] ++ (style.flatMap propertyTokens ++ [.rightBrace, .rightBrace]) =
        .leftBrace :: (.leftBrace :: (style.flatMap propertyTokens ++ [.rightBrace]) ++ [.rightBrace]) := by simp
    rw [← written] at braced
    have front : Closes [.word "style", .equals] := fun _ _ => rfl
    exact front.append braced

theorem closes_opening (tag : Tag) (attributes : List Attribute) (style : Entries Written) :
    Closes (openingTokens tag attributes style) := by
  have front : Closes [.less, .word tag.name] := fun _ _ => rfl
  exact front.append ((closes_flatMap closes_attribute attributes).append (closes_style style))

mutual

/-- **The tokens of markup leave no bracket over.** -/
theorem closes_tokens : ∀ m : Markup, Closes (tokens m)
  | .text s => by
      unfold tokens
      have literal : Closes [.literal s] := fun _ _ => rfl
      exact literal.braced
  | .element tag attributes style children => by
      unfold tokens
      refine (closes_opening tag attributes style).append ?_
      split
      · exact fun _ _ => rfl
      · have behind : Closes [.greater] := fun _ _ => rfl
        exact behind.append ((closes_tokensIn children).append fun _ _ => rfl)

theorem closes_tokensIn : ∀ ms : List Markup, Closes (tokensIn ms)
  | [] => closes_nil
  | m :: rest => by
      unfold tokensIn
      exact (closes_tokens m).append (closes_tokensIn rest)

end

end Reader

/-! ## 3. Enclosed texts -/

/-- Legible markup is enclosed by the brackets that it stands in. -/
theorem Markup.isEnclosed_print {ms : List Markup} (h : ∀ m ∈ ms, m.Legible) (level : Int) :
    IsEnclosed (joinLines (ms.map (print level))) := by
  intro around given
  cases ms with
  | nil => rfl
  | cons m rest =>
    have scanned : Reader.scan .between (spread ((m :: rest).map (print level))) =
        some (.between, Reader.tokensIn (m :: rest)) := scan_printed h level
    rw [List.map_cons, toList_joinLines]
    exact Reader.scanModule_of_scan given scanned (Reader.closes_tokensIn (m :: rest) around given)

/-- **What a composition prints is enclosed by the brackets that it stands in.** -/
theorem Composition.isEnclosed_text {roots : List Node} {c : Composition} (h : ofRoots roots = .ok c) :
    IsEnclosed c.text := by
  obtain ⟨p, run, -⟩ := run_of_ofRoots h
  exact Markup.isEnclosed_print (Node.legible_rootMarkups roots run) 0

end Artboard
