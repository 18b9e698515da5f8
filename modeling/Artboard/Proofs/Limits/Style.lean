import Artboard.Proofs.Limits.Basic

/-!
# Styles within limits

Every part of the style of a node within limits can be computed and written, but for the faults that the limits
allow.  What is said of a style is that all its values can be written (`Limits.Writes`); put, erase and merge keep
to it, and each part of a style is a few numbers, scaled and written (`Limits.yields_style`).
-/

namespace Artboard

namespace Limits

variable {L : Limits}

/-! ## 1. Styles that can be written -/

/-- **All values of a style can be written.** -/
def Writes (L : Limits) (style : Style) : Prop := ∀ e ∈ style, Passes L.allowed e.2.write

section

variable {s t : Style} {name : String} {v : StyleValue}

theorem writes_nil : L.Writes [] := fun _ he => absurd he List.not_mem_nil

theorem writes_cons (hv : Passes L.allowed v.write) (hs : L.Writes s) : L.Writes ((name, v) :: s) := by
  intro e he
  rcases List.mem_cons.mp he with rfl | he
  · exact hv
  · exact hs e he

theorem passes_text (text : String) : Passes L.allowed (StyleValue.text text).write := .ok trivial

/-- A text in front of a style. -/
theorem writes_text (text : String) (hs : L.Writes s) : L.Writes ((name, .text text) :: s) :=
  writes_cons (passes_text text) hs

theorem passes_number {n : Number} (h : Passes L.allowed (n.format 2)) :
    Passes L.allowed (StyleValue.number n).write := by
  unfold StyleValue.write
  exact h.passes_then

theorem passes_whole {i : Int} (h : L.given (.int i)) : Passes L.allowed (StyleValue.whole i).write :=
  passes_number (format_given h)

theorem writes_append (hs : L.Writes s) (ht : L.Writes t) : L.Writes (s ++ t) :=
  fun e he => (List.mem_append.mp he).elim (hs e) (ht e)

theorem writes_put (hs : L.Writes s) (hv : Passes L.allowed v.write) : L.Writes (Entries.put s name v) := by
  induction s with
  | nil => exact writes_cons hv writes_nil
  | cons e rest ih =>
    obtain ⟨n, w⟩ := e
    have first : Passes L.allowed w.write := hs (n, w) List.mem_cons_self
    have others : L.Writes rest := fun e he => hs e (List.mem_cons_of_mem _ he)
    unfold Entries.put
    split
    · exact writes_cons hv others
    · exact writes_cons first (ih others)

theorem writes_putText (hs : L.Writes s) (text : String) : L.Writes (Entries.putText s name text) :=
  writes_put hs (passes_text text)

theorem writes_putText? (hs : L.Writes s) (text : Option String) : L.Writes (Entries.putText? s name text) := by
  cases text with
  | none => exact hs
  | some text => exact writes_putText hs text

theorem writes_erase (hs : L.Writes s) (name : String) : L.Writes (Entries.erase s name) :=
  fun e he => hs e (Entries.mem_erase he).1

theorem writes_merge (hs : L.Writes s) (ht : L.Writes t) : L.Writes (Entries.merge s t) := by
  induction t generalizing s with
  | nil => exact hs
  | cons e rest ih =>
    have first : Passes L.allowed e.2.write := ht e List.mem_cons_self
    exact ih (writes_put hs first) fun e he => ht e (List.mem_cons_of_mem _ he)

/-- A style whose values can be written can be written. -/
theorem passes_writeStyle (hs : L.Writes s) : Passes L.allowed (writeStyle s) := by
  induction s with
  | nil => exact .ok trivial
  | cons e rest ih =>
    obtain ⟨n, w⟩ := e
    unfold writeStyle
    have first : Passes L.allowed w.write := hs (n, w) List.mem_cons_self
    refine first.bind fun _ _ => ?_
    exact (ih fun e he => hs e (List.mem_cons_of_mem _ he)).passes_then

theorem passes_styled {tag : Tag} {attributes : List Attribute} {children : List Markup} (hs : L.Writes s) :
    Passes L.allowed (Markup.styled tag attributes s children) :=
  (passes_writeStyle hs).passes_then

end

/-! ## 2. Colours and paints -/

section

variable {v : Value} {fields paint : Members}

theorem given_channel? (h : L.AdmitsFields fields) {name : String} {n : Number}
    (hn : Color.channel? fields name = some n) : L.given n := by
  unfold Color.channel? at hn
  cases found : Entries.get? fields name with
  | none =>
    rw [found] at hn
    cases hn
    exact given_zero
  | some w =>
    rw [found] at hn
    exact given_number? (h _ (Entries.mem_of_get? found)).self hn

theorem given_alpha (h : L.AdmitsFields fields) (opacity : L.Admits v) : L.given (Color.alpha fields v) := by
  have one : L.given (.int 1) := L.given_small (by decide)
  unfold Color.alpha
  dsimp only
  refine given_numberOr ?_ one
  split
  · cases found : Entries.get? fields "a" with
    | none => exact fun _ => one
    | some w => exact (h _ (Entries.mem_of_get? found)).self
  · exact opacity.self

theorem passes_channelsText {red green blue : Int} (hr : Passes L.allowed (Number.writeInt red))
    (hg : Passes L.allowed (Number.writeInt green)) (hb : Passes L.allowed (Number.writeInt blue)) :
    Passes L.allowed (Color.channelsText red green blue) := by
  unfold Color.channelsText
  refine hr.bind fun _ _ => hg.bind fun _ _ => ?_
  exact hb.passes_then

theorem passes_colorText? {color opacity : Value} (hc : L.Admits color) (ho : L.Admits opacity) :
    Passes L.allowed (colorText? color opacity) := by
  unfold colorText?
  split
  · rename_i m ms
    have fields : L.AdmitsFields (m :: ms) := hc.object
    dsimp only
    split
    · rename_i r g b hr hg hb
      refine (L.channel (given_channel? fields hr)).bind fun red hred => ?_
      refine (L.channel (given_channel? fields hg)).bind fun green hgreen => ?_
      refine (L.channel (given_channel? fields hb)).bind fun blue hblue => ?_
      refine (passes_channelsText hred hgreen hblue).bind fun _ _ => ?_
      split
      · exact (format_given (given_alpha fields ho)).passes_then
      · exact .ok trivial
    · exact .ok trivial
  · exact .ok trivial

theorem passes_color? (h : L.AdmitsFields paint) : Passes L.allowed (Paint.color? paint) :=
  passes_colorText? (h.field "color") (h.field "opacity")

theorem Admits.shown (h : L.Admits v) {paint : Members} (hp : paint ∈ Paint.shown v) : L.AdmitsFields paint :=
  h.objects (List.mem_filter.mp hp).1

theorem passes_firstSolid? (h : L.Admits v) : Passes L.allowed (Paint.firstSolid? v) := by
  unfold Paint.firstSolid?
  split
  · rename_i p found
    exact passes_color? (h.shown (List.mem_of_find?_eq_some found))
  · exact .ok trivial

theorem passes_stop? (h : L.AdmitsFields paint) : Passes L.allowed (Paint.stop? paint) := by
  unfold Paint.stop?
  refine (passes_colorText? (h.field "color") admits_null).bind fun color _ => ?_
  split
  · rename_i c n hn
    have given : L.given n := given_number? (h.field "position").self hn
    exact (L.percent given).bind fun m hm => hm.passes_then
  · exact .ok trivial

theorem passes_stops {ps : List Members} (h : ∀ p ∈ ps, L.AdmitsFields p) : Passes L.allowed (Paint.stops ps) := by
  induction ps with
  | nil => exact .ok trivial
  | cons p rest ih =>
    unfold Paint.stops
    refine (passes_stop? (h p List.mem_cons_self)).bind fun _ _ => ?_
    exact (ih fun p hp => h p (List.mem_cons_of_mem _ hp)).passes_then

theorem passes_gradient? (h : L.Admits v) : Passes L.allowed (Paint.gradient? v) := by
  unfold Paint.gradient?
  refine (passes_stops fun p hp => h.objects hp).bind fun parts _ => ?_
  split <;> exact .ok trivial

theorem yields_background (h : L.Admits v) : Yields L.allowed L.Writes (Paint.background v) := by
  unfold Paint.background
  split
  · exact .ok writes_nil
  · rename_i fill rest shown
    have hf : L.AdmitsFields fill := h.shown (shown ▸ List.mem_cons_self)
    split
    · exact (passes_color? hf).then_ok fun _ _ => writes_putText? writes_nil _
    · split
      · exact (passes_gradient? (hf.field "gradientStops")).then_ok fun _ _ => writes_putText? writes_nil _
      · exact .ok writes_nil

theorem given_strokeWeight (h : L.AdmitsFields paint) : L.given (Paint.strokeWeight paint) := by
  have one : L.given (.int 1) := L.given_small (by decide)
  unfold Paint.strokeWeight
  split
  · rename_i n hn
    split
    · exact one
    · exact given_number? (h.field "weight").self hn
  · exact one

theorem yields_border (h : L.Admits v) : Yields L.allowed L.Writes (Paint.border v) := by
  unfold Paint.border
  split
  · rename_i stroke rest hitems
    have hs : L.AdmitsFields stroke := by
      refine h.objects ?_
      rw [hitems]
      exact List.mem_filterMap.mpr ⟨_, List.mem_cons_self, rfl⟩
    split
    · refine (passes_color? hs).bind fun color _ => ?_
      split
      · refine (px_given (given_strokeWeight hs)).bind fun width _ => ?_
        exact .ok (writes_text _ (writes_text _ (writes_text _ (writes_text _ writes_nil))))
      · exact .ok writes_nil
    · exact .ok writes_nil
  · exact .ok writes_nil

theorem yields_shadow (h : L.Admits v) : Yields L.allowed L.Writes (Paint.shadow v) := by
  unfold Paint.shadow
  split
  · exact .ok writes_nil
  · rename_i effect found
    have he : L.AdmitsFields effect := h.objects (List.mem_of_find?_eq_some found)
    have offset := (he.field "offset").members
    refine (passes_colorText? (he.field "color") admits_null).bind fun color _ => ?_
    refine (px_given (offset.number "x")).bind fun x _ => ?_
    refine (px_given (offset.number "y")).bind fun y _ => ?_
    refine (px_given (he.number "radius")).bind fun blur _ => ?_
    exact .ok (writes_text _ writes_nil)

end

/-! ## 3. Typography -/

section

variable {v : Value} {fields : Members} {n : Number} {size : Option Number}

theorem given_namedWeight (s : String) : L.given (.int (Typography.namedWeight s)) := by
  have small : ∀ entry ∈ Typography.weightWords, entry.2.natAbs < 1000 := by decide
  unfold Typography.namedWeight
  dsimp only
  split
  · rename_i words weight found
    exact L.given_small (small (words, weight) (List.mem_of_find?_eq_some found))
  · exact L.given_small (by decide)

theorem yields_weight (h : L.Admits v) : Yields L.allowed (fun i => L.given (.int i)) (Typography.weight v) := by
  have default : L.given (.int Typography.defaultWeight) := L.given_small (by decide)
  unfold Typography.weight
  split
  · exact .ok (h.self rfl)
  · rename_i x
    cases whole : x.truncate? with
    | none => exact .ok default
    | some i =>
      have finite : x.isFinite = true := by
        cases x <;> first | rfl | cases whole
      exact .ok (L.given_truncated (h.self finite) whole)
  · rename_i s
    dsimp only
    split
    · exact .ok (given_namedWeight s)
    · rename_i given
      -- a numeral can be read, and it is never NaN
      obtain ⟨d, hd⟩ := Typography.readNumeral?_leading (mt List.isEmpty_iff.mpr given)
      rw [hd]
      exact L.given_wholePart (h.self.2 _ hd) (Binary64.ofDecimal_ne_nan _ _)
  · exact .ok default

theorem AdmitsFields.fontName (h : L.AdmitsFields fields) : L.AdmitsFields (Typography.fontName fields) :=
  (h.field "fontName").members

theorem yields_weightOf (h : L.AdmitsFields fields) :
    Yields L.allowed (fun i => L.given (.int i)) (Typography.weightOf fields) := by
  unfold Typography.weightOf
  dsimp only
  split
  · exact yields_weight (h.fontName.field "style")
  · exact yields_weight (h.field "fontWeight")

theorem passes_defaultLineHeight? (h : ∀ n, size = some n → L.given n) :
    Passes L.allowed (Typography.defaultLineHeight? size) := by
  unfold Typography.defaultLineHeight?
  split
  · exact .ok trivial
  · rename_i n
    split
    · exact .ok trivial
    · exact (L.spread (h n rfl)).bind fun m hm => (px hm).passes_then

theorem passes_lineHeight? (hv : L.Admits v) (h : ∀ n, size = some n → L.given n) :
    Passes L.allowed (Typography.lineHeight? v size) := by
  unfold Typography.lineHeight?
  split
  · rename_i measure
    dsimp only
    split
    · exact .ok trivial
    · split
      · rename_i n hn
        have given : L.given n := given_number? (hv.object.field "value").self hn
        split
        · exact (format_given given).passes_then
        · split
          · exact (px_given given).passes_then
          · exact passes_defaultLineHeight? h
      · exact passes_defaultLineHeight? h
  · split
    · rename_i n hn
      exact (px_given (given_number? hv.self hn)).passes_then
    · exact passes_defaultLineHeight? h

theorem passes_spacing? (h : ∀ n, size = some n → L.given n) (percent : Bool) :
    Passes L.allowed (Typography.spacing? size percent) := by
  unfold Typography.spacing?
  split
  · exact .ok trivial
  · rename_i n
    split
    · exact .ok trivial
    · split
      · exact (L.hundredth (h n rfl)).bind fun x hx => hx.passes_then
      · exact (px_given (h n rfl)).passes_then

theorem passes_letterSpacing? (h : L.Admits v) : Passes L.allowed (Typography.letterSpacing? v) := by
  unfold Typography.letterSpacing?
  split
  · exact passes_spacing? (fun n hn => given_number? (h.object.field "value").self hn) _
  · exact passes_spacing? (fun n hn => given_number? h.self hn) _

theorem passes_size? (h : ∀ n, size = some n → L.given n) : Passes L.allowed (Typography.size? size) := by
  unfold Typography.size?
  split
  · exact .ok trivial
  · rename_i n
    split
    · exact .ok trivial
    · exact (px_given (h n rfl)).map fun _ _ => trivial

theorem yields_typography (h : L.AdmitsFields fields) :
    Yields L.allowed L.Writes (Typography.style fields) := by
  have fontSize : ∀ n, (fields.get "fontSize").number? = some n → L.given n :=
    fun n hn => given_number? (h.field "fontSize").self hn
  unfold Typography.style
  refine (passes_firstSolid? (h.field "fills")).bind fun color _ => ?_
  refine (passes_size? fontSize).bind fun size _ => ?_
  refine (yields_weightOf h).bind fun weight hw => ?_
  refine (passes_lineHeight? (h.field "lineHeight") fontSize).bind fun lineHeight _ => ?_
  refine (passes_letterSpacing? (h.field "letterSpacing")).bind fun letterSpacing _ => ?_
  refine .ok (writes_putText (writes_putText? (writes_putText? ?_ _) _) _)
  refine writes_putText (writes_put ?_ (passes_whole hw)) _
  exact writes_putText? (writes_putText? (writes_putText? writes_nil _) _) _

end

/-! ## 4. Layout -/

/-- A placement with an origin that comes from adding up so many numbers. -/
def Placed (L : Limits) (k : Nat) : Placement → Prop
  | .absolute x y => L.sum k x ∧ L.sum k y
  | _ => True

section

variable {fields : Members} {k : Nat} {place : Placement}

theorem yields_placement (h : L.AdmitsFields fields) (placed : L.Placed k place) (few : k < L.most) :
    Yields L.allowed L.Writes (place.style fields) := by
  cases place with
  | root => exact .ok (writes_text _ writes_nil)
  | flow => exact .ok (writes_text _ (writes_cons (passes_whole given_zero) writes_nil))
  | absolute x y =>
    unfold Placement.style
    refine (L.sub (h.number "x") placed.1 few).bind fun left hl => ?_
    refine (px (L.format hl few)).bind fun left _ => ?_
    refine (L.sub (h.number "y") placed.2 few).bind fun top ht => ?_
    refine (px (L.format ht few)).bind fun top _ => ?_
    exact .ok (writes_text _ (writes_text _ (writes_text _ writes_nil)))

theorem yields_rotation (h : L.AdmitsFields fields) : Yields L.allowed L.Writes (Layout.rotation fields) := by
  unfold Layout.rotation
  dsimp only
  split
  · exact .ok writes_nil
  · have turned := L.format (L.sum_neg (L.sum_given (h.number "rotation"))) L.one_le_most
    exact turned.then_ok fun _ _ => writes_text _ (writes_text _ writes_nil)

theorem yields_lengths (h : L.AdmitsFields fields) (names : List String) :
    Yields L.allowed L.Writes (Layout.lengths fields names) := by
  have length (name : String) : Yields L.allowed L.Writes (Layout.length fields name) := by
    unfold Layout.length
    dsimp only
    split
    · exact .ok writes_nil
    · exact (px_given (h.number name)).then_ok fun _ _ => writes_text _ writes_nil
  induction names with
  | nil => exact .ok writes_nil
  | cons name rest ih =>
    unfold Layout.lengths
    exact (length name).bind fun head hh => ih.then_ok fun tail ht => writes_append hh ht

theorem yields_flow (h : L.AdmitsFields fields) : Yields L.allowed L.Writes (Layout.flow fields) := by
  unfold Layout.flow
  split
  · refine (yields_lengths h _).then_ok fun spaces hs => ?_
    refine writes_putText? (writes_putText? ?_ _) _
    exact writes_text _ (writes_text _ (writes_text _ hs))
  · exact .ok writes_nil

end

/-! ## 5. The style of a node -/

section

variable {fields : Members} {k : Nat} {place : Placement} {drawn : Bool}

theorem yields_ownBackground (h : L.AdmitsFields fields) (drawn : Bool) :
    Yields L.allowed L.Writes (Node.ownBackground fields drawn) := by
  unfold Node.ownBackground
  split
  · exact .ok writes_nil
  · exact yields_background (h.field "fills")

theorem passes_corners? (h : L.AdmitsFields fields) : Passes L.allowed (Node.corners? fields) := by
  unfold Node.corners?
  dsimp only
  split
  · exact (px_given (h.number "cornerRadius")).map fun _ _ => trivial
  · exact .ok trivial

theorem writes_putOpacity {s : Style} (h : L.AdmitsFields fields) (hs : L.Writes s) :
    L.Writes (Node.putOpacity fields s) := by
  unfold Node.putOpacity
  dsimp only
  split
  · have given := given_numberOr (h.field "opacity").self (L.given_small (i := 1) (by decide))
    exact writes_put hs (passes_number (format_given given))
  · exact hs

theorem yields_ownTypography (h : L.AdmitsFields fields) :
    Yields L.allowed L.Writes (Node.ownTypography fields) := by
  unfold Node.ownTypography
  split
  · exact yields_typography h
  · exact .ok writes_nil

theorem yields_ownStyle (h : L.AdmitsFields fields) (placed : L.Placed k place) (few : k < L.most) (drawn : Bool) :
    Yields L.allowed L.Writes (Node.ownStyle fields place drawn) := by
  unfold Node.ownStyle
  refine (px_given (h.number "width")).bind fun width _ => ?_
  refine (px_given (h.number "height")).bind fun height _ => ?_
  refine (yields_placement h placed few).bind fun placed hp => ?_
  refine (yields_rotation h).bind fun rotated hr => ?_
  refine (yields_ownBackground h drawn).bind fun filled hb => ?_
  refine (yields_border (h.field "strokes")).bind fun bordered hs => ?_
  refine (yields_shadow (h.field "effects")).bind fun shaded he => ?_
  refine (passes_corners? h).bind fun radius _ => ?_
  refine (yields_ownTypography h).then_ok fun own ho => ?_
  refine writes_merge (writes_putText? ?_ _) ho
  refine writes_merge (writes_merge (writes_merge (writes_putOpacity h ?_) hb) hs) he
  refine writes_merge (writes_merge ?_ hp) hr
  exact writes_text _ (writes_text _ writes_nil)

/-- **The style of a node within limits** comes to values that can be written, or to an allowed fault. -/
theorem yields_style (h : L.AdmitsFields fields) (placed : L.Placed k place) (few : k < L.most) (drawn : Bool) :
    Yields L.allowed L.Writes (Node.style fields place drawn) := by
  unfold Node.style
  refine (yields_ownStyle h placed few drawn).bind fun own ho => ?_
  refine (yields_flow h).then_ok fun flow hf => ?_
  unfold Node.withFlow
  split
  · exact ho
  · exact writes_merge (writes_putText (writes_erase (writes_erase ho _) _) _) hf

end

end Limits

end Artboard
