import Artboard.Proofs.Font.Cache

/-!
# Useless stylesheets in the cache

A stylesheet without rules for fonts is of no use, and its family is imported.  That is seen after the lookup of the
family, when the stylesheet is in the cache already.  So a cache of useful stylesheets (`FontSession.Useful`) stays
one, over a session in which the network may change from lookup to lookup, exactly if no lookup stores what a network
has answered without rules (`FontWorld.useful_lookups_iff`); and a useless stylesheet that is not empty is never
looked up again where the cache can be read, whatever the network has by then (`FontWorld.imported_of_useless`).

What lookups in one world do to a session is said once (`FontWorld.Goes`): the addresses they request, and what is in
the cache because of them.
-/

namespace Artboard

/-- The stylesheet has rules for fonts. -/
def Font.hasRules (css : String) : Bool := Text.contains css "@font-face"

namespace FontSession

/-! ## 1. Documents -/

/-- Every stylesheet in the cache is of use. -/
def Useful (documents : List FontDocument) : Prop :=
  ∀ doc ∈ documents, ∃ css, doc.css = some css ∧ Font.hasRules css = true

/-- The cache has a stylesheet under an address. -/
def Holds (documents : List FontDocument) (url css : String) : Prop :=
  ∃ doc ∈ documents, doc.url = url ∧ doc.css = some css

/-- The stylesheet that is found under an address. -/
def held? (documents : List FontDocument) (url : String) : Option String :=
  (find? documents url).bind FontDocument.css

variable {documents : List FontDocument} {doc d : FontDocument} {url css : String}

theorem useful_nil : Useful [] := fun _ hd => absurd hd List.not_mem_nil

theorem mem_putDocument_self : doc ∈ putDocument doc documents := by
  induction documents with
  | nil => simp [putDocument]
  | cons first rest ih =>
    unfold putDocument
    split
    · exact List.mem_cons_self
    · exact List.mem_cons_of_mem _ ih

theorem mem_putDocument_other (other : d.url ≠ doc.url) (h : d ∈ documents) : d ∈ putDocument doc documents := by
  induction documents with
  | nil => cases h
  | cons first rest ih =>
    unfold putDocument
    rcases List.mem_cons.mp h with rfl | h
    · rw [if_neg other]
      exact List.mem_cons_self
    · split
      · exact List.mem_cons_of_mem _ h
      · exact List.mem_cons_of_mem _ (ih h)

theorem find?_putDocument (other : doc.url ≠ url) : find? (putDocument doc documents) url = find? documents url := by
  induction documents with
  | nil => simp [putDocument, find?, other]
  | cons first rest ih =>
    unfold find? at ih ⊢
    unfold putDocument
    by_cases same : first.url = doc.url
    · simp [same, other]
    · simp only [if_neg same, List.find?_cons, ih]

end FontSession

namespace FontWorld

open FontSession

variable {world : FontWorld} {s t u : FontSession} {url css : String}

/-! ## 2. What lookups do to a session -/

/-- What the network answers is put into the cache: there is one, it is open or can be opened, and storing does not
fail. -/
def stores (world : FontWorld) (s : FontSession) : Bool :=
  world.cacheEnabled && (s.isOpen || !world.faults.opening) && !world.faults.storing

/-- **A session that has gone on in one world**, and requested some addresses.  What is new in the cache was answered
to one of the requests; if answers are stored at all, the cache holds those to all of them, and what it held of the
answers of this network before. -/
structure Goes (world : FontWorld) (urls : List String) (s t : FontSession) : Prop where
  asked : t.requested = s.requested ++ urls
  stores : world.stores t = world.stores s
  origin : ∀ doc ∈ t.documents, doc ∈ s.documents ∨ (world.stores s = true ∧
    ∃ url ∈ urls, ∃ css, Reply.stylesheet (world.network.get? url) = .ok css ∧ doc.css = some css)
  stored : world.stores s = true → ∀ url ∈ urls, ∀ css, Reply.stylesheet (world.network.get? url) = .ok css →
    Holds t.documents url css
  kept : ∀ url css, Reply.stylesheet (world.network.get? url) = .ok css → Holds s.documents url css →
    Holds t.documents url css

namespace Goes

variable {urls others : List String}

/-- What does not touch the documents. -/
theorem of_documents (asked : t.requested = s.requested) (stores : world.stores t = world.stores s)
    (same : t.documents = s.documents) : Goes world [] s t where
  asked := by simp [asked]
  stores := stores
  origin doc hd := .inl (same ▸ hd)
  stored _ url h := absurd h List.not_mem_nil
  kept _ _ _ h := same ▸ h

theorem trans (first : Goes world urls s t) (second : Goes world others t u) : Goes world (urls ++ others) s u where
  asked := by rw [second.asked, first.asked, List.append_assoc]
  stores := second.stores.trans first.stores
  origin doc hd := by
    rcases second.origin doc hd with h | ⟨storing, url, h, answered⟩
    · exact (first.origin doc h).imp_right fun ⟨storing, url, h, answered⟩ =>
        ⟨storing, url, List.mem_append_left _ h, answered⟩
    · exact .inr ⟨first.stores ▸ storing, url, List.mem_append_right _ h, answered⟩
  stored storing url h css answered := by
    rcases List.mem_append.mp h with h | h
    · exact second.kept url css answered (first.stored storing url h css answered)
    · exact second.stored (first.stores ▸ storing) url h css answered
  kept url css answered h := second.kept url css answered (first.kept url css answered h)

end Goes

theorem goes_opened (world : FontWorld) (s : FontSession) : Goes world [] s (s.opened world.faults) := by
  refine .of_documents ?_ ?_ (documents_opened _ s)
  · unfold opened
    split <;> rfl
  · unfold stores opened
    split
    · rfl
    · rename_i closed
      simp [Bool.not_eq_true _ ▸ closed]

/-- A look into the cache. -/
theorem goes_cached (world : FontWorld) (url : String) (s : FontSession) :
    Goes world [] s (FontSession.cached? world.faults url s).2 := by
  have opens := goes_opened world s
  unfold FontSession.cached?
  dsimp only
  split <;> exact opens

/-- A request that is not answered with a stylesheet. -/
theorem goes_refused {outage : Outage} (refused : Reply.stylesheet (world.network.get? url) = .error outage) :
    Goes world [url] s (asked url s) where
  asked := rfl
  stores := rfl
  origin doc hd := .inl hd
  stored _ other h css answered := by
    rw [List.mem_singleton.mp h, refused] at answered
    cases answered
  kept _ _ _ h := h

/-- A stylesheet is put into the cache, where this is done, and nothing else changes. -/
theorem state_save (world : FontWorld) (url family css : String) (s : FontSession) :
    ((world.save url family css).run s).2.requested = s.requested ∧
      world.stores ((world.save url family css).run s).2 = world.stores s ∧
      ((world.save url family css).run s).2.documents =
        if world.stores s then putDocument ⟨url, some family, some css⟩ s.documents else s.documents := by
  cases enabled : world.cacheEnabled with
  | false =>
    have saves : ((world.save url family css).run s).2 = s := by
      rw [save, enabled]
      rfl
    simp [saves, stores, enabled]
  | true =>
    have saves : ((world.save url family css).run s).2 =
        FontSession.save world.faults ⟨url, some family, some css⟩ s := by
      rw [save, enabled]
      rfl
    rw [saves]
    unfold FontSession.save opened stores
    cases hs : s.isOpen <;> cases ho : world.faults.opening <;> cases hf : world.faults.storing <;> simp [hs, enabled]

/-- A request that is answered with a stylesheet. -/
theorem goes_answered (answered : Reply.stylesheet (world.network.get? url) = .ok css) (family : String) :
    Goes world [url] s ((world.save url family css).run (asked url s)).2 := by
  obtain ⟨requested, storing, documents⟩ := state_save world url family css (asked url s)
  generalize ((world.save url family css).run (asked url s)).2 = t at requested storing documents ⊢
  have before : (asked url s).documents = s.documents := rfl
  have may : world.stores (asked url s) = world.stores s := rfl
  rw [may] at storing documents
  rw [before] at documents
  refine ⟨requested, storing, fun doc hd => ?_, fun stores other h css' answer => ?_, fun other css' answer h => ?_⟩
  · rw [documents] at hd
    split at hd
    · rename_i stores
      rcases mem_putDocument hd with rfl | hd
      · exact .inr ⟨stores, url, List.mem_singleton_self url, css, answered, rfl⟩
      · exact .inl hd
    · exact .inl hd
  · obtain rfl := List.mem_singleton.mp h
    rw [answered] at answer
    rw [documents, if_pos stores]
    exact ⟨_, mem_putDocument_self, rfl, congrArg some (Except.ok.inj answer)⟩
  · rw [documents]
    split
    · obtain ⟨doc, hd, here, held⟩ := h
      by_cases same : other = url
      · -- the network has only one answer for an address
        rw [same, answered] at answer
        exact ⟨_, mem_putDocument_self, same.symm, congrArg some (Except.ok.inj answer)⟩
      · exact ⟨doc, mem_putDocument_other (here ▸ same) hd, here, held⟩
    · exact h

theorem goes_request (world : FontWorld) (url family : String) (s : FontSession) :
    Goes world [url] s ((world.request url family).run.run s).2 := by
  rw [run_request]
  cases answered : Reply.stylesheet (world.network.get? url) with
  | error outage => exact goes_refused answered
  | ok css => exact goes_answered answered family

/-- A lookup of a family requests its address, unless the cache has its stylesheet. -/
theorem goes_fetch (world : FontWorld) (family : String) (weights : List Int) (s : FontSession) :
    ∃ urls, urls.Sublist [Font.stylesheetUrl family weights] ∧
      Goes world urls s ((world.fetch family weights).run.run s).2 := by
  have requests (r : FontSession) := goes_request world (Font.stylesheetUrl family weights) family r
  have all : [Font.stylesheetUrl family weights].Sublist [Font.stylesheetUrl family weights] := List.Sublist.refl _
  cases enabled : world.cacheEnabled with
  | false =>
    rw [run_fetch_uncached enabled]
    exact ⟨_, all, requests s⟩
  | true =>
    have looked := goes_cached world (Font.stylesheetUrl family weights) s
    rcases look : FontSession.cached? world.faults (Font.stylesheetUrl family weights) s with ⟨held, r⟩
    rw [look] at looked
    rw [run_fetch_cached enabled look]
    cases held with
    | none => exact ⟨_, all, looked.trans (requests r)⟩
    | some css =>
      rw [fetchFrom]
      by_cases empty : css = ""
      · rw [if_pos empty]
        exact ⟨_, all, looked.trans (requests r)⟩
      · rw [if_neg empty]
        exact ⟨_, List.nil_sublist _, looked⟩

/-- Lookups of all families request some of their addresses, in order. -/
theorem goes_parts (world : FontWorld) (usage : FontUsage) (s : FontSession) :
    ∃ urls, urls.Sublist (addresses usage) ∧ Goes world urls s ((world.parts usage).run s).2 := by
  unfold addresses
  induction usage generalizing s with
  | nil => exact ⟨[], List.nil_sublist _, .of_documents rfl rfl rfl⟩
  | cons entry rest ih =>
    obtain ⟨family, weights⟩ := entry
    rw [foreign_cons]
    cases system : Font.isSystem family with
    | true =>
      rw [run_parts_system system, if_pos rfl]
      exact ih s
    | false =>
      obtain ⟨urls, own, first⟩ := goes_fetch world family weights s
      rcases fetched : (world.fetch family weights).run.run s with ⟨outcome, t⟩
      rw [fetched] at first
      obtain ⟨others, later, second⟩ := ih t
      rw [run_parts_cons system fetched, if_neg Bool.false_ne_true]
      exact ⟨urls ++ others, own.append later, first.trans second⟩

/-! ## 3. Sessions on a changing network -/

/-- The network answers with a stylesheet, but it has no rules for fonts. -/
def isUseless : Except Outage String → Bool
  | .ok css => !Font.hasRules css
  | .error _ => false

theorem isUseless_iff {answered : Except Outage String} :
    isUseless answered = true ↔ ∃ css, answered = .ok css ∧ Font.hasRules css = false := by
  cases answered with
  | ok css => simp [isUseless]
  | error outage => simp [isUseless]

/-- A lookup of fonts, and the world in which it is made: each has its own network. -/
structure Turn where
  world : FontWorld
  usage : FontUsage

namespace Turn

/-- The stylesheet that a lookup gives. -/
def sheet (turn : Turn) (s : FontSession) : String := ((turn.world.stylesheet turn.usage).run s).1

/-- The session after a lookup. -/
def next (turn : Turn) (s : FontSession) : FontSession := ((turn.world.stylesheet turn.usage).run s).2

/-- The addresses that a lookup requests. -/
def asks (turn : Turn) (s : FontSession) : List String := (turn.next s).requested.drop s.requested.length

/-- A lookup stores a stylesheet without rules for fonts. -/
def spoils (turn : Turn) (s : FontSession) : Bool :=
  turn.world.stores s && (turn.asks s).any fun url => isUseless (Reply.stylesheet (turn.world.network.get? url))

theorem spoils_iff {turn : Turn} : turn.spoils s = true ↔ turn.world.stores s = true ∧ ∃ url ∈ turn.asks s, ∃ css,
    Reply.stylesheet (turn.world.network.get? url) = .ok css ∧ Font.hasRules css = false := by
  simp only [spoils, Bool.and_eq_true, List.any_eq_true, isUseless_iff]

theorem asks_eq {turn : Turn} {urls : List String} (went : Goes turn.world urls s (turn.next s)) :
    turn.asks s = urls := by
  unfold asks
  rw [went.asked, List.drop_left]

theorem goes (turn : Turn) (s : FontSession) : Goes turn.world (turn.asks s) s (turn.next s) := by
  obtain ⟨urls, -, went⟩ := goes_parts turn.world turn.usage s
  rw [asks_eq went]
  exact went

/-- A lookup leaves a cache of useful stylesheets unless it spoils it. -/
theorem useful_next_iff (turn : Turn) (useful : Useful s.documents) :
    Useful (turn.next s).documents ↔ turn.spoils s = false := by
  have went := turn.goes s
  rw [← Bool.not_eq_true, spoils_iff]
  constructor
  · rintro after ⟨storing, url, asked, css, answered, useless⟩
    obtain ⟨doc, hd, -, held⟩ := went.stored storing url asked css answered
    obtain ⟨css', same, rules⟩ := after doc hd
    rw [held] at same
    rw [← Option.some.inj same, useless] at rules
    cases rules
  · intro clean doc hd
    rcases went.origin doc hd with hd | ⟨storing, url, asked, css, answered, held⟩
    · exact useful doc hd
    · refine ⟨css, held, ?_⟩
      by_contra useless
      exact clean ⟨storing, url, asked, css, answered, Bool.not_eq_true _ ▸ useless⟩

end Turn

/-- The lookups of a list one after the other, each with the session before it. -/
def lookups : List Turn → FontSession → List (Turn × FontSession)
  | [], _ => []
  | turn :: rest, s => (turn, s) :: lookups rest (turn.next s)

/-- **A cache of useful stylesheets stays one exactly if no lookup stores a useless answer**, in whatever way the
network changes from lookup to lookup and whatever uses of the cache fail. -/
theorem useful_lookups_iff (useful : Useful s.documents) (turns : List Turn) :
    (∀ visit ∈ lookups turns s, Useful (visit.1.next visit.2).documents) ↔
      ∀ visit ∈ lookups turns s, visit.1.spoils visit.2 = false := by
  induction turns generalizing s with
  | nil => simp [lookups]
  | cons turn rest ih =>
    have step := turn.useful_next_iff useful
    unfold lookups
    rw [List.forall_mem_cons, List.forall_mem_cons, step]
    constructor
    · rintro ⟨clean, later⟩
      exact ⟨clean, (ih (step.mpr clean)).mp later⟩
    · rintro ⟨clean, later⟩
      exact ⟨clean, (ih (step.mpr clean)).mpr later⟩

/-- A reply without rules for fonts. -/
def page : Reply := .response 200 "/* nothing */"

/-- A reply with rules for fonts. -/
def rules : Reply := .response 200 "@font-face a"

/-- A lookup of one family with one reply at the address of its stylesheet. -/
def visit (family : String) (reply : Reply) (faults : CacheFaults) : Turn :=
  ⟨⟨[(Font.stylesheetUrl family [400], reply)], true, faults⟩, [(family, [400])]⟩

/-- A network that fails, a page that is not stored, and rules at last. -/
def patientTurns : List Turn :=
  [visit "Inter" (.failure "Timeout") {}, visit "Inter" page { storing := true }, visit "Inter" rules {}]

theorem useful_lookups_iff_patient : Useful (FontSession.documents {}) ∧
    (∀ visit ∈ lookups patientTurns {}, visit.1.spoils visit.2 = false) ∧
    (∀ visit ∈ lookups patientTurns {}, Useful (visit.1.next visit.2).documents) ∧
    ((lookups patientTurns {}).map fun visit => (visit.1.sheet visit.2, (visit.1.next visit.2).requested.length)) =
      [(Font.importRule "Inter" [400], 1), (Font.importRule "Inter" [400], 2), ("@font-face a", 3)] := by
  have useful : Useful (FontSession.documents {}) := useful_nil
  have clean : ∀ visit ∈ lookups patientTurns {}, visit.1.spoils visit.2 = false := by
    have all : (lookups patientTurns {}).all (fun visit => !visit.1.spoils visit.2) = true := by decide +kernel
    simpa using all
  exact ⟨useful, clean, (useful_lookups_iff useful patientTurns).mpr clean, by decide +kernel⟩

/-! ## 4. A useless stylesheet stays -/

/-- What is in the cache is found. -/
def reads (world : FontWorld) : Bool := world.cacheEnabled && !world.faults.opening && !world.faults.finding

theorem cached_of_reads (reads : world.reads = true) (url : String) (s : FontSession) :
    FontSession.cached? world.faults url s = (held? s.documents url, s.opened world.faults) := by
  simp only [FontWorld.reads, Bool.and_eq_true, Bool.not_eq_true'] at reads
  obtain ⟨⟨-, opening⟩, finding⟩ := reads
  have isOpen : (s.opened world.faults).isOpen = true := by
    unfold opened
    split
    · assumption
    · simp [opening]
  unfold FontSession.cached? held?
  simp [isOpen, finding, documents_opened]

/-- A request for another address. -/
theorem held?_request {address : String} (other : address ≠ url) (family : String) (s : FontSession) :
    held? ((world.request address family).run.run s).2.documents url = held? s.documents url := by
  rw [run_request]
  cases answered : Reply.stylesheet (world.network.get? address) with
  | error outage => rfl
  | ok css =>
    obtain ⟨-, -, documents⟩ := state_save world address family css (asked address s)
    dsimp only
    rw [documents]
    unfold held?
    split
    · rw [find?_putDocument other]
      rfl
    · rfl

/-- **A lookup that spares an address**: it does not request it, and what is found there stays. -/
structure Spares (world : FontWorld) (url css : String) (s t : FontSession) : Prop where
  went : ∃ urls, Goes world urls s t ∧ url ∉ urls
  held : held? t.documents url = some css

theorem Spares.trans (first : Spares world url css s t) (second : Spares world url css t u) :
    Spares world url css s u := by
  obtain ⟨urls, went, spared⟩ := first.went
  obtain ⟨others, further, aside⟩ := second.went
  exact ⟨⟨urls ++ others, went.trans further, fun h => (List.mem_append.mp h).elim spared aside⟩, second.held⟩

theorem spares_opened (held : held? s.documents url = some css) : Spares world url css s (s.opened world.faults) :=
  ⟨⟨[], goes_opened world s, List.not_mem_nil⟩, by rw [documents_opened, held]⟩

theorem spares_request {address : String} (other : address ≠ url) (held : held? s.documents url = some css)
    (family : String) : Spares world url css s ((world.request address family).run.run s).2 :=
  ⟨⟨[address], goes_request world address family s, fun h => other (List.mem_singleton.mp h).symm⟩,
    by rw [held?_request other, held]⟩

/-- A stylesheet in the cache that is not empty is the outcome of its lookups. -/
theorem spares_fetch (reads : world.reads = true) (held : held? s.documents url = some css) (given : css ≠ "")
    (family : String) (weights : List Int) : Spares world url css s ((world.fetch family weights).run.run s).2 ∧
      (Font.stylesheetUrl family weights = url → ((world.fetch family weights).run.run s).1 = .ok css) := by
  have enabled : world.cacheEnabled = true := by
    simp only [FontWorld.reads, Bool.and_eq_true] at reads
    exact reads.1.1
  have opens : Spares world url css s (s.opened world.faults) := spares_opened held
  rw [run_fetch_cached enabled (cached_of_reads reads _ s)]
  by_cases here : Font.stylesheetUrl family weights = url
  · rw [here, held, fetchFrom, if_neg given]
    exact ⟨opens, fun _ => rfl⟩
  · have requests := opens.trans (spares_request here opens.held family)
    refine ⟨?_, fun same => absurd same here⟩
    cases held? s.documents (Font.stylesheetUrl family weights) with
    | none => exact requests
    | some other =>
      rw [fetchFrom]
      by_cases empty : other = ""
      · rw [if_pos empty]
        exact requests
      · rw [if_neg empty]
        exact opens

theorem spares_parts (reads : world.reads = true) (held : held? s.documents url = some css) (given : css ≠ "")
    (usage : FontUsage) : Spares world url css s ((world.parts usage).run s).2 ∧
      List.Forall₂ (fun e part => Font.stylesheetUrl e.1 e.2 = url → part = partOf e.1 e.2 (.ok css))
        (foreign usage) ((world.parts usage).run s).1 := by
  induction usage generalizing s with
  | nil => exact ⟨⟨⟨[], .of_documents rfl rfl rfl, List.not_mem_nil⟩, held⟩, .nil⟩
  | cons entry rest ih =>
    obtain ⟨family, weights⟩ := entry
    rw [foreign_cons]
    cases system : Font.isSystem family with
    | true =>
      rw [run_parts_system system, if_pos rfl]
      exact ih held
    | false =>
      obtain ⟨first, outcome⟩ := spares_fetch reads held given family weights
      rcases fetched : (world.fetch family weights).run.run s with ⟨o, t⟩
      rw [fetched] at first outcome
      obtain ⟨second, others⟩ := ih first.held
      rw [run_parts_cons system fetched, if_neg Bool.false_ne_true]
      exact ⟨first.trans second, .cons (fun here => by rw [show o = .ok css from outcome here]) others⟩

theorem partOf_useless (useless : Font.hasRules css = false) (family : String) (weights : List Int) :
    partOf family weights (.ok css) = .imported (Font.importRule family weights) := by
  have without : ¬Text.contains css "@font-face" = true := by
    rw [show Text.contains css "@font-face" = false from useless]
    exact Bool.false_ne_true
  unfold partOf
  exact if_neg without

/-- **A useless stylesheet in the cache is never looked up again.**  As long as the cache can be read, no lookup
requests its address, and each imports the families that have this address, whatever the networks have there. -/
theorem imported_of_useless (held : held? s.documents url = some css) (given : css ≠ "")
    (useless : Font.hasRules css = false) (turns : List Turn) (reads : ∀ turn ∈ turns, turn.world.reads = true) :
    ∀ visit ∈ lookups turns s, url ∉ visit.1.asks visit.2 ∧ ∃ parts, visit.1.sheet visit.2 = join parts ∧
      List.Forall₂ (fun e part => Font.stylesheetUrl e.1 e.2 = url → part = .imported (Font.importRule e.1 e.2))
        (foreign visit.1.usage) parts := by
  induction turns generalizing s with
  | nil => exact fun visit h => absurd h List.not_mem_nil
  | cons turn rest ih =>
    obtain ⟨now, later⟩ := List.forall_mem_cons.mp reads
    obtain ⟨spares, parts⟩ := spares_parts now held given turn.usage
    unfold lookups
    refine List.forall_mem_cons.mpr ⟨⟨?_, _, rfl, parts.imp fun e part outcome here => ?_⟩, ih spares.held later⟩
    · obtain ⟨urls, went, spared⟩ := spares.went
      rwa [Turn.asks_eq went]
    · rw [outcome here, partOf_useless useless]

/-- **A page without rules that was answered with once is kept**: no later network is asked, whatever it has. -/
theorem page_kept : Useful (FontSession.documents {}) ∧
    ¬Useful ((visit "Inter" page {}).next {}).documents ∧
    ∀ network : Entries Reply,
      let later : Turn := ⟨⟨network, true, {}⟩, [("Inter", [400])]⟩
      Font.stylesheetUrl "Inter" [400] ∉ later.asks ((visit "Inter" page {}).next {}) ∧
        later.sheet ((visit "Inter" page {}).next {}) = Font.importRule "Inter" [400] := by
  have held : held? ((visit "Inter" page {}).next {}).documents (Font.stylesheetUrl "Inter" [400]) =
      some "/* nothing */" := by decide +kernel
  have useless : Font.hasRules "/* nothing */" = false := by decide +kernel
  refine ⟨useful_nil, fun useful => ?_, fun network => ?_⟩
  · obtain ⟨doc, found, css⟩ := Option.bind_eq_some_iff.mp held
    obtain ⟨css', same, rules⟩ := useful doc (List.mem_of_find?_eq_some found)
    rw [css] at same
    rw [← Option.some.inj same, useless] at rules
    cases rules
  · have kept := imported_of_useless held (by decide) useless
      [⟨⟨network, true, {}⟩, [("Inter", [400])]⟩] (fun turn h => by rw [List.mem_singleton.mp h]; rfl)
    obtain ⟨spared, parts, sheet, imported⟩ := kept _ List.mem_cons_self
    have foreign : foreign [("Inter", [400])] = [("Inter", [400])] := by decide +kernel
    refine ⟨spared, sheet.trans ?_⟩
    rw [foreign] at imported
    cases imported with
    | cons first rest =>
      cases rest
      rw [first rfl]
      rfl

end FontWorld

end Artboard
