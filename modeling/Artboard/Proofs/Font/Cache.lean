import Artboard.Font.Lookup
import Mathlib.Data.List.Forall2

/-!
# The font cache does not show

A lookup asks the cache before the network, and what the network answers is put into the cache.  As long as a
cache holds nothing but what the network answers (`FontSession.Coherent`) it does not show: a session of lookups
gives the same stylesheets as without a cache, whichever uses of the cache fail on the way, and its cache stays
coherent and gets no second document under an address (`FontWorld.faithful_visits`).

A lookup without a cache is one request for each family that no system has, in order (`run_parts_plain`); one
with a coherent cache gives the same parts from some other requests (`run_parts_coherent`).
-/

namespace Artboard

namespace FontSession

/-! ## 1. Documents -/

/-- What the cache holds is what the network answers: each document has the stylesheet that is at its address,
or none at all. -/
def Coherent (network : Entries Reply) (documents : List FontDocument) : Prop :=
  ∀ doc ∈ documents, ∀ css, doc.css = some css → css ≠ "" →
    Reply.stylesheet (network.get? doc.url) = .ok css

/-- The documents under an address. -/
def under (url : String) (documents : List FontDocument) : List FontDocument :=
  documents.filter fun d => d.url == url

variable {network : Entries Reply} {documents : List FontDocument} {doc : FontDocument} {url css : String}

theorem mem_putDocument {d : FontDocument} (h : d ∈ putDocument doc documents) : d = doc ∨ d ∈ documents := by
  induction documents with
  | nil => exact .inl (List.mem_singleton.mp h)
  | cons first rest ih =>
    unfold putDocument at h
    split at h
    · rcases List.mem_cons.mp h with rfl | h
      · exact .inl rfl
      · exact .inr (List.mem_cons_of_mem _ h)
    · rcases List.mem_cons.mp h with rfl | h
      · exact .inr List.mem_cons_self
      · exact (ih h).imp_right (List.mem_cons_of_mem _)

/-- An empty cache is coherent. -/
theorem coherent_nil (network : Entries Reply) : Coherent network [] := fun _ hd => absurd hd List.not_mem_nil

/-- A cache stays coherent with what the network has just answered. -/
theorem Coherent.put (h : Coherent network documents) {family : Option String}
    (answered : Reply.stylesheet (network.get? url) = .ok css) :
    Coherent network (putDocument ⟨url, family, some css⟩ documents) := by
  intro d hd held hcss given
  rcases mem_putDocument hd with rfl | hd
  · rw [← Option.some.inj hcss]
    exact answered
  · exact h d hd held hcss given

theorem under_putDocument_other (h : doc.url ≠ url) : under url (putDocument doc documents) = under url documents := by
  have aside : (doc.url == url) = false := by simpa using h
  induction documents with
  | nil => simp [putDocument, under, aside]
  | cons first rest ih =>
    unfold putDocument
    split
    · rename_i same
      simp [under, same, aside]
    · unfold under at ih ⊢
      rw [List.filter_cons, List.filter_cons, ih]

theorem length_under_putDocument :
    (under doc.url (putDocument doc documents)).length = max 1 (under doc.url documents).length := by
  induction documents with
  | nil => simp [putDocument, under]
  | cons first rest ih =>
    unfold putDocument
    split
    · rename_i same
      simp [under, same]
    · rename_i other
      have aside : (first.url == doc.url) = false := by simpa using other
      unfold under at ih ⊢
      rw [List.filter_cons, List.filter_cons, aside]
      exact ih

/-- Putting a document gives no address a second one. -/
theorem length_under_le (url : String) :
    (under url (putDocument doc documents)).length ≤ max 1 (under url documents).length := by
  by_cases h : doc.url = url
  · have one : (under url (putDocument doc documents)).length = max 1 (under url documents).length :=
      h ▸ length_under_putDocument
    omega
  · rw [under_putDocument_other h]
    exact Nat.le_max_right 1 _

/-! ## 2. What uses of the cache do -/

/-- **A session that has gone on**: its cache is still coherent, and has no second document under an address. -/
structure Follows (network : Entries Reply) (s t : FontSession) : Prop where
  coherent : Coherent network t.documents
  single : ∀ url, (under url t.documents).length ≤ max 1 (under url s.documents).length

namespace Follows

variable {s t u : FontSession}

/-- What does not touch the documents is no matter. -/
theorem of_documents (h : Coherent network s.documents) (same : t.documents = s.documents) :
    Follows network s t := by
  refine ⟨same ▸ h, fun url => ?_⟩
  rw [same]
  exact Nat.le_max_right 1 _

theorem trans (first : Follows network s t) (second : Follows network t u) : Follows network s u := by
  refine ⟨second.coherent, fun url => ?_⟩
  have h := first.single url
  have k := second.single url
  omega

end Follows

theorem documents_opened (faults : CacheFaults) (s : FontSession) : (s.opened faults).documents = s.documents := by
  unfold opened
  split <;> rfl

/-- A look into the cache changes no document. -/
theorem documents_cached (faults : CacheFaults) (url : String) (s : FontSession) :
    (cached? faults url s).2.documents = s.documents := by
  unfold cached?
  dsimp only
  split <;> exact documents_opened faults s

/-- What is found in a coherent cache is what the network answers. -/
theorem Coherent.cached {s : FontSession} (h : Coherent network s.documents) {faults : CacheFaults}
    (found : (cached? faults url s).1 = some css) (given : css ≠ "") :
    Reply.stylesheet (network.get? url) = .ok css := by
  unfold cached? at found
  dsimp only at found
  split at found
  · obtain ⟨doc, looked, held⟩ := Option.bind_eq_some_iff.mp found
    unfold find? at looked
    rw [documents_opened] at looked
    have here : doc.url = url := by simpa using List.find?_some looked
    rw [← here]
    exact h doc (List.mem_of_find?_eq_some looked) css held given
  · cases found

/-- Saving what the network has answered. -/
theorem follows_save {s : FontSession} (h : Coherent network s.documents) (faults : CacheFaults) (family : String)
    (answered : Reply.stylesheet (network.get? url) = .ok css) :
    Follows network s (s.save faults ⟨url, some family, some css⟩) := by
  have opens : Coherent network (s.opened faults).documents := by rwa [documents_opened]
  unfold save
  dsimp only
  split
  · refine ⟨opens.put answered, fun other => ?_⟩
    have put : (under other (putDocument ⟨url, some family, some css⟩ (s.opened faults).documents)).length ≤ _ :=
      length_under_le other
    rw [documents_opened] at put ⊢
    exact put
  · exact .of_documents h (documents_opened faults s)

end FontSession

namespace FontWorld

open FontSession

variable {world : FontWorld} {s : FontSession}

/-! ## 3. One family -/

/-- The stylesheet of a family that the network answers with. -/
def answer (network : Entries Reply) (family : String) (weights : List Int) : Except Outage String :=
  Reply.stylesheet (network.get? (Font.stylesheetUrl family weights))

/-- The session after a request. -/
def asked (url : String) (s : FontSession) : FontSession := { s with requested := s.requested ++ [url] }

/-- A request is one more address asked for, and then what follows from the answer. -/
theorem run_request (world : FontWorld) (url family : String) (s : FontSession) :
    (world.request url family).run.run s = match Reply.stylesheet (world.network.get? url) with
      | .ok css => (.ok css, ((world.save url family css).run (asked url s)).2)
      | .error outage => (.error outage, asked url s) := by
  have asks : (world.request url family).run.run s =
      ((do
        let css ← (Reply.stylesheet (world.network.get? url) : Except Outage String)
        world.save url family css
        return css : FontLookup String)).run.run (asked url s) := rfl
  rw [asks]
  cases Reply.stylesheet (world.network.get? url) <;> rfl

theorem run_request_plain (plain : world.cacheEnabled = false) (url family : String) :
    (world.request url family).run.run s = (Reply.stylesheet (world.network.get? url), asked url s) := by
  have saves (css : String) : world.save url family css = pure () := by
    unfold save
    rw [plain]
    rfl
  rw [run_request]
  cases Reply.stylesheet (world.network.get? url) with
  | error outage => rfl
  | ok css =>
    dsimp only
    rw [saves css]
    rfl

/-- A request whose answer goes into a coherent cache. -/
theorem run_request_coherent (coherent : Coherent world.network s.documents) (url family : String) :
    ∃ t, (world.request url family).run.run s = (Reply.stylesheet (world.network.get? url), t) ∧
      Follows world.network s t := by
  have unchanged : Follows world.network s (asked url s) := .of_documents coherent rfl
  rw [run_request]
  cases answered : Reply.stylesheet (world.network.get? url) with
  | error outage => exact ⟨_, rfl, unchanged⟩
  | ok css =>
    refine ⟨_, rfl, unchanged.trans ?_⟩
    unfold save
    split
    · exact follows_save unchanged.coherent world.faults family answered
    · exact .of_documents unchanged.coherent rfl

/-- Without a cache, a lookup is a request. -/
theorem run_fetch_uncached (plain : world.cacheEnabled = false) (family : String) (weights : List Int) :
    (world.fetch family weights).run.run s =
      (world.request (Font.stylesheetUrl family weights) family).run.run s := by
  unfold fetch cached?
  rw [plain]
  rfl

theorem run_fetch_plain (plain : world.cacheEnabled = false) (family : String) (weights : List Int) :
    (world.fetch family weights).run.run s =
      (answer world.network family weights, asked (Font.stylesheetUrl family weights) s) := by
  rw [run_fetch_uncached plain, run_request_plain plain]
  rfl

/-- What is left of a lookup once the cache has been looked into. -/
def fetchFrom (world : FontWorld) (url family : String) : Option String → FontLookup String
  | some css => if css = "" then world.request url family else return css
  | none => world.request url family

/-- With a cache, a lookup looks there first. -/
theorem run_fetch_cached {held : Option String} {t : FontSession} (enabled : world.cacheEnabled = true)
    {family : String} {weights : List Int}
    (look : FontSession.cached? world.faults (Font.stylesheetUrl family weights) s = (held, t)) :
    (world.fetch family weights).run.run s =
      (world.fetchFrom (Font.stylesheetUrl family weights) family held).run.run t := by
  have looks : (world.fetch family weights).run.run s =
      (fun found : Option String × FontSession =>
        (world.fetchFrom (Font.stylesheetUrl family weights) family found.1).run.run found.2)
        (FontSession.cached? world.faults (Font.stylesheetUrl family weights) s) := by
    unfold fetch cached?
    rw [enabled]
    rfl
  rw [looks, look]

/-- The stylesheet of a family is what the network answers, also where it comes from a coherent cache. -/
theorem run_fetch_coherent (coherent : Coherent world.network s.documents) (family : String)
    (weights : List Int) :
    ∃ t, (world.fetch family weights).run.run s = (answer world.network family weights, t) ∧
      Follows world.network s t := by
  cases enabled : world.cacheEnabled with
  | false => exact ⟨_, run_fetch_plain enabled family weights, .of_documents coherent rfl⟩
  | true =>
    have unchanged := documents_cached world.faults (Font.stylesheetUrl family weights) s
    cases look : FontSession.cached? world.faults (Font.stylesheetUrl family weights) s with
    | mk held r =>
      rw [look] at unchanged
      have looked : Follows world.network s r := .of_documents coherent unchanged
      obtain ⟨t, requested, follows⟩ :=
        run_request_coherent looked.coherent (Font.stylesheetUrl family weights) family
      rw [run_fetch_cached enabled look]
      cases held with
      | none => exact ⟨t, requested, looked.trans follows⟩
      | some css =>
        rw [fetchFrom]
        by_cases empty : css = ""
        · rw [if_pos empty]
          exact ⟨t, requested, looked.trans follows⟩
        · have found := coherent.cached (congrArg Prod.fst look) empty
          rw [if_neg empty]
          exact ⟨r, Prod.ext found.symm rfl, looked⟩

/-! ## 4. All families -/

/-- The families that no system has. -/
def foreign (usage : FontUsage) : FontUsage := usage.filter fun e => !Font.isSystem e.1

/-- What the network has for all families that no system has. -/
def answers (network : Entries Reply) (usage : FontUsage) : List Part :=
  (foreign usage).map fun e => partOf e.1 e.2 (answer network e.1 e.2)

/-- The addresses of the stylesheets of all families that no system has. -/
def addresses (usage : FontUsage) : List String := (foreign usage).map fun e => Font.stylesheetUrl e.1 e.2

theorem foreign_cons (family : String) (weights : List Int) (rest : FontUsage) :
    foreign ((family, weights) :: rest) =
      if Font.isSystem family then foreign rest else (family, weights) :: foreign rest := by
  unfold foreign
  rw [List.filter_cons]
  cases Font.isSystem family <;> rfl

/-- The parts of a family and of those behind it. -/
theorem run_parts_cons {family : String} {weights : List Int} {rest : FontUsage} {t : FontSession}
    {outcome : Except Outage String} (foreign : Font.isSystem family = false)
    (fetched : (world.fetch family weights).run.run s = (outcome, t)) :
    (world.parts ((family, weights) :: rest)).run s =
      (partOf family weights outcome :: ((world.parts rest).run t).1, ((world.parts rest).run t).2) := by
  have stepwise : (world.parts ((family, weights) :: rest)).run s =
      (fun r : Except Outage String × FontSession =>
        (partOf family weights r.1 :: ((world.parts rest).run r.2).1, ((world.parts rest).run r.2).2))
        ((world.fetch family weights).run.run s) := by
    rw [parts, foreign]
    rfl
  rw [stepwise, fetched]

theorem run_parts_system {family : String} {weights : List Int} {rest : FontUsage}
    (system : Font.isSystem family = true) :
    world.parts ((family, weights) :: rest) = world.parts rest := by
  rw [parts, system]
  rfl

/-- **Without a cache, each family that no system has is requested once**, in order, and nothing else
happens. -/
theorem run_parts_plain (plain : world.cacheEnabled = false) (usage : FontUsage) (s : FontSession) :
    (world.parts usage).run s =
      (answers world.network usage, { s with requested := s.requested ++ addresses usage }) := by
  unfold answers addresses
  induction usage generalizing s with
  | nil =>
    show ([], s) = ([], { s with requested := s.requested ++ [] })
    rw [List.append_nil]
  | cons entry rest ih =>
    obtain ⟨family, weights⟩ := entry
    rw [foreign_cons]
    cases system : Font.isSystem family with
    | true => rw [run_parts_system system, ih, if_pos rfl]
    | false =>
      rw [run_parts_cons system (run_fetch_plain plain family weights), ih, if_neg Bool.false_ne_true]
      simp [asked]

/-- **With a coherent cache, all parts are what the network answers.** -/
theorem run_parts_coherent (world : FontWorld) (usage : FontUsage) (coherent : Coherent world.network s.documents) :
    ∃ t, (world.parts usage).run s = (answers world.network usage, t) ∧ Follows world.network s t := by
  unfold answers
  induction usage generalizing s with
  | nil => exact ⟨s, rfl, .of_documents coherent rfl⟩
  | cons entry rest ih =>
    obtain ⟨family, weights⟩ := entry
    rw [foreign_cons]
    cases system : Font.isSystem family with
    | true =>
      rw [run_parts_system system, if_pos rfl]
      exact ih coherent
    | false =>
      obtain ⟨t, fetched, follows⟩ := run_fetch_coherent coherent family weights
      obtain ⟨u, others, further⟩ := ih follows.coherent
      rw [run_parts_cons system fetched, others, if_neg Bool.false_ne_true]
      exact ⟨u, rfl, follows.trans further⟩

/-! ## 5. Sessions -/

/-- A lookup of fonts in a session, and which uses of the cache fail during it. -/
structure Step where
  faults : CacheFaults
  usage : FontUsage

/-- The stylesheets that the steps of a session give, each with the session after it. -/
def visits (network : Entries Reply) : List Step → FontSession → List (String × FontSession)
  | [], _ => []
  | step :: rest, s =>
    let world : FontWorld := ⟨network, true, step.faults⟩
    let visit := (world.stylesheet step.usage).run s
    visit :: visits network rest visit.2

theorem run_stylesheet (world : FontWorld) (usage : FontUsage) (s : FontSession) :
    (world.stylesheet usage).run s = (join ((world.parts usage).run s).1, ((world.parts usage).run s).2) := rfl

/-- **A step of a session that started with a cache is as without one**: it gives the stylesheet that the same
lookup gives without a cache, in whatever session, and leaves a coherent cache without a second document under
an address. -/
structure Faithful (network : Entries Reply) (start : FontSession) (step : Step) (visit : String × FontSession) :
    Prop where
  same : ∀ (faults : CacheFaults) (t : FontSession),
    visit.1 = (((⟨network, false, faults⟩ : FontWorld).stylesheet step.usage).run t).1
  coherent : Coherent network visit.2.documents
  single : ∀ url, (under url visit.2.documents).length ≤ max 1 (under url start.documents).length

/-- Rules for one family, a page without any for another, and nothing at the address of a third. -/
def someReplies : Entries Reply :=
  [(Font.stylesheetUrl "Inter" [], .response 200 "@font-face a"),
   (Font.stylesheetUrl "Lato" [], .response 200 "gone")]

/-- A cache with one of the replies, and with an empty document. -/
def someCache : FontSession :=
  { documents := [⟨Font.stylesheetUrl "Inter" [], none, some "@font-face a"⟩,
      ⟨Font.stylesheetUrl "Lato" [], some "Lato", some ""⟩] }

/-- A step in which the cache does not open, one in which nothing is found, and one in which all goes well. -/
def someSteps : List Step :=
  [⟨{ opening := true }, [("Inter", []), ("Lato", [])]⟩,
   ⟨{ finding := true }, [("Arial", []), ("Inter", [])]⟩,
   ⟨{}, [("Inter", []), ("Lato", []), ("Rubik", [])]⟩]

end FontWorld

end Artboard
