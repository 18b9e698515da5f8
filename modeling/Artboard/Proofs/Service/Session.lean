import Artboard.Proofs.Service.Reply

/-!
# Sessions

A session is requests that are answered one after the other (`Service.session`).  Of those that compiled (`deeds`), each
was written to the end or not, and a project reflects what they came to (`Service.Reflects`): it shows the component
that was written last, and the files of a name hold what was written last under it unless a later one of the name was
cut short.  One request keeps that (`Upheld.step`), and so does any number of them (`Upheld.session`).

Only a character that no file can hold cuts a component short, and then the files of an older one of its name are lost
(`spoilt_by_later`).
-/

namespace Artboard

namespace Service

open FileTree ProjectPlan

/-! ## 1. Sessions -/

/-- A request with its answer. -/
structure Exchange where
  call : Call
  response : Response

/-- Requests answered one after the other: what was asked and answered, and the state at the end. -/
def session (setup : Setup) : List Call → State → List Exchange × State
  | [], s => ([], s)
  | call :: rest, s =>
    let (response, t) := (reply setup call).run s
    let (log, u) := session setup rest t
    (⟨call, response⟩ :: log, u)

/-- What a request for a component in a project came to: the component, and whether it was written to the end. -/
structure Deed where
  component : Component
  done : Bool

/-- What the requests of a session came to that compiled. -/
def deeds (world : FontWorld) (log : List Exchange) : List Deed :=
  log.filterMap fun x => (x.call.component? world).map fun c => ⟨c, x.response.status == 200⟩

variable {setup : Setup} {world : FontWorld} {s : State} {call : Call} {body : Body} {c : Component}

@[simp] theorem session_nil (setup : Setup) (s : State) : session setup [] s = ([], s) := rfl

theorem session_cons (setup : Setup) (call : Call) (rest : List Call) (s : State) :
    session setup (call :: rest) s =
      (⟨call, ((reply setup call).run s).1⟩ :: (session setup rest ((reply setup call).run s).2).1,
        (session setup rest ((reply setup call).run s).2).2) := by
  rw [session]
  generalize (reply setup call).run s = answered
  rfl

/-! ## 2. What a project reflects -/

/-- The component that was written last to its end. -/
def latest? (ds : List Deed) : Option Component := (ds.filter Deed.done).getLast?.map Deed.component

/-- **A project reflects what requests came to**: it has the templates but for the application, which shows the
component that was written last; and the last of a name that was written is in its files, exactly if no later one of the
name was not written to the end. -/
structure Reflects (plan : ProjectPlan) (templates : FileTree) (ds : List Deed) (u : FileTree) : Prop where
  stocked : Stocked plan u
  kept : ∀ q s, templates.kindAt? q = some (.file s) → q ≠ ["src", "App.jsx"] →
    u.kindAt? (plan.home ++ q) = some (.file s)
  shown : u.kindAt? plan.appPlace =
    match latest? ds with
    | some c => some (.file (Component.appEntry c.name "./components"))
    | none => templates.kindAt? ["src", "App.jsx"]
  held : ∀ before c after, ds = before ++ ⟨c, true⟩ :: after →
    (∀ d ∈ after, d.component.name = c.name → d.done = false) →
    ((u.kindAt? (plan.codePlace c.name) = some (.file c.code) ∧
        u.kindAt? (plan.stylesheetPlace c.name) = some (.file c.stylesheet)) ↔
      ∀ d ∈ after, d.component.name ≠ c.name)

theorem latest?_append (ds : List Deed) (c : Component) (done : Bool) :
    latest? (ds ++ [⟨c, done⟩]) = if done then some c else latest? ds := by
  unfold latest?
  rw [List.filter_append]
  cases done <;> simp

/-- A project that was just made reflects nothing. -/
theorem reflects_nil {plan : ProjectPlan} {templates u : FileTree} (stocked : Stocked plan u)
    (bare : templates.kindAt? ["src", "components"] = none)
    (copied : ∀ q, q ≠ ["src", "components"] → u.kindAt? (plan.home ++ q) = templates.kindAt? q) :
    Reflects plan templates [] u where
  stocked := stocked
  kept := by
    intro q s isFile _
    have other : q ≠ ["src", "components"] := by
      rintro rfl
      rw [bare] at isFile
      cases isFile
    rw [copied q other, isFile]
  shown := copied _ (by simp)
  held := by simp

/-- **One more component that a project reflects.** -/
theorem Reflects.add {plan : ProjectPlan} {templates u v : FileTree} {ds : List Deed} {done : Bool}
    (h : Reflects plan templates ds u) (bare : templates.kindAt? ["src", "components"] = none)
    (made : ∀ d ∈ ds, d.component.IsMade) (stores : Stores plan c done u v) :
    Reflects plan templates (ds ++ [⟨c, done⟩]) v where
  stocked := stores.stocked
  kept := by
    intro q s isFile other
    have shelfless (name : String) : plan.home ++ q ≠ plan.shelfPlace name := by
      intro same
      have nothing : templates.kindAt? ["src", "components", name] = none :=
        nothing_below (p := ["src", "components"]) (q := [name]) (by rw [bare]; simp) (by simp)
      rw [List.append_cancel_left same, nothing] at isFile
      cases isFile
    have apart : plan.home ++ q ≠ plan.appPlace := fun same => other (List.append_cancel_left same)
    rw [stores.kept _ (shelfless _) (shelfless _) apart]
    exact h.kept q s isFile other
  shown := by
    rw [stores.app, latest?_append]
    cases done with
    | true => rfl
    | false => exact h.shown
  held := by
    intro before c' after split latest
    rcases List.eq_nil_or_concat' after with rfl | ⟨after, d, rfl⟩
    · -- it is the one that has just been written
      obtain ⟨-, same⟩ := List.append_inj' split rfl
      obtain ⟨rfl, rfl⟩ : c = c' ∧ done = true := by simpa using same
      simpa using stores.written rfl
    · -- it was written before, and its files are no others unless the name is the same
      have shape : before ++ ⟨c', true⟩ :: (after ++ [d]) = (before ++ ⟨c', true⟩ :: after) ++ [d] := by simp
      rw [shape] at split
      obtain ⟨older, same⟩ := List.append_inj' split rfl
      obtain rfl : ⟨c, done⟩ = d := by simpa using same
      have earlier := h.held before c' after older fun d hd => latest d (List.mem_append_left _ hd)
      by_cases named : c.name = c'.name
      · obtain rfl : done = false := latest ⟨c, done⟩ (by simp) named
        have texts : c'.IsMade := made ⟨c', true⟩ (by simp [older])
        exact iff_of_false (stores.spoilt_files named texts) fun others => others ⟨c, false⟩ (by simp) named
      · obtain ⟨code, stylesheet⟩ := stores.files_other named
        rw [code, stylesheet, earlier]
        constructor
        · intro others d hd
          rcases List.mem_append.mp hd with hd | hd
          · exact others d hd
          · rwa [List.mem_singleton.mp hd]
        · exact fun others d hd => others d (List.mem_append_left _ hd)

/-! ## 3. Whole sessions -/

theorem deeds_append (world : FontWorld) (log : List Exchange) (x : Exchange) :
    deeds world (log ++ [x]) =
      deeds world log ++ ((x.call.component? world).map fun c => ⟨c, x.response.status == 200⟩).toList := by
  unfold deeds
  rw [List.filterMap_append]
  cases h : x.call.component? world <;> simp [h]

/-- A request with a component is one that came to something. -/
theorem deeds_ne_nil {log : List Exchange} {x : Exchange} (hx : x ∈ log)
    (component : x.call.component? world = some c) : deeds world log ≠ [] := by
  have deed : (⟨c, x.response.status == 200⟩ : Deed) ∈ deeds world log := by
    refine List.mem_filterMap.mpr ⟨x, hx, ?_⟩
    rw [component]
    rfl
  exact List.ne_nil_of_mem deed

/-- What is said of a request for a component in the project that was answered with 200: compiling its body gives the
component, in every session whose font cache is coherent. -/
def IsAnswered (setup : Setup) (x : Exchange) : Prop :=
  ∃ c, x.call.component? setup.world = some c ∧
    ∀ s : State, FontSession.Coherent setup.world.network s.fonts.documents →
      ((handle setup "POST" "/compile" x.call.body).run s).1 = componentResponse c

/-- **What holds after every request of a session.** -/
structure Upheld (setup : Setup) (templates start : FileTree) (log : List Exchange) (s : State) : Prop where
  coherent : FontSession.Coherent setup.world.network s.fonts.documents
  made : ∀ d ∈ deeds setup.world log, d.component.IsMade
  untouched : deeds setup.world log = [] → s.files = start
  reflects : deeds setup.world log ≠ [] → Reflects setup.plan templates (deeds setup.world log) s.files
  answered : ∀ x ∈ log, x.call.generates = true → x.response.status = 200 → IsAnswered setup x

/-- The tree that a component is put into: the project that is there, or one that is made first. -/
theorem Upheld.base {templates start : FileTree} {log : List Exchange} (h : Upheld setup templates start log s)
    (fresh : Fresh setup.plan templates start) :
    ∃ u, Reflects setup.plan templates (deeds setup.world log) u ∧
      ∀ isLone c, putComponent setup.plan isLone c s.files = putComponent setup.plan isLone c u := by
  by_cases first : deeds setup.world log = []
  · obtain ⟨u, made, stocked, copied⟩ := stocked_provision fresh
    refine ⟨u, first ▸ reflects_nil stocked fresh.bare copied, fun isLone c => ?_⟩
    rw [h.untouched first]
    exact putComponent_of_made made stocked isLone c
  · exact ⟨s.files, h.reflects first, fun _ _ => rfl⟩

/-- **A request with a component**: it is put into the project as far as files can hold it, and answered so. -/
theorem Upheld.put {templates start : FileTree} {log : List Exchange} (h : Upheld setup templates start log s)
    (fresh : Fresh setup.plan templates start) (quiet : Text.isLow setup.plan.project = true)
    (component : call.component? setup.world = some c) (short : c.name.utf8ByteSize ≤ Component.maxBytes) :
    ∃ body u, Body.read call.body = .ok body ∧ Text.AreHigh body.isLone ∧ outcome setup.world.network body = .ok c ∧
      Reflects setup.plan templates (deeds setup.world log) u ∧
      Stores setup.plan c (isWritable body.isLone c) u ((reply setup call).run s).2.files ∧
      ((reply setup call).run s).1.status = if isWritable body.isLone c then 200 else 500 := by
  obtain ⟨-, ⟨none, -, -⟩ | ⟨body, c', read, high, compiled, some, answer, files⟩⟩ := reply_cases h.coherent call
  · rw [none] at component
    cases component
  · obtain rfl : c = c' := Option.some.inj (component.symm.trans some)
    have named := (isMade_of_outcome compiled).named
    obtain ⟨u, reflects, moved⟩ := h.base fresh
    obtain ⟨v, put, stores⟩ := stores_putComponent reflects.stocked (storable_of_isNamed named short high)
    rw [moved, put] at answer files
    refine ⟨body, u, read, high, compiled, reflects, files ▸ stores, ?_⟩
    rw [answer]
    cases isWritable body.isLone c with
    | true =>
      dsimp only
      rw [if_pos rfl, sent_writtenResponse high quiet fresh.components named]
      rfl
    | false => rfl

/-- **One request**: what holds after every request is kept by it. -/
theorem Upheld.step {templates start : FileTree} {log : List Exchange} (h : Upheld setup templates start log s)
    (fresh : Fresh setup.plan templates start) (quiet : Text.isLow setup.plan.project = true)
    (short : ∀ c, call.component? setup.world = some c → c.name.utf8ByteSize ≤ Component.maxBytes) :
    Upheld setup templates start (log ++ [⟨call, ((reply setup call).run s).1⟩]) ((reply setup call).run s).2 := by
  obtain ⟨coherent, came⟩ := reply_cases h.coherent call
  cases component : call.component? setup.world with
  | none =>
    obtain ⟨-, files, status⟩ | ⟨_, _, _, _, _, some, _⟩ := came
    · have same : deeds setup.world (log ++ [⟨call, ((reply setup call).run s).1⟩]) = deeds setup.world log := by
        rw [deeds_append, component]
        simp
      exact {
        coherent := coherent
        made := by rw [same]; exact h.made
        untouched := by rw [same, files]; exact h.untouched
        reflects := by rw [same, files]; exact h.reflects
        answered := List.forall_mem_append.mpr ⟨h.answered, List.forall_mem_singleton.mpr fun generates good =>
          absurd good (status generates)⟩ }
    · rw [component] at some
      cases some
  | some c =>
    obtain ⟨body, u, read, high, compiled, reflects, stores, status⟩ := h.put fresh quiet component (short c component)
    have done : (((reply setup call).run s).1.status == 200) = isWritable body.isLone c := by
      rw [status]
      cases isWritable body.isLone c <;> rfl
    have one : deeds setup.world (log ++ [⟨call, ((reply setup call).run s).1⟩]) =
        deeds setup.world log ++ [⟨c, isWritable body.isLone c⟩] := by
      rw [deeds_append, component, ← done]
      rfl
    exact {
      coherent := coherent
      made := by
        rw [one]
        exact List.forall_mem_append.mpr ⟨h.made, List.forall_mem_singleton.mpr (isMade_of_outcome compiled)⟩
      untouched := by simp [one]
      reflects := by
        rw [one]
        exact fun _ => reflects.add fresh.bare h.made stores
      answered := by
        refine List.forall_mem_append.mpr ⟨h.answered, List.forall_mem_singleton.mpr fun _ good => ?_⟩
        have writable : isWritable body.isLone c = true := by rw [← done, good]; rfl
        exact ⟨c, component, fun t coherent => handle_compile_of_outcome read high compiled writable coherent⟩ }

/-- **Any number of requests.** -/
theorem Upheld.session {templates start : FileTree} {log : List Exchange} {calls : List Call}
    (h : Upheld setup templates start log s) (fresh : Fresh setup.plan templates start)
    (quiet : Text.isLow setup.plan.project = true)
    (short : ∀ call ∈ calls, ∀ c, call.component? setup.world = some c → c.name.utf8ByteSize ≤ Component.maxBytes) :
    Upheld setup templates start (log ++ (session setup calls s).1) (session setup calls s).2 := by
  induction calls generalizing log s with
  | nil =>
    rw [Service.session, List.append_nil]
    exact h
  | cons call rest ih =>
    have next := ih (h.step fresh quiet (short call List.mem_cons_self)) fun call hc =>
      short call (List.mem_cons_of_mem _ hc)
    rw [List.append_assoc] at next
    rw [session_cons]
    exact next

/-- What holds before the first request. -/
theorem upheld_nil {templates : FileTree} {start : State}
    (coherent : FontSession.Coherent setup.world.network start.fonts.documents) :
    Upheld setup templates start.files [] start where
  coherent := coherent
  made := by simp [deeds]
  untouched := fun _ => rfl
  reflects := fun some => absurd rfl some
  answered := by simp

/-! ## 4. The project after a session -/

/-- The body of a request for a card with a text. -/
def card (text : String) : String :=
  "\x7b\"data\": [\x7b\"name\": \"Card\", \"type\": \"TEXT\", \"width\": 1, \"height\": 1, " ++
    "\"textContent\": \"" ++ text ++ "\"\x7d]\x7d"

/-- A request to put such a card into the project. -/
def putCard (text : String) : Call := ⟨"POST", "/api/generate", some (card text)⟩

/-- A service with a project and without fonts. -/
def someSetup : Setup := ⟨somePlan, {}⟩

/-- Nothing but templates. -/
def someStart : State := ⟨.directory [("tpl", someTemplates)], {}⟩

theorem fresh_someStart : Fresh someSetup.plan someTemplates someStart.files := by
  have root : someStart.files.kindAt? [] = some .directory := rfl
  have absent : someStart.files.kindAt? someSetup.plan.home = none := by decide +kernel
  have creatable : (someStart.files.makeDirectories someSetup.plan.project).2 = none := by decide +kernel
  have place : someStart.files.place? someSetup.plan.templates = some ["tpl"] := by decide +kernel
  exact {
    components := rfl
    given := by
      unfold lookup?
      rw [place]
      simp [someStart, at?, Entries.get?]
    proper := by decide +kernel
    package := ⟨"\x7b\x7d", by decide +kernel⟩
    app := ⟨"template", by decide +kernel⟩
    older := by decide +kernel
    bare := by decide +kernel
    absent := absent
    apart := fun source toSource => by
      rw [place] at toSource
      cases toSource
      decide +kernel
    creatable := creatable
    empty := empty_withProject root (by decide +kernel) absent creatable }

theorem generates_putCard (text : String) : (putCard text).generates = true := by
  have method : Text.upper "POST" = "POST" := by decide +kernel
  have route : Route.ofPath? "/api/generate" = some .generate := by decide +kernel
  simp [putCard, Call.generates, method, route]

/-- Nodes are those of a component with a name. -/
def makes (world : FontWorld) (name : String) (nodes : List Value) : Bool :=
  ((Component.build world (.list nodes)).run {}).1.toOption.any fun c => decide (c.name = name)

theorem component?_of_makes {name : String} {nodes : List Value} (submitted : body.nodes = .ok nodes)
    (h : makes world name nodes = true) : ∃ c, body.component? world = some c ∧ c.name = name := by
  unfold makes at h
  obtain ⟨c, built, called⟩ := (Option.any_eq_true _ _).mp h
  refine ⟨c, ?_, of_decide_eq_true called⟩
  unfold Body.component?
  rw [submitted]
  exact built

/-- A card without a lone surrogate can be held by files. -/
theorem putCard_plain : ∃ body c, Body.read (putCard "x").body = .ok body ∧
    (putCard "x").component? someSetup.world = some c ∧ c.name = "Card" ∧ isWritable body.isLone c = true := by
  have submitted : submits (fun _ nodes => makes someSetup.world "Card" nodes) (card "x") = true := by decide +kernel
  obtain ⟨v, nodes, read, proper, -, -, named⟩ := of_submits (by decide +kernel) submitted
  obtain ⟨c, component, called⟩ := component?_of_makes proper named
  refine ⟨_, c, read, ?_, called, by simp [isWritable]⟩
  rw [component?_of_read someSetup.world (generates_putCard "x") read, component]

/-- **After any session that starts without a project, the project reflects the requests.**  Until a request for a
component compiles nothing is there; from then on the project has the templates and shows the component that was
written last, and the files of a name hold the component that was written last under it exactly if no later one of the
name failed to be written.  A request for a component that is answered with 200 is one whose body compiles to the
component, and it compiles to the same at any later time; one that compiles is answered with 200 exactly if files can
hold its component.  A request without a component, and any that is answered with 400 or 422, changes no file. -/
theorem session_reflects {templates : FileTree} {calls : List Call} {start now : State} {log : List Exchange}
    (fresh : Fresh setup.plan templates start.files) (quiet : Text.isLow setup.plan.project = true)
    (coherent : FontSession.Coherent setup.world.network start.fonts.documents)
    (short : ∀ call ∈ calls, ∀ c, call.component? setup.world = some c → c.name.utf8ByteSize ≤ Component.maxBytes)
    (ran : session setup calls start = (log, now)) :
    (deeds setup.world log = [] → now.files = start.files ∧ now.files.kindAt? setup.plan.home = none) ∧
    (deeds setup.world log ≠ [] → Reflects setup.plan templates (deeds setup.world log) now.files) ∧
    (∀ x ∈ log, x.call.generates = true → x.response.status = 200 → ∃ c, x.call.component? setup.world = some c ∧
      ((handle setup "POST" "/compile" x.call.body).run now).1 = componentResponse c) ∧
    (∀ call c, call.component? setup.world = some c → c.name.utf8ByteSize ≤ Component.maxBytes →
      ∃ body, Body.read call.body = .ok body ∧
        ((reply setup call).run now).1.status = if isWritable body.isLone c then 200 else 500) ∧
    ∀ call, (call.component? setup.world = none ∨ ((reply setup call).run now).1.status = 400 ∨
        ((reply setup call).run now).1.status = 422) →
      ((reply setup call).run now).2.files = now.files := by
  have upheld := (upheld_nil coherent).session fresh quiet short
  rw [ran, List.nil_append] at upheld
  dsimp only at upheld
  refine ⟨fun none => ?_, upheld.reflects, fun x hx generates good => ?_, fun call c component fits => ?_,
    fun call idle => ?_⟩
  · have same := upheld.untouched none
    exact ⟨same, by rw [same, fresh.absent]⟩
  · obtain ⟨c, component, compiles⟩ := upheld.answered x hx generates good
    exact ⟨c, component, compiles now upheld.coherent⟩
  · obtain ⟨body, u, read, -, -, -, -, status⟩ := upheld.put fresh quiet component fits
    exact ⟨body, read, status⟩
  · obtain ⟨-, ⟨-, files, -⟩ | ⟨body, c, -, -, -, component, answer, -⟩⟩ := reply_cases upheld.coherent call
    · exact files
    · have other := status_putComponent setup.plan body.isLone c now.files
      have sent := status_sent body.isLone (putComponent setup.plan body.isLone c now.files).1
      rcases idle with none | status
      · rw [none] at component
        cases component
      · rw [answer] at status
        omega

theorem session_reflects_card : ∃ c log now, session someSetup [putCard "x"] someStart = (log, now) ∧
    (putCard "x").component? someSetup.world = some c ∧
    now.files.kindAt? ["app", "package.json"] = some (.file "\x7b\x7d") := by
  obtain ⟨body, c, read, component, called, -⟩ := putCard_plain
  have short : ∀ call ∈ [putCard "x"], ∀ c, call.component? someSetup.world = some c →
      c.name.utf8ByteSize ≤ Component.maxBytes := by
    intro call hc c' component'
    rw [List.mem_singleton.mp hc, component] at component'
    obtain rfl := Option.some.inj component'
    rw [called]
    decide +kernel
  obtain ⟨-, reflects, -⟩ := session_reflects fresh_someStart (by decide +kernel) (FontSession.coherent_nil _) short
    (session_cons someSetup (putCard "x") [] someStart)
  have home : someSetup.plan.home = ["app"] := by decide +kernel
  have kept := (reflects (deeds_ne_nil List.mem_cons_self component)).kept ["package.json"] "\x7b\x7d"
    (by decide +kernel) (by decide)
  rw [home] at kept
  exact ⟨c, _, _, session_cons someSetup (putCard "x") [] someStart, component, kept⟩

/-- A lone surrogate comes into a line of a card. -/
def isSpoilt (body : Body) : Bool :=
  body.nodes.toOption.any fun nodes =>
    makes someSetup.world "Card" nodes && (Composition.ofValue (.list nodes)).toOption.any fun composition =>
      composition.markup.any fun m => (m.lines 0).any fun l => l.toList.any body.isLone

theorem putCard_lone : ∃ body c, Body.read (putCard "\\ud800").body = .ok body ∧
    (putCard "\\ud800").component? someSetup.world = some c ∧ c.name = "Card" ∧ isWritable body.isLone c = false := by
  have spoilt : (Body.read (putCard "\\ud800").body).toOption.any isSpoilt = true := by decide +kernel
  obtain ⟨body, read, spoils⟩ := (Option.any_eq_true _ _).mp spoilt
  obtain ⟨nodes, submitted, spoils⟩ := (Option.any_eq_true _ _).mp spoils
  obtain ⟨named, lines⟩ := Bool.and_eq_true_iff.mp spoils
  obtain ⟨composition, compiled, lines⟩ := (Option.any_eq_true _ _).mp lines
  obtain ⟨m, hm, lines⟩ := List.any_eq_true.mp lines
  obtain ⟨l, hl, lone⟩ := List.any_eq_true.mp lines
  have read := ok_of_toOption read
  have submitted := ok_of_toOption submitted
  obtain ⟨c, component, called⟩ := component?_of_makes submitted named
  have unwritable := not_isWritable_of_line submitted component (ok_of_toOption compiled) hm hl lone
  refine ⟨body, c, read, ?_, called, unwritable⟩
  rw [component?_of_read someSetup.world (generates_putCard _) read, component]

/-- **A component is spoilt by a later one of its name that files cannot hold**: the later request is not answered with
200, and still the application shows the component. -/
theorem spoilt_by_later {templates : FileTree} {start : State} {call call' : Call} {c c' : Component}
    {body body' : Body} (fresh : Fresh setup.plan templates start.files) (quiet : Text.isLow setup.plan.project = true)
    (coherent : FontSession.Coherent setup.world.network start.fonts.documents)
    (read : Body.read call.body = .ok body) (component : call.component? setup.world = some c)
    (writable : isWritable body.isLone c = true)
    (read' : Body.read call'.body = .ok body') (component' : call'.component? setup.world = some c')
    (lone : isWritable body'.isLone c' = false)
    (same : c'.name = c.name) (short : c.name.utf8ByteSize ≤ Component.maxBytes) :
    ∃ log now, session setup [call, call'] start = (log, now) ∧ log.map (fun x => x.response.status) = [200, 500] ∧
      now.files.kindAt? setup.plan.appPlace = some (.file (Component.appEntry c.name "./components")) ∧
      ¬(now.files.kindAt? (setup.plan.codePlace c.name) = some (.file c.code) ∧
        now.files.kindAt? (setup.plan.stylesheetPlace c.name) = some (.file c.stylesheet)) := by
  have short' : c'.name.utf8ByteSize ≤ Component.maxBytes := same ▸ short
  have first : Upheld setup templates start.files [] start := upheld_nil coherent
  have next := first.step fresh quiet fun _ h => Option.some.inj (component.symm.trans h) ▸ short
  have last := next.step fresh quiet fun _ h => Option.some.inj (component'.symm.trans h) ▸ short'
  obtain ⟨_, _, again, -, -, -, -, status⟩ := first.put fresh quiet component short
  obtain ⟨_, _, again', -, -, -, -, status'⟩ := next.put fresh quiet component' short'
  obtain rfl := Except.ok.inj (read.symm.trans again)
  obtain rfl := Except.ok.inj (read'.symm.trans again')
  rw [writable, if_pos rfl] at status
  rw [lone, if_neg Bool.false_ne_true] at status'
  have reflects := last.reflects (deeds_ne_nil (List.mem_append_right _ List.mem_cons_self) component')
  rw [deeds_append, deeds_append, component, component'] at reflects
  dsimp only at reflects
  rw [status, status'] at reflects
  have held := reflects.held [] c [⟨c', false⟩] rfl fun d hd _ => by rw [List.mem_singleton.mp hd]
  refine ⟨_, _, session_cons setup call [call'] start, ?_, reflects.shown, ?_⟩
  · rw [session_cons, session_nil]
    simp only [List.map_cons, List.map_nil, status, status']
  · rintro ⟨code, stylesheet⟩
    exact held.mp ⟨code, stylesheet⟩ _ (List.mem_singleton_self _) same

/-- A card is spoilt by one with a lone surrogate. -/
theorem card_spoilt : ∃ c log now, session someSetup [putCard "x", putCard "\\ud800"] someStart = (log, now) ∧
    log.map (fun x => x.response.status) = [200, 500] ∧
    (putCard "x").component? someSetup.world = some c ∧ c.name = "Card" ∧
    now.files.kindAt? somePlan.appPlace = some (.file (Component.appEntry "Card" "./components")) ∧
    ¬(now.files.kindAt? (somePlan.codePlace "Card") = some (.file c.code) ∧
      now.files.kindAt? (somePlan.stylesheetPlace "Card") = some (.file c.stylesheet)) := by
  obtain ⟨body, c, read, component, called, writable⟩ := putCard_plain
  obtain ⟨body', c', read', component', called', lone⟩ := putCard_lone
  have quiet : Text.isLow someSetup.plan.project = true := by decide +kernel
  have short : c.name.utf8ByteSize ≤ Component.maxBytes := by
    rw [called]
    decide +kernel
  obtain ⟨log, now, ran, statuses, shown, lost⟩ := spoilt_by_later fresh_someStart quiet
    (FontSession.coherent_nil _) read component writable read' component' lone (called'.trans called.symm) short
  rw [called] at shown lost
  exact ⟨c, log, now, ran, statuses, component, called, shown, lost⟩

end Service

end Artboard
