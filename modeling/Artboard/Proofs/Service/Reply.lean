import Artboard.Proofs.Limits.Moderate
import Artboard.Proofs.Project.Upkeep

/-!
# Requests for a component

What one request comes to (`Service.reply_cases`): either it puts no component into the project, and then it changes no
file, or its body compiles and the component is put there.  What a body compiles to depends on the network and not on
the state of the service as long as the font cache is coherent (`Service.outcome`, `Service.run_build`), so compiling it
again gives the component that was put (`handle_compile_of_outcome`).

A component put into a project that can be written to is there afterwards as far as files can hold it, and the answer
says whether it is (`Service.stores_putComponent`).
-/

namespace Artboard

namespace Service

open FileTree ProjectPlan

/-! ## 1. Requests -/

/-- A request as it comes. -/
structure Call where
  method : String
  path : String
  body : Option String

/-- A request answered. -/
def reply (setup : Setup) (call : Call) : StateM State Response := handle setup call.method call.path call.body

/-- The request is for a component in the project. -/
def Call.generates (call : Call) : Bool :=
  decide (Text.upper call.method = "POST") && decide (Route.ofPath? call.path = some .generate)

/-- The component of a body, if it compiles. -/
def Body.component? (world : FontWorld) (body : Body) : Option Component :=
  match body.nodes with
  | .error _ => none
  | .ok nodes => ((Component.build world (.list nodes)).run {}).1.toOption

/-- The component that a request is to put into the project, if it compiles. -/
def Call.component? (world : FontWorld) (call : Call) : Option Component :=
  if call.generates then (Body.read call.body).toOption.bind (Body.component? world) else none

variable {setup : Setup} {world : FontWorld} {network : Entries Reply} {s : State} {call : Call} {body : Body}
  {c : Component} {text : Option String}

/-! ## 2. One request -/

/-- The outcome of compiling a body with the replies of a network. -/
def outcome (network : Entries Reply) (body : Body) : Except Response Component :=
  match body.nodes with
  | .error r => .error r
  | .ok nodes => (Component.built network (.list nodes)).mapError faultResponse

/-- Building a component changes the fonts of the state only. -/
theorem run_build (coherent : FontSession.Coherent setup.world.network s.fonts.documents) (body : Body) :
    ∃ fonts, (build setup body).run s = (outcome setup.world.network body, { s with fonts := fonts }) ∧
      FontSession.Coherent setup.world.network fonts.documents := by
  unfold build outcome
  cases body.nodes with
  | error r => exact ⟨s.fonts, rfl, coherent⟩
  | ok nodes =>
    obtain ⟨fonts, ran, follows⟩ := Component.run_build_coherent coherent (.list nodes)
    refine ⟨fonts, ?_, follows.coherent⟩
    dsimp only
    rw [StateT.run_bind, StateT.run_get, pure_bind, ran]
    rfl

theorem component?_eq (world : FontWorld) (body : Body) :
    body.component? world = (outcome world.network body).toOption := by
  unfold Body.component? outcome
  cases body.nodes with
  | error r => rfl
  | ok nodes =>
    have empty : FontSession.Coherent world.network (FontSession.documents {}) := FontSession.coherent_nil _
    obtain ⟨fonts, ran, -⟩ := Component.run_build_coherent empty (.list nodes)
    dsimp only
    rw [ran]
    cases Component.built world.network (.list nodes) <;> rfl

theorem component?_of_read (world : FontWorld) (generates : call.generates = true)
    (read : Body.read call.body = .ok body) : call.component? world = body.component? world := by
  unfold Call.component?
  rw [if_pos generates, read]
  rfl

theorem ok_of_toOption {ε α : Type} {x : Except ε α} {a : α} (h : x.toOption = some a) : x = .ok a := by
  cases x with
  | error e => cases h
  | ok b => rw [Option.some.inj h]

theorem outcome_of_component? (h : body.component? world = some c) : outcome world.network body = .ok c := by
  rw [component?_eq] at h
  exact ok_of_toOption h

theorem ok_of_mapError {ε ε' α : Type} {f : ε → ε'} {x : Except ε α} {a : α} (h : x.mapError f = .ok a) :
    x = .ok a := by
  cases x with
  | error e => cases h
  | ok b => rw [Except.ok.inj h]

/-- What a body compiles to is built of its nodes. -/
theorem built_of_outcome (h : outcome network body = .ok c) :
    ∃ nodes, body.nodes = .ok nodes ∧ Component.built network (.list nodes) = .ok c := by
  unfold outcome at h
  cases submitted : body.nodes with
  | error r =>
    rw [submitted] at h
    cases h
  | ok nodes =>
    rw [submitted] at h
    exact ⟨nodes, rfl, ok_of_mapError h⟩

theorem isMade_of_outcome (h : outcome network body = .ok c) : c.IsMade := by
  obtain ⟨nodes, -, built⟩ := built_of_outcome h
  exact Component.isMade_built built

/-- A component cannot be held by files if a line of its markup has a lone surrogate. -/
theorem not_isWritable_of_line {nodes : List Value} {composition : Composition} {m : Markup} {l : String}
    (submitted : body.nodes = .ok nodes) (component : body.component? world = some c)
    (compiled : Composition.ofValue (.list nodes) = .ok composition) (hm : m ∈ composition.markup) (hl : l ∈ m.lines 0)
    (lone : l.toList.any body.isLone = true) : isWritable body.isLone c = false := by
  obtain ⟨nodes', submitted', built⟩ := built_of_outcome (outcome_of_component? component)
  obtain rfl : nodes = nodes' := Except.ok.inj (submitted.symm.trans submitted')
  obtain ⟨composition', compiled', code⟩ := Component.code_of_built built
  obtain rfl : composition = composition' := Except.ok.inj (compiled.symm.trans compiled')
  unfold isWritable
  rw [code, Component.any_codeText hm hl lone]
  rfl

/-- The answer to a request, and the same without what it holds if that is asked for. -/
theorem run_reply (setup : Setup) (call : Call) (s : State) :
    (reply setup call).run s =
      ((if Text.upper call.method = "HEAD" then
          ((answer setup (Text.upper call.method) call.path call.body).run s).1.withoutContent
        else ((answer setup (Text.upper call.method) call.path call.body).run s).1),
        ((answer setup (Text.upper call.method) call.path call.body).run s).2) := rfl

theorem run_respondTo (text : Option String) (answer : Body → StateM State Response) (s : State) :
    (respondTo text answer).run s =
      match Body.read text with
      | .error r => (r, s)
      | .ok b => (((answer b).run s).1.sent b.isLone, ((answer b).run s).2) := by
  unfold respondTo
  cases Body.read text <;> rfl

/-- What follows from what a body compiles to. -/
theorem run_compile_outcome (coherent : FontSession.Coherent setup.world.network s.fonts.documents) (body : Body) :
    ∃ fonts, (compile setup body).run s =
        ((match outcome setup.world.network body with
          | .ok c => componentResponse c
          | .error r => r), { s with fonts := fonts }) ∧
      FontSession.Coherent setup.world.network fonts.documents := by
  obtain ⟨fonts, ran, follows⟩ := run_build coherent body
  refine ⟨fonts, ?_, follows⟩
  unfold compile
  rw [StateT.run_bind, ran]
  cases outcome setup.world.network body <;> rfl

theorem run_generate_outcome (coherent : FontSession.Coherent setup.world.network s.fonts.documents) (body : Body) :
    ∃ fonts, (generate setup body).run s =
        (match outcome setup.world.network body with
          | .error r => (r, { s with fonts := fonts })
          | .ok c => ((putComponent setup.plan body.isLone c s.files).1,
              ⟨(putComponent setup.plan body.isLone c s.files).2, fonts⟩)) ∧
      FontSession.Coherent setup.world.network fonts.documents := by
  obtain ⟨fonts, ran, follows⟩ := run_build coherent body
  refine ⟨fonts, ?_, follows⟩
  unfold generate
  rw [StateT.run_bind, ran]
  cases outcome setup.world.network body <;> rfl

/-- A request that is not for a component in the project changes no file. -/
theorem reply_other (coherent : FontSession.Coherent setup.world.network s.fonts.documents)
    (other : call.generates = false) :
    ((reply setup call).run s).2.files = s.files ∧
      FontSession.Coherent setup.world.network ((reply setup call).run s).2.fonts.documents := by
  rw [run_reply]
  dsimp only
  unfold answer
  cases route : Route.ofPath? call.path with
  | none => exact ⟨rfl, coherent⟩
  | some r =>
    dsimp only
    by_cases method : Text.upper call.method = r.method
    · rw [if_pos method]
      cases r with
      | greeting => exact ⟨rfl, coherent⟩
      | health => exact ⟨rfl, coherent⟩
      | compile =>
        unfold respond
        rw [run_respondTo]
        cases Body.read call.body with
        | error r => exact ⟨rfl, coherent⟩
        | ok body =>
          obtain ⟨fonts, ran, follows⟩ := run_compile_outcome coherent body
          dsimp only
          rw [ran]
          exact ⟨rfl, follows⟩
      | generate =>
        have posts : Text.upper call.method = "POST" := method
        simp [Call.generates, posts, route] at other
    · rw [if_neg method]
      exact ⟨rfl, coherent⟩

/-- A request for a component in the project is answered by its body. -/
theorem run_generating (generates : call.generates = true) :
    (reply setup call).run s = (respondTo call.body (generate setup)).run s := by
  obtain ⟨posts, route⟩ : Text.upper call.method = "POST" ∧ Route.ofPath? call.path = some .generate := by
    simpa [Call.generates] using generates
  rw [run_reply, posts, if_neg (by decide)]
  unfold answer
  rw [route]
  rfl

/-! ## 3. Statuses -/

@[simp] theorem status_detail (status : Nat) (v : Value) : (Response.detail status v).status = status := rfl

@[simp] theorem status_unprocessable (problems : List Request.Problem) :
    (Response.unprocessable problems).status = 422 := rfl

@[simp] theorem status_internal : Response.internal.status = 500 := rfl

@[simp] theorem status_writtenResponse (plan : ProjectPlan) (name path : String) :
    (writtenResponse plan name path).status = 200 := rfl

@[simp] theorem status_writeResponse (f : WriteFault) : (writeResponse f).status = 500 := by
  cases f <;> rfl

theorem status_provisionResponse (f : ProvisionFault) :
    (provisionResponse f).status = 500 ∨ (provisionResponse f).status = 503 := by
  cases f with
  | noTemplates path => exact .inr rfl
  | notMade path => exact .inr rfl
  | unnameable => exact .inl rfl

theorem status_sent (isLone : Char → Bool) (r : Response) :
    (r.sent isLone).status = r.status ∨ (r.sent isLone).status = 500 := by
  unfold Response.sent
  split
  · exact .inl rfl
  · exact .inr rfl

theorem status_readWith {block : Text.StandIns} {text : String} {r : Response}
    (h : Body.readWith block text = .error r) : r.status = 400 ∨ r.status = 422 := by
  unfold Body.readWith at h
  split at h
  · cases h
    exact .inl rfl
  · split at h
    · cases h
    · cases h
      exact .inr rfl
    · cases h
      exact .inl rfl

/-- A body that is not read is the fault of who sent it; in one that is, only private characters stand for lone
surrogates. -/
theorem read_cases (text : Option String) :
    (∃ r, Body.read text = .error r ∧ (r.status = 400 ∨ r.status = 422)) ∨
      ∃ body, Body.read text = .ok body ∧ Text.AreHigh body.isLone := by
  unfold Body.read
  dsimp only
  split
  · exact .inl ⟨_, rfl, .inr rfl⟩
  · rcases first : Body.readWith .usual (text.getD "") with r | v
    · exact .inl ⟨r, rfl, status_readWith first⟩
    · simp only [bind, Except.bind]
      split
      · rcases second : Body.readWith (Text.StandIns.unused fun b => v.anyChar b.has) (text.getD "") with r | w
        · exact .inl ⟨r, rfl, status_readWith second⟩
        · exact .inr ⟨_, rfl, Text.StandIns.areHigh_unused _⟩
      · exact .inr ⟨_, rfl, Text.areHigh_none⟩

/-- What does not compile is not answered with 200. -/
theorem status_outcome {r : Response} (h : outcome network body = .error r) : r.status ≠ 200 := by
  unfold outcome at h
  rcases submitted : body.nodes with problem | nodes
  · rw [submitted] at h
    cases h
    unfold Body.nodes at submitted
    split at submitted
    · split at submitted
      · cases submitted
        simp
      · split at submitted
        · cases submitted
        · cases submitted
          simp
    · cases submitted
      simp
  · rw [submitted] at h
    rcases built : Component.built network (.list nodes) with f | c
    · simp only [built, Except.mapError] at h
      cases h
      unfold faultResponse
      split <;> simp
    · simp only [built, Except.mapError] at h
      cases h

/-- A component that is not written to the end is not the fault of who sent it. -/
theorem status_putComponent (plan : ProjectPlan) (isLone : Char → Bool) (c : Component) (files : FileTree) :
    (putComponent plan isLone c files).1.status ≠ 400 ∧ (putComponent plan isLone c files).1.status ≠ 422 := by
  unfold putComponent
  split
  · rename_i f _ _
    have status := status_provisionResponse f
    dsimp only
    omega
  · split <;> simp

/-- **What a request comes to**: it is to put no component into the project, and changes no file; or its component is
put there. -/
theorem reply_cases (coherent : FontSession.Coherent setup.world.network s.fonts.documents) (call : Call) :
    FontSession.Coherent setup.world.network ((reply setup call).run s).2.fonts.documents ∧
    ((call.component? setup.world = none ∧ ((reply setup call).run s).2.files = s.files ∧
        (call.generates = true → ((reply setup call).run s).1.status ≠ 200)) ∨
      ∃ body c, Body.read call.body = .ok body ∧ Text.AreHigh body.isLone ∧
        outcome setup.world.network body = .ok c ∧ call.component? setup.world = some c ∧
        ((reply setup call).run s).1 = (putComponent setup.plan body.isLone c s.files).1.sent body.isLone ∧
        ((reply setup call).run s).2.files = (putComponent setup.plan body.isLone c s.files).2) := by
  unfold Call.component?
  cases generates : call.generates with
  | false =>
    obtain ⟨files, follows⟩ := reply_other coherent generates
    exact ⟨follows, .inl ⟨rfl, files, by simp⟩⟩
  | true =>
    rw [run_generating generates, run_respondTo, if_pos rfl]
    rcases read_cases call.body with ⟨r, read, status⟩ | ⟨body, read, high⟩
    · rw [read]
      refine ⟨coherent, .inl ⟨rfl, rfl, fun _ => ?_⟩⟩
      dsimp only
      omega
    · obtain ⟨fonts, ran, follows⟩ := run_generate_outcome coherent body
      rw [read]
      dsimp only
      rw [ran]
      show _ ∧ (body.component? setup.world = none ∧ _ ∨ _)
      rw [component?_eq]
      rcases compiled : outcome setup.world.network body with r | c
      · refine ⟨follows, .inl ⟨rfl, rfl, fun _ => ?_⟩⟩
        have failed := status_outcome compiled
        rcases status_sent body.isLone r with same | internal
        · dsimp only
          rwa [same]
        · dsimp only
          rw [internal]
          decide
      · refine ⟨follows, .inr ⟨body, c, rfl, high, compiled, ?_, rfl, rfl⟩⟩
        show body.component? setup.world = some c
        rw [component?_eq, compiled]
        rfl

/-! ## 4. A request that compiles -/

theorem isLow_join {dir name : String} (before : Text.isLow dir = true) (after : Text.isLow name = true) :
    Text.isLow (Path.join dir name) = true := by
  unfold Path.join
  have slash : Text.isLow "/" = true := by decide
  split
  · exact after
  · split <;> simp [before, after, slash]

theorem writable_of_isLow {isLone : Char → Bool} {s : String} (high : Text.AreHigh isLone) (low : Text.isLow s = true) :
    (Value.text s).isWritable isLone = true := by
  rw [Value.isWritable, Text.not_lone_of_isLow high low]
  rfl

/-- That a component is written is said where the path of the project can be written. -/
theorem sent_writtenResponse {isLone : Char → Bool} (high : Text.AreHigh isLone) {plan : ProjectPlan}
    (quiet : Text.isLow plan.project = true) (components : plan.components = "src/components")
    (named : Component.IsNamed c.name) :
    (writtenResponse plan c.name (plan.codePath c.name)).sent isLone =
      writtenResponse plan c.name (plan.codePath c.name) := by
  have name := isLow_of_isNamed named
  have path : Text.isLow (plan.codePath c.name) = true := by
    have below : Text.isLow plan.components = true := by
      rw [components]
      decide
    have ending : Text.isLow ".jsx" = true := by decide
    exact isLow_join (isLow_join quiet below) (by simp [Component.codeFile, name, ending])
  have said : Text.isLow ("Component " ++ c.name ++ " generated successfully! Run 'npm run dev' in " ++
      plan.project ++ ".") = true := by
    have first : Text.isLow "Component " = true := by decide
    have second : Text.isLow " generated successfully! Run 'npm run dev' in " = true := by decide
    have third : Text.isLow "." = true := by decide
    simp [name, quiet, first, second, third]
  have writable : (writtenResponse plan c.name (plan.codePath c.name)).isWritable isLone = true := by
    refine areMembersWritable_of_mem fun m hm => ?_
    simp only [List.mem_cons, List.not_mem_nil, or_false] at hm
    rcases hm with rfl | rfl | rfl | rfl
    · exact ⟨Text.not_lone_of_isLow (s := "success") high (by decide), rfl⟩
    · exact ⟨Text.not_lone_of_isLow (s := "message") high (by decide), writable_of_isLow high said⟩
    · exact ⟨Text.not_lone_of_isLow (s := "componentName") high (by decide), writable_of_isLow high name⟩
    · exact ⟨Text.not_lone_of_isLow (s := "componentPath") high (by decide), writable_of_isLow high path⟩
  unfold Response.sent
  rw [if_pos writable]

theorem provision_of_made {plan : ProjectPlan} {u : FileTree} (made : isMade plan.project u = true) :
    plan.provision u = (.ok false, u) := by
  unfold provision
  rw [if_pos made]

/-- A component put into a project that is there. -/
theorem stores_putComponent {plan : ProjectPlan} {isLone : Char → Bool} {u : FileTree} (stocked : Stocked plan u)
    (storable : Storable isLone c) : ∃ v,
      putComponent plan isLone c u =
        (if isWritable isLone c then writtenResponse plan c.name (plan.codePath c.name) else .internal, v) ∧
      Stores plan c (isWritable isLone c) u v := by
  obtain ⟨v, wrote, stores⟩ := stores_writeComponent stocked storable
  refine ⟨v, ?_, stores⟩
  unfold putComponent
  rw [provision_of_made stocked.isMade]
  dsimp only
  rw [wrote]
  cases isWritable isLone c <;> rfl

/-- Where there is no project, one is made first. -/
theorem putComponent_of_made {plan : ProjectPlan} {start u : FileTree} (made : plan.provision start = (.ok true, u))
    (stocked : Stocked plan u) (isLone : Char → Bool) (c : Component) :
    putComponent plan isLone c start = putComponent plan isLone c u := by
  unfold putComponent
  rw [made, provision_of_made stocked.isMade]

/-- Where files can hold the component of a body, compiling the body gives it. -/
theorem handle_compile_of_outcome (read : Body.read text = .ok body) (high : Text.AreHigh body.isLone)
    (compiled : outcome setup.world.network body = .ok c) (writable : isWritable body.isLone c = true)
    (coherent : FontSession.Coherent setup.world.network s.fonts.documents) :
    ((handle setup "POST" "/compile" text).run s).1 = componentResponse c := by
  have name := Text.not_lone_of_isLow high (isLow_of_isNamed (isMade_of_outcome compiled).named)
  obtain ⟨code, stylesheet⟩ : c.code.toList.any body.isLone = false ∧ c.stylesheet.toList.any body.isLone = false := by
    unfold isWritable at writable
    rwa [Bool.and_eq_true, Bool.not_eq_true', Bool.not_eq_true'] at writable
  obtain ⟨fonts, ran, -⟩ := run_compile_outcome coherent body
  cases text with
  | none => cases read
  | some text =>
    rw [handle_compile read, ran, compiled]
    exact sent_component high name code stylesheet

end Service

end Artboard
