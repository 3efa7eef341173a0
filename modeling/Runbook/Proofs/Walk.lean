import Runbook.Engine
import Runbook.Proofs.Run

/-!
# Walks through a workflow

What an engine does with the steps of a workflow, as rules: which courses a list of steps, a step, a handler and the
passes of a loop can take, from which variables, with which result, and which variables they leave. Laws about all runs
are proved by induction on the rules.

* `Part`, `Walk`: the parts of a walk, and its rules.
* **`walk_of_leads`**: whatever course the engine takes with a list of steps is one by the rules.
-/

namespace Runbook

/-- The variables with which a pass of a loop begins. -/
def Variables.forPass (vs : Variables) (index : Nat) (item : Value) : Variables :=
  (vs.set "current_index" (.int index)).set "current_item" item

/-- A task without steps of its own. -/
def Task.isPlain : Task → Bool
  | .loop .. => false
  | _ => true

/-- The record that opens a step run. -/
def Opened.startOf (e : Opened) (path : StepPath) (kind : StepKind) (reading : Binary64) : StepRunStart :=
  ⟨e.actor.tenant, e.id, path.id, kind, path, Clock.stamp reading⟩

/-- The record that closes a step run with a result. -/
def StepRunEnd.ofResult (r : Except Failure Unit) (startedAt endedAt : Binary64) : StepRunEnd :=
  ⟨.ofResult r, Clock.stamp endedAt, Clock.elapsed (Clock.stamp startedAt) (Clock.stamp endedAt)⟩

namespace Engine

/-- What a step run is opened and closed around: its kind is looked up and its task is done. -/
def handle (g : Engine) (e : Opened) (path : StepPath) (task : Task) : Run Unit := do
  g.registry.checkKind task.kind
  g.execute e path task

/-- The items that a loop finds under its collection. -/
def foundItems (vs : Variables) (collection : String) : Except Failure (List Value) :=
  (Variables.lookup vs (.str collection)).bind (itemsOf collection)

/-- A part of a walk: a list of steps, a step, what is done for a step, or the passes of a loop from an index on. -/
inductive Part where
  | steps (place : String → StepPath) (steps : List Step)
  | step (path : StepPath) (task : Task)
  | handler (path : StepPath) (task : Task)
  | passes (path : StepPath) (body : List Step) (index : Nat) (items : List Value)

/-- The place of the steps of a pass. -/
def passPlace (path : StepPath) (index : Nat) : String → StepPath := .inside path (some (index : Int))

/-- The rules by which a part of a walk goes. -/
inductive Walk (g : Engine) (e : Opened) : Part → Variables → Course → Except Failure Unit → Variables → Prop where
  | finished {place : String → StepPath} {vs : Variables} : Walk g e (.steps place []) vs [] (.ok ()) vs
  | stopped {place : String → StepPath} {s : Step} {rest : List Step} {vs : Variables} {v : TokenView} {f : Failure} :
    v.check = .error f → Walk g e (.steps place (s :: rest)) vs [⟨.token, v⟩] (.error f) vs
  | fails {place : String → StepPath} {s : Step} {rest : List Step} {vs vs' : Variables} {v : TokenView} {t : Course}
      {f : Failure} :
    v.check = .ok () → Walk g e (.step (place s.id) s.task) vs t (.error f) vs' →
      Walk g e (.steps place (s :: rest)) vs (⟨.token, v⟩ :: t) (.error f) vs'
  | goesOn {place : String → StepPath} {s : Step} {rest : List Step} {vs vs₁ vs' : Variables} {v : TokenView}
      {t t' : Course} {r : Except Failure Unit} :
    v.check = .ok () → Walk g e (.step (place s.id) s.task) vs t (.ok ()) vs₁ →
      Walk g e (.steps place rest) vs₁ t' r vs' → Walk g e (.steps place (s :: rest)) vs (⟨.token, v⟩ :: t ++ t') r vs'
  | refused {path : StepPath} {task : Task} {vs : Variables} {n : Binary64} {f : Failure} :
    Walk g e (.step path task) vs
      [⟨.now, n⟩, ⟨.call (.createStepRun (e.startOf path task.kind n)) none, (.error f : Except Failure String)⟩]
      (.error f) vs
  | recorded {path : StepPath} {task : Task} {vs vs' : Variables} {n n' : Binary64} {id : String} {t : Course}
      {r a : Except Failure Unit} :
    (g.handle e path task).Leads vs t r vs' → Walk g e (.handler path task) vs t r vs' →
      Walk g e (.step path task) vs
        (⟨.now, n⟩ :: ⟨.call (.createStepRun (e.startOf path task.kind n)) none, (.ok id : Except Failure String)⟩ :: t ++
          [⟨.now, n'⟩, ⟨.call (.updateStepRun e.actor.tenant id (.ofResult r n n')) none, a⟩])
        (a.bind fun _ => r) vs'
  | unknown {path : StepPath} {task : Task} {vs : Variables} {f : Failure} :
    g.registry.checkKind task.kind = .error f → Walk g e (.handler path task) vs [] (.error f) vs
  | plain {path : StepPath} {task : Task} {vs vs' : Variables} {t : Course} {r : Except Failure Unit} :
    task.isPlain → (g.execute e path task).Leads vs t r vs' → Walk g e (.handler path task) vs t r vs'
  | unlisted {path : StepPath} {collection : String} {limit : Nat} {body : List Step} {vs : Variables} {f : Failure} :
    foundItems vs collection = .error f → Walk g e (.handler path (.loop collection limit body)) vs [] (.error f) vs
  | looped {path : StepPath} {collection : String} {limit : Nat} {body : List Step} {vs vs' : Variables}
      {items : List Value} {t : Course} {r : Except Failure Unit} :
    foundItems vs collection = .ok items → Walk g e (.passes path body 0 (items.take limit)) vs t r vs' →
      Walk g e (.handler path (.loop collection limit body)) vs t r vs'
  | ended {path : StepPath} {body : List Step} {i : Nat} {vs : Variables} :
    Walk g e (.passes path body i []) vs [] (.ok ()) vs
  | broken {path : StepPath} {body : List Step} {i : Nat} {x : Value} {rest : List Value} {vs vs' : Variables}
      {t : Course} {f : Failure} :
    Walk g e (.steps (passPlace path i) body) (vs.forPass i x) t (.error f) vs' →
      Walk g e (.passes path body i (x :: rest)) vs t (.error f) vs'
  | again {path : StepPath} {body : List Step} {i : Nat} {x : Value} {rest : List Value} {vs vs₁ vs' : Variables}
      {t t' : Course} {r : Except Failure Unit} :
    Walk g e (.steps (passPlace path i) body) (vs.forPass i x) t (.ok ()) vs₁ →
      Walk g e (.passes path body (i + 1) rest) vs₁ t' r vs' → Walk g e (.passes path body i (x :: rest)) vs (t ++ t') r vs'

variable {g : Engine} {e : Opened}

/-! ## The engine goes by the rules -/

theorem Walk.of_record {path : StepPath} {task : Task} {vs vs' : Variables} {t : Course} {r : Except Failure Unit}
    (hbody : ∀ t r, (g.handle e path task).Leads vs t r vs' → Walk g e (.handler path task) vs t r vs')
    (h : (record e path task.kind (g.handle e path task)).Leads vs t r vs') : Walk g e (.step path task) vs t r vs' := by
  obtain ⟨f, h₁, rfl⟩ | ⟨startedAt, vs₁, t₁, t₂, h₁, h₂, rfl⟩ := Run.leads_bind.mp h
  · obtain ⟨n, -, ⟨⟩, -⟩ := Run.leads_now.mp h₁
  obtain ⟨n, rfl, ⟨⟩, rfl⟩ := Run.leads_now.mp h₁
  obtain ⟨f, h₃, rfl⟩ | ⟨id, vs₂, t₃, t₄, h₃, h₄, rfl⟩ := Run.leads_bind.mp h₂
  · obtain ⟨rfl, rfl⟩ := Run.leads_call.mp h₃
    exact .refused
  obtain ⟨rfl, rfl⟩ := Run.leads_call.mp h₃
  obtain ⟨f, h₅, rfl⟩ | ⟨result, vs₃, t₅, t₆, h₅, h₆, rfl⟩ := Run.leads_bind.mp h₄
  · obtain ⟨x, ⟨⟩, -⟩ := Run.leads_observe.mp h₅
  obtain ⟨_, ⟨⟩, h₅⟩ := Run.leads_observe.mp h₅
  obtain ⟨f, h₇, rfl⟩ | ⟨completedAt, vs₄, t₇, t₈, h₇, h₈, rfl⟩ := Run.leads_bind.mp h₆
  · obtain ⟨n, -, ⟨⟩, -⟩ := Run.leads_now.mp h₇
  obtain ⟨n', rfl, ⟨⟩, rfl⟩ := Run.leads_now.mp h₇
  obtain ⟨f, h₉, rfl⟩ | ⟨⟨⟩, vs₅, t₉, t₁₀, h₉, h₁₀, rfl⟩ := Run.leads_bind.mp h₈
  · obtain ⟨rfl, rfl⟩ := Run.leads_call.mp h₉
    exact .recorded (a := .error f) h₅ (hbody _ _ h₅)
  obtain ⟨rfl, rfl⟩ := Run.leads_call.mp h₉
  obtain ⟨rfl, rfl, rfl⟩ := Run.leads_liftExcept.mp h₁₀
  exact .recorded (a := .ok ()) h₅ (hbody _ _ h₅)

theorem Walk.of_passes {path : StepPath} {body : List Step} {vs vs' : Variables} {t : Course}
    {r : Except Failure Unit} {i : Nat} {items : List Value}
    (hbody : ∀ (place : String → StepPath) (vs : Variables) (t : Course) (r : Except Failure Unit) (vs' : Variables),
      (g.runAll e place body).Leads vs t r vs' → Walk g e (.steps place body) vs t r vs')
    (h : (passes (fun i => g.runAll e (.inside path (some (i : Int))) body) i items).Leads vs t r vs') :
    Walk g e (.passes path body i items) vs t r vs' := by
  induction items generalizing i vs t with
  | nil =>
    obtain ⟨rfl, rfl, rfl⟩ := Run.leads_pure.mp h
    exact .ended
  | cons x rest ih =>
    obtain ⟨f, h₁, rfl⟩ | ⟨⟨⟩, vs₁, t₁, t₂, h₁, h₂, rfl⟩ := Run.leads_bind.mp h
    · obtain ⟨-, ⟨⟩, -⟩ := Run.leads_setVariable.mp h₁
    obtain ⟨rfl, -, rfl⟩ := Run.leads_setVariable.mp h₁
    obtain ⟨f, h₃, rfl⟩ | ⟨⟨⟩, vs₂, t₃, t₄, h₃, h₄, rfl⟩ := Run.leads_bind.mp h₂
    · obtain ⟨-, ⟨⟩, -⟩ := Run.leads_setVariable.mp h₃
    obtain ⟨rfl, -, rfl⟩ := Run.leads_setVariable.mp h₃
    obtain ⟨f, h₅, rfl⟩ | ⟨⟨⟩, vs₃, t₅, t₆, h₅, h₆, rfl⟩ := Run.leads_bind.mp h₄
    · exact .broken (hbody _ _ _ _ _ h₅)
    · have hpass : Walk g e (.steps (passPlace path i) body) (vs.forPass i x) t₅ (.ok ()) vs₃ := hbody _ _ _ _ _ h₅
      exact hpass.again (ih h₆)

mutual

theorem walk_of_handle (g : Engine) (e : Opened) (path : StepPath) (task : Task) {vs vs' : Variables} {t : Course}
    {r : Except Failure Unit} (h : (g.handle e path task).Leads vs t r vs') : Walk g e (.handler path task) vs t r vs' := by
  obtain ⟨f, h₁, rfl⟩ | ⟨⟨⟩, vs₁, t₁, t₂, h₁, h₂, rfl⟩ := Run.leads_bind.mp h
  · obtain ⟨rfl, hk, rfl⟩ := Run.leads_liftExcept.mp h₁
    exact .unknown hk.symm
  obtain ⟨rfl, -, rfl⟩ := Run.leads_liftExcept.mp h₁
  match task with
  | .condition .. | .action _ | .delay _ | .webhook _ => exact .plain rfl h₂
  | .loop collection limit body =>
    obtain ⟨f, h₃, rfl⟩ | ⟨v, vs₂, t₃, t₄, h₃, h₄, rfl⟩ := Run.leads_bind.mp h₂
    · obtain ⟨rfl, hv, rfl⟩ := Run.leads_lookup.mp h₃
      exact .unlisted (by rw [foundItems, ← hv]; rfl)
    obtain ⟨rfl, hv, rfl⟩ := Run.leads_lookup.mp h₃
    obtain ⟨f, h₅, rfl⟩ | ⟨items, vs₃, t₅, t₆, h₅, h₆, rfl⟩ := Run.leads_bind.mp h₄
    · obtain ⟨rfl, hi, rfl⟩ := Run.leads_liftExcept.mp h₅
      exact .unlisted (by rw [foundItems, ← hv]; exact hi.symm)
    obtain ⟨rfl, hi, rfl⟩ := Run.leads_liftExcept.mp h₅
    exact .looped (by rw [foundItems, ← hv]; exact hi.symm)
      (.of_passes (fun place _ _ _ _ h => walk_of_leads g e place body h) h₆)
termination_by structural task

theorem walk_of_step (g : Engine) (e : Opened) (place : String → StepPath) (s : Step) {vs vs' : Variables} {t : Course}
    {r : Except Failure Unit} (h : (g.runStep e place s).Leads vs t r vs') :
    Walk g e (.step (place s.id) s.task) vs t r vs' :=
  match s with
  | .mk id task _ _ => .of_record (fun _ _ h => walk_of_handle g e (place id) task h) h
termination_by structural s

/-- **The engine goes by the rules**, whatever it is answered. -/
theorem walk_of_leads (g : Engine) (e : Opened) (place : String → StepPath) (steps : List Step) {vs vs' : Variables}
    {t : Course} {r : Except Failure Unit} (h : (g.runAll e place steps).Leads vs t r vs') :
    Walk g e (.steps place steps) vs t r vs' := by
  match steps with
  | [] =>
    obtain ⟨rfl, rfl, rfl⟩ := Run.leads_pure.mp h
    exact .finished
  | s :: rest =>
    obtain ⟨f, h₁, rfl⟩ | ⟨⟨⟩, vs₁, t₁, t₂, h₁, h₂, rfl⟩ := Run.leads_bind.mp h
    · obtain ⟨v, rfl, hv, rfl⟩ := Run.leads_check.mp h₁
      exact .stopped hv.symm
    obtain ⟨v, rfl, hv, rfl⟩ := Run.leads_check.mp h₁
    obtain ⟨f, h₃, rfl⟩ | ⟨⟨⟩, vs₂, t₃, t₄, h₃, h₄, rfl⟩ := Run.leads_bind.mp h₂
    · exact .fails hv.symm (walk_of_step g e place s h₃)
    · have hs := walk_of_step g e place s h₃
      have hrest := walk_of_leads g e place rest h₄
      show Walk g e _ _ (⟨.token, v⟩ :: t₃ ++ t₄) _ _
      exact .goesOn hv.symm hs hrest
termination_by structural steps

end

end Engine

end Runbook
