import Runbook.Proofs.Close
import Runbook.Proofs.Fields

/-!
# The order of steps

A run goes through its workflow depth first, in the order of the lists. Which steps that are depends on the variables, since a
loop goes over what it finds under its collection when it begins. A tour finds the steps without an engine: it follows the
variables, and is told only the values that web calls are answered with.

* `Tour`, `tourAll`: the places that are visited in a list of steps.
* **`Walk.tour_eq`**: a walk that succeeds is the tour of its part; **`Walk.visits_prefix`**: one that fails is its beginning.
* **`Engine.runs_are_tours`**: all this for whole runs, and what does not change it.
-/

namespace Runbook

/-! ## Visits -/

/-- The place of the step run that a call asks for. -/
def Made.visit? : Made → Option StepPath
  | ⟨.createStepRun start, _⟩ => some start.path
  | _ => none

/-- The places of the step runs that a course asks for, in order. -/
def Course.visits (t : Course) : List StepPath := t.calls.filterMap Made.visit?

@[simp] theorem Course.visits_append (t t' : Course) : visits (t ++ t') = visits t ++ visits t' := by
  rw [visits, calls_append, List.filterMap_append]
  rfl

theorem Course.visits_of_isStepRun {t : Course} (h : ∀ m ∈ t.calls, m.call.isStepRun = false) : t.visits = [] := by
  refine List.filterMap_eq_nil_iff.mpr fun m hm => ?_
  have hcall := h m hm
  obtain ⟨c, r⟩ := m
  cases c <;> first | rfl | cases hcall

theorem Course.replies_of_isWeb {t : Course} (h : ∀ m ∈ t.calls, m.call.isWeb = false) : t.replies = [] := by
  refine List.filterMap_eq_nil_iff.mpr fun m hm => ?_
  have hcall := h m hm
  obtain ⟨c, r⟩ := m
  cases c <;> first | rfl | cases hcall

/-! ## Steps without the names of their successors -/

mutual

/-- A step without the names of its successors, and of those of the steps in its body. -/
def Step.bare : Step → Step
  | .mk id task _ _ => .mk id task.bare none none

/-- What a step does, without the names of successors in its body. -/
def Task.bare : Task → Task
  | .loop collection limit body => .loop collection limit (Step.bareAll body)
  | .condition at_ operator expected => .condition at_ operator expected
  | .action a => .action a
  | .delay milliseconds => .delay milliseconds
  | .webhook w => .webhook w

/-- Steps without the names of their successors. -/
def Step.bareAll : List Step → List Step
  | [] => []
  | s :: rest => s.bare :: Step.bareAll rest

end

/-! ## The variables of a pass -/

theorem Variables.get?_forPass_item (vs : Variables) (i : Nat) (x : Value) :
    Entries.get? (vs.forPass i x) "current_item" = some x :=
  Entries.get?_set_self _ _ _

theorem Variables.get?_forPass_index (vs : Variables) (i : Nat) (x : Value) :
    Entries.get? (vs.forPass i x) "current_index" = some (.int i) :=
  (Entries.get?_set_of_ne _ x (by decide)).trans (Entries.get?_set_self vs _ _)

namespace Engine

/-! ## Tours -/

/-- What a tour comes to: the places it visits, the variables it leaves, and the replies it has no use for. -/
structure Tour where
  visits : List StepPath
  final : Variables
  replies : List Value

namespace Tour

/-- A tour that goes on where it has come to. -/
def andThen (T : Tour) (next : Variables → List Value → Tour) : Tour :=
  let U := next T.final T.replies
  ⟨T.visits ++ U.visits, U.final, U.replies⟩

theorem andThen_eq {T U : Tour} {next : Variables → List Value → Tour} {visits : List StepPath} {vs : Variables}
    {rs : List Value} (hT : T = ⟨visits, vs, rs⟩) (hU : next vs rs = U) :
    T.andThen next = ⟨visits ++ U.visits, U.final, U.replies⟩ := by
  rw [hT, ← hU]
  rfl

/-- A tour that begins at a place. -/
def startingAt (path : StepPath) (T : Tour) : Tour := { T with visits := path :: T.visits }

end Tour

/-- The tour of the passes of a loop, from an index on. The items are those that were found when the loop began. -/
def tourPasses (body : Nat → Variables → List Value → Tour) : Nat → List Value → Variables → List Value → Tour
  | _, [], vs, rs => ⟨[], vs, rs⟩
  | i, x :: rest, vs, rs => (body i (vs.forPass i x) rs).andThen (tourPasses body (i + 1) rest)

mutual

/-- The tour of what is done for a step: a loop visits the steps of its body, once a pass. -/
def tourTask (path : StepPath) (task : Task) (vs : Variables) (rs : List Value) : Tour :=
  match task with
  | .condition at_ operator expected => ⟨[], afterCompare vs path.id at_ operator expected, rs⟩
  | .action _ | .delay _ => ⟨[], vs, rs⟩
  | .webhook _ => ⟨[], Entries.set vs (path.id ++ "_response") (rs.headD .null), rs.tail⟩
  | .loop collection limit body =>
    let items := (foundItems vs collection).toOption.getD []
    tourPasses (fun i => tourAll (passPlace path i) body) 0 (items.take limit) vs rs

/-- The tour of a step: the place of the step, and then what is done for it. -/
def tourStep (place : String → StepPath) (step : Step) (vs : Variables) (rs : List Value) : Tour :=
  match step with
  | .mk id task _ _ => (tourTask (place id) task vs rs).startingAt (place id)

/-- The tour of a list of steps, each of them once and in order. -/
def tourAll (place : String → StepPath) (steps : List Step) (vs : Variables) (rs : List Value) : Tour :=
  match steps with
  | [] => ⟨[], vs, rs⟩
  | step :: rest => (tourStep place step vs rs).andThen (tourAll place rest)

end

/-- The tour of a part of a walk. -/
def Part.tour (part : Part) (vs : Variables) (rs : List Value) : Tour :=
  match part with
  | .steps place list => tourAll place list vs rs
  | .step path task => (tourTask path task vs rs).startingAt path
  | .handler path task => tourTask path task vs rs
  | .passes path body i items => tourPasses (fun i => tourAll (passPlace path i) body) i items vs rs

variable {g : Engine} {o : Order} {e : Opened} {part : Part} {vs vs' : Variables} {t : Course}

theorem tourStep_eq (place : String → StepPath) (s : Step) (vs : Variables) (rs : List Value) :
    tourStep place s vs rs = (Part.step (place s.id) s.task).tour vs rs := by
  cases s
  rfl

theorem tourTask_loop {path : StepPath} {collection : String} {limit : Nat} {body : List Step} {items rs : List Value}
    (h : foundItems vs collection = .ok items) :
    tourTask path (.loop collection limit body) vs rs = (Part.passes path body 0 (items.take limit)).tour vs rs := by
  rw [tourTask, h]
  rfl

/-! ## Walks are tours -/

theorem visits_of_plain {path : StepPath} {task : Task} {r : Except Failure Unit} (hp : task.isPlain)
    (h : (g.execute e path task).Leads vs t r vs') : t.visits = [] :=
  Course.visits_of_isStepRun fun m hm => Call.isStepRun_of_isErrand (calls_of_plain hp h m hm)

/-- A task without steps that succeeds leaves what its tour leaves. -/
theorem tour_of_plain {path : StepPath} {task : Task} (hp : task.isPlain)
    (h : (g.execute e path task).Leads vs t (.ok ()) vs') (rs : List Value) :
    tourTask path task vs (t.replies ++ rs) = ⟨[], vs', rs⟩ := by
  match task with
  | .condition at_ operator expected =>
    obtain ⟨rfl, -, rfl⟩ := leads_compare h
    rfl
  | .action a =>
    obtain rfl := (action_tame a).keeps h
    have hservice := (action_tame a).calls h
    rw [Course.replies_of_isWeb fun m hm => Call.isWeb_of_isService (hservice m hm)]
    rfl
  | .delay milliseconds =>
    obtain rfl := (delay_tame milliseconds).keeps h
    have hnone := (delay_tame milliseconds).calls h
    rw [Course.replies_of_isWeb fun m hm => nomatch hnone m hm]
    rfl
  | .webhook w =>
    obtain ⟨f, -, ⟨⟩⟩ | ⟨v, hw, -, rfl⟩ := leads_webhook h
    rw [(Webhook.replies_of_run hw).1]
    rfl

/-- **A walk that succeeds is the tour of its part**, with the replies that it got. -/
theorem Walk.tour_eq {r : Except Failure Unit} (h : Walk g e part vs t r vs') (hr : r = .ok ()) (rs : List Value) :
    part.tour vs (t.replies ++ rs) = ⟨t.visits, vs', rs⟩ := by
  induction h generalizing rs with
  | finished => rfl
  | stopped => cases hr
  | fails => cases hr
  | @goesOn place s rest vs vs₁ vs' v t t' r _ _ _ ih ih' =>
    have hstep : tourStep place s vs (t.replies ++ (t'.replies ++ rs)) = _ := (tourStep_eq ..).trans (ih rfl _)
    rw [Course.replies_append, Course.visits_append, List.append_assoc]
    exact Tour.andThen_eq hstep (ih' hr rs)
  | refused => cases hr
  | @recorded path task vs vs' n n' id t r a _ _ ih =>
    cases a with
    | error f => cases hr
    | ok _ =>
      rw [Course.replies_append, Course.visits_append]
      show (tourTask path task vs (t.replies ++ [] ++ rs)).startingAt path = ⟨path :: t.visits ++ [], vs', rs⟩
      rw [List.append_nil, List.append_nil]
      exact congrArg (Tour.startingAt path) (ih hr rs)
  | unknown => cases hr
  | plain hp h =>
    cases hr
    rw [visits_of_plain hp h]
    exact tour_of_plain hp h rs
  | unlisted => cases hr
  | looped hitems _ ih =>
    show tourTask _ _ _ _ = _
    rw [tourTask_loop hitems]
    exact ih hr rs
  | ended => rfl
  | broken => cases hr
  | again _ _ ih ih' =>
    rw [Course.replies_append, Course.visits_append, List.append_assoc]
    exact Tour.andThen_eq (ih rfl _) (ih' hr rs)

-- The loop goes over the items that it found, though the first pass puts a truth value in their place.
example : tourAll .top [.mk "each" (.loop "look_result" 100
      [.mk "look" (.condition "current_item" .equals .null) none none]) none none]
      [(.str "look_result", .list [.int 1, .int 2])] [] =
    ⟨[.top "each", .inside (.top "each") (some 0) "look", .inside (.top "each") (some 1) "look"],
      [(.str "look_result", .bool false), (.str "current_index", .int 1), (.str "current_item", .int 2)], []⟩ :=
  rfl

/-- **A walk goes as its tour begins**, whatever replies would have followed those that it got. -/
theorem Walk.visits_prefix {r : Except Failure Unit} (h : Walk g e part vs t r vs') (rs : List Value) :
    t.visits <+: (part.tour vs (t.replies ++ rs)).visits := by
  induction h generalizing rs with
  | finished => exact List.nil_prefix
  | stopped => exact List.nil_prefix
  | fails _ _ ih =>
    have hstep := ih rs
    rw [← tourStep_eq] at hstep
    exact hstep.trans (List.prefix_append _ _)
  | @goesOn place s rest vs vs₁ vs' v t t' r _ hstep _ _ ih' =>
    have htour : tourStep place s vs (t.replies ++ (t'.replies ++ rs)) = _ :=
      (tourStep_eq ..).trans (hstep.tour_eq rfl _)
    rw [Course.replies_append, Course.visits_append, List.append_assoc]
    show t.visits ++ t'.visits <+: ((tourStep place s vs (t.replies ++ (t'.replies ++ rs))).andThen _).visits
    rw [Tour.andThen_eq htour rfl]
    exact (List.prefix_append_right_inj _).mpr (ih' rs)
  | refused => exact List.prefix_append [_] _
  | @recorded path task vs vs' n n' id t r a _ _ ih =>
    rw [Course.replies_append, Course.visits_append]
    show path :: t.visits ++ [] <+: path :: (tourTask path task vs (t.replies ++ [] ++ rs)).visits
    rw [List.append_nil, List.append_nil]
    exact (List.prefix_cons_inj path).mpr (ih rs)
  | unknown => exact List.nil_prefix
  | plain hp h =>
    rw [visits_of_plain hp h]
    exact List.nil_prefix
  | unlisted => exact List.nil_prefix
  | looped hitems _ ih =>
    show _ <+: (tourTask _ _ _ _).visits
    rw [tourTask_loop hitems]
    exact ih rs
  | ended => exact List.nil_prefix
  | broken _ ih => exact (ih rs).trans (List.prefix_append _ _)
  | @again path body i x rest vs vs₁ vs' t t' r hpass _ _ ih' =>
    rw [Course.replies_append, Course.visits_append, List.append_assoc]
    show t.visits ++ t'.visits <+: (((Part.steps (passPlace path i) body).tour _ (t.replies ++ (t'.replies ++ rs))).andThen
      _).visits
    rw [Tour.andThen_eq (hpass.tour_eq rfl _) rfl]
    exact (List.prefix_append_right_inj _).mpr (ih' rs)

/-! ## What does not matter -/

theorem kind_bare (task : Task) : task.bare.kind = task.kind := by
  cases task <;> rfl

mutual

theorem execute_bare (g : Engine) (e : Opened) (path : StepPath) (task : Task) :
    g.execute e path task.bare = g.execute e path task := by
  match task with
  | .condition .. | .action _ | .delay _ | .webhook _ => rfl
  | .loop collection limit body =>
    have hbody : (fun i : Nat => g.runAll e (.inside path (some (i : Int))) (Step.bareAll body)) =
        fun i : Nat => g.runAll e (.inside path (some (i : Int))) body :=
      funext fun i => runAll_bare g e _ body
    rw [Task.bare, execute, hbody]
    rfl
termination_by structural task

theorem runStep_bare (g : Engine) (e : Opened) (place : String → StepPath) (s : Step) :
    g.runStep e place s.bare = g.runStep e place s := by
  match s with
  | .mk id task next target =>
    rw [Step.bare, runStep, kind_bare, execute_bare g e (place id) task]
    rfl
termination_by structural s

/-- **The names of successors do not matter** to a run. -/
theorem runAll_bare (g : Engine) (e : Opened) (place : String → StepPath) (steps : List Step) :
    g.runAll e place (Step.bareAll steps) = g.runAll e place steps := by
  match steps with
  | [] => rfl
  | s :: rest =>
    rw [Step.bareAll, runAll, runStep_bare g e place s, runAll_bare g e place rest]
    rfl
termination_by structural steps

end

theorem body_eq {stored : StoredWorkflow} {w : Workflow} (h : Workflow.load g.loopLimit stored = .ok w) :
    g.body e stored = g.runAll e .top w.steps := by
  rw [body, h]
  rfl

theorem conduct_eq {stored stored' : StoredWorkflow} {w w' : Workflow} (hw : Workflow.load g.loopLimit stored = .ok w)
    (hw' : Workflow.load g.loopLimit stored' = .ok w') (h : Step.bareAll w'.steps = Step.bareAll w.steps) :
    g.conduct e stored' = g.conduct e stored := by
  rw [conduct, conduct, body_eq hw, body_eq hw', ← runAll_bare, h, runAll_bare]

/-! ## What a pass begins with -/

/-- Loops are the same if what they do in each pass is the same from the variables with which the pass begins. -/
theorem passes_congr {body body' : Nat → Run Unit} {i : Nat} {items : List Value}
    (h : ∀ j x, items[j]? = some x → ∀ vs : Variables,
      (body (i + j)).run.run (vs.forPass (i + j) x) = (body' (i + j)).run.run (vs.forPass (i + j) x)) :
    passes body i items = passes body' i items := by
  induction items generalizing i with
  | nil => rfl
  | cons x rest ih =>
    have hrest : passes body (i + 1) rest = passes body' (i + 1) rest := by
      refine ih fun j y hy vs => ?_
      rw [Nat.add_right_comm]
      exact h (j + 1) y hy vs
    funext vs
    have hpass : (body i).run.run (vs.forPass i x) = (body' i).run.run (vs.forPass i x) := h 0 x rfl vs
    show (body i >>= fun _ => passes body (i + 1) rest).run.run (vs.forPass i x) =
      (body' i >>= fun _ => passes body' (i + 1) rest).run.run (vs.forPass i x)
    rw [hrest, ExceptT.run_bind, ExceptT.run_bind, StateT.run_bind, StateT.run_bind, hpass]

/-- **In each pass the index and the item are those of the pass** when its first step begins, for whoever looks at them. -/
theorem passes_see (g : Engine) (e : Opened) (path : StepPath) (body : List Step) (items : List Value)
    (look : Nat → Option Value → Option Value → Run Unit) :
    passes (fun i => do
      let vs ← Run.current
      look i (Entries.get? vs "current_index") (Entries.get? vs "current_item")
      g.runAll e (passPlace path i) body) 0 items =
    passes (fun i => do
      look i (some (.int i)) items[i]?
      g.runAll e (passPlace path i) body) 0 items := by
  refine passes_congr fun j x hx vs => ?_
  rw [Nat.zero_add, hx, ← Variables.get?_forPass_index vs j x, ← Variables.get?_forPass_item vs j x]
  rfl

/-! ## Whole runs -/

theorem Closing.eq_ok {r r' : Except Failure Unit} (h : Closing e r vs t r') (hr : r' = .ok ()) : r = .ok () := by
  cases h with
  | unrecorded => cases hr
  | @recorded n w a hw =>
    cases a with
    | error f => cases hr
    | ok _ => exact hr

theorem visits_opened {stored : StoredWorkflow} {n : Binary64} {start : ExecutionStart} {id : String} {closing : Course}
    {r r' : Except Failure Unit} (h : Closing e r vs closing r') :
    Course.visits (g.opening o stored n start id ++ (t ++ closing) ++ [⟨.delist id, ()⟩]) = t.visits := by
  have hopening : Course.visits (g.opening o stored n start id) = [] := Course.visits_of_isStepRun opening_isStepRun
  have hclosing : closing.visits = [] := Course.visits_of_isStepRun h.isStepRun
  have hend : Course.visits [⟨.delist id, ()⟩] = [] := rfl
  rw [Course.visits_append, Course.visits_append, Course.visits_append, hopening, hclosing, hend, List.nil_append,
    List.append_nil, List.append_nil]

theorem replies_opened {stored : StoredWorkflow} {n : Binary64} {start : ExecutionStart} {id : String} {closing : Course}
    {r r' : Except Failure Unit} (h : Closing e r vs closing r') :
    Course.replies (g.opening o stored n start id ++ (t ++ closing) ++ [⟨.delist id, ()⟩]) = t.replies := by
  have hopening : Course.replies (g.opening o stored n start id) = [] := rfl
  have hclosing : closing.replies = [] := by cases h <;> rfl
  have hend : Course.replies [⟨.delist id, ()⟩] = [] := rfl
  rw [Course.replies_append, Course.replies_append, Course.replies_append, hopening, hclosing, hend, List.nil_append,
    List.append_nil, List.append_nil]

/-- **A run is a tour** of its workflow, in all surroundings. A run that completes visits what the tour visits, and one that
fails the beginning of it. Other names of successors make no difference to it, and in each pass of a loop the index and the item
are those of the pass. -/
theorem runs_are_tours (g : Engine) (o : Order) (s : Surroundings (Request Call) (Request.Reply Call.Answer)) :
    let t := ((g.run o).run.under s).1
    let result := ((g.run o).run.under s).2
    ((Course.visits t = [] ∧ ∃ f, result = .error f) ∨
      ∃ stored vs w, ⟨.getWorkflow o.actor.tenant o.workflow, .ok (some stored)⟩ ∈ Course.calls t ∧
        startVariables stored o = .ok vs ∧ Workflow.load g.loopLimit stored = .ok w ∧
        (∀ x, result = .ok x → tourAll .top w.steps vs (Course.replies t) = ⟨Course.visits t, x.final, []⟩) ∧
        (∀ rs, Course.visits t <+: (tourAll .top w.steps vs (Course.replies t ++ rs)).visits) ∧
        ∀ stored' w', Workflow.load g.loopLimit stored' = .ok w' → Step.bareAll w'.steps = Step.bareAll w.steps →
          ∀ e, g.conduct e stored' = g.conduct e stored) ∧
    ∀ (e : Opened) (path : StepPath) (body : List Step) (items : List Value)
      (look : Nat → Option Value → Option Value → Run Unit),
      passes (fun i => do
        let vs ← Run.current
        look i (Entries.get? vs "current_index") (Entries.get? vs "current_item")
        g.runAll e (passPlace path i) body) 0 items =
      passes (fun i => do
        look i (some (.int i)) items[i]?
        g.runAll e (passPlace path i) body) 0 items := by
  have hj := journey_of_leads (Program.leads_under s (g.run o).run)
  generalize (g.run o).run.under s = p at hj ⊢
  obtain ⟨t, result⟩ := p
  dsimp only at hj ⊢
  refine ⟨?_, fun e path body items look => passes_see g e path body items look⟩
  cases hj with
  | unopened hvain =>
    exact .inl ⟨Course.visits_of_isStepRun fun m hm => isStepRun_of_isVain (hvain m hm), _, rfl⟩
  | @opened stored vs final n start id body closing r r' hvs hbody hclosing =>
    rw [visits_opened hclosing, replies_opened hclosing]
    obtain ⟨f, -, rfl, rfl, -⟩ | ⟨w, hw, hleads⟩ := leads_body hbody
    · refine .inl ⟨rfl, ?_⟩
      cases r' with
      | error f' => exact ⟨f', rfl⟩
      | ok _ => cases hclosing.eq_ok rfl
    · have hwalk := walk_of_leads _ _ _ _ hleads
      refine .inr ⟨stored, vs, w, List.mem_cons_self, hvs, hw, ?_, hwalk.visits_prefix, ?_⟩
      · intro x hx
        cases r' with
        | error f => cases hx
        | ok _ =>
          cases hx
          have htour := hwalk.tour_eq (hclosing.eq_ok rfl) []
          rw [List.append_nil] at htour
          exact htour
      · exact fun stored' w' hw' hbare e => conduct_eq hw hw' hbare

end Engine

end Runbook
