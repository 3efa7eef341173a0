import Runbook.Proofs.Close
import Runbook.Proofs.Tour
import Runbook.Proofs.Within

/-!
# The variables that steps write

The steps of a run share its variables. A condition writes its result, a webhook its reply, and a loop the index and the item of
each pass. All other variables are as the run began, and none is ever removed.

* `Step.writes`, `Engine.writes`: the names that a step writes, and those of a workflow.
* `Variables.Keeps`: all but the variables of some names are kept. **`Walk.keeps`**: a walk keeps what its steps do not write.
* `Variables.Keeps.recorded`: so it is in the form in which variables are recorded.
* **`Engine.variables_are_kept`**: what is kept by runs, by lists of steps, and by single steps.
-/

namespace Runbook

mutual

/-- The names of the variables that a step writes, those of the steps in its body among them. -/
def Step.writes : Step → List String
  | .mk id task _ _ => task.writes id

/-- The names of the variables that a task of a step writes. -/
def Task.writes (id : String) : Task → List String
  | .condition .. => [id ++ "_result"]
  | .webhook _ => [id ++ "_response"]
  | .loop _ _ body => "current_index" :: "current_item" :: Step.writesAll body
  | .action _ | .delay _ => []

/-- The names of the variables that steps write. -/
def Step.writesAll : List Step → List String
  | [] => []
  | s :: rest => s.writes ++ Step.writesAll rest

end

/-! ## Variables that are kept -/

/-- Whether a key of the variables is one of these names. -/
def Value.isAnyStr (names : List String) (k : Value) : Bool := names.any fun name => k.isStr name

theorem Value.isAnyStr_iff {names : List String} {k : Value} : k.isAnyStr names ↔ ∃ name ∈ names, k = .str name := by
  unfold isAnyStr
  rw [List.any_eq_true]
  constructor
  · rintro ⟨name, hname, hk⟩
    cases k with
    | str s =>
      obtain rfl := eq_of_beq hk
      exact ⟨s, hname, rfl⟩
    | _ => cases hk
  · rintro ⟨name, hname, rfl⟩
    exact ⟨name, hname, beq_self_eq_true name⟩

namespace Variables

variable {names names' : List String} {vs vs' vs'' : Variables}

/-- No variable is gone, and all but those of these names are as they were. -/
structure Keeps (names : List String) (vs vs' : Variables) : Prop where
  keys : vs.map (·.1) <+: vs'.map (·.1)
  others : vs'.filter (fun e => !e.1.isAnyStr names) = vs.filter fun e => !e.1.isAnyStr names

namespace Keeps

theorem refl (names : List String) (vs : Variables) : Keeps names vs vs := ⟨List.prefix_rfl, rfl⟩

theorem trans (h : Keeps names vs vs') (h' : Keeps names vs' vs'') : Keeps names vs vs'' :=
  ⟨h.keys.trans h'.keys, h'.others.trans h.others⟩

theorem mono (h : Keeps names vs vs') (hnames : names ⊆ names') : Keeps names' vs vs' where
  keys := h.keys
  others := by
    have hfiner : ∀ us : Variables, us.filter (fun e => !e.1.isAnyStr names') =
        (us.filter fun e => !e.1.isAnyStr names).filter fun e => !e.1.isAnyStr names' := by
      intro us
      rw [List.filter_filter]
      refine List.filter_congr fun e _ => ?_
      cases he : e.1.isAnyStr names with
      | false => rw [Bool.not_false, Bool.and_true]
      | true =>
        obtain ⟨name, hname, hk⟩ := Value.isAnyStr_iff.mp he
        rw [Value.isAnyStr_iff.mpr ⟨name, hnames hname, hk⟩]
        rfl
    rw [hfiner vs', hfiner vs, h.others]

/-- To set one of the variables keeps the others. -/
theorem set (vs : Variables) {name : String} (hname : name ∈ names) (v : Value) :
    Keeps names vs (Entries.set vs name v) := by
  induction vs with
  | nil =>
    refine ⟨List.nil_prefix, ?_⟩
    have hwritten : (Value.str name).isAnyStr names := Value.isAnyStr_iff.mpr ⟨name, hname, rfl⟩
    show [(Value.str name, v)].filter _ = []
    rw [List.filter_cons_of_neg (by rw [hwritten]; exact Bool.false_ne_true), List.filter_nil]
  | cons e vs ih =>
    rw [Entries.set]
    split
    · next hkey =>
      refine ⟨List.prefix_rfl, ?_⟩
      have hwritten : e.1.isAnyStr names := List.any_eq_true.mpr ⟨name, hname, hkey⟩
      rw [List.filter_cons_of_neg, List.filter_cons_of_neg] <;> rw [hwritten] <;> exact Bool.false_ne_true
    · refine ⟨(List.prefix_cons_inj _).mpr ih.keys, ?_⟩
      rw [List.filter_cons, List.filter_cons, ih.others]

theorem get? (h : Keeps names vs vs') {name : String} (hname : name ∉ names) : Entries.get? vs' name = Entries.get? vs name := by
  have hfiltered : ∀ us : Variables, Entries.get? (us.filter fun e => !e.1.isAnyStr names) name = Entries.get? us name := by
    intro us
    induction us with
    | nil => rfl
    | cons e us ih =>
      rw [List.filter_cons]
      split
      · rw [Entries.get?, Entries.get?, ih]
      · next hwritten =>
        rw [ih, Entries.get?, if_neg]
        intro hkey
        rw [Bool.not_eq_true', Bool.not_eq_false] at hwritten
        obtain ⟨other, hother, hk⟩ := Value.isAnyStr_iff.mp hwritten
        rw [hk] at hkey
        exact hname (eq_of_beq hkey ▸ hother)
  rw [← hfiltered vs', h.others, hfiltered vs]

end Keeps

end Variables

/-! ## Recorded variables -/

namespace Value

variable {depth : Int} {es : Entries} {acc fs : Fields}

theorem snapshotEntries_cons {k v : Value} (h : snapshotEntries depth ((k, v) :: es) acc = .ok fs) :
    ∃ w, snapshotAt depth v = .ok w ∧ snapshotEntries depth es (acc.set k.text w) = .ok fs :=
  bind_eq_ok h

/-- What is recorded under a name depends only on the entries whose keys read like it. -/
theorem get?_snapshotEntries (h : snapshotEntries depth es acc = .ok fs) (name : String) {acc' : Fields}
    (hacc : acc'.get? name = acc.get? name) :
    ∃ fs', snapshotEntries depth (es.filter fun e => e.1.text == name) acc' = .ok fs' ∧ fs'.get? name = fs.get? name := by
  induction es generalizing acc acc' with
  | nil =>
    cases h
    exact ⟨acc', rfl, hacc⟩
  | cons e es ih =>
    obtain ⟨w, hw, h⟩ := snapshotEntries_cons h
    rw [List.filter_cons]
    split
    · next hname =>
      obtain rfl := eq_of_beq hname
      rw [snapshotEntries, hw]
      refine ih h ?_
      rw [Fields.get?_set_self, Fields.get?_set_self]
    · next hname =>
      refine ih h ?_
      rw [hacc, Fields.get?_set_of_ne fun heq => hname (beq_iff_eq.mpr heq)]

/-- What is recorded is what the keys read. -/
theorem get?_snapshotEntries_ne_none_iff (h : snapshotEntries depth es acc = .ok fs) (name : String) :
    fs.get? name ≠ none ↔ acc.get? name ≠ none ∨ name ∈ (es.map (·.1)).map Value.text := by
  induction es generalizing acc with
  | nil =>
    cases h
    rw [List.map_nil, List.map_nil]
    simp only [List.not_mem_nil, or_false]
  | cons e es ih =>
    obtain ⟨w, -, h⟩ := snapshotEntries_cons h
    rw [ih h, List.map_cons, List.map_cons, List.mem_cons]
    by_cases hname : e.1.text = name
    · rw [hname, Fields.get?_set_self]
      simp
    · rw [Fields.get?_set_of_ne hname, or_iff_right (a := name = e.1.text) (Ne.symm hname)]

end Value

namespace Variables

variable {names : List String} {vs vs' : Variables} {w w' : Value}

theorem fields_of_recorded (h : vs.recorded = .ok w) : ∃ fs : Fields, Value.snapshotEntries 1 vs [] = .ok fs ∧ w = fs.toValue := by
  have hmap : (Value.snapshotEntries 1 vs []).map Fields.toValue = .ok w := mapError_eq_ok h
  cases hfs : Value.snapshotEntries 1 vs [] with
  | error f =>
    rw [hfs] at hmap
    cases hmap
  | ok fs =>
    rw [hfs] at hmap
    cases hmap
    exact ⟨fs, rfl, rfl⟩

/-- Recorded variables of which none is gone, and all but those of these names are as they were. -/
def KeepsRecorded (names : List String) (w w' : Value) : Prop :=
  ∃ fs fs' : Fields, w = fs.toValue ∧ w' = fs'.toValue ∧ (∀ name, fs.get? name ≠ none → fs'.get? name ≠ none) ∧
    ∀ name, name ∉ names → fs'.get? name = fs.get? name

/-- **What is kept is kept in the recorded form**, in which variables go by what their keys read. -/
theorem Keeps.recorded (h : Keeps names vs vs') (hw : vs.recorded = .ok w) (hw' : vs'.recorded = .ok w') :
    KeepsRecorded names w w' := by
  obtain ⟨fs, hfs, rfl⟩ := fields_of_recorded hw
  obtain ⟨fs', hfs', rfl⟩ := fields_of_recorded hw'
  refine ⟨fs, fs', rfl, rfl, fun name hname => ?_, fun name hname => ?_⟩
  · rw [Value.get?_snapshotEntries_ne_none_iff hfs] at hname
    rw [Value.get?_snapshotEntries_ne_none_iff hfs']
    exact hname.imp_right fun hmem => ((h.keys.map Value.text).subset hmem)
  · have hread : ∀ us : Variables, us.filter (fun e => e.1.text == name) =
        (us.filter fun e => !e.1.isAnyStr names).filter fun e => e.1.text == name := by
      intro us
      rw [List.filter_filter]
      refine List.filter_congr fun e _ => ?_
      cases hkey : e.1.text == name with
      | false => rfl
      | true =>
        rw [Bool.true_and, eq_comm, Bool.not_eq_true', Bool.eq_false_iff]
        intro hwritten
        obtain ⟨other, hother, hk⟩ := Value.isAnyStr_iff.mp hwritten
        rw [hk] at hkey
        exact hname (eq_of_beq hkey ▸ hother)
    obtain ⟨gs, hgs, hget⟩ := Value.get?_snapshotEntries hfs name rfl
    obtain ⟨gs', hgs', hget'⟩ := Value.get?_snapshotEntries hfs' name rfl
    rw [hread, h.others, ← hread, hgs] at hgs'
    cases hgs'
    rw [← hget', hget]

end Variables

namespace Engine

variable {g : Engine} {o : Order} {e : Opened} {part : Part} {vs vs' : Variables} {t : Course} {r : Except Failure Unit}

/-! ## Single tasks -/

/-- What a task without steps of its own leaves of the variables, in a course with a result: they are as they were, or its one
variable is set. A web call sets it only to what a successful reply says. -/
inductive Leaves (id : String) (vs : Variables) (t : Course) : Task → Except Failure Unit → Variables → Prop where
  | failed {task : Task} {f : Failure} : Leaves id vs t task (.error f) vs
  | compared {at_ : String} {operator : Operator} {expected : Value} {b : Bool} : compared vs at_ operator expected = .ok b →
    Leaves id vs t (.condition at_ operator expected) (.ok ()) (Entries.set vs (id ++ "_result") (.bool b))
  | acted {a : Action} : Leaves id vs t (.action a) (.ok ()) vs
  | waited {milliseconds : Option Binary64} : Leaves id vs t (.delay milliseconds) (.ok ()) vs
  | replied {w : Webhook} {request : Http.Request} {response : Http.Response} {v : Value} :
    ⟨.http request, .ok response⟩ ∈ t.calls → response.isSuccess →
      (response.body.isEmpty ∧ v = .null ∨ Json.read response.body = .ok v) →
        Leaves id vs t (.webhook w) (.ok ()) (Entries.set vs (id ++ "_response") v)

theorem Leaves.keeps {id : String} {task : Task} (h : Leaves id vs t task r vs') : Variables.Keeps (task.writes id) vs vs' := by
  cases h with
  | failed | acted | waited => exact .refl _ _
  | compared => exact .set vs List.mem_cons_self _
  | replied => exact .set vs List.mem_cons_self _

/-- A value that was replied is what a successful reply says. -/
theorem exists_response_of_replies {v : Value} (h : t.replies = [v]) :
    ∃ (request : Http.Request) (response : Http.Response), ⟨.http request, .ok response⟩ ∈ t.calls ∧ response.isSuccess ∧
      (response.body.isEmpty ∧ v = .null ∨ Json.read response.body = .ok v) := by
  have hv : v ∈ t.replies := h ▸ List.mem_cons_self
  obtain ⟨⟨c, x⟩, hm, hreply⟩ := List.mem_filterMap.mp hv
  cases c with
  | http request =>
    cases x with
    | error f => cases hreply
    | ok response =>
      refine ⟨request, response, hm, ?_⟩
      have hvalue : Webhook.replyOf response = .ok v := by
        cases hr : Webhook.replyOf response with
        | error f =>
          rw [Made.reply?, hr] at hreply
          cases hreply
        | ok v' =>
          rw [Made.reply?, hr] at hreply
          cases hreply
          rfl
      unfold Webhook.replyOf at hvalue
      split at hvalue
      · cases hvalue
      · next hsuccess =>
        refine ⟨by simpa using hsuccess, ?_⟩
        split at hvalue
        · next hempty =>
          cases hvalue
          exact .inl ⟨hempty, rfl⟩
        · exact .inr (mapError_eq_ok hvalue)
  | _ => cases hreply

theorem leaves_of_plain {path : StepPath} {task : Task} (hp : task.isPlain) (h : (g.execute e path task).Leads vs t r vs') :
    Leaves path.id vs t task r vs' := by
  match task with
  | .condition at_ operator expected =>
    obtain ⟨-, rfl, rfl⟩ := leads_compare h
    rw [afterCompare]
    cases hc : Engine.compared vs at_ operator expected with
    | error f => exact .failed
    | ok b => exact .compared hc
  | .action a =>
    obtain rfl := (action_tame a).keeps h
    cases r with
    | error f => exact .failed
    | ok _ => exact .acted
  | .delay milliseconds =>
    obtain rfl := (delay_tame milliseconds).keeps h
    cases r with
    | error f => exact .failed
    | ok _ => exact .waited
  | .webhook w =>
    obtain ⟨f, hw, rfl⟩ | ⟨v, hw, rfl, rfl⟩ := leads_webhook h
    · obtain rfl := (w.run_tame g.webhook).keeps hw
      exact .failed
    · obtain ⟨request, response, hm, hsuccess, hv⟩ := exists_response_of_replies (Webhook.replies_of_run hw).1
      exact .replied hm hsuccess hv

/-! ## Walks -/

/-- The names of the variables that a part of a walk writes. -/
def Part.writes : Part → List String
  | .steps _ list => Step.writesAll list
  | .step path task | .handler path task => task.writes path.id
  | .passes _ body _ _ => "current_index" :: "current_item" :: Step.writesAll body

/-- The steps of a list are placed under their own ids. -/
def Part.IsPlaced : Part → Prop
  | .steps place _ => ∀ id, (place id).id = id
  | _ => True

theorem keeps_forPass (vs : Variables) (i : Nat) (x : Value) (names : List String) :
    Variables.Keeps ("current_index" :: "current_item" :: names) vs (vs.forPass i x) :=
  (Variables.Keeps.set vs List.mem_cons_self _).trans (.set _ (List.mem_cons_of_mem _ List.mem_cons_self) _)

theorem writesAll_subset_passes (names : List String) : names ⊆ "current_index" :: "current_item" :: names :=
  fun _ h => List.mem_cons_of_mem _ (List.mem_cons_of_mem _ h)

/-- **A walk keeps what its steps do not write**, however it ends. -/
theorem Walk.keeps (h : Walk g e part vs t r vs') (hp : part.IsPlaced) : Variables.Keeps part.writes vs vs' := by
  induction h with
  | finished | stopped => exact .refl _ _
  | @fails place s rest _ _ _ _ _ _ _ ih =>
    have hstep := ih trivial
    rw [Part.writes, hp] at hstep
    cases s
    exact hstep.mono (List.subset_append_left _ _)
  | @goesOn place s rest _ _ _ _ _ _ _ _ _ _ ih ih' =>
    have hstep := ih trivial
    rw [Part.writes, hp] at hstep
    cases s
    exact (hstep.mono (List.subset_append_left _ _)).trans ((ih' hp).mono (List.subset_append_right _ _))
  | refused => exact .refl _ _
  | recorded _ _ ih => exact ih trivial
  | unknown => exact .refl _ _
  | plain hplain h => exact (leaves_of_plain hplain h).keeps
  | unlisted => exact .refl _ _
  | looped _ _ ih => exact ih trivial
  | ended => exact .refl _ _
  | broken _ ih =>
    exact (keeps_forPass _ _ _ _).trans ((ih fun _ => rfl).mono (writesAll_subset_passes _))
  | again _ _ ih ih' =>
    exact ((keeps_forPass _ _ _ _).trans ((ih fun _ => rfl).mono (writesAll_subset_passes _))).trans (ih' trivial)

theorem Walk.leaves {path : StepPath} {task : Task} (h : Walk g e (.handler path task) vs t r vs') (hp : task.isPlain) :
    Leaves path.id vs t task r vs' := by
  cases h with
  | unknown => exact .failed
  | plain hplain h => exact leaves_of_plain hplain h
  | unlisted | looped => cases hp

/-- A step is recorded with the result of its task, or it is not begun. -/
theorem leaves_of_step {place : String → StepPath} {s : Step} (hplace : (place s.id).id = s.id) (hp : s.task.isPlain)
    (h : (g.runStep e place s).Leads vs t r vs') :
    (∃ start f, t.calls = [⟨.createStepRun start, .error f⟩] ∧ vs' = vs) ∨
      ∃ start run inner result last a, t.calls = ⟨.createStepRun start, .ok run⟩ :: Course.calls inner ++
        [⟨.updateStepRun e.actor.tenant run last, a⟩] ∧ last.outcome = .ofResult result ∧
          Leaves s.id vs inner s.task result vs' := by
  cases walk_of_step g e place s h with
  | refused => exact .inl ⟨_, _, rfl, rfl⟩
  | @recorded _ _ _ _ n n' run inner result a hhandle hwalk =>
    refine .inr ⟨e.startOf (place s.id) s.task.kind n, run, inner, result, .ofResult result n n', a, ?_, rfl, ?_⟩
    · rw [Course.calls_append]
      rfl
    · rw [← hplace]
      exact hwalk.leaves hp

/-! ## Whole runs -/

/-- The names of the variables that the steps of a stored workflow write; a workflow that cannot be read has no steps. -/
def writes (g : Engine) (stored : StoredWorkflow) : List String :=
  match Workflow.load g.loopLimit stored with
  | .ok w => Step.writesAll w.steps
  | .error _ => []

theorem body_keeps {stored : StoredWorkflow} (h : (g.body e stored).Leads vs t r vs') :
    Variables.Keeps (g.writes stored) vs vs' := by
  unfold writes
  obtain ⟨f, -, -, -, rfl⟩ | ⟨w, hw, h⟩ := leads_body h
  · exact .refl _ _
  · rw [hw]
    exact (walk_of_leads _ _ _ _ h).keeps fun _ => rfl

/-- **The variables that a run does not write are kept**, in all surroundings and however the run ends: no variable is gone, and
all but those that the steps of the workflow write are as the run began with, also in the form in which they are recorded. So it
is with every list of steps, at any depth of loops. A step without steps of its own is recorded as failed and leaves all
variables as they were, or it is recorded as completed and at most its own variable is set. -/
theorem variables_are_kept (g : Engine) (o : Order) (s : Surroundings (Request Call) (Request.Reply Call.Answer)) :
    let t := ((g.run o).run.under s).1
    let result := ((g.run o).run.under s).2
    (∀ start id, ⟨.createExecution start, .ok id⟩ ∈ Course.calls t →
      ∃ stored vs final, ⟨.getWorkflow o.actor.tenant o.workflow, .ok (some stored)⟩ ∈ Course.calls t ∧
        startVariables stored o = .ok vs ∧ vs.recorded = .ok start.startVariables ∧
        Variables.Keeps (g.writes stored) vs final ∧ (∀ x, result = .ok x → x.final = final) ∧
        ∀ tenant execution last a, ⟨.updateExecution tenant execution last, a⟩ ∈ Course.calls t →
          Variables.KeepsRecorded (g.writes stored) start.startVariables last.finalVariables) ∧
    (∀ (e : Opened) (place : String → StepPath) (steps : List Step) (vs vs' : Variables) (t : Course) (r : Except Failure Unit),
      (∀ id, (place id).id = id) → (g.runAll e place steps).Leads vs t r vs' →
        Variables.Keeps (Step.writesAll steps) vs vs') ∧
    ∀ (e : Opened) (place : String → StepPath) (step : Step) (vs vs' : Variables) (t : Course) (r : Except Failure Unit),
      (∀ id, (place id).id = id) → step.task.isPlain → (g.runStep e place step).Leads vs t r vs' →
        (∃ start f, t.calls = [⟨.createStepRun start, .error f⟩] ∧ vs' = vs) ∨
        ∃ start run inner result last a, t.calls = ⟨.createStepRun start, .ok run⟩ :: Course.calls inner ++
          [⟨.updateStepRun e.actor.tenant run last, a⟩] ∧ last.outcome = .ofResult result ∧
            Leaves step.id vs inner step.task result vs' := by
  have hrun := leads_run (Program.leads_under s (g.run o).run)
  generalize (g.run o).run.under s = p at hrun ⊢
  obtain ⟨t, result⟩ := p
  dsimp only at hrun ⊢
  refine ⟨fun start id hm => ?_, fun e place steps vs vs' t r hplace h => (walk_of_leads g e place steps h).keeps hplace,
    fun e place step vs vs' t r hplace hp h => leaves_of_step (hplace _) hp h⟩
  obtain ⟨hvain, -⟩ | ⟨stored, vs, final, n, start', id', inner, r, hvs, hstart, hconduct, rfl, rfl⟩ := hrun
  · cases hvain.isVain _ hm
  obtain ⟨inner, closing, r', rfl, hbody, hclosing⟩ := leads_conduct hconduct
  obtain ⟨rfl, rfl⟩ := (created_iff (inner_ne_createExecution hbody hclosing)).mp hm
  refine ⟨stored, vs, final, List.mem_cons_self, hvs, hstart.initial, body_keeps hbody, fun x hx => ?_, fun tenant execution last a hm => ?_⟩
  · cases r with
    | error f => cases hx
    | ok _ =>
      cases hx
      rfl
  · have hlast := (mem_calls_updateExecution hbody).mp hm
    cases hclosing with
    | unrecorded => cases hlast
    | recorded hfinal =>
      cases List.mem_singleton.mp hlast
      exact (body_keeps hbody).recorded hstart.initial hfinal

end Engine

end Runbook
