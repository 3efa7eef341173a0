import Runbook.Proofs.Fields
import Runbook.Proofs.Reading

/-!
# The parts of a stored step

A stored step is read from up to four kinds of dictionaries: its own, its configuration, the parameters of its action, and those
of the recipients of a notification. What each of them comes to depends on the values under the names of its fields only.

* `Step.fieldNames`, `Step.configNames`, `Action.parameterNames`, `Addressee.fieldNames`: the names of the fields, some of which
  have two.
* `Step.IsMadeOf`: the parts that a step is made of.
* **`Step.read_eq_ok_iff`**: a stored step is read exactly if its parts are.
* **`Step.readOwn_agree`**, **`Action.readParameters_agree`**, **`Addressee.read_agree`**: dictionaries that agree are read alike.
* `Step.Inside`: something is changed in a stored step or in one of the steps that are nested in it, at whatever depth.
* **`Step.Inside.read`**: what is changed decides what the step is read to.
-/

namespace Runbook

open Runbook.Field

/-! ## Sequences -/

namespace Field

variable {α β : Type}

theorem result?_all (xs : List (Checked α)) : (Checked.all xs).result? = xs.mapM Checked.result? := by
  induction xs with
  | nil => rfl
  | cons x xs ih =>
    rw [List.mapM_cons, ← ih, Checked.all]
    cases x <;> cases Checked.all xs <;> rfl

theorem mapM_mapIdx {f : Nat → β → Checked α} {g : β → Option α} (h : ∀ i x, (f i x).result? = g x) (xs : List β) :
    (xs.mapIdx f).mapM Checked.result? = xs.mapM g := by
  induction xs generalizing f with
  | nil => rfl
  | cons x xs ih => rw [List.mapIdx_cons, List.mapM_cons, List.mapM_cons, h, ih fun i x => h (i + 1) x]

/-- A sequence is read if its items are. -/
theorem result?_sequence (read : Value → Checked α) (v : Value) :
    (sequence read v).result? = (items? v).bind fun xs => xs.mapM fun x => (read x).result? := by
  unfold sequence
  cases items? v with
  | none => rfl
  | some xs => exact (result?_all _).trans (mapM_mapIdx (fun _ x => Checked.result?_under _ (read x)) xs)

end Field

/-! ## Recipients of notifications -/

namespace Addressee

/-- The names of the fields of a recipient. -/
def fieldNames : List (List String) := [["user_id", "userId"], ["channels"]]

theorem read_agree {es es' : Entries} (h : Agree fieldNames es es') : (read (.dict es)).result? = (read (.dict es')).result? := by
  unfold read
  simp only [Checked.result?_seq, Checked.result?_map]
  rw [h.required (by simp [fieldNames]), h.optional (by simp [fieldNames])]

end Addressee

/-! ## Parameters of actions -/

namespace Action

variable {ps ps' config : Entries} {step : String} {kind : ActionKind}

/-- The names of the fields of the parameters of an action. The id of a record is asked for by one of its names on its own. -/
def parameterNames : ActionKind → List (List String)
  | .sendEmail => [["to"], ["subject"], ["body"], ["from_address", "from"]]
  | .createRecord => [["table"], ["data"]]
  | .updateRecord => [["table"], ["id"], ["record_id", "id"], ["data"]]
  | .sendNotification => [["recipients"], ["title"], ["message"], ["type"], ["category"], ["priority"]]

theorem checkRequired_agree (h : Agree (parameterNames kind) ps ps') : checkRequired kind ps = checkRequired kind ps' := by
  have hblank : ((requiredNames kind).any fun name => (Entries.getD ps name).isBlank) =
      (requiredNames kind).any fun name => (Entries.getD ps' name).isBlank := by
    cases kind <;> simp only [Agree, parameterNames, List.forall_mem_cons, value?_singleton] at h <;>
      simp only [requiredNames, List.any_cons, List.any_nil, Entries.getD, h]
  rw [checkRequired, checkRequired, hblank]

theorem parametersOf_agree (h : Agree (parameterNames kind) ps ps') :
    (parametersOf kind ps).result? = (parametersOf kind ps').result? := by
  cases kind <;> simp only [Agree, parameterNames, List.forall_mem_cons] at h <;>
    simp only [parametersOf, Checked.result?_seq, Checked.result?_map, result?_required, result?_optional, h]

/-- What the parameters of an action are read to. -/
def readParameters (kind : ActionKind) (step : String) (ps : Entries) : Except Failure Action := do
  checkRequired kind ps
  if writesTable kind then checkTable (Entries.getD ps "table")
  (parametersOf kind ps).forStep step

theorem read_eq (hkind : readKind (config.getD "action") = .ok kind) (hps : config.get? "parameters" = some (.dict ps)) :
    read step config = readParameters kind step ps := by
  have hgiven : (config.getD "parameters").orElse (.dict []) = .dict ps := by
    rw [Entries.getD, hps]
    cases ps <;> rfl
  rw [read, hkind, ok_bind, hgiven]
  rfl

theorem readParameters_agree (h : Agree (parameterNames kind) ps ps') :
    (readParameters kind step ps).toOption = (readParameters kind step ps').toOption := by
  have htable : writesTable kind → Entries.getD ps "table" = Entries.getD ps' "table" := by
    intro hwrites
    have hname : ["table"] ∈ parameterNames kind := by
      cases kind with
      | createRecord | updateRecord => exact List.mem_cons_self
      | _ => cases hwrites
    rw [Entries.getD, Entries.getD, h.get? "table" hname]
  unfold readParameters
  rw [checkRequired_agree h]
  cases checkRequired kind ps' with
  | error f => rfl
  | ok _ =>
    rw [ok_bind, ok_bind]
    have hresult := parametersOf_agree h
    rw [← Checked.toOption_forStep step, ← Checked.toOption_forStep step] at hresult
    cases hwrites : writesTable kind with
    | false => exact hresult
    | true =>
      simp only [if_true, htable hwrites]
      cases checkTable (Entries.getD ps' "table") with
      | error f => rfl
      | ok _ => exact hresult

end Action

/-! ## Configurations -/

namespace Step

variable {limit raw : Value} {id : String} {kind : StepKind} {es es' config config' : Entries} {make : List Step → Task}
  {body : List Step} {step : Step}

/-- The names of the fields that are read before the configuration of a stored step. -/
def headNames : List (List String) := [["id"], ["type", "kind"]]

/-- The names of the fields that are read after it. -/
def successorNames : List (List String) := [["nextStepId", "next_step_id"], ["conditionStepId", "condition_step_id"]]

/-- The names of the fields of a stored step. -/
def fieldNames : List (List String) := headNames ++ ["config"] :: successorNames

/-- The names of the fields of a configuration. -/
def configNames : StepKind → List (List String)
  | .condition => [["path", "condition"], ["operator"], ["value"]]
  | .action => [["action"], ["parameters"]]
  | .loop => [["collection"], ["max_iterations", "maxIterations"], ["steps"]]
  | .delay => [["duration"]]
  | .webhook => [["url"], ["method"], ["headers"], ["body"]]

theorem given?_eq (es : Entries) (key : String) : (given? es key).map Subtype.val = (es.get? key).filter Value.isTruthy := by
  unfold given?
  split
  · next v hv =>
    simp only [hv, Option.filter]
    split <;> rfl
  · next hnone =>
    rw [hnone]
    rfl

/-- The configuration that a stored one is, if one is given. -/
def givenConfig (id : String) : Option Value → Except Failure Entries
  | none => .ok []
  | some (.dict config) => .ok config
  | some _ => .error (.fault (.invalidStep (.config id)))

theorem configOf_eq (es : Entries) :
    configOf es = givenConfig (Entries.getD es "id").text ((es.get? "config").filter Value.isTruthy) := by
  rw [← given?_eq, configOf]
  cases given? es "config" with
  | none => rfl
  | some found =>
    obtain ⟨v, hv⟩ := found
    cases v <;> rfl

theorem configOf_agree (h : Agree [["id"], ["config"]] es es') : configOf es = configOf es' := by
  rw [configOf_eq, configOf_eq, Entries.getD, Entries.getD, h.get? "id" (by decide), h.get? "config" (by decide)]

theorem configOf_of_get? (h : es.get? "config" = some (.dict config)) : configOf es = .ok config := by
  rw [configOf_eq, h]
  cases config <;> rfl

/-- The body that a stored one is, if one is given. -/
def givenBody (id : String) : Option Value → Except Failure (List Value)
  | none => .ok []
  | some (.list body) => .ok body
  | some _ => .error (.fault (.invalidStep (.body id)))

theorem storedBody_loop (id : String) (config : Entries) :
    storedBody .loop config = (givenBody id ((config.get? "steps").filter Value.isTruthy)).toOption.getD [] := by
  rw [← given?_eq, storedBody]
  cases given? config "steps" with
  | none => rfl
  | some found =>
    obtain ⟨v, hv⟩ := found
    cases v <;> rfl

theorem readOwn_loop (limit : Value) (id : String) (config : Entries) : readOwn limit id .loop config = (do
    let _ ← givenBody id ((config.get? "steps").filter Value.isTruthy)
    (fun own body => .loop own.1 own.2 body) <$> Task.readLoop limit id config) := by
  rw [← given?_eq, readOwn]
  cases given? config "steps" with
  | none => rfl
  | some found =>
    obtain ⟨v, hv⟩ := found
    cases v <;> rfl

theorem storedBody_of_get? {raws : List Value} (h : config.get? "steps" = some (.list raws)) : storedBody .loop config = raws := by
  rw [storedBody_loop "", h]
  cases raws <;> rfl

theorem readLoop_eq (limit : Value) (id : String) (config : Entries) : Task.readLoop limit id config =
    Checked.forStep id (Prod.mk <$> required config ["collection"] text
      <*> (natural ((value? config ["max_iterations", "maxIterations"]).getD limit)).under "max_iterations") := by
  rw [value?_pair, Task.readLoop]
  cases config.get? "max_iterations" <;> rfl

theorem toOption_map {ε α β : Type} (f : α → β) (x : Except ε α) : (f <$> x).toOption = x.toOption.map f := by
  cases x <;> rfl

/-- **Configurations that agree** are read alike, apart from the steps of their bodies. -/
theorem readOwn_agree (h : Agree (configNames kind) config config') :
    (readOwn limit id kind config).toOption = (readOwn limit id kind config').toOption := by
  cases kind with
  | condition =>
    have hoperator := h.get? "operator" (by decide)
    simp only [Agree, configNames, List.forall_mem_cons] at h
    simp only [readOwn, toOption_map, Task.readCondition, Entries.getD, hoperator]
    split
    · rfl
    · simp only [Checked.toOption_forStep, Checked.result?_seq, Checked.result?_map, result?_required, result?_optional, h]
  | action =>
    simp only [Agree, configNames, List.forall_mem_cons, value?_singleton] at h
    simp only [readOwn, Action.read, Entries.getD, h]
  | loop =>
    have hsteps := h.get? "steps" (by decide)
    simp only [Agree, configNames, List.forall_mem_cons] at h
    rw [readOwn_loop, readOwn_loop, hsteps]
    cases givenBody id ((config'.get? "steps").filter Value.isTruthy) with
    | error f => rfl
    | ok _ =>
      simp only [ok_bind, toOption_map, readLoop_eq, Checked.toOption_forStep, Checked.result?_seq, Checked.result?_map,
        result?_required, h]
  | delay =>
    simp only [Agree, configNames, List.forall_mem_cons] at h
    simp only [readOwn, toOption_map, Task.readDelay, Checked.toOption_forStep, Checked.result?_map, result?_optional, h]
  | webhook =>
    simp only [Agree, configNames, List.forall_mem_cons] at h
    simp only [readOwn, toOption_map, Task.readWebhook, Checked.toOption_forStep, Checked.result?_seq, Checked.result?_map,
      result?_required, result?_optional, h]

theorem storedBody_agree (h : Agree (configNames kind) config config') : storedBody kind config = storedBody kind config' := by
  cases kind with
  | loop => rw [storedBody_loop "", storedBody_loop "", h.get? "steps" (by decide)]
  | _ => rfl

/-! ## Steps -/

/-- The parts that a step is made of: its kind, its configuration, what this says of the task, and the steps of its body. -/
structure IsMadeOf (limit : Value) (es : Entries) (kind : StepKind) (config : Entries) (make : List Step → Task) (body : List Step)
    (step : Step) : Prop where
  hasId : (Entries.getD es "id").isBlank = false
  hasKind : readKind (either es "type" "kind") = .ok kind
  hasConfig : configOf es = .ok config
  hasTask : readOwn limit (Entries.getD es "id").text kind config = .ok make
  hasBody : readAll limit (storedBody kind config) = .ok body
  isStep : complete (Entries.getD es "id").text (make body) es = .ok step

theorem entriesOf_dict (h : (Entries.getD es "id").isBlank = false) : entriesOf (.dict es) = .ok es := by
  rw [entriesOf, h]
  rfl

theorem IsMadeOf.read (h : IsMadeOf limit es kind config make body step) : Step.read limit (.dict es) = .ok step :=
  read_of_parts (entriesOf_dict h.hasId) h.hasKind h.hasConfig h.hasTask h.hasBody h.isStep

theorem either_eq (es : Entries) (first second : String) : either es first second = (value? es [first, second]).getD .null := by
  rw [either, value?_pair, Entries.getD]
  cases es.get? first <;> rfl

theorem complete_agree (h : Agree successorNames es es') (id : String) (task : Task) :
    complete id task es = complete id task es' := by
  simp only [Agree, successorNames, List.forall_mem_cons] at h
  simp only [complete, either_eq, h]

/-- **A step with another configuration** is read to what this one says of it. -/
theorem IsMadeOf.read_of_head (h : IsMadeOf limit es kind config make body step) (hes : Agree headNames es es')
    (hconfig : configOf es' = .ok config') : Step.read limit (.dict es') = (do
      let make ← readOwn limit (Entries.getD es "id").text kind config'
      let body ← readAll limit (storedBody kind config')
      complete (Entries.getD es "id").text (make body) es') := by
  have hid : Entries.getD es' "id" = Entries.getD es "id" := by
    rw [Entries.getD, Entries.getD, hes.get? "id" (by decide)]
  have hkind : either es' "type" "kind" = either es "type" "kind" := by
    rw [either_eq, either_eq, hes _ (by decide)]
  rw [read_dict (hid ▸ h.hasId), hkind, h.hasKind, ok_bind, hconfig, ok_bind, hid]

/-- **A step whose configuration is as good as another** is read alike. -/
theorem IsMadeOf.read_of_same (h : IsMadeOf limit es kind config make body step) (hes : Agree (headNames ++ successorNames) es es')
    (hconfig : configOf es' = .ok config') (hmake : readOwn limit (Entries.getD es "id").text kind config' = .ok make)
    (hbody : readAll limit (storedBody kind config') = .ok body) : Step.read limit (.dict es') = .ok step := by
  rw [h.read_of_head (hes.mono (List.subset_append_left _ _)) hconfig, hmake, ok_bind, hbody, ok_bind,
    ← complete_agree (hes.mono (List.subset_append_right _ _)), h.isStep]

/-- **A stored step is read** exactly if its parts are. -/
theorem read_eq_ok_iff :
    Step.read limit raw = .ok step ↔ ∃ es kind config make body, raw = .dict es ∧ IsMadeOf limit es kind config make body step := by
  constructor
  · intro h
    rw [read_eq] at h
    obtain ⟨es, hes, h⟩ := bind_eq_ok h
    obtain ⟨kind, hkind, h⟩ := bind_eq_ok h
    obtain ⟨config, hconfig, h⟩ := bind_eq_ok h
    obtain ⟨make, hmake, h⟩ := bind_eq_ok h
    obtain ⟨body, hbody, hstep⟩ := bind_eq_ok h
    obtain rfl := eq_dict_of_entriesOf hes
    have hid : (Entries.getD es "id").isBlank = false := by
      rw [entriesOf] at hes
      split at hes
      · cases hes
      · next hid => exact Bool.eq_false_iff.mpr hid
    exact ⟨es, kind, config, make, body, rfl, hid, hkind, hconfig, hmake, hbody, hstep⟩
  · rintro ⟨es, kind, config, make, body, rfl, h⟩
    exact h.read

/-! ## Changes of steps -/

section Inside

variable {raw' inner inner' : Value} {before after : List Value} {steps : List Step} {kind' : StepKind} {R : Value → Value → Prop}

/-- A stored step is changed, or one of the steps of its body is, at whatever depth. -/
inductive Inside (R : Value → Value → Prop) : Value → Value → Prop where
  | here {raw raw' : Value} : R raw raw' → Inside R raw raw'
  | body {es config : Entries} {inner inner' : Value} {before after : List Value} :
      readKind (either es "type" "kind") = .ok .loop → es.get? "config" = some (.dict config) →
      config.get? "steps" = some (.list (before ++ inner :: after)) → Inside R inner inner' →
      Inside R (.dict es) (.dict (es.set "config" (.dict (config.set "steps" (.list (before ++ inner' :: after))))))

theorem agree_set_config (es : Entries) (v : Value) : Agree (headNames ++ successorNames) es (es.set "config" v) :=
  agree_set es v (by decide)

theorem configOf_set (es config : Entries) : configOf (es.set "config" (.dict config)) = .ok config :=
  configOf_of_get? (Entries.get?_set_self es "config" _)

theorem IsMadeOf.eq_kind (h : IsMadeOf limit es kind config make body step)
    (hkind : readKind (either es "type" "kind") = .ok kind') : kind = kind' :=
  Except.ok.inj (h.hasKind.symm.trans hkind)

theorem IsMadeOf.eq_config (h : IsMadeOf limit es kind config make body step) (hconfig : es.get? "config" = some (.dict config')) :
    config = config' :=
  Except.ok.inj (h.hasConfig.symm.trans (configOf_of_get? hconfig))

/-- The steps of the body of a loop say nothing of the loop itself. -/
theorem readOwn_set_steps {raws : List Value} (limit : Value) (id : String) (raws' : List Value)
    (h : config.get? "steps" = some (.list raws)) :
    readOwn limit id .loop (config.set "steps" (.list raws')) = readOwn limit id .loop config := by
  have hgiven (xs : List Value) : ∃ body, givenBody id ((some (Value.list xs)).filter Value.isTruthy) = .ok body := by
    cases xs <;> exact ⟨_, rfl⟩
  have hother {names : List String} (hnames : "steps" ∉ names) := value?_set_of_notMem config (.list raws') hnames
  obtain ⟨_, hbody⟩ := hgiven raws
  obtain ⟨_, hbody'⟩ := hgiven raws'
  have hcollection : required (config.set "steps" (.list raws')) ["collection"] text = required config ["collection"] text := by
    rw [required, required, find?, find?, Entries.get?_set_of_ne config _ (by decide)]
    rfl
  rw [readOwn_loop, readOwn_loop, Entries.get?_set_self, h, hbody, hbody', ok_bind, ok_bind, readLoop_eq, readLoop_eq, hcollection,
    hother (by decide)]

theorem readAll_append (limit : Value) (before after : List Value) : readAll limit (before ++ after) =
    (do return (← readAll limit before) ++ (← readAll limit after)) := by
  induction before with
  | nil =>
    rw [List.nil_append, readAll_nil, ok_bind]
    cases readAll limit after <;> rfl
  | cons raw before ih =>
    rw [List.cons_append, readAll_cons, readAll_cons, ih]
    cases read limit raw with
    | error f => rfl
    | ok step => cases readAll limit before <;> cases readAll limit after <;> rfl

/-- **A list of steps that is read** is read to the same if one of its steps is, and fails if this one does. -/
theorem readAll_replace (h : readAll limit (before ++ inner :: after) = .ok steps) : ∃ s, read limit inner = .ok s ∧
    (∀ inner', read limit inner' = .ok s → readAll limit (before ++ inner' :: after) = .ok steps) ∧
    ∀ inner' f, read limit inner' = .error f → readAll limit (before ++ inner' :: after) = .error f := by
  rw [readAll_append] at h
  obtain ⟨front, hfront, h⟩ := bind_eq_ok h
  obtain ⟨back, hback, h⟩ := bind_eq_ok h
  rw [readAll_cons] at hback
  obtain ⟨s, hs, hback⟩ := bind_eq_ok hback
  refine ⟨s, hs, fun inner' h' => ?_, fun inner' f h' => ?_⟩
  · rw [readAll_append, hfront, ok_bind, readAll_cons, h', ok_bind, hback, ok_bind, h]
  · rw [readAll_append, hfront, ok_bind, readAll_cons, h', error_bind, error_bind]

/-- **What is changed in a step that is read** decides what the step is read to: it is the same if what is changed is read to the
same, and fails as this does. -/
theorem Inside.read (h : Inside R raw raw') (hread : read limit raw = .ok step) : ∃ inner inner' s, R inner inner' ∧
    read limit inner = .ok s ∧ (read limit inner' = .ok s → read limit raw' = .ok step) ∧
    ∀ f, read limit inner' = .error f → read limit raw' = .error f := by
  induction h generalizing step with
  | here hR => exact ⟨_, _, step, hR, hread, fun h => h, fun _ h => h⟩
  | @body es config inner inner' before after hkind hget hsteps _ ih =>
    obtain ⟨_, kind, _, make, body, heq, hmade⟩ := read_eq_ok_iff.mp hread
    cases heq
    obtain rfl := hmade.eq_kind hkind
    obtain rfl := (hmade.eq_config hget).symm
    obtain ⟨s, hs, hok, herror⟩ := readAll_replace (storedBody_of_get? hsteps ▸ hmade.hasBody)
    obtain ⟨innermost, innermost', s', hR, hinnermost, hsame, hfails⟩ := ih hs
    have hmake := (readOwn_set_steps limit (Entries.getD es "id").text (before ++ inner' :: after) hsteps).trans hmade.hasTask
    have hbody : storedBody .loop (Entries.set config "steps" (.list (before ++ inner' :: after))) = before ++ inner' :: after :=
      storedBody_of_get? (Entries.get?_set_self config "steps" _)
    refine ⟨innermost, innermost', s', hR, hinnermost, fun h' => ?_, fun f hf => ?_⟩
    · exact hmade.read_of_same (agree_set_config es _) (configOf_set es _) hmake (by rw [hbody, hok _ (hsame h')])
    · rw [hmade.read_of_head (agree_set es _ (by decide)) (configOf_set es _), hmake, ok_bind, hbody, herror _ f (hfails f hf), error_bind]

end Inside

end Step

end Runbook
