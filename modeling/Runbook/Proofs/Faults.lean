import Runbook.Proofs.Parts

/-!
# Faults of stored steps

What is wrong with a stored step is reported by a fault with a name of its own, as its readers document. There is one exception:
the ids of its successors are read last, on their own, and what is wrong with these is reported field by field.

* `Failure.IsDocumented`: the faults that the reading of steps is documented to report.
* `Documented`: a reading that reports no others. `Action.documented_read`, `Step.documented_readOwn`: those of the parts of a step.
* `Step.mem_checks`: each of the checks of a step is one of its own or of a step that is nested in it.
* `Step.IsFaultIn`: a documented fault, or one of the successors of a stored step.
* **`Step.faults_are_documented_but_for_successors`**: what the reading of any value as a step, and that of any workflow, reports.
-/

namespace Runbook

open Runbook.Field

/-- The faults that the reading of steps is documented to report. -/
def Failure.IsDocumented : Failure → Prop
  | .fault (.unknownStepKind _) | .fault (.unknownOperator _) | .fault (.unsupportedAction _) | .fault (.missingParameters ..)
  | .fault (.unsupportedTable _) | .fault (.invalidStep _) => True
  | _ => False

/-! ## Readings that report documented faults -/

/-- A reading that fails as documented, if it does. -/
def Documented {α : Type} (x : Except Failure α) : Prop := ∀ f, x = .error f → f.IsDocumented

namespace Documented

variable {α β : Type}

theorem ok (a : α) : Documented (.ok a) := nofun

theorem error {f : Failure} (h : f.IsDocumented) : Documented (.error f : Except Failure α) := by
  rintro _ ⟨⟩
  exact h

theorem bind {x : Except Failure α} {f : α → Except Failure β} (hx : Documented x) (hf : ∀ a, Documented (f a)) :
    Documented (x >>= f) := by
  cases x with
  | error e => exact .error (hx e rfl)
  | ok a => exact hf a

theorem map {x : Except Failure α} (f : α → β) (hx : Documented x) : Documented (f <$> x) := by
  cases x with
  | error e => exact .error (hx e rfl)
  | ok a => exact .ok _

theorem forStep (step : String) (x : Checked α) : Documented (x.forStep step) := by
  cases x with
  | ok a => exact .ok a
  | failed e es => exact .error trivial

end Documented

theorem Action.documented_read (step : String) (config : Entries) : Documented (Action.read step config) := by
  have hkind : Documented (readKind (config.getD "action")) := by
    unfold readKind
    split
    · split
      · exact .ok _
      · exact .error trivial
    · exact .error trivial
  have hrequired (kind : ActionKind) (ps : Entries) : Documented (checkRequired kind ps) := by
    unfold checkRequired
    split
    · exact .error trivial
    · exact .ok _
  have htable (name : Value) : Documented (checkTable name) := by
    unfold checkTable
    split
    · split
      · exact .ok _
      · exact .error trivial
    · exact .error trivial
  refine hkind.bind fun kind => ?_
  split
  · next ps _ =>
    refine (hrequired kind ps).bind fun _ => ?_
    split
    · exact (htable _).bind fun _ => .forStep step _
    · exact .forStep step _
  · exact .error trivial

namespace Step

variable {limit raw : Value} {raws : List Value} {es : Entries} {kind : StepKind} {c : Except Failure Unit}

theorem documented_entriesOf (raw : Value) : Documented (entriesOf raw) := by
  unfold entriesOf
  split
  · split
    · exact .error trivial
    · exact .ok _
  · exact .error trivial

theorem documented_readKind (name : Value) : Documented (readKind name) := by
  unfold readKind
  split
  · split
    · exact .ok _
    · exact .error trivial
  · exact .error trivial

theorem documented_configOf (es : Entries) : Documented (configOf es) := by
  unfold configOf
  split
  · exact .ok _
  · exact .ok _
  · exact .error trivial

/-- **A configuration** is read with documented faults, whatever its kind. -/
theorem documented_readOwn (limit : Value) (id : String) (kind : StepKind) (config : Entries) :
    Documented (readOwn limit id kind config) := by
  cases kind with
  | condition =>
    refine .map _ ?_
    unfold Task.readCondition
    dsimp only
    split
    · exact .error trivial
    · exact .forStep id _
  | action => exact (Action.documented_read id config).map _
  | loop =>
    rw [readOwn_loop]
    refine .bind ?_ fun _ => .map _ ?_
    · unfold givenBody
      split
      · exact .ok _
      · exact .ok _
      · exact .error trivial
    · exact .forStep id _
  | delay => exact .map _ (.forStep id _)
  | webhook => exact .map _ (.forStep id _)

/-! ## The checks of a step -/

/-- The checks of a stored step, without those of the steps that are nested in it. -/
def ownChecks (limit raw : Value) : List (Except Failure Unit) :=
  [checkId raw, checkKind raw, checkConfig limit raw, checkSuccessors raw]

/-- **Each check** of a stored step is one of its own, or one of a step that is nested in it at whatever depth. -/
theorem mem_checks (limit raw : Value) (h : c ∈ checks limit raw) :
    ∃ raw', (raw' = raw ∨ Occurs raw' (bodyOf raw)) ∧ c ∈ ownChecks limit raw' := by
  rw [checks_eq, List.mem_append, List.mem_append, List.mem_flatMap, List.mem_singleton] at h
  obtain (hown | ⟨inner, hinner, hc⟩) | rfl := h
  · refine ⟨raw, .inl rfl, ?_⟩
    simp only [List.mem_cons, List.not_mem_nil, or_false] at hown
    obtain rfl | rfl | rfl := hown <;> simp [ownChecks]
  · obtain ⟨raw', hraw', hown⟩ := mem_checks limit inner hc
    refine ⟨raw', .inr ?_, hown⟩
    obtain rfl | hnested := hraw'
    · exact .here hinner
    · exact .inside hinner hnested
  · exact ⟨raw, .inl rfl, by simp [ownChecks]⟩
termination_by sizeOf raw
decreasing_by exact sizeOf_lt_of_mem_bodyOf hinner

theorem mem_checks_all (h : c ∈ raws.flatMap (checks limit)) : ∃ raw, Occurs raw raws ∧ c ∈ ownChecks limit raw := by
  obtain ⟨outer, houter, hc⟩ := List.mem_flatMap.mp h
  obtain ⟨raw, rfl | hnested, hown⟩ := mem_checks limit outer hc
  · exact ⟨raw, .here houter, hown⟩
  · exact ⟨raw, .inside houter hnested, hown⟩

theorem forObject_eq_error {α : Type} {object : String} {x : Checked α} {f : Failure} (h : x.forObject object = .error f) :
    ∃ errors, f = .invalidFields object errors := by
  cases x with
  | ok a => cases h
  | failed e es => exact ⟨_, (Except.error.inj h).symm⟩

/-- A check of a step fails as documented, unless it is that of its successors. -/
theorem fault_of_ownChecks {f : Failure} (h : c ∈ ownChecks limit raw) (hf : c = .error f) :
    f.IsDocumented ∨ checkSuccessors raw = .error f ∧ ∃ errors, f = .invalidFields "Step" errors := by
  have hid : Documented (checkId raw) := (documented_entriesOf raw).bind fun _ => .ok _
  have hkind : Documented (checkKind raw) := (documented_entriesOf raw).bind fun _ => (documented_readKind _).bind fun _ => .ok _
  have hconfig : Documented (checkConfig limit raw) :=
    (documented_entriesOf raw).bind fun es => (documented_readKind _).bind fun kind => (documented_configOf es).bind fun config =>
      Documented.bind (documented_readOwn limit _ kind config) fun _ => .ok _
  simp only [ownChecks, List.mem_cons, List.not_mem_nil, or_false] at h
  obtain rfl | rfl | rfl | rfl := h
  · exact .inl (hid f hf)
  · exact .inl (hkind f hf)
  · exact .inl (hconfig f hf)
  · cases hes : entriesOf raw with
    | error e =>
      rw [checkSuccessors, hes, error_bind] at hf
      obtain rfl := Except.error.inj hf
      exact .inl (documented_entriesOf raw _ hes)
    | ok es =>
      refine .inr ⟨hf, ?_⟩
      rw [checkSuccessors, hes, ok_bind] at hf
      cases hs : successors es with
      | error e =>
        rw [hs] at hf
        cases hf
        exact forObject_eq_error hs
      | ok _ =>
        rw [hs] at hf
        cases hf

/-! ## Names of successors -/

/-- The successor of a stored step, or its target as a condition, is given as what is neither a text nor null. -/
inductive Misnamed : Value → Value → Prop where
  | mk {es : Entries} {key : String} {v : Value} : key ∈ ["nextStepId", "conditionStepId"] → (textOrNull v).result? = none →
      Misnamed (.dict es) (.dict (es.set key v))

theorem either_set_first (es : Entries) (first second : String) (v : Value) : either (es.set first v) first second = v := by
  rw [either, Entries.get?_set_self]
  rfl

theorem toOption_forObject {α : Type} (object : String) (x : Checked α) : (x.forObject object).toOption = x.result? := by
  cases x <;> rfl

theorem successors_set {key : String} {v : Value} (hkey : key ∈ ["nextStepId", "conditionStepId"])
    (hv : (textOrNull v).result? = none) (es : Entries) :
    ∃ errors, successors (es.set key v) = .error (.invalidFields "Step" errors) := by
  cases h : successors (es.set key v) with
  | error f =>
    obtain ⟨errors, rfl⟩ := forObject_eq_error h
    exact ⟨errors, rfl⟩
  | ok names =>
    have hsome : (successors (es.set key v)).toOption = some names := by rw [h]; rfl
    rw [successors, toOption_forObject, Checked.result?_seq, Checked.result?_map, Checked.result?_under, Checked.result?_under] at hsome
    simp only [List.mem_cons, List.not_mem_nil, or_false] at hkey
    obtain rfl | rfl := hkey
    · rw [either_set_first, hv] at hsome
      cases hsome
    · rw [either_set_first, hv] at hsome
      simp at hsome

/-- A successor that is misnamed is not reported by name. -/
theorem Misnamed.read {raw' : Value} {step : Step} (h : Misnamed raw raw') (hread : read limit raw = .ok step) :
    ∃ errors, read limit raw' = .error (.invalidFields "Step" errors) := by
  cases h with
  | @mk es key v hkey hv =>
    obtain ⟨_, kind, config, make, body, heq, hmade⟩ := read_eq_ok_iff.mp hread
    cases heq
    obtain ⟨errors, herrors⟩ := successors_set hkey hv es
    have hagree : Agree (headNames ++ [["config"]]) es (es.set key v) := agree_set es v fun hmem => by
      simp only [List.mem_cons, List.not_mem_nil, or_false] at hkey
      obtain rfl | rfl := hkey <;> exact absurd hmem (by decide)
    have hconfig := (configOf_agree (hagree.mono (by decide))).symm.trans hmade.hasConfig
    refine ⟨errors, ?_⟩
    rw [hmade.read_of_head (hagree.mono (List.subset_append_left _ _)) hconfig, hmade.hasTask, ok_bind, hmade.hasBody, ok_bind,
      complete_eq, herrors]
    rfl

end Step

theorem Field.all_ok {α : Type} (xs : List α) : Checked.all (xs.map Checked.ok) = .ok xs := by
  induction xs with
  | nil => rfl
  | cons x xs ih =>
    rw [List.map_cons, Checked.all, ih]
    rfl

/-- A dictionary of named fields is read to them. -/
theorem Field.dictionary_toValue (fs : Fields) : dictionary any fs.toValue = .ok fs := by
  have hmap : fs.toEntries.map (fun e => Checked.apply (Checked.apply (.ok Prod.mk) (key e.1)) ((any e.2).under (keyName e.1))) =
      fs.map Checked.ok := by
    rw [Fields.toEntries, List.map_map]
    rfl
  exact (congrArg Checked.all hmap).trans (all_ok fs)

/-- **A workflow with its own fields in order** is loaded exactly if its steps are read. -/
theorem Workflow.load_eq (limit : Value) (id tenant name : String) (raws : List Value) (initial : Fields) :
    load limit ⟨.str id, .str tenant, .str name, .list raws, initial.toValue⟩ =
      (fun steps => ⟨id, tenant, name, initial, steps⟩) <$> Step.readAll limit raws := by
  have horElse : initial.toValue.orElse (.dict []) = initial.toValue := by
    cases initial <;> rfl
  unfold load
  rw [horElse]
  show (do
    let steps ← Step.readAll limit raws
    Checked.forObject "WorkflowDefinition" (_ <*> (dictionary any initial.toValue).under "variables")) = _
  rw [dictionary_toValue]
  cases Step.readAll limit raws <;> rfl

/-- A documented fault, or one of the ids of the successors of a stored step, which may be nested. -/
def Step.IsFaultIn (raws : List Value) (f : Failure) : Prop :=
  f.IsDocumented ∨ (∃ errors, f = .invalidFields "Step" errors) ∧ ∃ raw, Occurs raw raws ∧ checkSuccessors raw = .error f

theorem Step.isFaultIn_of_readAll {limit : Value} {raws : List Value} {f : Failure} (h : readAll limit raws = .error f) :
    IsFaultIn raws f := by
  have hfirst : (raws.flatMap (checks limit)).findSome? faultOf? = some f := by
    rw [← faultOf?_readAll, h]
    rfl
  obtain ⟨c, hc, hcf⟩ := List.exists_of_findSome?_eq_some hfirst
  obtain ⟨raw, hraw, hown⟩ := mem_checks_all hc
  obtain hdocumented | ⟨hsuccessors, herrors⟩ := fault_of_ownChecks hown (eq_error_of_faultOf? hcf)
  · exact .inl hdocumented
  · exact .inr ⟨herrors, raw, hraw, hsuccessors⟩

/-- **What is wrong with a stored step** is reported by a documented fault, whatever is given as the step and as the standard limit,
unless it is the id of a successor of the step or of one that is nested in it. A step that is read up to there and names a successor by
what is no text is reported field by field, at whatever depth it stands. A workflow reports what the first of its steps does that is
not read. -/
theorem Step.faults_are_documented_but_for_successors (limit : Value) :
    (∀ raw f, read limit raw = .error f → IsFaultIn [raw] f) ∧
    (∀ raw raw' step, Inside Misnamed raw raw' → read limit raw = .ok step →
      ∃ errors, read limit raw' = .error (.invalidFields "Step" errors)) ∧
    ∀ id tenant name raws initial, let stored := ⟨.str id, .str tenant, .str name, .list raws, Fields.toValue initial⟩
      Workflow.load limit stored = (fun steps => ⟨id, tenant, name, initial, steps⟩) <$> readAll limit raws ∧
      ∀ f, Workflow.load limit stored = .error f → IsFaultIn raws f := by
  refine ⟨fun raw f h => @isFaultIn_of_readAll limit [raw] f ?_, fun raw raw' step hinside hread => ?_,
    fun id tenant name raws initial => ?_⟩
  · rw [readAll_cons, h, error_bind]
  · obtain ⟨inner, inner', s, hmisnamed, hs, -, hfails⟩ := hinside.read hread
    obtain ⟨errors, herrors⟩ := hmisnamed.read hs
    exact ⟨errors, hfails _ herrors⟩
  · have hload := Workflow.load_eq limit id tenant name raws initial
    refine ⟨hload, fun f hf => @isFaultIn_of_readAll limit raws f ?_⟩
    rw [hload] at hf
    cases hall : readAll limit raws with
    | error e =>
      rw [hall] at hf
      cases hf
      rfl
    | ok steps =>
      rw [hall] at hf
      cases hf

/-- A delay. -/
def pause : Entries := [(.str "id", .str "s"), (.str "type", .str "delay")]

theorem Step.faults_are_documented_but_for_successors_pause :
    ∃ f, read (.int 100) (.dict (pause.set "nextStepId" (.int 5))) = .error f ∧ ¬ f.IsDocumented ∧
      ∃ raw, Occurs raw [.dict (pause.set "nextStepId" (.int 5))] ∧ checkSuccessors raw = .error f := by
  obtain ⟨hfaults, hmisnamed, -⟩ := faults_are_documented_but_for_successors (.int 100)
  obtain ⟨step, hread⟩ : ∃ step, read (.int 100) (.dict pause) = .ok step := ⟨_, read_of_bodiless rfl rfl rfl rfl rfl rfl⟩
  obtain ⟨errors, herrors⟩ := hmisnamed _ _ step (.here (@Misnamed.mk pause "nextStepId" (.int 5) List.mem_cons_self rfl)) hread
  obtain hdocumented | ⟨-, hsuccessors⟩ := hfaults _ _ herrors
  · cases hdocumented
  · exact ⟨_, herrors, not_false, hsuccessors⟩

end Runbook
