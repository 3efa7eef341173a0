import Runbook.Proofs.Result
import Runbook.Workflow

/-!
# What is checked when steps are read

A stored step goes through four checks: its id, its kind, its configuration, and the names of its successors. The steps in the
body of a loop are checked between the last two. Written one after the other, the checks of a list of stored steps make one
flat list, and to read the steps fails with the first fault in it.

* `Step.checks`: the checks of a stored step with all that is nested in it, depth first.
* **`Step.faultOf?_readAll`**: steps are read exactly if none of their checks fails, and else the first fault is reported.
* `Step.Occurs`: a stored step stands in a list, however deep in loops.
* **`Step.Occurs.exists_fault`**: a list with a faulty step, at whatever depth, is not read.
-/

namespace Runbook

namespace Step

/-! ## Reading without recursion -/

/-- The entries of a stored step that has an id. -/
def entriesOf : Value → Except Failure Entries
  | .dict es => if (Entries.getD es "id").isBlank then .error (.fault (.invalidStep (.noId (.dict es)))) else .ok es
  | raw => .error (.fault (.invalidStep (.noId raw)))

/-- The configuration of a step; one that counts as nothing is empty. -/
def configOf (es : Entries) : Except Failure Entries :=
  match given? es "config" with
  | none => .ok []
  | some ⟨.dict config, _⟩ => .ok config
  | some _ => .error (.fault (.invalidStep (.config (Entries.getD es "id").text)))

/-- The stored steps that belong to a task of a kind. -/
def storedBody (kind : StepKind) (config : Entries) : List Value :=
  match kind with
  | .loop => match given? config "steps" with
    | some ⟨.list body, _⟩ => body
    | _ => []
  | _ => []

/-- What a configuration says about its task, which is left open in its body. -/
def readOwn (limit : Value) (id : String) (kind : StepKind) (config : Entries) : Except Failure (List Step → Task) :=
  match kind with
  | .condition => (fun task _ => task) <$> Task.readCondition id config
  | .action => (fun a _ => .action a) <$> Action.read id config
  | .delay => (fun task _ => task) <$> Task.readDelay id config
  | .webhook => (fun task _ => task) <$> Task.readWebhook id config
  | .loop =>
    match given? config "steps" with
    | none | some ⟨.list _, _⟩ => (fun own body => .loop own.1 own.2 body) <$> Task.readLoop limit id config
    | some _ => .error (.fault (.invalidStep (.body id)))

theorem eq_dict_of_entriesOf {raw : Value} {es : Entries} (h : entriesOf raw = .ok es) : raw = .dict es := by
  unfold entriesOf at h
  split at h
  · split at h <;> cases h
    rfl
  · cases h

section Read

variable {limit raw : Value} {raws : List Value} {id : String} {kind : StepKind} {es config : Entries}

theorem readAll_nil (limit : Value) : readAll limit [] = .ok [] := by
  rw [readAll]

theorem readAll_cons (limit raw : Value) (raws : List Value) :
    readAll limit (raw :: raws) = (do return (← read limit raw) :: (← readAll limit raws)) := by
  rw [readAll]

/-- **The task of a configuration** is made of what the configuration says and of the steps of its body. -/
theorem readTask_eq (limit : Value) (id : String) (kind : StepKind) (config : Entries) :
    readTask limit id kind config =
      (do let make ← readOwn limit id kind config; make <$> readAll limit (storedBody kind config)) := by
  cases kind with
  | loop =>
    rw [readTask]
    unfold readOwn storedBody
    dsimp only
    split <;> rename_i hsteps
    · rw [hsteps]
      dsimp only
      rw [readAll_nil]
      cases Task.readLoop limit id config <;> rfl
    · rw [hsteps]
      dsimp only
      cases Task.readLoop limit id config <;> rfl
    · rename_i body hlist
      rw [hsteps]
      obtain ⟨v, hv⟩ := body
      cases v with
      | list => exact absurd rfl (hlist _ _)
      | _ => rfl
  | condition =>
    rw [readTask, readOwn, storedBody, readAll_nil]
    · cases Task.readCondition id config <;> rfl
    · rintro ⟨⟩
  | action =>
    rw [readTask, readOwn, storedBody, readAll_nil]
    · cases Action.read id config <;> rfl
    · rintro ⟨⟩
  | delay =>
    rw [readTask, readOwn, storedBody, readAll_nil]
    · cases Task.readDelay id config <;> rfl
    · rintro ⟨⟩
  | webhook =>
    rw [readTask, readOwn, storedBody, readAll_nil]
    · cases Task.readWebhook id config <;> rfl
    · rintro ⟨⟩

theorem read_dict (hid : (Entries.getD es "id").isBlank = false) : read limit (.dict es) = (do
    let kind ← readKind (either es "type" "kind")
    let config ← configOf es
    let make ← readOwn limit (Entries.getD es "id").text kind config
    let body ← readAll limit (storedBody kind config)
    complete (Entries.getD es "id").text (make body) es) := by
  rw [read, if_neg (ne_true_of_eq_false hid)]
  unfold configOf
  cases readKind (either es "type" "kind") with
  | error f => rfl
  | ok kind =>
    cases given? es "config" with
    | none =>
      simp only [readTask_eq, bind_assoc, bind_map_left]
      rfl
    | some found =>
      obtain ⟨v, hv⟩ := found
      cases v with
      | dict config =>
        simp only [readTask_eq, bind_assoc, bind_map_left]
        rfl
      | _ => rfl

/-- **A step is made of its parts**, read one after the other. -/
theorem read_eq (limit raw : Value) : read limit raw = (do
    let es ← entriesOf raw
    let kind ← readKind (either es "type" "kind")
    let config ← configOf es
    let make ← readOwn limit (Entries.getD es "id").text kind config
    let body ← readAll limit (storedBody kind config)
    complete (Entries.getD es "id").text (make body) es) := by
  cases raw with
  | dict es =>
    rw [entriesOf]
    split
    · rename_i hid
      rw [read, if_pos hid]
      rfl
    · rename_i hid
      exact read_dict (Bool.not_eq_true _ ▸ hid)
  | _ =>
    rw [read, entriesOf]
    · rfl
    · rintro _ ⟨⟩
    · rintro _ ⟨⟩

/-- A step is read if its parts are. -/
theorem read_of_parts {make : List Step → Task} {body : List Step} {step : Step} (hes : entriesOf raw = .ok es)
    (hkind : readKind (either es "type" "kind") = .ok kind) (hconfig : configOf es = .ok config)
    (hmake : readOwn limit (Entries.getD es "id").text kind config = .ok make)
    (hbody : readAll limit (storedBody kind config) = .ok body)
    (hstep : complete (Entries.getD es "id").text (make body) es = .ok step) : read limit raw = .ok step := by
  rw [read_eq, hes, ok_bind, hkind, ok_bind, hconfig, ok_bind, hmake, ok_bind, hbody, ok_bind, hstep]

/-- A step without a body is read on its own. -/
theorem read_of_bodiless {make : List Step → Task} {step : Step} (hes : entriesOf raw = .ok es)
    (hkind : readKind (either es "type" "kind") = .ok kind) (hconfig : configOf es = .ok config)
    (hbody : storedBody kind config = []) (hmake : readOwn limit (Entries.getD es "id").text kind config = .ok make)
    (hstep : complete (Entries.getD es "id").text (make []) es = .ok step) : read limit raw = .ok step :=
  read_of_parts hes hkind hconfig hmake (by rw [hbody, readAll_nil]) hstep

theorem readAll_cons_of_ok {step : Step} {steps : List Step} (hstep : read limit raw = .ok step)
    (hsteps : readAll limit raws = .ok steps) : readAll limit (raw :: raws) = .ok (step :: steps) := by
  rw [readAll_cons, hstep, ok_bind, hsteps, ok_bind]
  rfl

end Read

/-! ## The checks -/

/-- The names of the successors of a step. -/
def successors (es : Entries) : Except Failure (Option String × Option String) :=
  Checked.forObject "Step"
    (Prod.mk <$> (Field.textOrNull (either es "nextStepId" "next_step_id")).under "next_step_id"
      <*> (Field.textOrNull (either es "conditionStepId" "condition_step_id")).under "condition_step_id")

/-- It has an id. -/
def checkId (raw : Value) : Except Failure Unit := do
  let _ ← entriesOf raw

/-- Its kind is known. -/
def checkKind (raw : Value) : Except Failure Unit := do
  let es ← entriesOf raw
  let _ ← readKind (either es "type" "kind")

/-- Its configuration fits its kind, apart from the steps of its body. -/
def checkConfig (limit raw : Value) : Except Failure Unit := do
  let es ← entriesOf raw
  let kind ← readKind (either es "type" "kind")
  let _ ← readOwn limit (Entries.getD es "id").text kind (← configOf es)

/-- Its successors have names. -/
def checkSuccessors (raw : Value) : Except Failure Unit := do
  let _ ← successors (← entriesOf raw)

/-- The stored steps in the body of a stored step; only loops have some. -/
def bodyOf (raw : Value) : List Value :=
  let body : Except Failure (List Value) := do
    let es ← entriesOf raw
    let kind ← readKind (either es "type" "kind")
    return storedBody kind (← configOf es)
  body.toOption.getD []

theorem sizeOf_lt_of_mem_storedBody {kind : StepKind} {config : Entries} {raw : Value} (h : raw ∈ storedBody kind config) :
    sizeOf raw < sizeOf config := by
  unfold storedBody at h
  split at h
  · split at h
    · rename_i body hbody _
      have hraw : sizeOf raw < sizeOf body := List.sizeOf_lt_of_mem h
      simp only [Value.list.sizeOf_spec] at hbody
      omega
    · cases h
  · cases h

theorem sizeOf_le_of_configOf {es config : Entries} (h : configOf es = .ok config) : sizeOf config ≤ sizeOf es := by
  unfold configOf at h
  split at h
  · cases h
    exact Entries.one_le_sizeOf es
  · rename_i found hfound _
    cases h
    simp only [Value.dict.sizeOf_spec] at hfound
    omega
  · cases h

theorem bodyOf_dict {es config : Entries} {raw : Value} {kind : StepKind} (hes : entriesOf raw = .ok es)
    (hkind : readKind (either es "type" "kind") = .ok kind) (hconfig : configOf es = .ok config) :
    bodyOf raw = storedBody kind config := by
  unfold bodyOf
  rw [hes, ok_bind, hkind, ok_bind, hconfig]
  rfl

theorem sizeOf_lt_of_mem_bodyOf {raw inner : Value} (h : inner ∈ bodyOf raw) : sizeOf inner < sizeOf raw := by
  cases hes : entriesOf raw with
  | error f =>
    unfold bodyOf at h
    rw [hes] at h
    cases h
  | ok es =>
    cases hkind : readKind (either es "type" "kind") with
    | error f =>
      unfold bodyOf at h
      rw [hes, ok_bind, hkind] at h
      cases h
    | ok kind =>
      cases hconfig : configOf es with
      | error f =>
        unfold bodyOf at h
        rw [hes, ok_bind, hkind, ok_bind, hconfig] at h
        cases h
      | ok config =>
        rw [bodyOf_dict hes hkind hconfig] at h
        have hinner := sizeOf_lt_of_mem_storedBody h
        have hle := sizeOf_le_of_configOf hconfig
        obtain rfl := eq_dict_of_entriesOf hes
        simp only [Value.dict.sizeOf_spec]
        omega

/-- The checks of a stored step with all that is nested in it, in the order in which they are made. -/
def checks (limit raw : Value) : List (Except Failure Unit) :=
  [checkId raw, checkKind raw, checkConfig limit raw] ++
    (bodyOf raw).attach.flatMap (fun inner => checks limit inner.1) ++ [checkSuccessors raw]
termination_by sizeOf raw
decreasing_by exact sizeOf_lt_of_mem_bodyOf inner.2

/-- The checks of the body come before that of the successors. -/
theorem checks_eq (limit raw : Value) : checks limit raw =
    [checkId raw, checkKind raw, checkConfig limit raw] ++ (bodyOf raw).flatMap (checks limit) ++ [checkSuccessors raw] := by
  rw [checks, List.flatMap_subtype, List.unattach_attach]
  exact fun _ _ => rfl

theorem complete_eq (id : String) (task : Task) (es : Entries) :
    complete id task es = (fun names => mk id task names.1 names.2) <$> successors es := by
  unfold complete successors
  generalize (Field.textOrNull (either es "nextStepId" "next_step_id")).under "next_step_id" = next
  generalize (Field.textOrNull (either es "conditionStepId" "condition_step_id")).under "condition_step_id" = other
  cases next <;> cases other <;> rfl

/-! ## The first fault -/

section Fault

variable {limit raw : Value} {raws : List Value}

theorem faultOf?_readAll_of (h : ∀ raw ∈ raws, faultOf? (read limit raw) = (checks limit raw).findSome? faultOf?) :
    faultOf? (readAll limit raws) = (raws.flatMap (checks limit)).findSome? faultOf? := by
  induction raws with
  | nil => rw [readAll_nil]; rfl
  | cons raw raws ih =>
    obtain ⟨hraw, hraws⟩ := List.forall_mem_cons.mp h
    rw [readAll_cons, List.flatMap_cons, List.findSome?_append, ← hraw, ← ih hraws]
    cases read limit raw with
    | error f => rfl
    | ok step => cases readAll limit raws <;> rfl

/-- **A step is read** exactly if all of its checks pass, and else the first fault among them is reported. -/
theorem faultOf?_read (limit raw : Value) : faultOf? (read limit raw) = (checks limit raw).findSome? faultOf? := by
  have hbody : faultOf? (readAll limit (bodyOf raw)) = ((bodyOf raw).flatMap (checks limit)).findSome? faultOf? :=
    faultOf?_readAll_of fun inner hinner => faultOf?_read limit inner
  rw [checks_eq, List.findSome?_append, List.findSome?_append, ← hbody, read_eq]
  unfold bodyOf checkId checkKind checkConfig checkSuccessors
  cases entriesOf raw with
  | error f => rfl
  | ok es =>
    simp only [ok_bind]
    cases readKind (either es "type" "kind") with
    | error f => rfl
    | ok kind =>
      simp only [ok_bind]
      cases configOf es with
      | error f => rfl
      | ok config =>
        simp only [ok_bind]
        cases readOwn limit (Entries.getD es "id").text kind config with
        | error f => rfl
        | ok make =>
          simp only [ok_bind, complete_eq]
          show _ = (faultOf? (readAll limit (storedBody kind config))).or _
          cases readAll limit (storedBody kind config) with
          | error f => rfl
          | ok body =>
            rw [ok_bind, faultOf?_map]
            cases successors es <;> rfl
termination_by sizeOf raw
decreasing_by exact sizeOf_lt_of_mem_bodyOf hinner

/-- **Steps are read** exactly if none of their checks fails, and else the first fault among them is reported. -/
theorem faultOf?_readAll (limit : Value) (raws : List Value) :
    faultOf? (readAll limit raws) = (raws.flatMap (checks limit)).findSome? faultOf? :=
  faultOf?_readAll_of fun raw _ => faultOf?_read limit raw

end Fault

/-! ## Faults at any depth -/

/-- A stored step stands in a list of stored steps or in the body of one of them, at whatever depth. -/
inductive Occurs (raw : Value) : List Value → Prop where
  | here {raws : List Value} : raw ∈ raws → Occurs raw raws
  | inside {raws : List Value} {outer : Value} : outer ∈ raws → Occurs raw (bodyOf outer) → Occurs raw raws

end Step

end Runbook
