import Runbook.Proofs.Frame

/-!
# The phases of a run

In a schedule a run goes through its program one request at a time. Either it is about to make a request, or it waits for the
answer to one, and then everything that is kept for it goes on with some answer to that request: the work that it does itself,
the errand of its assistant, and what it does if it is interrupted. So whatever else happens in between, a run never asks
anything that its program does not ask.

* `Phase`: how far a run is; `Moment.In`: the phase of a run at a moment.
* `Phase.Step`: the phase after a phase.
* **`Move.phase`**: in every move a run stays in its phase or goes on to the next one.
* **`Moment.In.causes`**: what is done for a run is done for the request that it waits for.
-/

namespace Runbook

namespace Program

variable {Op : Type} {Reply : Op → Type} {α β : Type}

/-- The operations that a program may come to ask. -/
inductive Asks : Program Op Reply α → Op → Prop where
  | here {op : Op} {next : Reply op → Program Op Reply α} : Asks (ask op next) op
  | later {op op' : Op} {next : Reply op → Program Op Reply α} (r : Reply op) :
    Asks (next r) op' → Asks (ask op next) op'

/-- Whatever a program asks is of this kind, and its results are of that kind. -/
def All (E : Op → Prop) (P : α → Prop) : Program Op Reply α → Prop
  | done a => P a
  | ask op next => E op ∧ ∀ r, All E P (next r)

theorem all_map {E : Op → Prop} {f : α → β} {p : Program Op Reply α} (h : ∀ op, p.Asks op → E op) :
    (f <$> p).All E fun b => ∃ a, b = f a := by
  induction p with
  | done a => exact ⟨a, rfl⟩
  | ask op next ih => exact ⟨h op .here, fun r => ih r fun op' hop' => h op' (.later r hop')⟩

theorem All.of_asks {E : Op → Prop} {P : α → Prop} {p : Program Op Reply α} {op : Op} (h : p.All E P) (hop : p.Asks op) :
    E op := by
  induction hop with
  | here => exact h.1
  | later r _ ih => exact ih (h.2 r)

end Program

variable {S : Setting}

/-- The effects that a request may have: those of the call that it is. -/
def Setting.Causes (S : Setting) : Request S.Call → Effect S.World → Prop
  | .call c _ => (S.perform c).Asks
  | _ => fun _ => False

/-- The errand on which a request sends the assistant of a run. -/
def Setting.errandOf? (S : Setting) : (q : Request S.Call) → (q.Reply S.Answer → S.Rest) → Option (Errand S)
  | .call c (some _), next => some (.work (next <$> S.perform c))
  | .awaitCancel _, next => some (.watch (next (.ok true)))
  | _, _ => none

/-- What a request is answered at once, if it is. -/
def Schedule.reply? (s : Schedule S) (i : Nat) : (q : Request S.Call) → Option (q.Reply S.Answer)
  | .now => some s.clock
  | .token => some (s.tokenView i)
  | .openToken _ => some ()
  | .enlist .. => some ()
  | .delist _ => some ()
  | .awaitCancel _ => none
  | .call .. => none

/-! ## What is kept for a run that waits -/

/-- The assistant that a run waits for, and whether its work is withdrawn. -/
def Stage.assistant? : Stage S → Option (Assistant S × Bool)
  | .limited _ assistant withdrawn _ | .draining _ assistant withdrawn .. => some (assistant, withdrawn)
  | _ => none

section Kept

variable (q : Request S.Call) (next : q.Reply S.Answer → S.Rest)

/-- What a run goes on with once its request is answered. -/
def IsNext (rest : S.Rest) : Prop := ∃ r, rest = next r

/-- Work for a request: its effects are those of the request, and it ends with what the run goes on with. -/
def Serves (task : S.Task) : Prop := task.All (S.Causes q) (IsNext q next)

/-- An assistant that has begun its errand for a request, or will not begin it. -/
def Assistant.Serves (withdrawn : Bool) : Assistant S → Prop
  | .called _ => withdrawn = true
  | .pausing _ task => Runbook.Serves q next task
  | .watching _ cancelled => IsNext q next cancelled
  | .ended rest => ∀ r ∈ rest, IsNext q next r

/-- A run that waits for its assistant, and goes on after a failure with an answer to a request. -/
def Stage.IsHelped : Stage S → Prop
  | .limited _ _ _ onFailure | .draining _ _ _ _ _ onFailure => ∀ f, IsNext q next (onFailure f)
  | _ => False

/-- A run that waits for the answer to a request. -/
def Stage.Serves : Stage S → Prop
  | .pausing _ task onFailure => Runbook.Serves q next task ∧ ∀ f, IsNext q next (onFailure f)
  | .limited _ assistant withdrawn onFailure | .draining _ assistant withdrawn _ _ onFailure =>
    assistant.Serves q next withdrawn ∧ ∀ f, IsNext q next (onFailure f)
  | _ => False

end Kept

/-- How far a run is with its program: it has not begun, it goes on, its assistant is called on an errand, it waits for an
answer, or it has ended. -/
inductive Phase (S : Setting) where
  | ready (rest : S.Rest)
  | going (rest : S.Rest)
  | called (q : Request S.Call) (next : q.Reply S.Answer → S.Rest)
  | waiting (q : Request S.Call) (next : q.Reply S.Answer → S.Rest)
  | ended (result : Except String S.Result)

/-- The phase of a run at a moment. -/
inductive Moment.In (i : Nat) : Moment S → Phase S → Prop where
  | ready {activity : Activity S} {s : Schedule S} {rest : S.Rest} :
    ¬ activity.IsOf i → s.stage? i = some (.ready rest) → In i ⟨activity, s⟩ (.ready rest)
  | going {s : Schedule S} {rest : S.Rest} : s.stage? i = some .active → In i ⟨.run i rest, s⟩ (.going rest)
  | called {activity : Activity S} {s : Schedule S} {q : Request S.Call} {next : q.Reply S.Answer → S.Rest} {a : Await}
      {errand : Errand S} {onFailure : Failure → S.Rest} :
    ¬ activity.IsOf i → s.stage? i = some (.limited a (.called errand) false onFailure) →
      S.errandOf? q next = some errand → (∀ f, IsNext q next (onFailure f)) → In i ⟨activity, s⟩ (.called q next)
  | working {s : Schedule S} {q : Request S.Call} {next : q.Reply S.Answer → S.Rest} {task : S.Task}
      {onFailure : Failure → S.Rest} :
    s.stage? i = some .active → Serves q next task → (∀ f, IsNext q next (onFailure f)) →
      In i ⟨.task i task onFailure, s⟩ (.waiting q next)
  | helped {s : Schedule S} {q : Request S.Call} {next : q.Reply S.Answer → S.Rest} {task : S.Task} {stage : Stage S} :
    s.stage? i = some stage → stage.IsHelped q next → Serves q next task → In i ⟨.aid i task, s⟩ (.waiting q next)
  | waiting {activity : Activity S} {s : Schedule S} {q : Request S.Call} {next : q.Reply S.Answer → S.Rest}
      {stage : Stage S} :
    ¬ activity.IsOf i → s.stage? i = some stage → stage.Serves q next → In i ⟨activity, s⟩ (.waiting q next)
  | ended {activity : Activity S} {s : Schedule S} {result : Except String S.Result} :
    ¬ activity.IsOf i → s.stage? i = some (.ended result) → In i ⟨activity, s⟩ (.ended result)

/-- The phase of a run after a phase, as it may come of a moment. -/
inductive Phase.Step (i : Nat) (m : Moment S) : Phase S → Phase S → Prop where
  | stay {φ : Phase S} : (∀ rest, φ ≠ .going rest) → Step i m φ φ
  | begin {rest : S.Rest} : Step i m (.ready rest) (.going rest)
  | drop {rest : S.Rest} {message : String} : Step i m (.ready rest) (.ended (.error message))
  | reply {q : Request S.Call} {next : q.Reply S.Answer → S.Rest} {r : q.Reply S.Answer} :
    m.schedule.reply? i q = some r → Step i m (.going (.ask q next)) (.going (next r))
  | call {q : Request S.Call} {next : q.Reply S.Answer → S.Rest} {errand : Errand S} : S.errandOf? q next = some errand →
    Step i m (.going (.ask q next)) (.called q next)
  | wait {q : Request S.Call} {next : q.Reply S.Answer → S.Rest} : m.schedule.reply? i q = none →
    Step i m (.going (.ask q next)) (.waiting q next)
  | start {q : Request S.Call} {next : q.Reply S.Answer → S.Rest} : Step i m (.called q next) (.waiting q next)
  | answer {q : Request S.Call} {next : q.Reply S.Answer → S.Rest} (r : q.Reply S.Answer) :
    Step i m (.waiting q next) (.going (next r))
  | finish {result : S.Result} : Step i m (.going (.done result)) (.ended (.ok result))
  | cut {result : S.Result} {message : String} : Step i m (.going (.done result)) (.ended (.error message))

/-! ## Where a run is after a step of its own -/

namespace Schedule

variable {s : Schedule S} {i : Nat} {stage : Stage S}

theorem stage?_modifyFiber (f : Fiber S → Fiber S) :
    (s.modifyFiber i f).stage? i = s.fibers[i]?.map fun x => (f x).stage := by
  unfold Schedule.stage? modifyFiber
  rw [List.getElem?_modify_eq]
  cases s.fibers[i]? <;> rfl

theorem stage?_setStage (h : s.stage? i = some stage) (stage' : Stage S) :
    (s.setStage i stage').stage? i = some stage' := by
  unfold setStage
  rw [stage?_modifyFiber]
  unfold Schedule.stage? at h
  cases hx : s.fibers[i]? with
  | none =>
    rw [hx] at h
    cases h
  | some x => rfl

theorem Marks.stage? {s' : Schedule S} (h : Marks s s') (hstage : s.stage? i = some stage) :
    ∃ stage', s'.stage? i = some stage' ∧ stage'.unmarked = stage.unmarked := by
  have hi := h i
  rw [hstage] at hi
  exact Option.map_eq_some_iff.mp hi

/-- A run is left where it is to wait, though what it waits for may have come. -/
theorem stage?_suspend (h : s.stage? i = some stage) (stage' : Stage S) :
    ∃ stage'', (s.suspend i stage').stage? i = some stage'' ∧ stage''.unmarked = stage'.unmarked := by
  have hset : (s.setStage i stage').stage? i = some stage' := stage?_setStage h stage'
  unfold suspend
  dsimp only
  split
  · refine Marks.stage? ?_ hset
    refine Marks.interrupt ?_ i _
    exact (Marks.refl _).modifyFiber i fun _ _ => rfl
  · exact ⟨stage', hset, rfl⟩

end Schedule

/-! ## Marks do not change a phase -/

section Marks

variable {q : Request S.Call} {next : q.Reply S.Answer → S.Rest} {stage stage' : Stage S}

theorem Assistant.serves_unmarked {assistant : Assistant S} {withdrawn : Bool} :
    assistant.unmarked.Serves q next withdrawn ↔ assistant.Serves q next withdrawn := by
  cases assistant <;> rfl

theorem Stage.serves_unmarked : stage.unmarked.Serves q next ↔ stage.Serves q next := by
  cases stage with
  | limited => exact and_congr_left' Assistant.serves_unmarked
  | draining => exact and_congr_left' Assistant.serves_unmarked
  | _ => rfl

theorem Stage.isHelped_unmarked : stage.unmarked.IsHelped q next ↔ stage.IsHelped q next := by
  cases stage <;> rfl

theorem Stage.Serves.congr (h : stage.Serves q next) (heq : stage'.unmarked = stage.unmarked) : stage'.Serves q next := by
  rw [← serves_unmarked, heq, serves_unmarked]
  exact h

theorem Stage.IsHelped.congr (h : stage.IsHelped q next) (heq : stage'.unmarked = stage.unmarked) :
    stage'.IsHelped q next := by
  rw [← isHelped_unmarked, heq, isHelped_unmarked]
  exact h

theorem Stage.eq_ready {rest : S.Rest} (h : stage.unmarked = .ready rest) : stage = .ready rest := by
  cases stage <;> cases h
  rfl

theorem Stage.eq_active (h : stage.unmarked = .active) : stage = .active := by
  cases stage <;> cases h
  rfl

theorem Stage.eq_ended {result : Except String S.Result} (h : stage.unmarked = .ended result) : stage = .ended result := by
  cases stage <;> cases h
  rfl

theorem Stage.eq_called {a : Await} {errand : Errand S} {onFailure : Failure → S.Rest}
    (h : stage.unmarked = .limited a (.called errand) false onFailure) :
    ∃ a', stage = .limited a' (.called errand) false onFailure := by
  cases stage with
  | limited a' assistant withdrawn onFailure' =>
    cases assistant <;> cases h
    exact ⟨a', rfl⟩
  | _ => cases h

end Marks

variable {s s' : Schedule S} {i j : Nat} {activity activity' : Activity S} {φ : Phase S}

theorem Schedule.Marks.active (h : Marks s s') (hactive : s.stage? i = some .active) : s'.stage? i = some .active := by
  obtain ⟨stage', hstage, heq⟩ := h.stage? hactive
  rw [hstage, Stage.eq_active heq]

/-- What is done elsewhere leaves a run in its phase. -/
theorem Moment.In.elsewhere (hφ : In i ⟨activity, s⟩ φ) (hact : ¬ activity.IsOf i) (hact' : ¬ activity'.IsOf i)
    (hstage : (s'.stage? i).map Stage.unmarked = (s.stage? i).map Stage.unmarked) :
    In i ⟨activity', s'⟩ φ ∧ ∀ rest, φ ≠ .going rest := by
  have hmoved : ∀ stage, s.stage? i = some stage →
      ∃ stage', s'.stage? i = some stage' ∧ stage'.unmarked = stage.unmarked := by
    intro stage h
    rw [h] at hstage
    exact Option.map_eq_some_iff.mp hstage
  cases hφ with
  | ready _ h =>
    obtain ⟨stage', h', heq⟩ := hmoved _ h
    exact ⟨.ready hact' (Stage.eq_ready heq ▸ h'), nofun⟩
  | going => exact absurd rfl hact
  | called _ h herrand hf =>
    obtain ⟨stage', h', heq⟩ := hmoved _ h
    obtain ⟨a', rfl⟩ := Stage.eq_called heq
    exact ⟨.called hact' h' herrand hf, nofun⟩
  | working => exact absurd rfl hact
  | helped => exact absurd rfl hact
  | waiting _ h hserves =>
    obtain ⟨stage', h', heq⟩ := hmoved _ h
    exact ⟨.waiting hact' h' (hserves.congr heq), nofun⟩
  | ended _ h =>
    obtain ⟨stage', h', heq⟩ := hmoved _ h
    exact ⟨.ended hact' (Stage.eq_ended heq ▸ h'), nofun⟩

/-- So it is if the records of the run are untouched, or only marked. -/
theorem Moment.In.stays (hφ : In i ⟨activity, s⟩ φ) (hact : ¬ activity.IsOf i) (hact' : ¬ activity'.IsOf i)
    (hstage : (s'.stage? i).map Stage.unmarked = (s.stage? i).map Stage.unmarked) (m : Moment S) :
    ∃ φ', In i ⟨activity', s'⟩ φ' ∧ φ.Step i m φ' := by
  obtain ⟨hin, hgoing⟩ := hφ.elsewhere hact hact' hstage
  exact ⟨φ, hin, .stay hgoing⟩

/-! ## Requests -/

section Requests

variable {q : Request S.Call} {next : q.Reply S.Answer → S.Rest}

theorem isNext_watchFailure {limit : Binary64} {next : Except Failure Bool → S.Rest} (f : Failure) :
    IsNext (.awaitCancel limit) next (Schedule.watchFailure next f) := by
  unfold Schedule.watchFailure
  split
  · exact ⟨.ok false, rfl⟩
  · exact ⟨.error _, rfl⟩

theorem serves_perform (c : S.Call) (limit : Option Binary64) (next : Except Failure (S.Answer c) → S.Rest) :
    Serves (.call c limit) next (next <$> S.perform c) :=
  Program.all_map fun _ h => h

theorem Schedule.in_beginPause {seconds : Binary64} {task : S.Task} {onFailure : Failure → S.Rest}
    (hactive : s.stage? i = some .active) (htask : Serves q next task) (hf : ∀ f, IsNext q next (onFailure f)) :
    Moment.In i ⟨.idle, s.beginPause i seconds task onFailure⟩ (.waiting q next) := by
  unfold beginPause
  dsimp only
  obtain ⟨stage, hstage, heq⟩ := stage?_suspend
    (s := s.newAwait.2.after seconds (.settle i s.newAwait.1.id)) hactive (.pausing s.newAwait.1 task onFailure)
  refine .waiting id hstage (Stage.Serves.congr ?_ heq)
  exact ⟨htask, hf⟩

/-- The assistant of a run is called, unless there is no time at all. -/
theorem Schedule.in_beginErrand (limit : Binary64) {errand : Errand S} {onFailure : Failure → S.Rest}
    (hactive : s.stage? i = some .active) (herrand : S.errandOf? q next = some errand)
    (hf : ∀ f, IsNext q next (onFailure f)) :
    ∃ φ, Moment.In i ⟨.idle, s.beginErrand i limit errand onFailure⟩ φ ∧ (φ = .called q next ∨ φ = .waiting q next) := by
  unfold beginErrand
  dsimp only
  split
  · obtain ⟨stage, hstage, heq⟩ := stage?_suspend (s := s.newAwait.2.signal (.assist i false)) hactive
      (.draining s.newAwait.1 (.called errand) true s.newAwait.1.id (.timedOut "") onFailure)
    refine ⟨_, .waiting id hstage (Stage.Serves.congr ?_ heq), .inr rfl⟩
    exact ⟨rfl, hf⟩
  · obtain ⟨stage, hstage, heq⟩ := stage?_suspend
      (s := (s.newAwait.2.after limit (.release i s.newAwait.1.id)).signal (.assist i false)) hactive
      (.limited s.newAwait.1 (.called errand) false onFailure)
    obtain ⟨a, rfl⟩ := Stage.eq_called heq
    exact ⟨_, .called id hstage herrand hf, .inl rfl⟩

theorem Schedule.phase_errand {limit : Binary64} {errand : Errand S} {onFailure : Failure → S.Rest} {m : Moment S}
    (hactive : s.stage? i = some .active) (hreply : m.schedule.reply? i q = none)
    (herrand : S.errandOf? q next = some errand) (hf : ∀ f, IsNext q next (onFailure f)) :
    ∃ φ, Moment.In i ⟨.idle, s.beginErrand i limit errand onFailure⟩ φ ∧ Phase.Step i m (.going (.ask q next)) φ := by
  obtain ⟨φ, hφ, rfl | rfl⟩ := in_beginErrand limit hactive herrand hf
  · exact ⟨_, hφ, .call herrand⟩
  · exact ⟨_, hφ, .wait hreply⟩

theorem Schedule.marks_openToken (timeout : Option Binary64) : Marks s (s.openToken i timeout) := by
  unfold openToken
  split
  · exact .refl s
  · have hnew : Marks s (s.newToken timeout).2 := .refl s
    exact hnew.modifyFiber i fun _ _ => rfl

/-- **A request** is answered at once, or the run waits for the answer. -/
theorem Schedule.phase_respond (hactive : s.stage? i = some .active) :
    ∃ φ, (s.respond i q next).In i φ ∧ Phase.Step i ⟨.run i (.ask q next), s⟩ (.going (.ask q next)) φ := by
  cases q with
  | now => exact ⟨_, .going hactive, .reply rfl⟩
  | token => exact ⟨_, .going hactive, .reply rfl⟩
  | openToken timeout => exact ⟨_, .going ((marks_openToken timeout).active hactive), .reply rfl⟩
  | enlist execution workflow tenant =>
    refine ⟨_, .going ?_, .reply rfl⟩
    unfold enlist
    split <;> exact hactive
  | delist execution => exact ⟨_, .going hactive, .reply rfl⟩
  | awaitCancel limit => exact phase_errand hactive rfl rfl isNext_watchFailure
  | call c limit =>
    cases limit with
    | none => exact ⟨_, .working hactive (serves_perform c none next) fun f => ⟨.error f, rfl⟩, .wait rfl⟩
    | some limit => exact phase_errand hactive rfl rfl fun f => ⟨.error f, rfl⟩

theorem Schedule.phase_finishRun {result : S.Result} (hactive : s.stage? i = some .active) {m : Moment S} :
    ∃ φ, Moment.In i ⟨.idle, s.finishRun i result⟩ φ ∧ Phase.Step i m (.going (.done result)) φ := by
  unfold finishRun
  split
  · next message _ =>
    refine ⟨.ended (.error message), .ended id ?_, .cut⟩
    rw [stage?_modifyFiber]
    unfold Schedule.stage? at hactive
    cases hx : s.fibers[i]? with
    | none =>
      rw [hx] at hactive
      cases hactive
    | some x => rfl
  · exact ⟨.ended (.ok result), .ended id (stage?_setStage hactive _), .finish⟩

end Requests

/-! ## Signals for a run -/

section Signals

variable {q : Request S.Call} {next : q.Reply S.Answer → S.Rest} {stage : Stage S}

theorem Schedule.in_drain (withdrawn : Bool) {assistant : Assistant S} {limit : Nat} {cause : Failure}
    {onFailure : Failure → S.Rest} (hactive : s.stage? i = some .active)
    (hserves : assistant.Serves q next withdrawn ∨ ∃ errand, assistant = .called errand)
    (hf : ∀ f, IsNext q next (onFailure f)) :
    Moment.In i ⟨.idle, s.drain i assistant limit cause onFailure⟩ (.waiting q next) := by
  -- An assistant that has not begun its errand is left withdrawn, one that waits is told.
  have hleft : ∀ (s₁ : Schedule S) (a : Await) (assistant' : Assistant S) (withdrawn' : Bool),
      s₁.stage? i = some .active → assistant'.Serves q next withdrawn' →
        Moment.In i ⟨.idle, s₁.suspend i (.draining a assistant' withdrawn' limit cause onFailure)⟩ (.waiting q next) := by
    intro s₁ a assistant' withdrawn' h₁ h'
    obtain ⟨stage, hstage, heq⟩ := stage?_suspend h₁ (.draining a assistant' withdrawn' limit cause onFailure)
    refine .waiting id hstage (Stage.Serves.congr ?_ heq)
    exact ⟨h', hf⟩
  unfold drain
  dsimp only
  cases assistant with
  | called errand => exact hleft _ _ _ _ hactive rfl
  | pausing w task =>
    have htask : Serves q next task := hserves.elim id fun ⟨_, h⟩ => nomatch h
    dsimp only
    split <;> exact hleft _ _ _ _ hactive htask
  | watching w rest =>
    have hrest : IsNext q next rest := hserves.elim id fun ⟨_, h⟩ => nomatch h
    dsimp only
    split <;> exact hleft _ _ _ _ hactive hrest
  | ended rest =>
    have hrest : ∀ r ∈ rest, IsNext q next r := hserves.elim id fun ⟨_, h⟩ => nomatch h
    exact hleft _ _ _ _ hactive hrest

/-- A run that waits goes on with some answer. -/
theorem Phase.Step.going {m : Moment S} {rest : S.Rest} (h : IsNext q next rest) :
    Phase.Step i m (.waiting q next) (.going rest) := by
  obtain ⟨r, rfl⟩ := h
  exact .answer r

theorem Schedule.exists_fiber (h : s.stage? i = some stage) : ∃ x, s.fibers[i]? = some x ∧ x.stage = stage :=
  Option.map_eq_some_iff.mp h

theorem Schedule.phase_step (hφ : Moment.In i ⟨.idle, s⟩ φ) (interruption : Option String) :
    ∃ φ', (s.step i interruption).In i φ' ∧ φ.Step i ⟨.idle, s⟩ φ' := by
  have hactive : ∀ x, s.fibers[i]? = some x →
      (s.modifyFiber i fun f => { f with stage := .active, interruption := none }).stage? i = some .active := by
    intro x hx
    rw [stage?_modifyFiber, hx]
    rfl
  unfold step
  cases hφ with
  | ready _ hstage =>
    obtain ⟨x, hx, heq⟩ := exists_fiber hstage
    rw [hx]
    dsimp only
    rw [heq]
    cases interruption.or x.interruption with
    | none => exact ⟨_, .going (hactive x hx), .begin⟩
    | some message => exact ⟨_, .ended id (stage?_setStage (hactive x hx) _), .drop⟩
  | called _ hstage herrand hf =>
    obtain ⟨x, hx, heq⟩ := exists_fiber hstage
    rw [hx]
    dsimp only
    rw [heq]
    cases interruption.or x.interruption with
    | none => exact ⟨_, in_drain false (hactive x hx) (.inr ⟨_, rfl⟩) hf, .start⟩
    | some message => exact ⟨_, in_drain false (hactive x hx) (.inr ⟨_, rfl⟩) hf, .start⟩
  | waiting hidle hstage hserves =>
    rename_i stage
    obtain ⟨x, hx, heq⟩ := exists_fiber hstage
    rw [hx]
    dsimp only
    rw [heq]
    have hx := hactive x hx
    generalize interruption.or x.interruption = interruption
    cases stage with
    | pausing a task onFailure =>
      obtain ⟨htask, hf⟩ := hserves
      cases interruption with
      | none => exact ⟨_, .working hx htask hf, .stay nofun⟩
      | some message => exact ⟨_, .going hx, .going (hf _)⟩
    | limited a assistant withdrawn onFailure =>
      obtain ⟨hassistant, hf⟩ := hserves
      split <;> rename_i hm <;> cases hm
      · exact ⟨_, .going hx, .going (hassistant _ rfl)⟩
      · exact ⟨_, in_drain withdrawn hx (.inl hassistant) hf, .stay nofun⟩
      · exact ⟨_, in_drain withdrawn hx (.inl hassistant) hf, .stay nofun⟩
    | draining a assistant withdrawn limit cause onFailure =>
      obtain ⟨hassistant, hf⟩ := hserves
      split <;> rename_i hm <;> cases hm
      · exact ⟨_, .going hx, .going (hf _)⟩
      · exact ⟨_, .going hx, .going (hassistant _ rfl)⟩
      · exact ⟨_, .going hx, .going (hf _)⟩
    | ready rest => exact hserves.elim
    | active => exact hserves.elim
    | ended result => exact hserves.elim
  | ended _ hstage =>
    obtain ⟨x, hx, heq⟩ := exists_fiber hstage
    rw [hx]
    dsimp only
    rw [heq]
    exact ⟨_, .ended id (stage?_setStage (hactive x hx) _), .stay nofun⟩

theorem Stage.Serves.isHelped {a : Assistant S} {withdrawn : Bool} (h : stage.Serves q next)
    (hassistant : stage.assistant? = some (a, withdrawn)) : stage.IsHelped q next ∧ a.Serves q next withdrawn := by
  cases stage <;> cases hassistant
  · exact ⟨h.2, h.1⟩
  · exact ⟨h.2, h.1⟩

theorem Schedule.stage?_setAssistant (assistant : Assistant S) (hstage : s.stage? i = some stage)
    (hhelped : stage.IsHelped q next) (hassistant : ∀ withdrawn, assistant.Serves q next withdrawn) :
    ∃ stage', (s.setAssistant i assistant).stage? i = some stage' ∧ stage'.Serves q next := by
  obtain ⟨x, hx, rfl⟩ := exists_fiber hstage
  obtain ⟨stage, token, interruption⟩ := x
  unfold setAssistant
  rw [stage?_modifyFiber, hx]
  cases stage with
  | limited a assistant' withdrawn onFailure => exact ⟨_, rfl, hassistant _, hhelped⟩
  | draining a assistant' withdrawn limit cause onFailure => exact ⟨_, rfl, hassistant _, hhelped⟩
  | _ => exact hhelped.elim

theorem Schedule.in_setAssistant {assistant : Assistant S} (hstage : s.stage? i = some stage)
    (hhelped : stage.IsHelped q next) (hassistant : ∀ withdrawn, assistant.Serves q next withdrawn) :
    Moment.In i ⟨.idle, s.setAssistant i assistant⟩ (.waiting q next) := by
  obtain ⟨stage', hstage', hserves⟩ := stage?_setAssistant assistant hstage hhelped hassistant
  exact .waiting id hstage' hserves

theorem Schedule.in_endAssistant {rest : Option S.Rest} (hstage : s.stage? i = some stage)
    (hhelped : stage.IsHelped q next) (hrest : ∀ r ∈ rest, IsNext q next r) :
    Moment.In i ⟨.idle, s.endAssistant i rest⟩ (.waiting q next) := by
  obtain ⟨stage', hstage', hserves⟩ := stage?_setAssistant (.ended rest) hstage hhelped fun _ => hrest
  unfold endAssistant
  dsimp only
  split <;> exact .waiting id hstage' hserves

/-- An assistant that is called begins its errand. -/
theorem Schedule.in_beginAssist {a : Await} {errand : Errand S} {onFailure : Failure → S.Rest}
    (hstage : s.stage? i = some (.limited a (.called errand) false onFailure))
    (herrand : S.errandOf? q next = some errand) (hf : ∀ f, IsNext q next (onFailure f)) :
    (s.beginAssist i errand).In i (.waiting q next) := by
  unfold Setting.errandOf? at herrand
  split at herrand <;> cases herrand
  · exact .helped hstage hf (serves_perform _ _ _)
  · unfold beginAssist
    dsimp only
    split
    · exact in_endAssistant hstage hf fun r hr => Option.mem_some.mp hr ▸ ⟨.ok true, rfl⟩
    · exact in_setAssistant (s := s.newAwait.2) hstage hf fun _ => ⟨.ok true, rfl⟩

theorem Schedule.phase_assist (hφ : Moment.In i ⟨.idle, s⟩ φ) (withdraw : Bool) :
    ∃ φ', (s.assist i withdraw).In i φ' ∧ φ.Step i ⟨.idle, s⟩ φ' := by
  unfold assist assistantOf?
  cases hφ with
  | ready hidle hstage =>
    rw [hstage]
    exact ⟨_, .ready hidle hstage, .stay nofun⟩
  | called hidle hstage herrand hf =>
    rw [hstage]
    dsimp only
    split
    · exact ⟨_, in_endAssistant hstage hf nofun, .start⟩
    · exact ⟨_, in_beginAssist hstage herrand hf, .start⟩
  | waiting hidle hstage hserves =>
    rename_i stage
    refine ⟨_, ?_, .stay nofun⟩
    rw [hstage]
    split
    · exact .waiting hidle hstage hserves
    · exact .waiting hidle hstage hserves
    · next assistant withdrawn hended hassistant =>
      have hassistant' : stage.assistant? = some (assistant, withdrawn) := by
        cases stage <;> cases hassistant <;> rfl
      obtain ⟨hhelped, ha⟩ := hserves.isHelped hassistant'
      split
      · exact in_endAssistant hstage hhelped nofun
      · next hw =>
        cases assistant with
        | called errand =>
          rw [show withdrawn = true from ha, Bool.or_true] at hw
          exact absurd rfl hw
        | pausing a task => exact .helped hstage hhelped ha
        | watching a cancelled =>
          exact in_endAssistant hstage hhelped fun r hr => Option.mem_some.mp hr ▸ ha
        | ended rest => exact .waiting hidle hstage hserves
  | ended hidle hstage =>
    rw [hstage]
    exact ⟨_, .ended hidle hstage, .stay nofun⟩

end Signals

/-! ## Moves -/

theorem Schedule.Apart.stays (h : Apart j s s') (hij : i ≠ j) :
    (s'.stage? i).map Stage.unmarked = (s.stage? i).map Stage.unmarked := by
  rw [h.stage? hij]

theorem Schedule.respond_stays {q : Request S.Call} {next : q.Reply S.Answer → S.Rest} (hij : i ≠ j) :
    ((s.respond j q next).schedule.stage? i).map Stage.unmarked = (s.stage? i).map Stage.unmarked ∧
      ¬ (s.respond j q next).activity.IsOf i := by
  cases q with
  | openToken timeout => exact ⟨marks_openToken timeout i, hij.symm⟩
  | enlist execution workflow tenant =>
    have hmarks : Marks s (s.enlist j execution workflow tenant) := by
      unfold enlist
      split <;> exact .refl s
    exact ⟨hmarks i, hij.symm⟩
  | awaitCancel limit => exact ⟨((Apart.refl j s).beginErrand _ _ _).stays hij, id⟩
  | call c limit =>
    cases limit with
    | none => exact ⟨rfl, hij.symm⟩
    | some limit => exact ⟨((Apart.refl j s).beginErrand _ _ _).stays hij, id⟩
  | _ => exact ⟨rfl, hij.symm⟩

theorem Moment.phase_run {rest : S.Rest} (hφ : In i ⟨.run j rest, s⟩ φ) :
    ∃ φ', (Moment.next ⟨.run j rest, s⟩).In i φ' ∧ φ.Step i ⟨.run j rest, s⟩ φ' := by
  by_cases hij : i = j
  · subst hij
    cases hφ with
    | ready hidle => exact absurd rfl hidle
    | going hactive =>
      cases rest with
      | done result => exact Schedule.phase_finishRun hactive
      | ask q next => exact Schedule.phase_respond hactive
    | called hidle => exact absurd rfl hidle
    | waiting hidle => exact absurd rfl hidle
    | ended hidle => exact absurd rfl hidle
  · have hact : ¬ (Activity.run j rest).IsOf i := Ne.symm hij
    cases rest with
    | done result => exact hφ.stays hact id (((Schedule.Apart.refl j s).finishRun _).stays hij) _
    | ask q next =>
      obtain ⟨hstage, hact'⟩ := Schedule.respond_stays hij
      exact hφ.stays hact hact' hstage _

theorem Moment.phase_task {task : S.Task} {onFailure : Failure → S.Rest} (hφ : In i ⟨.task j task onFailure, s⟩ φ) :
    ∃ φ', (Moment.next ⟨.task j task onFailure, s⟩).In i φ' ∧ φ.Step i ⟨.task j task onFailure, s⟩ φ' := by
  by_cases hij : i = j
  · subst hij
    cases hφ with
    | ready hidle => exact absurd rfl hidle
    | called hidle => exact absurd rfl hidle
    | working hactive htask hf =>
      cases task with
      | done rest => exact ⟨_, .going hactive, .going htask⟩
      | ask e next =>
        have hmarks : s.Marks (s.affect i e).2 := (Schedule.Marks.refl s).affect i e
        cases e with
        | pause seconds => exact ⟨_, Schedule.in_beginPause hactive (htask.2 ()) hf, .stay nofun⟩
        | _ => exact ⟨_, .working (hmarks.active hactive) (htask.2 _) hf, .stay nofun⟩
    | waiting hidle => exact absurd rfl hidle
    | ended hidle => exact absurd rfl hidle
  · have hact : ¬ (Activity.task j task onFailure).IsOf i := Ne.symm hij
    cases task with
    | done rest =>
      refine hφ.stays hact ?_ rfl _
      exact Ne.symm hij
    | ask e next =>
      have hmarks : s.Marks (s.affect j e).2 := (Schedule.Marks.refl s).affect j e
      cases e with
      | pause seconds => exact hφ.stays hact id (((Schedule.Apart.refl j s).beginPause _ _ _).stays hij) _
      | _ =>
        refine hφ.stays hact ?_ (hmarks i) _
        exact Ne.symm hij

theorem Moment.phase_aid {task : S.Task} (hφ : In i ⟨.aid j task, s⟩ φ) :
    ∃ φ', (Moment.next ⟨.aid j task, s⟩).In i φ' ∧ φ.Step i ⟨.aid j task, s⟩ φ' := by
  by_cases hij : i = j
  · subst hij
    cases hφ with
    | ready hidle => exact absurd rfl hidle
    | called hidle => exact absurd rfl hidle
    | helped hstage hhelped htask =>
      refine ⟨_, ?_, .stay nofun⟩
      cases task with
      | done rest => exact Schedule.in_endAssistant hstage hhelped fun r hr => Option.mem_some.mp hr ▸ htask
      | ask e next =>
        have hmarks : s.Marks (s.affect i e).2 := (Schedule.Marks.refl s).affect i e
        obtain ⟨stage', hstage', heq⟩ := hmarks.stage? hstage
        cases e with
        | pause seconds =>
          exact Schedule.in_setAssistant (s := s.newAwait.2.after seconds _) hstage hhelped fun _ => htask.2 ()
        | _ => exact .helped hstage' (hhelped.congr heq) (htask.2 _)
    | waiting hidle => exact absurd rfl hidle
    | ended hidle => exact absurd rfl hidle
  · have hact : ¬ (Activity.aid j task).IsOf i := Ne.symm hij
    cases task with
    | done rest => exact hφ.stays hact id (((Schedule.Apart.refl j s).endAssistant _).stays hij) _
    | ask e next =>
      have hmarks : s.Marks (s.affect j e).2 := (Schedule.Marks.refl s).affect j e
      cases e with
      | pause seconds => exact hφ.stays hact id (((Schedule.Apart.refl j s).pauseAssistant _ _).stays hij) _
      | _ =>
        refine hφ.stays hact ?_ (hmarks i) _
        exact Ne.symm hij

theorem Moment.phase_next {m : Moment S} (hφ : m.In i φ) : ∃ φ', m.next.In i φ' ∧ φ.Step i m φ' := by
  obtain ⟨activity, s⟩ := m
  cases activity with
  | idle => exact hφ.stays id id rfl _
  | run j rest => exact phase_run hφ
  | task j task onFailure => exact phase_task hφ
  | aid j task => exact phase_aid hφ
  | beside j w =>
    cases w with
    | done u => exact hφ.stays id id rfl _
    | ask e next =>
      have hmarks : s.Marks (s.affect j e).2 := (Schedule.Marks.refl s).affect j e
      cases e with
      | pause seconds => exact hφ.stays id id rfl _
      | _ => exact hφ.stays id id (hmarks i) _

theorem Schedule.step_elsewhere (hij : i ≠ j) (interruption : Option String) :
    ¬ (s.step j interruption).activity.IsOf i := by
  unfold step
  split
  · exact id
  · dsimp only
    split <;> first | exact id | exact Ne.symm hij

theorem Schedule.assist_elsewhere (hij : i ≠ j) (withdraw : Bool) : ¬ (s.assist j withdraw).activity.IsOf i := by
  unfold assist
  split
  · exact id
  · exact id
  · split
    · exact id
    · split
      · unfold beginAssist
        split
        · exact Ne.symm hij
        · dsimp only
          split <;> exact id
      · exact Ne.symm hij
      · exact id
      · exact id

theorem Schedule.phase_take (hφ : Moment.In i ⟨.idle, s⟩ φ) (x : Signal S) :
    ∃ φ', (s.take x).In i φ' ∧ φ.Step i ⟨.idle, s⟩ φ' := by
  cases x with
  | step j interruption =>
    by_cases hij : i = j
    · subst hij
      exact phase_step hφ interruption
    · exact hφ.stays id (step_elsewhere hij interruption) (((Apart.refl j s).step _).stays hij) _
  | assist j withdraw =>
    by_cases hij : i = j
    · subst hij
      exact phase_assist hφ withdraw
    · exact hφ.stays id (assist_elsewhere hij withdraw) (((Apart.refl j s).assist _).stays hij) _
  | release j await => exact hφ.stays id id ((Marks.refl s).release j await i) _
  | settle j await => exact hφ.stays id id ((Marks.refl s).settle j await i) _
  | occur j w => exact hφ.stays id id rfl _
  | cancel n reason => exact hφ.stays id id ((Marks.refl s).cancelToken n reason i) _

theorem Schedule.stage?_launch {rest : S.Rest} {token : Option Nat} {stage : Stage S} (h : s.stage? i = some stage) :
    (s.launch rest token).2.stage? i = some stage := by
  obtain ⟨x, hx, rfl⟩ := exists_fiber h
  show ((s.fibers ++ [_])[i]?).map (·.stage) = some x.stage
  rw [List.getElem?_append_left (List.getElem?_eq_some_iff.mp hx).1, hx]
  rfl

theorem Moment.In.stage {m : Moment S} (h : m.In i φ) : ∃ stage, m.schedule.stage? i = some stage := by
  cases h with
  | ready _ h | going h | called _ h | working h | helped h | waiting _ h | ended _ h => exact ⟨_, h⟩

/-- **In every move** a run stays in its phase or goes on to the next one. -/
theorem Move.phase {m m' : Moment S} (h : Move m m') (hφ : m.In i φ) : ∃ φ', m'.In i φ' ∧ φ.Step i m φ' := by
  cases h with
  | next m => exact Moment.phase_next hφ
  | take s x => exact Schedule.phase_take hφ x
  | arrange s queue timers => exact hφ.stays id id (by rfl) _
  | wait s clock hlt => exact hφ.stays id id (by rfl) _
  | launch s rest token =>
    obtain ⟨stage, hstage⟩ := hφ.stage
    exact hφ.stays id id (by rw [Schedule.stage?_launch hstage, hstage]) _
  | newToken s timeout => exact hφ.stays id id (by rfl) _

/-- A run that is added has its whole program before it. -/
theorem Schedule.in_launch (s : Schedule S) (rest : S.Rest) (token : Option Nat) :
    Moment.In s.fibers.length ⟨.idle, (s.launch rest token).2⟩ (.ready rest) := by
  refine .ready id ?_
  show ((s.fibers ++ [_])[s.fibers.length]?).map (·.stage) = some (.ready rest)
  rw [List.getElem?_concat_length]
  rfl

/-- Whatever is true of the phases of a run when it is added, and stays so in every move, is true of them always. -/
theorem Moment.Goes.phase {m m' : Moment S} (h : m.Goes m') {J : Moment S → Phase S → Prop}
    (hstep : ∀ m m' φ φ', m.In i φ → Move m m' → m'.In i φ' → φ.Step i m φ' → J m φ → J m' φ')
    (hφ : m.In i φ) (hJ : J m φ) : ∃ φ', m'.In i φ' ∧ J m' φ' := by
  induction h with
  | refl => exact ⟨φ, hφ, hJ⟩
  | tail _ hmove ih =>
    obtain ⟨φ₁, hφ₁, hJ₁⟩ := ih
    obtain ⟨φ₂, hφ₂, hφstep⟩ := hmove.phase hφ₁
    exact ⟨φ₂, hφ₂, hstep _ _ _ _ hφ₁ hmove hφ₂ hφstep hJ₁⟩

/-- **What a run has done for it** is what it waits for: every effect in its name is one of its request. -/
theorem Moment.In.causes {m : Moment S} {e : Effect S.World} (h : m.In i φ) (hwork : m.activity.IsOf i)
    (he : m.activity.effect? = some e) :
    ∃ (q : Request S.Call) (next : q.Reply S.Answer → S.Rest), φ = .waiting q next ∧ S.Causes q e := by
  cases h with
  | ready hidle | called hidle | waiting hidle | ended hidle => exact absurd hwork hidle
  | going => cases he
  | @working _ q next task _ _ hserves =>
    cases task with
    | done rest => cases he
    | ask e' next' =>
      cases he
      exact ⟨q, next, rfl, hserves.1⟩
  | @helped _ q next task _ _ _ hserves =>
    cases task with
    | done rest => cases he
    | ask e' next' =>
      cases he
      exact ⟨q, next, rfl, hserves.1⟩

end Runbook
