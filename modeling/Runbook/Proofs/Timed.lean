import Runbook.Proofs.Lone
import Runbook.Rehearsal.TokenTrial

/-!
# Guarded work, on time

What becomes of a guard, by the time its work takes, the deadline and a cancellation. A run without a deadline does the work
itself; with one an assistant does it, and the run waits for the assistant or the limit, whichever comes first.

* `GuardedWork.doneAt`, `GuardedWork.endsAt`: when the work would be done, and when the guard ends.
* `GuardedWork.verdict`: what the guard comes to.
* `GuardedWork.IsExact`: times that the clock tells apart.
* `TokenTrial.guard_eq`: a guard looks at its token, has the work done, and looks at its token again.
* `TokenTrial.Comes`: a run ends with a result at a time.
* **`TokenTrial.comes_unbounded`, `TokenTrial.comes_bounded`**: a guard that finds its token alive comes to the verdict.
-/

namespace Runbook

/-! ## The program of a guard -/

namespace GuardedWork

/-- The time at which work that is begun at a time is done. -/
def doneAt (w : GuardedWork) (t : Binary64) : Binary64 := if w.seconds.isZero then t else t.add w.seconds

/-- What work comes to by itself. -/
def outcome (w : GuardedWork) : Except Failure Value :=
  match w.failure with
  | some f => .error f
  | none => .ok w.value

/-- The reason for which work has cancelled its token when it is done, if it has. -/
def ownReason? (w : GuardedWork) : Option String :=
  if w.failure.isNone && w.cancels then some TokenTrial.ownReason else none

/-- The end of a guard that begins at a time: that of its work, or the deadline if that is not later. -/
def endsAt (w : GuardedWork) (deadline : Option Binary64) (t : Binary64) : Binary64 :=
  (deadline.filter (·.le (w.doneAt t))).getD (w.doneAt t)

/-- What a guard makes of work that is done before the deadline, if the token is cancelled by then for the last of these
reasons. -/
def result (w : GuardedWork) (isBounded : Bool) (reason? : Option String) : Except Failure Value :=
  match w.failure with
  | some f => .error (if isBounded then Token.asDeadline f else f)
  | none => match reason? with
    | some reason => .error (.cancelled reason)
    | none => .ok w.value

/-- The reason for which a token is cancelled last by the time that its work is done. Work that takes no time and has no
deadline is done at once, before anything that is set for this time. -/
def reason? (w : GuardedWork) (isBounded : Bool) (plan : Option (Binary64 × String)) (t : Binary64) : Option String :=
  if w.seconds.isZero && !isBounded then w.ownReason?
  else w.ownReason?.or ((Schedule.byThen plan (w.doneAt t)).map Prod.snd)

/-- What a guard that begins at a time comes to, with a cancellation that is set for later. -/
def verdict (w : GuardedWork) (deadline : Option Binary64) (plan : Option (Binary64 × String)) (t : Binary64) :
    Except Failure Value :=
  if deadline.any (·.le (w.doneAt t)) then .error .deadlineExceeded
  else w.result deadline.isSome (w.reason? deadline.isSome plan t)

/-- Times are exact for a guard that begins at a time: the clock tells them apart, and what is left until the deadline leads
to it. -/
@[mk_iff]
structure IsExact (w : GuardedWork) (deadline : Option Binary64) (plan : Option (Binary64 × String)) (t : Binary64) : Prop where
  takes : w.seconds.isZero = false → t.lt (w.doneAt t)
  done : (w.doneAt t).IsSharp
  left : ∀ d ∈ deadline, d.le t = false → (Binary64.zero false).lt (d.sub t) ∧ t.add (d.sub t) = d
  limit : ∀ d ∈ deadline, d.IsSharp ∧ d.Told (w.doneAt t)
  cancellation : ∀ c ∈ plan, (c.1 = t ∨ t.Before c.1) ∧ c.1.IsSharp ∧ c.1.Told (w.doneAt t) ∧ ∀ d ∈ deadline, c.1.Told d

section Verdict

variable {w : GuardedWork} {deadline : Option Binary64} {plan : Option (Binary64 × String)} {t d : Binary64}

theorem doneAt_of_isZero (h : w.seconds.isZero) : w.doneAt t = t := if_pos h

theorem doneAt_of_not_isZero (h : w.seconds.isZero = false) : w.doneAt t = t.add w.seconds := by
  rw [doneAt, h]
  rfl

theorem reason?_at_once (h : w.seconds.isZero) : w.reason? false plan t = w.ownReason? := by
  rw [reason?, h]
  rfl

theorem reason?_eq {isBounded : Bool} (h : w.seconds.isZero = false ∨ isBounded) :
    w.reason? isBounded plan t = w.ownReason?.or ((Schedule.byThen plan (w.doneAt t)).map Prod.snd) := by
  obtain h | rfl := h
  · rw [reason?, h]
    rfl
  · rw [reason?, Bool.not_true, Bool.and_false]
    rfl

theorem result_failed {isBounded : Bool} {reason? : Option String} {f : Failure} (h : w.failure = some f) :
    w.result isBounded reason? = .error (if isBounded then Token.asDeadline f else f) := by
  rw [result.eq_def, h]

theorem result_cancelled {isBounded : Bool} {reason : String} (h : w.failure = none) :
    w.result isBounded (some reason) = .error (.cancelled reason) := by
  rw [result.eq_def, h]

theorem result_returned {isBounded : Bool} (h : w.failure = none) : w.result isBounded none = .ok w.value := by
  rw [result.eq_def, h]

theorem verdict_in_time (h : deadline.any (·.le (w.doneAt t)) = false) :
    w.verdict deadline plan t = w.result deadline.isSome (w.reason? deadline.isSome plan t) := by
  rw [verdict, h]
  rfl

theorem endsAt_in_time (h : deadline.any (·.le (w.doneAt t)) = false) : w.endsAt deadline t = w.doneAt t := by
  cases deadline with
  | none => rfl
  | some d =>
    have hnot : ¬ d.le (w.doneAt t) := Bool.eq_false_iff.mp h
    rw [endsAt, Option.filter, if_neg hnot]
    rfl

theorem verdict_late (h : d.le (w.doneAt t)) : w.verdict (some d) plan t = .error .deadlineExceeded := if_pos h

theorem endsAt_late (h : d.le (w.doneAt t)) : w.endsAt (some d) t = d := by
  rw [endsAt, Option.filter, if_pos h]
  rfl

end Verdict

instance (w : GuardedWork) (deadline : Option Binary64) (plan : Option (Binary64 × String)) (t : Binary64) :
    Decidable (w.IsExact deadline plan t) :=
  decidable_of_iff _ (isExact_iff w deadline plan t).symm

/-- What is left of work after its pause. -/
def rest (w : GuardedWork) : Work TokenTrial.setting.World (Except Failure Value) :=
  match w.failure with
  | some f => .done (.error f)
  | none => if w.cancels then .ask (.cancelOwn TokenTrial.ownReason) fun _ => .done (.ok w.value) else .done (.ok w.value)

end GuardedWork

namespace TokenTrial

open Schedule

/-- What a guard makes of the outcome of its call: it looks at the token once more. -/
def lookAgain (r : Except Failure Value) : setting.Rest :=
  match r with
  | .error f => .done (.error f)
  | .ok a => .ask .token fun v => .done (v.check.map fun _ => a)

/-- What is done for a guard is the work. -/
def workFor (w : GuardedWork) : Work setting.World (Except Failure Value) := setting.perform (workOf w)

theorem workFor_instant {w : GuardedWork} (h : w.seconds.isZero) : workFor w = .ask (.change fun _ => true) fun _ => w.rest := by
  obtain ⟨seconds, failure, cancels, value⟩ := w
  replace h : seconds.isZero = true := h
  unfold workFor Setting.perform setting Setting.ofJobs workOf
  cases failure <;> cases cancels <;> simp only [h] <;> rfl

theorem workFor_pause {w : GuardedWork} (h : w.seconds.isZero = false) :
    workFor w = .ask (.change fun _ => true) fun _ => .ask (.pause w.seconds) fun _ => w.rest := by
  obtain ⟨seconds, failure, cancels, value⟩ := w
  replace h : seconds.isZero = false := h
  unfold workFor Setting.perform setting Setting.ofJobs workOf
  cases failure <;> cases cancels <;> simp only [h] <;> rfl

/-- What a bounded guard does with the outcome of its work. -/
def withLimit (r : Except Failure Value) : setting.Rest := lookAgain (r.mapError Token.asDeadline)

/-- What a guard asks once it has found its token alive. -/
def askFor (w : GuardedWork) : Option Binary64 → setting.Rest
  | none => .ask (.call (workOf w) none) lookAgain
  | some left => .ask (.call (workOf w) (some left)) withLimit

/-- What a guard does with its token and the clock. -/
def onView (w : GuardedWork) (v : TokenView) : setting.Rest :=
  match v.check with
  | .error f => .done (.error f)
  | .ok () => askFor w v.remaining

theorem guard_eq (w : GuardedWork) : (routine (.guard w)).run = .ask .token (onView w) := by
  have hagain (a : Value) : (do
      Token.check
      return a : Attempt setting.Call setting.Answer Value).run = lookAgain (.ok a) := by
    refine congrArg (Program.ask Request.token) (funext fun v => ?_)
    show (ExceptT.run (liftM (TokenView.check v) >>= fun _ => pure a) : setting.Rest) = .done ((TokenView.check v).map fun _ => a)
    cases TokenView.check v <;> rfl
  refine congrArg (Program.ask Request.token) (funext fun v => ?_)
  show (ExceptT.run (liftM (TokenView.check v) >>= fun _ => _) : setting.Rest) = _
  unfold onView
  cases TokenView.check v with
  | error f => rfl
  | ok _ =>
    show (ExceptT.run (match TokenView.remaining v with
      | none => _
      | some left => _) : setting.Rest) = askFor w (TokenView.remaining v)
    cases TokenView.remaining v with
    | none =>
      refine congrArg (Program.ask (Request.call (workOf w) none)) (funext fun r => ?_)
      cases r with
      | error f => rfl
      | ok a => exact hagain a
    | some left =>
      refine congrArg (Program.ask (Request.call (workOf w) (some left))) (funext fun r => ?_)
      cases r with
      | error f => rfl
      | ok a => exact hagain a

/-! ## What the run of a guard does at once -/

section Run

variable {s : Schedule setting} {n : Nat} {stage : Stage setting} {w : GuardedWork} {reason? : Option String}
  {deadline : Option Binary64}

theorem work_rest {α : Type} (hover : s.isOver) (hstage : stage.IsDeaf) (k : Except Failure Value → α) :
    Schedule.work s.fibers.length (k <$> w.rest) (s.host n stage) =
      (.finished (k w.outcome), (s.mark n w.ownReason?).host n stage) := by
  obtain ⟨seconds, failure, cancels, value⟩ := w
  cases failure with
  | some f => cases cancels <;> rfl
  | none =>
    cases cancels with
    | false => rfl
    | true =>
      exact congrArg (Progress.finished (k (.ok value)), ·) (cancelOwn_host hover hstage ownReason)

theorem drive_lookAgain (htok : s.tokens[n]? = some ⟨reason?, deadline⟩) (hdeadline : deadline.any (·.le s.clock) = false) :
    drive s.fibers.length (lookAgain (w.outcome.mapError (if deadline.isSome then Token.asDeadline else id))) (s.host n .active) =
      s.host n (.ended (.ok (w.result deadline.isSome reason?))) := by
  obtain ⟨seconds, failure, cancels, value⟩ := w
  cases failure with
  | some f => cases deadline <;> exact finishRun_host _
  | none =>
    have hlook : drive s.fibers.length (lookAgain (.ok value)) (s.host n .active) =
        s.host n (.ended (.ok ((TokenView.check ⟨⟨reason?, deadline⟩, s.clock⟩).map fun _ => value))) := by
      show drive (S := setting) _ (.done (((s.host n .active).tokenView s.fibers.length).check.map fun _ => value)) _ = _
      rw [tokenView_host, htok]
      exact finishRun_host _
    have hcheck : (TokenView.check ⟨⟨reason?, deadline⟩, s.clock⟩).map (fun _ => value) =
        GuardedWork.result ⟨seconds, none, cancels, value⟩ deadline.isSome reason? := by
      cases reason? with
      | some reason => rfl
      | none =>
        show (if deadline.any (·.le s.clock) then _ else _ : Except Failure Unit).map (fun _ => value) = _
        rw [hdeadline]
        rfl
    rw [← hcheck, ← hlook]
    cases deadline <;> rfl

theorem drive_alone (htok : s.tokens[n]? = some ⟨reason?, none⟩) :
    drive s.fibers.length (lookAgain w.outcome) (s.host n .active) = s.host n (.ended (.ok (w.result false reason?))) := by
  have hlook := drive_lookAgain (w := w) htok rfl
  have hid : w.outcome.mapError id = w.outcome := by cases w.outcome <;> rfl
  rw [show (if (none : Option Binary64).isSome then Token.asDeadline else id) = id from rfl, hid] at hlook
  exact hlook

theorem driveTask_rest (onFailure : Failure → setting.Rest) (hover : s.isOver) (htok : s.tokens[n]? = some ⟨reason?, none⟩) :
    driveTask s.fibers.length (lookAgain <$> w.rest) onFailure (s.host n .active) =
      (s.mark n w.ownReason?).host n (.ended (.ok (w.result false (w.ownReason?.or reason?)))) := by
  have hdeaf : (Stage.active : Stage setting).IsDeaf := trivial
  rw [driveTask, work_rest hover hdeaf]
  exact drive_alone (s := s.mark n w.ownReason?) (tokens_mark htok w.ownReason?)

theorem assistTask_rest (a : Await) (assistant : Assistant setting) (onFailure : Failure → setting.Rest) (hover : s.isOver)
    (hdeaf : assistant.noticed = none) :
    assistTask (s.host n (.limited a assistant false onFailure)) s.fibers.length (withLimit <$> w.rest) =
      ((s.mark n w.ownReason?).signal (.release s.fibers.length a.id)).host n
        (.limited a (.ended (some (withLimit w.outcome))) false onFailure) := by
  have hstage : (Stage.limited a assistant false onFailure).IsDeaf := hdeaf
  rw [assistTask, work_rest hover hstage]
  exact endAssistant_limited (s := s.mark n w.ownReason?) _

/-! ## How it ends -/

/-- In so many turns the run has ended with a result, at once, and nothing is due then. -/
def EndsIn (turns : Nat) (s₀ s : Schedule setting) (n : Nat) (r : Except Failure Value) : Prop :=
  ∃ s₁ : Schedule setting, Turns turns s₀ (s₁.host n (.ended (.ok r))) ∧
    s₁.fibers = s.fibers ∧ s₁.clock = s.clock ∧ s₁.world = s.world ∧ s₁.queue = []

variable {a b : Await} {onFailure : Failure → setting.Rest}

/-- The pause of work that a run does itself is over. -/
theorem endsIn_alone (hover : s.isOver) (htok : s.tokens[n]? = some ⟨reason?, none⟩) (ha : a.settled = false)
    (hqueue : s.queue = [.settle s.fibers.length a.id]) :
    EndsIn 2 (s.host n (.pausing a (lookAgain <$> w.rest) onFailure)) s n (w.result false (w.ownReason?.or reason?)) := by
  have hdone := Turns.of_eq (driveTask_rest (s := { s with queue := [] }) (w := w) onFailure hover htok)
  exact ⟨_, .settle hqueue ha (.goOnAlone rfl hdone), rfl, rfl, rfl, rfl⟩

/-- The pause of work that an assistant does is over before the limit. -/
theorem endsIn_aided {d : Binary64} (hover : s.isOver) (htok : s.tokens[n]? = some ⟨reason?, some d⟩) (hd : d.le s.clock = false)
    (ha : a.settled = false) (hb : b.settled = false) (hqueue : s.queue = [.settle s.fibers.length b.id]) :
    EndsIn 4 (s.host n (.limited a (.pausing b (withLimit <$> w.rest)) false onFailure)) s n
      (w.result true (w.ownReason?.or reason?)) := by
  let s' : Schedule setting := { s with queue := [] }
  let s₁ : Schedule setting := (s'.mark n w.ownReason?).disarm s.fibers.length a.id
  have hdone := Turns.of_eq (drive_lookAgain (s := s₁) (w := w) (tokens_mark (s := s') htok w.ownReason?) hd)
  have hworked := assistTask_rest (s := s') (n := n) (w := w) a (.pausing { b with settled := true } (withLimit <$> w.rest))
    onFailure hover rfl
  exact ⟨s₁, .settleAid hqueue hb (.aid rfl (.since hworked (.release rfl ha (.finishAid rfl hdone)))),
    rfl, rfl, rfl, rfl⟩

/-- The failure with which a bounded guard answers that its work is not done in time. -/
theorem drive_expired (message : String) :
    drive s.fibers.length (withLimit (.error (.timedOut message))) (s.host n .active) =
      s.host n (.ended (.ok (.error .deadlineExceeded))) :=
  finishRun_host _

/-- The limit comes in the pause of work that an assistant does. -/
theorem endsIn_limited (ha : a.settled = false) (hb : b.settled = false) (hqueue : s.queue = [.release s.fibers.length a.id]) :
    EndsIn 5 (s.host n (.limited a (.pausing b (withLimit <$> w.rest)) false fun f => withLimit (.error f))) s n
      (.error .deadlineExceeded) := by
  let s' : Schedule setting := { s with queue := [] }
  let s₁ : Schedule setting := (s'.newAwait.2.disarm s.fibers.length b.id).disarm s.fibers.length a.id
  have hdone := Turns.of_eq (drive_expired (s := s₁) (n := n) "")
  exact ⟨s₁,
    .release hqueue ha (.reachLimit nofun rfl (.since (drain_paused (s := s') hb) (.withdraw nofun rfl rfl rfl hdone))),
    rfl, rfl, rfl, rfl⟩

/-- The limit comes at the end of the pause of work that an assistant does. -/
theorem endsIn_tied (ha : a.settled = false) (hb : b.settled = false)
    (hqueue : s.queue = [.release s.fibers.length a.id, .settle s.fibers.length b.id]) :
    EndsIn 6 (s.host n (.limited a (.pausing b (withLimit <$> w.rest)) false fun f => withLimit (.error f))) s n
      (.error .deadlineExceeded) := by
  let s' : Schedule setting := { s with queue := [.assist s.fibers.length false] }
  let s₁ : Schedule setting := { s'.newAwait.2 with queue := [] }.disarm s.fibers.length a.id
  have hdone := Turns.of_eq (drive_expired (s := s₁) (n := n) "")
  exact ⟨s₁,
    .release hqueue ha (.settleAid rfl hb (.reachLimit nofun rfl (.since (drain_settled (s := s') rfl)
      (.withdraw nofun rfl rfl rfl hdone)))),
    rfl, rfl, rfl, rfl⟩

/-! ## How it begins -/

theorem drive_guard {tok : Token} (htok : s.tokens[n]? = some tok) :
    drive s.fibers.length (routine (.guard w)).run (s.host n .active) =
      drive s.fibers.length (onView w ⟨tok, s.clock⟩) (s.host n .active) := by
  rw [guard_eq]
  show drive (S := setting) _ (onView w ((s.host n .active).tokenView s.fibers.length)) _ = _
  rw [tokenView_host, htok]
  rfl

/-- The schedule once work has begun. -/
def begun (s : Schedule setting) : Schedule setting := { s with world := true }

theorem work_instant {α : Type} (stage : Stage setting) (hzero : w.seconds.isZero) (hover : s.isOver) (hstage : stage.IsDeaf)
    (k : Except Failure Value → α) :
    Schedule.work s.fibers.length (k <$> workFor w) (s.host n stage) =
      (.finished (k w.outcome), ((begun s).mark n w.ownReason?).host n stage) := by
  rw [workFor_instant hzero]
  exact work_rest (s := begun s) hover hstage k

theorem work_pause {α : Type} (stage : Stage setting) (hzero : w.seconds.isZero = false) (k : Except Failure Value → α) :
    Schedule.work s.fibers.length (k <$> workFor w) (s.host n stage) =
      (.paused w.seconds (k <$> w.rest), (begun s).host n stage) := by
  rw [workFor_pause hzero]
  rfl

/-- Work that takes no time, done by a run itself. -/
theorem drive_instant (hzero : w.seconds.isZero) (hover : s.isOver) (htok : s.tokens[n]? = some ⟨none, none⟩) :
    drive s.fibers.length (askFor w none) (s.host n .active) =
      ((begun s).mark n w.ownReason?).host n (.ended (.ok (w.result false w.ownReason?))) := by
  have hwork := work_instant (n := n) .active hzero hover trivial id
  rw [id_map] at hwork
  have hdone := drive_alone (s := (begun s).mark n w.ownReason?) (w := w) (tokens_mark (s := begun s) htok w.ownReason?)
  rw [Option.or_none] at hdone
  exact (drive_finished hwork).trans hdone

/-- Work that takes time, begun by a run itself. -/
theorem drive_pause (hzero : w.seconds.isZero = false) :
    drive s.fibers.length (askFor w none) (s.host n .active) =
      ((begun s).newAwait.2.after w.seconds (.settle s.fibers.length s.awaits)).host n
        (.pausing s.newAwait.1 (lookAgain <$> w.rest) fun f => lookAgain (.error f)) := by
  have hwork := work_pause (s := s) (n := n) (w := w) .active hzero id
  rw [id_map, id_map] at hwork
  exact (drive_paused hwork).trans (beginPause_host (s := begun s) _ _ _)

/-- Work that is given to an assistant, with a limit. -/
theorem drive_bounded {left : Binary64} (hleft : left.le (Binary64.zero false) = false) :
    drive s.fibers.length (askFor w (some left)) (s.host n .active) =
      ((s.newAwait.2.after left (.release s.fibers.length s.awaits)).signal (.assist s.fibers.length false)).host n
        (.limited s.newAwait.1 (.called (.work (withLimit <$> workFor w))) false fun f => withLimit (.error f)) :=
  beginErrand_host hleft _ _

/-- Work that takes no time, done by an assistant. -/
theorem assistTask_instant (a : Await) (assistant : Assistant setting) (onFailure : Failure → setting.Rest)
    (hzero : w.seconds.isZero) (hover : s.isOver) (hdeaf : assistant.noticed = none) :
    assistTask (s.host n (.limited a assistant false onFailure)) s.fibers.length (withLimit <$> workFor w) =
      (((begun s).mark n w.ownReason?).signal (.release s.fibers.length a.id)).host n
        (.limited a (.ended (some (withLimit w.outcome))) false onFailure) := by
  have hstage : (Stage.limited a assistant false onFailure).IsDeaf := hdeaf
  rw [assistTask, work_instant _ hzero hover hstage]
  exact endAssistant_limited (s := (begun s).mark n w.ownReason?) _

/-- Work that takes time, begun by an assistant. -/
theorem assistTask_pause (a : Await) (assistant : Assistant setting) (onFailure : Failure → setting.Rest)
    (hzero : w.seconds.isZero = false) :
    assistTask (s.host n (.limited a assistant false onFailure)) s.fibers.length (withLimit <$> workFor w) =
      ((begun s).newAwait.2.after w.seconds (.settle s.fibers.length s.awaits)).host n
        (.limited a (.pausing s.newAwait.1 (withLimit <$> w.rest)) false onFailure) := by
  rw [assistTask, work_pause _ hzero]
  exact setAssistant_limited (s := (begun s).newAwait.2.after w.seconds (.settle s.fibers.length s.awaits)) _

/-! ## How it goes -/

/-- A run comes to a result at a time, with its work begun or not. All that may be due then is a cancellation of its token. -/
def Comes (s₀ s : Schedule setting) (n : Nat) (isBegun : Begun) (r : Except Failure Value) (t : Binary64) : Prop :=
  ∃ s₁ : Schedule setting, Reaches 12 s₀ (s₁.host n (.ended (.ok r))) ∧
    s₁.fibers = s.fibers ∧ s₁.clock = t ∧ s₁.world = isBegun ∧
      ∃ now : Option String, s₁.queue = now.toList.map (Signal.cancel n)

theorem Comes.of_endsIn {j k : Nat} {s₀ s' s₁ : Schedule setting} {r : Except Failure Value} {t : Binary64}
    (h : Reaches j s₀ s') (hends : EndsIn k s' s₁ n r) (hjk : j + k ≤ 12) (hfibers : s₁.fibers = s.fibers)
    (hclock : s₁.clock = t) (hworld : s₁.world = true) : Comes s₀ s n true r t := by
  obtain ⟨s₂, hturns, hf, hc, hw, hqueue⟩ := hends
  exact ⟨s₂, (h.trans hturns.reaches).mono hjk, hf.trans hfibers, hc.trans hclock, hw.trans hworld, none, hqueue⟩

variable {plan : Option (Binary64 × String)} {now : Option String}

theorem onView_alive {v : TokenView} (h : v.check = .ok ()) : onView w v = askFor w v.remaining := by
  rw [onView, h]

/-- A guard that finds its token cancelled, or past its deadline. -/
theorem comes_dead {tok : Token} {f : Failure} (hqueue : s.queue = .step s.fibers.length none :: now.toList.map (Signal.cancel n))
    (htok : s.tokens[n]? = some tok) (hdead : TokenView.check ⟨tok, s.clock⟩ = .error f) :
    Comes (s.host n (.ready (routine (.guard w)).run)) s n s.world (.error f) s.clock := by
  let s₁ : Schedule setting := { s with queue := now.toList.map (Signal.cancel n) }
  have hdone : drive s.fibers.length (routine (.guard w)).run (s₁.host n .active) = s₁.host n (.ended (.ok (.error f))) := by
    refine (drive_guard (s := s₁) htok).trans ?_
    rw [onView, show TokenView.check ⟨tok, s₁.clock⟩ = .error f from hdead]
    exact finishRun_host _
  exact ⟨s₁, (Turns.begin hqueue (.of_eq hdone)).reaches.mono (by decide), rfl, rfl, rfl, now, rfl⟩

/-- Work that takes no time, without a deadline. -/
theorem comes_at_once (hzero : w.seconds.isZero) (hover : s.isOver)
    (hqueue : s.queue = .step s.fibers.length none :: now.toList.map (Signal.cancel n))
    (htok : s.tokens[n]? = some ⟨none, none⟩) :
    Comes (s.host n (.ready (routine (.guard w)).run)) s n true (w.result false w.ownReason?) s.clock := by
  let s₁ : Schedule setting := { s with queue := now.toList.map (Signal.cancel n) }
  have hdone : drive s.fibers.length (routine (.guard w)).run (s₁.host n .active) =
      ((begun s₁).mark n w.ownReason?).host n (.ended (.ok (w.result false w.ownReason?))) :=
    (drive_guard (s := s₁) htok).trans (drive_instant (s := s₁) hzero hover htok)
  exact ⟨(begun s₁).mark n w.ownReason?, (Turns.begin hqueue (.of_eq hdone)).reaches.mono (by decide), rfl, rfl, rfl, now, rfl⟩

/-- Of planned cancellations, those that come by a time are at this time or at a time of their own. -/
theorem planned_byThen {t x : Binary64} (hplan : ∀ c ∈ plan, t.lt c.1 ∧ c.1.IsSharp)
    (h : ∀ c ∈ byThen plan x, c.1 = x ∨ c.1.Before x) :
    ∀ c ∈ byThen plan x, c.1 = x ∨ t.lt c.1 ∧ c.1.IsSharp ∧ c.1.Before x := by
  intro c hc
  obtain hx | hx := h c hc
  · exact .inl hx
  · obtain ⟨hlt, hsharp⟩ := hplan c (Option.mem_filter_iff.mp hc).1
    exact .inr ⟨hlt, hsharp, hx⟩

/-- Work that takes time, without a deadline. -/
theorem comes_alone {f : Binary64} (hzero : w.seconds.isZero = false) (hover : s.isOver)
    (hqueue : s.queue = .step s.fibers.length none :: now.toList.map (Signal.cancel n))
    (htimers : s.timers = plan.toList.map (planned n)) (htok : s.tokens[n]? = some ⟨none, none⟩)
    (hf : s.clock.add w.seconds = f) (hlt : s.clock.lt f) (hsharp : f.IsSharp)
    (hplan : ∀ c ∈ plan, s.clock.lt c.1 ∧ c.1.IsSharp) (htold : ∀ c ∈ plan, c.1.Told f) :
    Comes (s.host n (.ready (routine (.guard w)).run)) s n true
      (w.result false (w.ownReason?.or (((byThen plan f).map Prod.snd).or now))) f := by
  let s₁ : Schedule setting := { s with queue := now.toList.map (Signal.cancel n) }
  let s₂ : Schedule setting := (begun s₁).newAwait.2.after w.seconds (.settle s.fibers.length s.awaits)
  let s₃ : Schedule setting := { s₂ with queue := [] }.mark n now
  let waiting : Stage setting := .pausing ⟨s.awaits, false⟩ (lookAgain <$> w.rest) fun f => lookAgain (.error f)
  have hbegin : drive s.fibers.length (routine (.guard w)).run (s₁.host n .active) = s₂.host n waiting :=
    (drive_guard (s := s₁) htok).trans (drive_pause (s := s₁) hzero)
  have hmark : Reaches 1 (s₂.host n waiting) (s₃.host n waiting) :=
    reaches_mark hover nofun trivial (List.append_nil _).symm
  obtain ⟨later, htimers', hbefore, hlater⟩ := timers_one (n := n) (a := .settle s.fibers.length s.awaits) hsharp htold
  have htimers₃ : s₃.timers = (byThen plan f).toList.map (planned n) ++ ([⟨f, .settle s.fibers.length s.awaits⟩] ++ later) := by
    rw [← htimers', ← htimers, ← hf]
    rfl
  have hwait : Reaches 3 (s₃.host n waiting) _ := turns_wait (m := n) hover nofun trivial rfl htimers₃
    (List.forall_mem_singleton.mpr rfl) hlater hlt hsharp (planned_byThen hplan hbefore)
  have htok₃ : s₃.tokens[n]? = some ⟨now, none⟩ := by
    rw [tokens_mark (s := { s₂ with queue := [] }) htok now, Option.or_none]
  exact .of_endsIn ((Turns.begin hqueue (.of_eq hbegin)).reaches.trans (hmark.trans hwait))
    (endsIn_alone hover (tokens_mark (s := s₃) htok₃ _) rfl rfl) (by decide) rfl rfl rfl

/-- The schedule once a run with a deadline has called its assistant. -/
def called (s : Schedule setting) (d : Binary64) : Schedule setting :=
  { s.newAwait.2 with
    queue := [.assist s.fibers.length false]
    timers := insertTimer ⟨d, .release s.fibers.length s.awaits⟩ s.timers }

/-- A deadline that is still to come, with what is left until then. -/
structure IsAhead (d t : Binary64) : Prop where
  late : d.le t = false
  left : (Binary64.zero false).lt (d.sub t)
  exact : t.add (d.sub t) = d

theorem check_alive {d : Binary64} (hd : d.le s.clock = false) : TokenView.check ⟨⟨none, some d⟩, s.clock⟩ = .ok () := by
  show (if d.le s.clock then _ else _) = _
  rw [hd]
  rfl

/-- A run with a deadline calls its assistant. -/
theorem reaches_called {d : Binary64} (hover : s.isOver)
    (hqueue : s.queue = .step s.fibers.length none :: now.toList.map (Signal.cancel n))
    (htok : s.tokens[n]? = some ⟨none, some d⟩) (hd : IsAhead d s.clock) :
    Reaches 2 (s.host n (.ready (routine (.guard w)).run))
      (((called s d).mark n now).host n
        (.limited ⟨s.awaits, false⟩ (.called (.work (withLimit <$> workFor w))) false fun f => withLimit (.error f))) := by
  let s₁ : Schedule setting := { s with queue := now.toList.map (Signal.cancel n) }
  let s₂ : Schedule setting :=
    (s₁.newAwait.2.after (d.sub s.clock) (.release s.fibers.length s.awaits)).signal (.assist s.fibers.length false)
  let waiting : Stage setting :=
    .limited ⟨s.awaits, false⟩ (.called (.work (withLimit <$> workFor w))) false fun f => withLimit (.error f)
  have hremaining : TokenView.remaining ⟨⟨none, some d⟩, s.clock⟩ = some (d.sub s.clock) :=
    congrArg some (Binary64.max_of_lt hd.left)
  have hbegin : drive s.fibers.length (routine (.guard w)).run (s₁.host n .active) = s₂.host n waiting := by
    refine (drive_guard (s := s₁) htok).trans ?_
    rw [onView_alive (check_alive hd.late), hremaining]
    exact drive_bounded (s := s₁) (Binary64.not_le_of_lt hd.left)
  have hmark : Reaches 1 (s₂.host n waiting) (({ s₂ with queue := [.assist s.fibers.length false] }.mark n now).host n waiting) :=
    reaches_mark hover nofun rfl rfl
  have hcalled : { s₂ with queue := [.assist s.fibers.length false] } = called s d := by
    show ({ s₂ with
      queue := [.assist s.fibers.length false]
      timers := insertTimer ⟨s.clock.add (d.sub s.clock), _⟩ s.timers } : Schedule setting) = _
    rw [hd.exact]
    rfl
  rw [hcalled] at hmark
  exact (Turns.begin hqueue (.of_eq hbegin)).reaches.trans hmark

/-- Work that takes no time, with a deadline. -/
theorem comes_aided_at_once {d : Binary64} (hzero : w.seconds.isZero) (hover : s.isOver)
    (hqueue : s.queue = .step s.fibers.length none :: now.toList.map (Signal.cancel n))
    (htok : s.tokens[n]? = some ⟨none, some d⟩) (hd : IsAhead d s.clock) :
    Comes (s.host n (.ready (routine (.guard w)).run)) s n true (w.result true (w.ownReason?.or now)) s.clock := by
  let s₁ : Schedule setting := (begun { (called s d).mark n now with queue := [] }).mark n w.ownReason?
  let s₂ : Schedule setting := s₁.disarm s.fibers.length s.awaits
  have htok₁ : s₁.tokens[n]? = some ⟨w.ownReason?.or now, some d⟩ := by
    have hnow := tokens_mark (s := called s d) htok now
    rw [Option.or_none] at hnow
    exact tokens_mark (s := begun { (called s d).mark n now with queue := [] }) hnow w.ownReason?
  have hdone := Turns.of_eq (drive_lookAgain (s := s₂) (w := w) htok₁ hd.late)
  have haided := Turns.of_eq (assistTask_instant (s := { (called s d).mark n now with queue := [] }) (n := n) (w := w)
    ⟨s.awaits, false⟩ (.called (.work (withLimit <$> workFor w))) (fun f => withLimit (.error f)) hzero hover rfl)
  have hends := haided.trans (Turns.release rfl rfl (.finishAid rfl hdone))
  exact ⟨s₂, ((reaches_called hover hqueue htok hd).trans (Turns.beginAid rfl hends).reaches).mono (by decide),
    rfl, rfl, rfl, none, rfl⟩

/-- The schedule once an assistant has begun work that takes time. -/
def aided (s : Schedule setting) (n : Nat) (w : GuardedWork) (d : Binary64) (now : Option String) : Schedule setting :=
  (begun { (called s d).mark n now with queue := [] }).newAwait.2.after w.seconds (.settle s.fibers.length (s.awaits + 1))

/-- Where a run is while its assistant is in the pause of its work. -/
def aidedStage (awaits : Nat) (w : GuardedWork) : Stage setting :=
  .limited ⟨awaits, false⟩ (.pausing ⟨awaits + 1, false⟩ (withLimit <$> w.rest)) false fun f => withLimit (.error f)

theorem reaches_aided {d : Binary64} (hzero : w.seconds.isZero = false) (hover : s.isOver)
    (hqueue : s.queue = .step s.fibers.length none :: now.toList.map (Signal.cancel n))
    (htok : s.tokens[n]? = some ⟨none, some d⟩) (hd : IsAhead d s.clock) :
    Reaches 3 (s.host n (.ready (routine (.guard w)).run)) ((aided s n w d now).host n (aidedStage s.awaits w)) := by
  have haided := Turns.of_eq (assistTask_pause (s := { (called s d).mark n now with queue := [] }) (n := n) (w := w)
    ⟨s.awaits, false⟩ (.called (.work (withLimit <$> workFor w))) (fun f => withLimit (.error f)) hzero)
  exact (reaches_called hover hqueue htok hd).trans (Turns.beginAid rfl haided).reaches

theorem tokens_aided {d : Binary64} (htok : s.tokens[n]? = some ⟨none, some d⟩) :
    (aided s n w d now).tokens[n]? = some ⟨now, some d⟩ := by
  have hnow := tokens_mark (s := called s d) htok now
  rwa [Option.or_none] at hnow

theorem timers_aided (d : Binary64) : (aided s n w d now).timers =
    insertTimer ⟨s.clock.add w.seconds, .settle s.fibers.length (s.awaits + 1)⟩
      (insertTimer ⟨d, .release s.fibers.length s.awaits⟩ s.timers) := rfl

section Timed

variable {d f : Binary64} (hzero : w.seconds.isZero = false) (hover : s.isOver)
  (hqueue : s.queue = .step s.fibers.length none :: now.toList.map (Signal.cancel n))
  (htimers : s.timers = plan.toList.map (planned n)) (htok : s.tokens[n]? = some ⟨none, some d⟩) (hd : IsAhead d s.clock)
  (hf : s.clock.add w.seconds = f) (hplan : ∀ c ∈ plan, s.clock.lt c.1 ∧ c.1.IsSharp)

include hzero hover hqueue htimers htok hd hf hplan

/-- Work that is done before the deadline. -/
theorem comes_in_time (hlt : s.clock.lt f) (hsharp : f.IsSharp) (htold : ∀ c ∈ plan, c.1.Told f) (hfd : f.Before d) :
    Comes (s.host n (.ready (routine (.guard w)).run)) s n true
      (w.result true (w.ownReason?.or (((byThen plan f).map Prod.snd).or now))) f := by
  obtain ⟨later, hinsert, hbefore, hlater⟩ := timers_second (n := n) (a := .release s.fibers.length s.awaits)
    (b := .settle s.fibers.length (s.awaits + 1)) hsharp htold hfd
  have haided : (aided s n w d now).timers = _ := timers_aided d
  rw [htimers, hf, hinsert] at haided
  have hwait : Reaches 3 ((aided s n w d now).host n (aidedStage s.awaits w)) _ := turns_wait (m := n) hover nofun rfl rfl haided
    (List.forall_mem_singleton.mpr rfl) hlater hlt hsharp (planned_byThen hplan hbefore)
  exact .of_endsIn ((reaches_aided hzero hover hqueue htok hd).trans hwait)
    (endsIn_aided hover (tokens_mark (tokens_aided htok) _) (Binary64.not_le_of_lt hfd.1) rfl rfl rfl) (by decide) rfl rfl rfl

/-- Work that is done at the deadline. -/
theorem comes_tied (hlt : s.clock.lt d) (hsharp : d.IsSharp) (htold : ∀ c ∈ plan, c.1.Told d) (hfd : f = d) :
    Comes (s.host n (.ready (routine (.guard w)).run)) s n true (.error .deadlineExceeded) d := by
  obtain ⟨later, hinsert, hbefore, hlater⟩ := timers_both (n := n) (a := .release s.fibers.length s.awaits)
    (b := .settle s.fibers.length (s.awaits + 1)) hsharp htold
  have haided : (aided s n w d now).timers = _ := timers_aided d
  rw [htimers, hf, hfd, hinsert] at haided
  have hwait : Reaches 3 ((aided s n w d now).host n (aidedStage s.awaits w)) _ := turns_wait (m := n) hover nofun rfl rfl haided
    (List.forall_mem_cons.mpr ⟨rfl, List.forall_mem_singleton.mpr rfl⟩) hlater hlt hsharp (planned_byThen hplan hbefore)
  exact .of_endsIn ((reaches_aided hzero hover hqueue htok hd).trans hwait) (endsIn_tied rfl rfl rfl) (by decide) rfl rfl rfl

/-- Work that is not done by the deadline. -/
theorem comes_late (hlt : s.clock.lt d) (hsharp : d.IsSharp) (htold : ∀ c ∈ plan, c.1.Told d) (hdf : d.Before f) :
    Comes (s.host n (.ready (routine (.guard w)).run)) s n true (.error .deadlineExceeded) d := by
  obtain ⟨later, hinsert, hbefore, hlater⟩ := timers_first (n := n) (a := .release s.fibers.length s.awaits)
    (b := .settle s.fibers.length (s.awaits + 1)) hsharp htold hdf
  have haided : (aided s n w d now).timers = _ := timers_aided d
  rw [htimers, hf, hinsert] at haided
  have hwait : Reaches 3 ((aided s n w d now).host n (aidedStage s.awaits w)) _ := turns_wait (m := n) hover nofun rfl rfl haided
    (List.forall_mem_singleton.mpr rfl) hlater hlt hsharp (planned_byThen hplan hbefore)
  exact .of_endsIn ((reaches_aided hzero hover hqueue htok hd).trans hwait) (endsIn_limited rfl rfl rfl) (by decide) rfl rfl rfl

end Timed

/-- Of a planned cancellation, what is due when a guard begins and what is set for later. -/
def IsSplit (plan now rest : Option (Binary64 × String)) (t : Binary64) : Prop :=
  (∃ c ∈ plan, c.1.lt (t.add resolution)) ∧ now = plan ∧ rest = none ∨
    (∀ c ∈ plan, c.1.lt (t.add resolution) = false) ∧ now = none ∧ rest = plan

theorem le_doneAt {t : Binary64} (hexact : w.IsExact deadline plan t) : t.le (w.doneAt t) := by
  cases hzero : w.seconds.isZero with
  | true =>
    have hdone : w.doneAt t = t := if_pos hzero
    rw [hdone]
    exact Binary64.IsSharp.le_self (hdone ▸ hexact.done)
  | false => exact Binary64.le_of_lt (hexact.takes hzero)

section Split

variable {due later : Option (Binary64 × String)} {t : Binary64}

theorem IsSplit.isLater (h : IsSplit plan due later t) (hexact : w.IsExact deadline plan t) :
    ∀ c ∈ later, t.lt c.1 ∧ c.1.IsSharp ∧ c.1.Told (w.doneAt t) ∧ ∀ d ∈ deadline, c.1.Told d := by
  intro c hc
  obtain ⟨-, -, rfl⟩ | ⟨hlater, -, rfl⟩ := h
  · cases hc
  · obtain ⟨rfl | hbefore, hsharp, htold⟩ := hexact.cancellation c hc
    · exact absurd hsharp (Bool.eq_false_iff.mp (hlater c hc))
    · exact ⟨hbefore.1, hsharp, htold⟩

theorem IsSplit.byThen_eq (h : IsSplit plan due later t) (hexact : w.IsExact deadline plan t) :
    ((byThen later (w.doneAt t)).map Prod.snd).or (due.map Prod.snd) = (byThen plan (w.doneAt t)).map Prod.snd := by
  obtain ⟨⟨c, hc, hdue⟩, rfl, rfl⟩ | ⟨-, rfl, rfl⟩ := h
  · obtain ⟨hct | hbefore, -⟩ := hexact.cancellation c hc
    · have hle : c.1.le (w.doneAt t) := by
        rw [hct]
        exact le_doneAt hexact
      have hby : byThen due (w.doneAt t) = due := by
        rw [Option.mem_def.mp hc, byThen, Option.filter, if_pos hle]
      rw [hby]
      rfl
    · exact absurd hdue (Bool.eq_false_iff.mp hbefore.2)
  · exact Option.or_none

/-- What a guard without a deadline comes to that finds its token alive. -/
theorem comes_unbounded (hover : s.isOver)
    (hqueue : s.queue = .step s.fibers.length none :: (due.map Prod.snd).toList.map (Signal.cancel n))
    (htimers : s.timers = later.toList.map (planned n)) (htok : s.tokens[n]? = some ⟨none, none⟩)
    (hexact : w.IsExact none plan s.clock) (hsplit : IsSplit plan due later s.clock) :
    Comes (s.host n (.ready (routine (.guard w)).run)) s n true (w.verdict none plan s.clock) (w.endsAt none s.clock) := by
  rw [GuardedWork.verdict_in_time rfl, GuardedWork.endsAt_in_time rfl]
  cases hzero : w.seconds.isZero with
  | true =>
    have hcomes := comes_at_once hzero hover hqueue htok
    have hreason : w.reason? false plan s.clock = w.ownReason? := GuardedWork.reason?_at_once hzero
    have hdone : w.doneAt s.clock = s.clock := GuardedWork.doneAt_of_isZero hzero
    rw [← hreason] at hcomes
    rw [hdone]
    exact hcomes
  | false =>
    have hlater := hsplit.isLater hexact
    have hcomes := comes_alone hzero hover hqueue htimers htok (GuardedWork.doneAt_of_not_isZero hzero).symm
      (hexact.takes hzero) hexact.done (fun c hc => ⟨(hlater c hc).1, (hlater c hc).2.1⟩) fun c hc => (hlater c hc).2.2.1
    rwa [hsplit.byThen_eq hexact, ← GuardedWork.reason?_eq (.inl hzero)] at hcomes

/-- What a guard with a deadline comes to that finds its token alive. -/
theorem comes_bounded {d : Binary64} (hover : s.isOver)
    (hqueue : s.queue = .step s.fibers.length none :: (due.map Prod.snd).toList.map (Signal.cancel n))
    (htimers : s.timers = later.toList.map (planned n)) (htok : s.tokens[n]? = some ⟨none, some d⟩)
    (hahead : d.le s.clock = false) (hexact : w.IsExact (some d) plan s.clock) (hsplit : IsSplit plan due later s.clock) :
    Comes (s.host n (.ready (routine (.guard w)).run)) s n true (w.verdict (some d) plan s.clock)
      (w.endsAt (some d) s.clock) := by
  have hd : IsAhead d s.clock := ⟨hahead, (hexact.left d rfl hahead).1, (hexact.left d rfl hahead).2⟩
  obtain ⟨hdsharp, hdtold⟩ := hexact.limit d rfl
  have hlater := hsplit.isLater hexact
  have hset : ∀ c ∈ later, s.clock.lt c.1 ∧ c.1.IsSharp := fun c hc => ⟨(hlater c hc).1, (hlater c hc).2.1⟩
  have htold : ∀ c ∈ later, c.1.Told (w.doneAt s.clock) := fun c hc => (hlater c hc).2.2.1
  have htold' : ∀ c ∈ later, c.1.Told d := fun c hc => (hlater c hc).2.2.2 d rfl
  cases hzero : w.seconds.isZero with
  | true =>
    have hdone : w.doneAt s.clock = s.clock := GuardedWork.doneAt_of_isZero hzero
    have hintime : (some d).any (·.le (w.doneAt s.clock)) = false := hdone.symm ▸ hahead
    have hnone : byThen later s.clock = none := by
      refine Option.filter_eq_none_iff.mpr fun c hc => ?_
      rw [Binary64.not_le_of_lt (hset c hc).1]
      exact Bool.false_ne_true
    have hreason := hsplit.byThen_eq hexact
    have hcomes := comes_aided_at_once hzero hover hqueue htok hd
    have hboth : w.reason? true plan s.clock = _ := GuardedWork.reason?_eq (.inr rfl)
    rw [hdone, hnone] at hreason
    rw [hdone, ← hreason] at hboth
    rw [GuardedWork.verdict_in_time hintime, GuardedWork.endsAt_in_time hintime, hdone]
    exact hboth ▸ hcomes
  | false =>
    have hf : s.clock.add w.seconds = w.doneAt s.clock := (GuardedWork.doneAt_of_not_isZero hzero).symm
    have hlt := hexact.takes hzero
    obtain hdf | hdf | hfd := hdtold
    · have hle : d.le (w.doneAt s.clock) := hdf ▸ hdsharp.le_self
      rw [GuardedWork.verdict_late hle, GuardedWork.endsAt_late hle]
      exact comes_tied hzero hover hqueue htimers htok hd hf hset (hdf ▸ hlt) hdsharp htold' hdf.symm
    · have hle : d.le (w.doneAt s.clock) := Binary64.le_of_lt hdf.1
      have hltd : s.clock.lt d :=
        Binary64.lt_of_not_le (Binary64.lt_iff_rank.mp hlt).1 (Binary64.lt_iff_rank.mp hdsharp).1 hahead
      rw [GuardedWork.verdict_late hle, GuardedWork.endsAt_late hle]
      exact comes_late hzero hover hqueue htimers htok hd hf hset hltd hdsharp htold' hdf
    · have hintime : (some d).any (·.le (w.doneAt s.clock)) = false := Binary64.not_le_of_lt hfd.1
      have hcomes := comes_in_time hzero hover hqueue htimers htok hd hf hset hlt hexact.done htold hfd
      rw [hsplit.byThen_eq hexact, ← GuardedWork.reason?_eq (.inl hzero)] at hcomes
      rw [GuardedWork.verdict_in_time hintime, GuardedWork.endsAt_in_time hintime]
      exact hcomes

end Split

end Run

end TokenTrial

end Runbook
