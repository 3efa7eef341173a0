import Runbook.Proofs.Frame

/-!
# What runs see of the world

All that runs can tell apart of two worlds may be less than what the worlds are. A sight makes of a world what is seen of it. If
all work of a schedule does the same with a world and with what is seen of it, the schedule goes on in the same way in either,
whatever its runs wait for, and ends with what is seen of the world in which it ends otherwise.

* `Sight`: what is seen of a world, and the worlds in which it is enough.
* `Work.Blind`, `Routine.Safe`: work and routines to which it is enough.
* `Schedule.Seen`: a schedule and what is seen of it.
* **`Schedule.Seen.finish`**: what is seen of a schedule that is finished.
-/

namespace Runbook

/-- What is seen of a world, and the worlds in which it is enough. -/
structure Sight (World : Type) where
  see : World → World
  Sound : World → Prop

section Work

variable {World α β : Type} (v : Sight World)

/-- Work to which it is enough what is seen of the world, and which comes to such results. -/
def Work.Blind (P : α → Prop) : Work World α → Prop
  | .done a => P a
  | .ask (.change f) next => ∀ w, v.Sound w →
    v.Sound (f w) ∧ f (v.see w) = v.see (f w) ∧ next (v.see w) = next w ∧ Work.Blind P (next w)
  | .ask _ next => ∀ r, Work.Blind P (next r)

/-- A routine whose calls are all answered by work to which it is enough what is seen of the world, and which comes to such
results. -/
def Routine.Safe {Call : Type} {Answer : Call → Type} (perform : (c : Call) → Work World (Except Failure (Answer c)))
    (P : α → Prop) : Routine Call Answer α → Prop
  | .done a => P a
  | .ask (.call c _) next => (perform c).Blind v (fun r => Routine.Safe perform P (next r)) ∧
    ∀ f, Routine.Safe perform P (next (.error f))
  | .ask _ next => ∀ r, Routine.Safe perform P (next r)

variable {v} {P Q : α → Prop} {R : β → Prop}

theorem Work.Blind.mono {w : Work World α} (hw : w.Blind v P) (h : ∀ a, P a → Q a) : w.Blind v Q := by
  induction w with
  | done a => exact h a hw
  | ask e next ih =>
    cases e with
    | change g =>
      intro w hsound
      obtain ⟨hg, hsee, hnext, hblind⟩ := hw w hsound
      exact ⟨hg, hsee, hnext, ih w hblind⟩
    | _ => exact fun r => ih r (hw r)

theorem Work.Blind.map {w : Work World α} {f : α → β} (hw : w.Blind v fun a => R (f a)) : (f <$> w).Blind v R := by
  induction w with
  | done a => exact hw
  | ask e next ih =>
    cases e with
    | change g =>
      intro w hsound
      obtain ⟨hg, hsee, hnext, hblind⟩ := hw w hsound
      exact ⟨hg, hsee, congrArg (f <$> ·) hnext, ih w hblind⟩
    | _ => exact fun r => ih r (hw r)

section Routines

variable {Call : Type} {Answer : Call → Type} {perform : (c : Call) → Work World (Except Failure (Answer c))}

theorem Routine.Safe.bind {p : Routine Call Answer α} {f : α → Routine Call Answer β} (hp : p.Safe v perform P)
    (hf : ∀ a, P a → (f a).Safe v perform R) : Routine.Safe v perform R (p >>= f) := by
  induction p with
  | done a => exact hf a hp
  | ask q next ih =>
    cases q with
    | call c limit => exact ⟨hp.1.mono fun r hr => ih r hr, fun f => ih (.error f) (hp.2 f)⟩
    | _ => exact fun r => ih r (hp r)

theorem Routine.Safe.mono {p : Routine Call Answer α} (hp : p.Safe v perform P) (h : ∀ a, P a → Q a) : p.Safe v perform Q := by
  induction p with
  | done a => exact h a hp
  | ask q next ih =>
    cases q with
    | call c limit => exact ⟨hp.1.mono fun r hr => ih r hr, fun f => ih (.error f) (hp.2 f)⟩
    | _ => exact fun r => ih r (hp r)

end Routines

end Work

/-! ## What is kept for runs -/

section Kept

variable {S : Setting} (v : Sight S.World)

/-- The rest of a run, to which it is enough what is seen of the world. -/
def Setting.Safe (rest : S.Rest) : Prop := Routine.Safe v S.perform (fun _ => True) rest

/-- Work that ends with such a rest. -/
def Setting.IsBlind (task : S.Task) : Prop := task.Blind v (S.Safe v)

def Errand.Safe : Errand S → Prop
  | .work task => S.IsBlind v task
  | .watch cancelled => S.Safe v cancelled

def Assistant.Safe : Assistant S → Prop
  | .called errand => errand.Safe v
  | .pausing _ task => S.IsBlind v task
  | .watching _ cancelled => S.Safe v cancelled
  | .ended rest? => ∀ rest ∈ rest?, S.Safe v rest

def Stage.Safe : Stage S → Prop
  | .ready rest => S.Safe v rest
  | .pausing _ task onFailure => S.IsBlind v task ∧ ∀ f, S.Safe v (onFailure f)
  | .limited _ assistant _ onFailure | .draining _ assistant _ _ _ onFailure =>
    assistant.Safe v ∧ ∀ f, S.Safe v (onFailure f)
  | .active | .ended _ => True

def Signal.Safe : Signal S → Prop
  | .occur _ work => work.Blind v fun _ => True
  | _ => True

def Activity.Safe : Activity S → Prop
  | .idle => True
  | .run _ rest => S.Safe v rest
  | .task _ w onFailure => S.IsBlind v w ∧ ∀ f, S.Safe v (onFailure f)
  | .aid _ w => S.IsBlind v w
  | .beside _ w => w.Blind v fun _ => True

/-- A schedule, all of whose runs have enough in what is seen of the world, and what is seen of the schedule. -/
structure Schedule.Seen (s s' : Schedule S) : Prop where
  eq : s' = { s with world := v.see s.world }
  world : v.Sound s.world
  fibers : ∀ x ∈ s.fibers, x.stage.Safe v
  queue : ∀ x ∈ s.queue, x.Safe v
  timers : ∀ t ∈ s.timers, t.signal.Safe v

/-- A moment and what is seen of it. -/
structure Moment.Seen (m m' : Moment S) : Prop where
  activity : m'.activity = m.activity
  safe : m.activity.Safe v
  schedule : m.schedule.Seen v m'.schedule

end Kept

namespace Schedule.Seen

variable {S : Setting} {v : Sight S.World} {s s' : Schedule S} {i n : Nat} {α : Type}

theorem stage? (h : s.Seen v s') (i : Nat) : s'.stage? i = s.stage? i := by
  rw [h.eq]
  rfl

theorem safe (h : s.Seen v s') {stage : Stage S} (hi : s.stage? i = some stage) : stage.Safe v := by
  obtain ⟨x, hx, rfl⟩ := Option.map_eq_some_iff.mp hi
  exact h.fibers x (List.mem_of_getElem? hx)

theorem tokenOf? (h : s.Seen v s') (i : Nat) : s'.tokenOf? i = s.tokenOf? i := by
  rw [h.eq]
  rfl

theorem tokenView (h : s.Seen v s') (i : Nat) : s'.tokenView i = s.tokenView i := by
  rw [h.eq]
  rfl

theorem running (h : s.Seen v s') : s'.running = s.running := by
  rw [h.eq]

/-! ## Queue, timers and runs -/

theorem signal (h : s.Seen v s') {x : Signal S} (hx : x.Safe v) : (s.signal x).Seen v (s'.signal x) := by
  obtain ⟨rfl, hworld, hfibers, hqueue, htimers⟩ := h
  exact ⟨rfl, hworld, hfibers, List.forall_mem_append.mpr ⟨hqueue, List.forall_mem_singleton.mpr hx⟩, htimers⟩

theorem after (h : s.Seen v s') (seconds : Binary64) {x : Signal S} (hx : x.Safe v) :
    (s.after seconds x).Seen v (s'.after seconds x) := by
  obtain ⟨rfl, hworld, hfibers, hqueue, htimers⟩ := h
  refine ⟨rfl, hworld, hfibers, hqueue, fun t ht => ?_⟩
  obtain rfl | ht := List.mem_cons.mp ((insertTimer_perm _ _).mem_iff.mp ht)
  · exact hx
  · exact htimers t ht

theorem disarm (h : s.Seen v s') (i await : Nat) : (s.disarm i await).Seen v (s'.disarm i await) := by
  obtain ⟨rfl, hworld, hfibers, hqueue, htimers⟩ := h
  exact ⟨rfl, hworld, hfibers, hqueue, fun t ht => htimers t ((List.mem_filter.mp ht).1)⟩

theorem newAwait (h : s.Seen v s') : s'.newAwait.1 = s.newAwait.1 ∧ s.newAwait.2.Seen v s'.newAwait.2 := by
  obtain ⟨rfl, hworld, hfibers, hqueue, htimers⟩ := h
  exact ⟨rfl, rfl, hworld, hfibers, hqueue, htimers⟩

theorem modifyFiber (h : s.Seen v s') (i : Nat) {f : Fiber S → Fiber S} (hf : ∀ x, x.stage.Safe v → (f x).stage.Safe v) :
    (s.modifyFiber i f).Seen v (s'.modifyFiber i f) := by
  obtain ⟨rfl, hworld, hfibers, hqueue, htimers⟩ := h
  refine ⟨rfl, hworld, fun x hx => ?_, hqueue, htimers⟩
  obtain ⟨j, hj⟩ := List.getElem?_of_mem hx
  rw [show (s.modifyFiber i f).fibers = s.fibers.modify i f from rfl, List.getElem?_modify] at hj
  obtain ⟨y, hy, rfl⟩ := Option.map_eq_some_iff.mp hj
  have hsafe := hfibers y (List.mem_of_getElem? hy)
  split
  · exact hf y hsafe
  · exact hsafe

theorem setStage (h : s.Seen v s') (i : Nat) {stage : Stage S} (hstage : stage.Safe v) :
    (s.setStage i stage).Seen v (s'.setStage i stage) :=
  h.modifyFiber i fun _ _ => hstage

theorem setEnded (h : s.Seen v s') (i : Nat) (result : Except String S.Result) :
    (s.setStage i (.ended result)).Seen v (s'.setStage i (.ended result)) :=
  h.setStage i trivial

theorem newToken (h : s.Seen v s') (timeout : Option Binary64) :
    (s'.newToken timeout).1 = (s.newToken timeout).1 ∧ (s.newToken timeout).2.Seen v (s'.newToken timeout).2 := by
  obtain ⟨rfl, hworld, hfibers, hqueue, htimers⟩ := h
  exact ⟨rfl, rfl, hworld, hfibers, hqueue, htimers⟩

theorem openToken (h : s.Seen v s') (i : Nat) (timeout : Option Binary64) :
    (s.openToken i timeout).Seen v (s'.openToken i timeout) := by
  unfold Schedule.openToken
  rw [h.tokenOf? i]
  split
  · exact h
  · obtain ⟨hn, hseen⟩ := h.newToken timeout
    dsimp only
    rw [hn]
    exact hseen.modifyFiber i fun _ hx => hx

theorem enlist (h : s.Seen v s') (i : Nat) (execution workflow tenant : String) :
    (s.enlist i execution workflow tenant).Seen v (s'.enlist i execution workflow tenant) := by
  unfold Schedule.enlist
  rw [h.tokenOf? i]
  split
  · obtain ⟨rfl, hworld, hfibers, hqueue, htimers⟩ := h
    exact ⟨rfl, hworld, hfibers, hqueue, htimers⟩
  · exact h

theorem delist (h : s.Seen v s') (execution : String) : (s.delist execution).Seen v (s'.delist execution) := by
  obtain ⟨rfl, hworld, hfibers, hqueue, htimers⟩ := h
  exact ⟨rfl, hworld, hfibers, hqueue, htimers⟩

theorem launch (h : s.Seen v s') {rest : S.Rest} (hrest : S.Safe v rest) (token : Option Nat) :
    (s'.launch rest token).1 = (s.launch rest token).1 ∧ (s.launch rest token).2.Seen v (s'.launch rest token).2 := by
  obtain ⟨rfl, hworld, hfibers, hqueue, htimers⟩ := h
  have hfibers' := List.forall_mem_append.mpr ⟨hfibers, List.forall_mem_singleton.mpr
    (show Stage.Safe v (Fiber.stage ⟨.ready rest, token, none⟩) from hrest)⟩
  exact ⟨rfl, rfl, hworld, hfibers', List.forall_mem_append.mpr ⟨hqueue, List.forall_mem_singleton.mpr trivial⟩, htimers⟩

/-! ## Cancellations and interruptions -/

theorem notice (h : s.Seen v s') (i : Nat) : (s.notice i).Seen v (s'.notice i) := by
  have hnoticed {assistant assistant' : Assistant S} (hsafe : assistant.Safe v) (hn : assistant.noticed = some assistant') :
      assistant'.Safe v := by
    unfold Assistant.noticed at hn
    split at hn
    · split at hn <;> cases hn
      exact hsafe
    · cases hn
  unfold Schedule.notice
  rw [h.stage? i]
  split
  · next a _ withdrawn onFailure hstage =>
    obtain ⟨hassistant, honFailure⟩ := h.safe hstage
    split
    · next assistant hn =>
      have hsafe : Stage.Safe v (.limited a assistant withdrawn onFailure) := ⟨hnoticed hassistant hn, honFailure⟩
      exact (h.setStage i hsafe).signal trivial
    · exact h
  · next a _ withdrawn limit cause onFailure hstage =>
    obtain ⟨hassistant, honFailure⟩ := h.safe hstage
    split
    · next assistant hn =>
      have hsafe : Stage.Safe v (.draining a assistant withdrawn limit cause onFailure) :=
        ⟨hnoticed hassistant hn, honFailure⟩
      exact (h.setStage i hsafe).signal trivial
    · exact h
  · exact h

theorem cancelToken (h : s.Seen v s') (n : Nat) (reason : String) :
    (s.cancelToken n reason).Seen v (s'.cancelToken n reason) := by
  have hall (is : List Nat) {s s' : Schedule S} (h : s.Seen v s') :
      (is.foldl Schedule.notice s).Seen v (is.foldl Schedule.notice s') := by
    induction is generalizing s s' with
    | nil => exact h
    | cons i is ih => exact ih (h.notice i)
  obtain ⟨rfl, hworld, hfibers, hqueue, htimers⟩ := h
  exact hall _ ⟨rfl, hworld, hfibers, hqueue, htimers⟩

theorem cancelExecution (h : s.Seen v s') (execution reason : String) :
    (s'.cancelExecution execution reason).1 = (s.cancelExecution execution reason).1 ∧
      (s.cancelExecution execution reason).2.Seen v (s'.cancelExecution execution reason).2 := by
  unfold Schedule.cancelExecution
  rw [h.running]
  split
  · exact ⟨rfl, h.cancelToken _ reason⟩
  · exact ⟨rfl, h⟩

theorem interrupt (h : s.Seen v s') (i : Nat) (message : String) : (s.interrupt i message).Seen v (s'.interrupt i message) := by
  have hlater : (s.modifyFiber i fun f => { f with interruption := some message }).Seen v
      (s'.modifyFiber i fun f => { f with interruption := some message }) := h.modifyFiber i fun _ hx => hx
  have hnow {stage : Stage S} (hstage : stage.Safe v) : ((s.setStage i stage).signal (.step i (some message))).Seen v
      ((s'.setStage i stage).signal (.step i (some message))) := (h.setStage i hstage).signal trivial
  unfold Schedule.interrupt
  dsimp only
  rw [h.stage? i]
  split
  · next hstage =>
    have hsafe := h.safe hstage
    split
    · exact hlater
    · refine (hnow ?_).disarm i _
      exact hsafe
  · next hstage =>
    have hsafe := h.safe hstage
    split
    · exact hlater
    · refine hnow ?_
      exact hsafe
  · next hstage =>
    have hsafe := h.safe hstage
    split
    · exact hlater
    · refine hnow ?_
      exact hsafe
  · exact h
  · exact h
  · exact hlater
  · exact hlater

/-! ## Work -/

/-- **Work goes on** in the same way with what is seen of the world. -/
theorem work (h : s.Seen v s') (i : Nat) {P : α → Prop} {w : Work S.World α} (hw : w.Blind v P) :
    ∃ progress s₁ s₁', Schedule.work i w s = (progress, s₁) ∧ Schedule.work i w s' = (progress, s₁') ∧ s₁.Seen v s₁' ∧
      match progress with
      | .finished a => P a
      | .paused _ rest => rest.Blind v P := by
  induction w generalizing s s' with
  | done a => exact ⟨_, _, _, rfl, rfl, h, hw⟩
  | ask e next ih =>
    cases e with
    | change f =>
      obtain ⟨hsound, hsee, hnext, hblind⟩ := hw s.world h.world
      have hworld : s'.world = v.see s.world := by rw [h.eq]
      have hchanged : Seen v { s with world := f s.world } { s' with world := f s'.world } := by
        obtain ⟨rfl, hworld, hfibers, hqueue, htimers⟩ := h
        exact ⟨congrArg (fun w => { s with world := w }) hsee, hsound, hfibers, hqueue, htimers⟩
      have hgo := ih s.world hchanged hblind
      simp only [Schedule.work]
      rw [hworld] at hgo ⊢
      rw [hnext]
      exact hgo
    | clock =>
      have hclock : s'.clock = s.clock := by rw [h.eq]
      simp only [Schedule.work]
      rw [hclock]
      exact ih s.clock h (hw s.clock)
    | pause seconds => exact ⟨_, _, _, rfl, rfl, h, hw ()⟩
    | running =>
      have hlist : s'.runningList = s.runningList := by
        rw [h.eq]
        rfl
      simp only [Schedule.work]
      rw [hlist]
      exact ih s.runningList h (hw _)
    | cancel execution reason =>
      obtain ⟨hfound, hseen⟩ := h.cancelExecution execution reason
      simp only [Schedule.work]
      rw [hfound]
      exact ih _ hseen (hw _)
    | cancelOwn reason =>
      simp only [Schedule.work]
      rw [h.tokenOf? i]
      cases s.tokenOf? i with
      | none => exact ih () h (hw ())
      | some n => exact ih () (h.cancelToken n reason) (hw ())
    | interrupt message => exact ih () (h.interrupt i message) (hw ())

/-! ## Runs go on -/

theorem interruption (h : s.Seen v s') (i : Nat) :
    (s'.fibers[i]?.bind fun x => x.interruption) = s.fibers[i]?.bind fun x => x.interruption := by
  rw [h.eq]

theorem suspend (h : s.Seen v s') (i : Nat) {stage : Stage S} (hstage : stage.Safe v) :
    (s.suspend i stage).Seen v (s'.suspend i stage) := by
  have hset := h.setStage i hstage
  unfold Schedule.suspend
  dsimp only
  rw [hset.interruption i]
  split
  · refine Seen.interrupt (hset.modifyFiber i ?_) i _
    exact fun _ hx => hx
  · exact hset

theorem finishRun (h : s.Seen v s') (i : Nat) (result : S.Result) : (s.finishRun i result).Seen v (s'.finishRun i result) := by
  unfold Schedule.finishRun
  rw [h.interruption i]
  split
  · exact h.modifyFiber i fun _ _ => trivial
  · exact h.setEnded i _

theorem beginPause (h : s.Seen v s') (i : Nat) (seconds : Binary64) {task : S.Task} {onFailure : Failure → S.Rest}
    (htask : S.IsBlind v task) (honFailure : ∀ f, S.Safe v (onFailure f)) :
    (s.beginPause i seconds task onFailure).Seen v (s'.beginPause i seconds task onFailure) := by
  obtain ⟨hawait, hseen⟩ := h.newAwait
  unfold Schedule.beginPause
  dsimp only
  rw [hawait]
  refine (hseen.after seconds ?_).suspend i ?_
  · exact trivial
  · exact ⟨htask, honFailure⟩

theorem beginErrand (h : s.Seen v s') (i : Nat) (limit : Binary64) {errand : Errand S} {onFailure : Failure → S.Rest}
    (herrand : errand.Safe v) (honFailure : ∀ f, S.Safe v (onFailure f)) :
    (s.beginErrand i limit errand onFailure).Seen v (s'.beginErrand i limit errand onFailure) := by
  obtain ⟨hawait, hseen⟩ := h.newAwait
  unfold Schedule.beginErrand
  dsimp only
  rw [hawait]
  split
  · refine (hseen.signal ?_).suspend i ?_
    · exact trivial
    · exact ⟨herrand, honFailure⟩
  · refine ((hseen.after limit ?_).signal ?_).suspend i ?_
    · exact trivial
    · exact trivial
    · exact ⟨herrand, honFailure⟩

/-- **A run goes on** in the same way with what is seen of the world. -/
theorem drive (h : s.Seen v s') (i : Nat) {rest : S.Rest} (hrest : S.Safe v rest) :
    (Schedule.drive i rest s).Seen v (Schedule.drive i rest s') := by
  induction rest generalizing s s' with
  | done result => exact h.finishRun i result
  | ask q next ih =>
    cases q with
    | now =>
      have hclock : s'.clock = s.clock := by rw [h.eq]
      simp only [Schedule.drive]
      rw [hclock]
      exact ih s.clock h (hrest s.clock)
    | token =>
      simp only [Schedule.drive]
      rw [h.tokenView i]
      exact ih _ h (hrest _)
    | openToken timeout => exact ih () (h.openToken i timeout) (hrest ())
    | enlist execution workflow tenant => exact ih () (h.enlist i execution workflow tenant) (hrest ())
    | delist execution => exact ih () (h.delist execution) (hrest ())
    | awaitCancel limit =>
      refine h.beginErrand i limit (hrest (.ok true)) fun f => ?_
      cases f with
      | timedOut => exact hrest (.ok false)
      | _ => exact hrest (.error _)
    | call c limit =>
      obtain ⟨hperform, hfailure⟩ := hrest
      cases limit with
      | some limit => exact h.beginErrand i limit hperform.map hfailure
      | none =>
        obtain ⟨progress, s₁, s₁', hs, hs', hseen, hafter⟩ := h.work (α := Except Failure (S.Answer c)) i hperform
        cases progress with
        | finished answer =>
          rw [drive_finished hs, drive_finished hs']
          exact ih answer hseen hafter
        | paused seconds rest =>
          rw [drive_paused hs, drive_paused hs']
          exact hseen.beginPause i seconds (Work.Blind.map hafter) hfailure

theorem driveTask (h : s.Seen v s') (i : Nat) {task : S.Task} {onFailure : Failure → S.Rest} (htask : S.IsBlind v task)
    (honFailure : ∀ f, S.Safe v (onFailure f)) :
    (Schedule.driveTask i task onFailure s).Seen v (Schedule.driveTask i task onFailure s') := by
  obtain ⟨progress, s₁, s₁', hs, hs', hseen, hafter⟩ := h.work i htask
  unfold Schedule.driveTask
  rw [hs, hs']
  cases progress with
  | finished rest => exact hseen.drive i hafter
  | paused seconds rest => exact hseen.beginPause i seconds hafter honFailure

/-! ## Assistants go on -/

theorem setAssistant (h : s.Seen v s') (i : Nat) {assistant : Assistant S} (hassistant : assistant.Safe v) :
    (s.setAssistant i assistant).Seen v (s'.setAssistant i assistant) := by
  refine h.modifyFiber i fun x hx => ?_
  generalize x.stage = stage at hx
  cases stage with
  | limited | draining => exact ⟨hassistant, hx.2⟩
  | _ => exact hx

theorem endAssistant (h : s.Seen v s') (i : Nat) {rest? : Option S.Rest} (hrest : ∀ rest ∈ rest?, S.Safe v rest) :
    (s.endAssistant i rest?).Seen v (s'.endAssistant i rest?) := by
  have hset : (s.setAssistant i (.ended rest?)).Seen v (s'.setAssistant i (.ended rest?)) := h.setAssistant i hrest
  have hawait : (s'.setAssistant i (.ended rest?)).awaitOf? i = (s.setAssistant i (.ended rest?)).awaitOf? i := by
    unfold Schedule.awaitOf?
    rw [hset.stage? i]
  unfold Schedule.endAssistant
  dsimp only
  rw [hawait]
  split
  · exact hset.signal trivial
  · exact hset

theorem assistTask (h : s.Seen v s') (i : Nat) {task : S.Task} (htask : S.IsBlind v task) :
    (s.assistTask i task).Seen v (s'.assistTask i task) := by
  obtain ⟨progress, s₁, s₁', hs, hs', hseen, hafter⟩ := h.work i htask
  unfold Schedule.assistTask
  rw [hs, hs']
  cases progress with
  | finished rest => exact hseen.endAssistant i fun _ h => Option.some.inj h ▸ hafter
  | paused seconds rest =>
    obtain ⟨hawait, hseen⟩ := hseen.newAwait
    dsimp only
    rw [hawait]
    refine (hseen.after seconds ?_).setAssistant i ?_
    · exact trivial
    · exact hafter

theorem assistantOf? (h : s.Seen v s') (i : Nat) : s'.assistantOf? i = s.assistantOf? i := by
  unfold Schedule.assistantOf?
  rw [h.stage? i]

theorem safe_assistant (h : s.Seen v s') {i : Nat} {assistant : Assistant S} {withdrawn : Bool}
    (hi : s.assistantOf? i = some (assistant, withdrawn)) : assistant.Safe v := by
  unfold Schedule.assistantOf? at hi
  split at hi
  · next hstage =>
    cases hi
    exact (h.safe hstage).1
  · next hstage =>
    cases hi
    exact (h.safe hstage).1
  · cases hi

/-- A moment in which nothing is being done. -/
theorem idle (h : s.Seen v s') : Moment.Seen v ⟨.idle, s⟩ ⟨.idle, s'⟩ := ⟨rfl, trivial, h⟩

theorem beginAssist (h : s.Seen v s') (i : Nat) {errand : Errand S} (herrand : errand.Safe v) :
    Moment.Seen v (s.beginAssist i errand) (s'.beginAssist i errand) := by
  cases errand with
  | work task => exact ⟨rfl, herrand, h⟩
  | watch cancelled =>
    dsimp only [Schedule.beginAssist]
    rw [h.tokenView i]
    split
    · exact (h.endAssistant i fun _ h => Option.some.inj h ▸ herrand).idle
    · obtain ⟨hawait, hseen⟩ := h.newAwait
      rw [hawait]
      refine (hseen.setAssistant i ?_).idle
      exact herrand

theorem assist (h : s.Seen v s') (i : Nat) (withdraw : Bool) : Moment.Seen v (s.assist i withdraw) (s'.assist i withdraw) := by
  unfold Schedule.assist
  rw [h.assistantOf? i]
  split
  · exact h.idle
  · exact h.idle
  · next assistant withdrawn _ hassistant =>
    have hsafe := h.safe_assistant hassistant
    split
    · have hnone : ∀ rest ∈ (none : Option S.Rest), S.Safe v rest := nofun
      exact (h.endAssistant i hnone).idle
    · cases assistant with
      | called errand => exact h.beginAssist i hsafe
      | pausing a task => exact ⟨rfl, hsafe, h⟩
      | watching a cancelled => exact (h.endAssistant i fun _ h => Option.some.inj h ▸ hsafe).idle
      | ended rest? => exact h.idle

theorem drain (h : s.Seen v s') (i : Nat) {assistant : Assistant S} (hassistant : assistant.Safe v) (limit : Nat)
    (cause : Failure) {onFailure : Failure → S.Rest} (honFailure : ∀ f, S.Safe v (onFailure f)) :
    (s.drain i assistant limit cause onFailure).Seen v (s'.drain i assistant limit cause onFailure) := by
  obtain ⟨hawait, hseen⟩ := h.newAwait
  have hstage (assistant : Assistant S) (hassistant : assistant.Safe v) (withdrawn : Bool) :
      Stage.Safe v (.draining s.newAwait.1 assistant withdrawn limit cause onFailure) := ⟨hassistant, honFailure⟩
  have htold (w : Await) : ((s.newAwait.2.disarm i w.id).signal (.assist i true)).Seen v
      ((s'.newAwait.2.disarm i w.id).signal (.assist i true)) := (hseen.disarm i w.id).signal trivial
  unfold Schedule.drain
  dsimp only
  rw [hawait]
  cases assistant with
  | called errand => exact hseen.suspend i (hstage _ hassistant true)
  | ended rest? => exact hseen.suspend i (hstage _ hassistant true)
  | pausing w task =>
    dsimp only
    split
    · exact hseen.suspend i (hstage (.pausing _ _) hassistant true)
    · exact (htold w).suspend i (hstage (.pausing _ _) hassistant false)
  | watching w cancelled =>
    dsimp only
    split
    · exact hseen.suspend i (hstage (.watching _ _) hassistant true)
    · exact (htold w).suspend i (hstage (.watching _ _) hassistant false)

/-! ## Signals -/

theorem step (h : s.Seen v s') (i : Nat) (interruption : Option String) :
    Moment.Seen v (s.step i interruption) (s'.step i interruption) := by
  have hfiber : s'.fibers[i]? = s.fibers[i]? := by rw [h.eq]
  unfold Schedule.step
  rw [hfiber]
  cases hi : s.fibers[i]? with
  | none => exact h.idle
  | some x =>
    have hsafe := h.fibers x (List.mem_of_getElem? hi)
    have hactive : (s.modifyFiber i fun f => { f with stage := .active, interruption := none }).Seen v
        (s'.modifyFiber i fun f => { f with stage := .active, interruption := none }) := h.modifyFiber i fun _ _ => trivial
    dsimp only
    generalize x.stage = stage at hsafe
    cases stage with
    | ready rest =>
      cases interruption.or x.interruption with
      | none => exact ⟨rfl, hsafe, hactive⟩
      | some message => exact (hactive.setEnded i _).idle
    | active => exact hactive.idle
    | ended result => exact (hactive.setEnded i _).idle
    | pausing a task onFailure =>
      cases interruption.or x.interruption with
      | none => exact ⟨rfl, hsafe, hactive⟩
      | some message => exact ⟨rfl, hsafe.2 _, hactive⟩
    | limited a assistant withdrawn onFailure =>
      obtain ⟨hassistant, honFailure⟩ := hsafe
      have hdrain (cause : Failure) := (hactive.drain i hassistant a.id cause honFailure).idle
      cases assistant with
      | ended rest? =>
        cases rest? with
        | none => cases interruption.or x.interruption <;> exact hdrain _
        | some rest => cases interruption.or x.interruption <;> exact ⟨rfl, hassistant rest rfl, hactive.disarm i a.id⟩
      | _ => cases interruption.or x.interruption <;> exact hdrain _
    | draining a assistant withdrawn limit cause onFailure =>
      obtain ⟨hassistant, honFailure⟩ := hsafe
      have hgone := hactive.disarm i limit
      cases interruption.or x.interruption with
      | some message => exact ⟨rfl, honFailure _, hgone⟩
      | none =>
        cases assistant with
        | ended rest? =>
          cases rest? with
          | none => exact ⟨rfl, honFailure cause, hgone⟩
          | some rest =>
            cases cause with
            | timedOut message => exact ⟨rfl, hassistant rest rfl, hgone⟩
            | _ => exact ⟨rfl, honFailure _, hgone⟩
        | _ => exact ⟨rfl, honFailure cause, hgone⟩

theorem release (h : s.Seen v s') (i await : Nat) : (s.release i await).Seen v (s'.release i await) := by
  have hgo {stage : Stage S} (hstage : stage.Safe v) : ((s.setStage i stage).signal (.step i none)).Seen v
      ((s'.setStage i stage).signal (.step i none)) := (h.setStage i hstage).signal trivial
  unfold Schedule.release
  dsimp only
  rw [h.stage? i]
  split
  · next hstage =>
    have hsafe := h.safe hstage
    split
    · refine hgo ?_
      exact hsafe
    · exact h
  · next hstage =>
    have hsafe := h.safe hstage
    split
    · refine hgo ?_
      exact hsafe
    · exact h
  · exact h

theorem settle (h : s.Seen v s') (i await : Nat) : (s.settle i await).Seen v (s'.settle i await) := by
  unfold Schedule.settle
  dsimp only
  rw [h.stage? i, h.assistantOf? i]
  split
  · next a task onFailure hstage =>
    have hsafe := h.safe hstage
    have hset : Stage.Safe v (.pausing { a with settled := true } task onFailure) := hsafe
    split
    · exact Seen.signal (x := .step i none) (h.setStage i hset) trivial
    · exact h
  · split
    · next a task withdrawn hassistant =>
      have hsafe := h.safe_assistant hassistant
      have hset : Assistant.Safe v (.pausing { a with settled := true } task) := hsafe
      split
      · exact Seen.signal (x := .assist i false) (h.setAssistant i hset) trivial
      · exact h
    · exact h

theorem take (h : s.Seen v s') {x : Signal S} (hx : x.Safe v) : Moment.Seen v (s.take x) (s'.take x) := by
  cases x with
  | step i interruption => exact h.step i interruption
  | assist i withdraw => exact h.assist i withdraw
  | release i await => exact (h.release i await).idle
  | settle i await => exact (h.settle i await).idle
  | occur i work => exact ⟨rfl, hx, h⟩
  | cancel n reason => exact (h.cancelToken n reason).idle

end Schedule.Seen

theorem Moment.Seen.carryOut {S : Setting} {v : Sight S.World} {m m' : Moment S} (h : m.Seen v m') :
    m.carryOut.Seen v m'.carryOut := by
  obtain ⟨activity, s⟩ := m
  obtain ⟨activity', s'⟩ := m'
  obtain ⟨hactivity, hsafe, hseen⟩ := h
  obtain rfl : activity' = activity := hactivity
  cases activity' with
  | idle => exact hseen
  | run i rest => exact hseen.drive i hsafe
  | task i task onFailure => exact hseen.driveTask i hsafe.1 hsafe.2
  | aid i task => exact hseen.assistTask i hsafe
  | beside i work =>
    obtain ⟨progress, s₁, s₁', hs, hs', hseen, -⟩ := hseen.work i hsafe
    show (Schedule.work i work s).2.Seen v (Schedule.work i work s').2
    rw [hs, hs']
    exact hseen

/-! ## Schedules go on -/

namespace Schedule.Seen

variable {S : Setting} {v : Sight S.World} {s s' : Schedule S}

theorem handle (h : s.Seen v s') {x : Signal S} (hx : x.Safe v) : (s.handle x).Seen v (s'.handle x) := (h.take hx).carryOut

theorem ring (h : s.Seen v s') : s.ring.Seen v s'.ring := by
  obtain ⟨rfl, hworld, hfibers, hqueue, htimers⟩ := h
  refine ⟨rfl, hworld, hfibers, List.forall_mem_append.mpr ⟨hqueue, fun x hx => ?_⟩,
    fun t ht => htimers t ((List.dropWhile_sublist _).mem ht)⟩
  obtain ⟨t, ht, rfl⟩ := List.mem_map.mp hx
  exact htimers t ((List.takeWhile_sublist _).mem ht)

/-- What is due first is taken. -/
theorem takeFirst (h : s.Seen v s') {x : Signal S} {rest : List (Signal S)} (hqueue : s.queue = x :: rest) :
    s'.queue = x :: rest ∧ ({ s with queue := rest }.handle x).Seen v ({ s' with queue := rest }.handle x) := by
  have hsafe := h.queue
  rw [hqueue] at hsafe
  obtain ⟨hx, hrest⟩ := List.forall_mem_cons.mp hsafe
  obtain ⟨rfl, hworld, hfibers, -, htimers⟩ := h
  have hseen : Seen v { s with queue := rest } { s with world := v.see s.world, queue := rest } :=
    ⟨rfl, hworld, hfibers, hrest, htimers⟩
  exact ⟨hqueue, hseen.handle hx⟩

/-- **A turn** is the same with what is seen of the world. -/
theorem turn (h : s.Seen v s') : s.turn? = none ∧ s'.turn? = none ∨
    ∃ s₁ s₁', s.turn? = some s₁ ∧ s'.turn? = some s₁' ∧ s₁.Seen v s₁' := by
  cases hqueue : s.queue with
  | cons x rest =>
    obtain ⟨hqueue', hseen⟩ := h.takeFirst hqueue
    refine .inr ⟨_, _, ?_, ?_, hseen⟩
    · rw [turn?, hqueue]
    · rw [turn?, hqueue']
  | nil =>
    have hqueue' : s'.queue = [] := by rw [h.eq, hqueue]
    have hwait (clock : Binary64) : Seen v { s with clock := s.clock.max clock } { s' with clock := s'.clock.max clock } := by
      obtain ⟨rfl, hworld, hfibers, hqueue, htimers⟩ := h
      exact ⟨rfl, hworld, hfibers, hqueue, htimers⟩
    have htimers : s'.timers = s.timers := by rw [h.eq]
    rw [turn?, turn?, hqueue, hqueue', advance?, advance?, htimers]
    cases ht : s.timers with
    | nil => exact .inl ⟨rfl, rfl⟩
    | cons t rest =>
      dsimp only
      split
      · have hring := (hwait t.due).ring
        rw [htimers, ht] at hring
        exact .inr ⟨_, _, rfl, rfl, hring⟩
      · exact .inl ⟨rfl, rfl⟩

theorem isOver (h : s.Seen v s') : s'.isOver = s.isOver := by
  rw [h.eq]
  rfl

theorem settleQueue (h : s.Seen v s') (count : Nat) : (Schedule.settleQueue count s).Seen v (Schedule.settleQueue count s') := by
  induction count generalizing s s' with
  | zero => exact h
  | succ count ih =>
    unfold Schedule.settleQueue
    cases hqueue : s.queue with
    | nil =>
      have hqueue' : s'.queue = [] := by rw [h.eq, hqueue]
      rw [hqueue']
      exact h
    | cons x rest =>
      obtain ⟨hqueue', hseen⟩ := h.takeFirst hqueue
      rw [hqueue']
      exact ih hseen

theorem goOn (h : s.Seen v s') (turns : Nat) : (Schedule.goOn turns s).Seen v (Schedule.goOn turns s') := by
  induction turns generalizing s s' with
  | zero => exact h
  | succ turns ih =>
    unfold Schedule.goOn
    rw [h.isOver]
    split
    · have hqueue : s'.queue = s.queue := by rw [h.eq]
      rw [hqueue]
      exact h.settleQueue _
    · obtain ⟨hs, hs'⟩ | ⟨s₁, s₁', hs, hs', hseen⟩ := h.turn
      · rw [hs, hs']
        exact h
      · rw [hs, hs']
        exact ih hseen

/-- **What is seen of a schedule that is finished** is what it ends with if it begins with what is seen of the world. -/
theorem finish (h : s.Seen v s') : s.finish.Seen v s'.finish := h.ring.goOn _

theorem result? (h : s.Seen v s') (i : Nat) : s'.result? i = s.result? i := by
  unfold Schedule.result?
  rw [h.stage? i]

end Schedule.Seen

end Runbook
