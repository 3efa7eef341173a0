import Runbook.Proofs.Moment

/-!
# What the steps of a schedule leave alone

A step of a schedule is made for one run. It leaves the records of the other runs as they are, and the world, the clock and the
tokens too unless it is an effect. What reaches other runs, a cancellation or an interruption, only marks what they wait for as
come. Tokens and the clock go one way: a run that finds its token dead finds it dead ever after.

* `Schedule.Apart`: a change of one run only; `Schedule.Marks`: marks, and nothing else.
* **`Moment.schedule_next`**: how what is being done goes on.
* `Schedule.Onward`: the clock and the tokens go on. **`Move.onward`**: so they do in every move.
* **`Moment.Goes.dead`**: a dead token stays dead.
* **`Moment.world_next`**: the world is changed by effects only; **`Move.running`**: the list of running executions by requests only.
-/

namespace Runbook

/-! ## Changes of one run -/

/-- An assistant without the marks of what it waits for. -/
def Assistant.unmarked {S : Setting} : Assistant S → Assistant S
  | .called errand => .called errand
  | .pausing _ task => .pausing ⟨0, false⟩ task
  | .watching _ cancelled => .watching ⟨0, false⟩ cancelled
  | .ended rest => .ended rest

/-- Where a run is, without the marks of what it waits for. -/
def Stage.unmarked {S : Setting} : Stage S → Stage S
  | .ready rest => .ready rest
  | .active => .active
  | .pausing _ task onFailure => .pausing ⟨0, false⟩ task onFailure
  | .limited _ assistant withdrawn onFailure => .limited ⟨0, false⟩ assistant.unmarked withdrawn onFailure
  | .draining _ assistant withdrawn limit cause onFailure =>
    .draining ⟨0, false⟩ assistant.unmarked withdrawn limit cause onFailure
  | .ended result => .ended result

/-- The run that a signal is for; none if it is for what happens beside the runs. -/
def Signal.fiber? {S : Setting} : Signal S → Option Nat
  | .step i _ | .assist i _ | .release i _ | .settle i _ => some i
  | .occur .. | .cancel .. => none

namespace Schedule

variable {S : Setting} {s s' s'' : Schedule S} {i j : Nat}

/-- The signals that are due for a run. -/
def signalsOf (s : Schedule S) (i : Nat) : List (Signal S) := s.queue.filter (·.fiber? == some i)

/-- The timers of a run. -/
def timersOf (s : Schedule S) (i : Nat) : List (Timer S) := s.timers.filter (·.signal.fiber? == some i)

/-- Nothing is changed but the record of one run, and what is due for it. -/
structure Apart (i : Nat) (s s' : Schedule S) : Prop where
  world : s'.world = s.world
  clock : s'.clock = s.clock
  tokens : s'.tokens = s.tokens
  running : s'.running = s.running
  count : s'.fibers.length = s.fibers.length
  awaits : s.awaits ≤ s'.awaits
  owner : s'.tokenOf? i = s.tokenOf? i
  others : ∀ j, j ≠ i → s'.fibers[j]? = s.fibers[j]?
  signals : ∀ j, j ≠ i → s'.signalsOf j = s.signalsOf j
  timers : ∀ j, j ≠ i → s'.timersOf j = s.timersOf j

/-- Every run is where it was, though what it waits for may have come. -/
def Marks (s s' : Schedule S) : Prop := ∀ j, (s'.stage? j).map Stage.unmarked = (s.stage? j).map Stage.unmarked

theorem signalsOf_signal {x : Signal S} (hx : x.fiber? ≠ some i) : (s.signal x).signalsOf i = s.signalsOf i := by
  unfold signalsOf signal
  rw [List.filter_append, List.filter_cons_of_neg (by rwa [beq_iff_eq]), List.filter_nil, List.append_nil]

theorem insertTimer_perm (t : Timer S) (l : List (Timer S)) : (insertTimer t l).Perm (t :: l) := by
  induction l with
  | nil => exact .refl _
  | cons u l ih =>
    unfold insertTimer
    split
    · exact .refl _
    · exact (ih.cons u).trans (.swap t u l)

theorem filter_insertTimer {t : Timer S} {p : Timer S → Bool} (ht : ¬ p t) (l : List (Timer S)) :
    (insertTimer t l).filter p = l.filter p := by
  induction l with
  | nil => exact List.filter_cons_of_neg ht
  | cons u l ih =>
    unfold insertTimer
    split
    · exact List.filter_cons_of_neg ht
    · rw [List.filter_cons, List.filter_cons, ih]

theorem timersOf_after {x : Signal S} (hx : x.fiber? ≠ some i) (seconds : Binary64) :
    (s.after seconds x).timersOf i = s.timersOf i :=
  filter_insertTimer (by rwa [beq_iff_eq]) s.timers

/-- Only the timers of the run are taken back. -/
theorem timersOf_disarm (h : i ≠ j) (await : Nat) : (s.disarm j await).timersOf i = s.timersOf i := by
  unfold timersOf disarm
  rw [List.filter_filter]
  refine List.filter_congr fun t _ => ?_
  cases hx : t.signal with
  | release k a | settle k a =>
    by_cases hk : k = i
    · subst hk
      simp [Signal.isFor, Signal.fiber?, h]
    · simp [Signal.fiber?, hk]
  | _ => simp [Signal.isFor, Signal.fiber?]

namespace Apart

theorem refl (i : Nat) (s : Schedule S) : Apart i s s :=
  ⟨rfl, rfl, rfl, rfl, rfl, Nat.le_refl _, rfl, fun _ _ => rfl, fun _ _ => rfl, fun _ _ => rfl⟩

theorem trans (h : Apart i s s') (h' : Apart i s' s'') : Apart i s s'' where
  world := h'.world.trans h.world
  clock := h'.clock.trans h.clock
  tokens := h'.tokens.trans h.tokens
  running := h'.running.trans h.running
  count := h'.count.trans h.count
  awaits := Nat.le_trans h.awaits h'.awaits
  owner := h'.owner.trans h.owner
  others j hj := (h'.others j hj).trans (h.others j hj)
  signals j hj := (h'.signals j hj).trans (h.signals j hj)
  timers j hj := (h'.timers j hj).trans (h.timers j hj)

theorem tokenOf? (h : Apart i s s') (j : Nat) : s'.tokenOf? j = s.tokenOf? j := by
  by_cases hj : j = i
  · rw [hj]
    exact h.owner
  · unfold Schedule.tokenOf?
    rw [h.others j hj]

theorem stage? (h : Apart i s s') (hj : j ≠ i) : s'.stage? j = s.stage? j := by
  unfold Schedule.stage?
  rw [h.others j hj]

theorem signal (h : Apart i s s') {x : Signal S} (hx : x.fiber? = some i) : Apart i s (s'.signal x) :=
  h.trans { refl i s' with
    signals := fun _ hj => signalsOf_signal (hx ▸ fun h => hj (Option.some.inj h).symm) }

theorem after (h : Apart i s s') (seconds : Binary64) {x : Signal S} (hx : x.fiber? = some i) :
    Apart i s (s'.after seconds x) :=
  h.trans { refl i s' with
    timers := fun _ hj => timersOf_after (hx ▸ fun h => hj (Option.some.inj h).symm) seconds }

theorem disarm (h : Apart i s s') (await : Nat) : Apart i s (s'.disarm i await) :=
  h.trans { refl i s' with timers := fun _ hj => timersOf_disarm hj await }

theorem newAwait (h : Apart i s s') : Apart i s s'.newAwait.2 :=
  h.trans { refl i s' with awaits := Nat.le_succ _ }

theorem modifyFiber (h : Apart i s s') {f : Fiber S → Fiber S} (hf : ∀ x, (f x).token = x.token) :
    Apart i s (s'.modifyFiber i f) where
  world := h.world
  clock := h.clock
  tokens := h.tokens
  running := h.running
  count := (List.length_modify _ _ _).trans h.count
  awaits := h.awaits
  owner := by
    rw [← h.owner]
    unfold Schedule.tokenOf? Schedule.modifyFiber
    rw [List.getElem?_modify_eq]
    cases s'.fibers[i]? with
    | none => rfl
    | some x => exact hf x
  others j hj := by
    rw [← h.others j hj]
    exact List.getElem?_modify_ne _ _ (Ne.symm hj)
  signals := h.signals
  timers := h.timers

theorem setStage (h : Apart i s s') (stage : Stage S) : Apart i s (s'.setStage i stage) := h.modifyFiber fun _ => rfl

theorem interrupt (h : Apart i s s') (message : String) : Apart i s (s'.interrupt i message) := by
  unfold Schedule.interrupt
  split
  · split
    · exact h.modifyFiber fun _ => rfl
    · exact ((h.setStage _).signal rfl).disarm _
  · split
    · exact h.modifyFiber fun _ => rfl
    · exact (h.setStage _).signal rfl
  · split
    · exact h.modifyFiber fun _ => rfl
    · exact (h.setStage _).signal rfl
  · exact h
  · exact h
  · exact h.modifyFiber fun _ => rfl
  · exact h.modifyFiber fun _ => rfl

theorem suspend (h : Apart i s s') (stage : Stage S) : Apart i s (s'.suspend i stage) := by
  unfold Schedule.suspend
  dsimp only
  split
  · refine Apart.interrupt ?_ _
    exact (h.setStage stage).modifyFiber fun _ => rfl
  · exact h.setStage stage

theorem finishRun (h : Apart i s s') (result : S.Result) : Apart i s (s'.finishRun i result) := by
  unfold Schedule.finishRun
  split
  · exact h.modifyFiber fun _ => rfl
  · exact h.setStage _

theorem beginPause (h : Apart i s s') (seconds : Binary64) (task : S.Task) (onFailure : Failure → S.Rest) :
    Apart i s (s'.beginPause i seconds task onFailure) :=
  (h.newAwait.after _ rfl).suspend _

theorem beginErrand (h : Apart i s s') (limit : Binary64) (errand : Errand S) (onFailure : Failure → S.Rest) :
    Apart i s (s'.beginErrand i limit errand onFailure) := by
  unfold Schedule.beginErrand
  dsimp only
  split
  · exact (h.newAwait.signal rfl).suspend _
  · exact ((h.newAwait.after _ rfl).signal rfl).suspend _

theorem setAssistant (h : Apart i s s') (assistant : Assistant S) : Apart i s (s'.setAssistant i assistant) :=
  h.modifyFiber fun _ => rfl

theorem endAssistant (h : Apart i s s') (rest : Option S.Rest) : Apart i s (s'.endAssistant i rest) := by
  unfold Schedule.endAssistant
  dsimp only
  split
  · exact (h.setAssistant _).signal rfl
  · exact h.setAssistant _

theorem pauseAssistant (h : Apart i s s') (seconds : Binary64) (task : S.Task) :
    Apart i s (s'.pauseAssistant i seconds task) :=
  (h.newAwait.after _ rfl).setAssistant _

theorem drain (h : Apart i s s') (assistant : Assistant S) (limit : Nat) (cause : Failure) (onFailure : Failure → S.Rest) :
    Apart i s (s'.drain i assistant limit cause onFailure) := by
  unfold Schedule.drain
  dsimp only
  split
  · split
    · exact h.newAwait.suspend _
    · exact ((h.newAwait.disarm _).signal rfl).suspend _
  · split
    · exact h.newAwait.suspend _
    · exact ((h.newAwait.disarm _).signal rfl).suspend _
  · exact h.newAwait.suspend _

theorem notice (h : Apart i s s') : Apart i s (s'.notice i) := by
  unfold Schedule.notice
  split
  · split
    · exact (h.setStage _).signal rfl
    · exact h
  · split
    · exact (h.setStage _).signal rfl
    · exact h
  · exact h

theorem release (h : Apart i s s') (await : Nat) : Apart i s (s'.release i await) := by
  unfold Schedule.release
  dsimp only
  split
  · split
    · exact (h.setStage _).signal rfl
    · exact h
  · split
    · exact (h.setStage _).signal rfl
    · exact h
  · exact h

theorem settle (h : Apart i s s') (await : Nat) : Apart i s (s'.settle i await) := by
  unfold Schedule.settle
  dsimp only
  split
  · split
    · exact (h.setStage _).signal rfl
    · exact h
  · split
    · split
      · exact (h.setAssistant _).signal rfl
      · exact h
    · exact h

theorem beginAssist (h : Apart i s s') (errand : Errand S) : Apart i s (s'.beginAssist i errand).schedule := by
  unfold Schedule.beginAssist
  split
  · exact h
  · dsimp only
    split
    · exact h.endAssistant _
    · exact h.newAwait.setAssistant _

theorem assist (h : Apart i s s') (withdraw : Bool) : Apart i s (s'.assist i withdraw).schedule := by
  unfold Schedule.assist
  split
  · exact h
  · exact h
  · split
    · exact h.endAssistant _
    · split
      · exact h.beginAssist _
      · exact h
      · exact h.endAssistant _
      · exact h

theorem step (h : Apart i s s') (interruption : Option String) : Apart i s (s'.step i interruption).schedule := by
  unfold Schedule.step
  split
  · exact h
  · dsimp only
    have hactive : Apart i s (s'.modifyFiber i fun f => { f with stage := .active, interruption := none }) :=
      h.modifyFiber fun _ => rfl
    split
    · exact hactive.setStage _
    · exact hactive
    · exact hactive
    · exact hactive
    · exact hactive.disarm _
    · exact hactive.drain _ _ _ _
    · exact hactive.drain _ _ _ _
    · exact hactive.disarm _
    · exact hactive.disarm _
    · exact hactive.disarm _
    · exact hactive
    · exact hactive.setStage _

end Apart

end Schedule

/-- **How what is being done goes on**: by an effect, by a request, or by a change of one run only. -/
theorem Moment.schedule_next {S : Setting} (m : Moment S) :
    (∃ i e, m.activity.effect? = some e ∧ (∀ seconds, e ≠ .pause seconds) ∧ m.next.schedule = (m.schedule.affect i e).2) ∨
    (∃ i q next, m.activity = .run i (.ask q next) ∧ m.next = m.schedule.respond i q next) ∨
    ∃ i, (∀ e, m.activity.effect? = some e → ∃ seconds, e = .pause seconds) ∧ m.schedule.Apart i m.next.schedule := by
  obtain ⟨activity, s⟩ := m
  have hrefl : ∀ i, s.Apart i s := fun i => .refl i s
  cases activity with
  | idle => exact .inr (.inr ⟨0, nofun, hrefl 0⟩)
  | run i rest =>
    cases rest with
    | done result => exact .inr (.inr ⟨i, nofun, (hrefl i).finishRun _⟩)
    | ask q next => exact .inr (.inl ⟨i, q, next, rfl, rfl⟩)
  | task i task onFailure =>
    cases task with
    | done rest => exact .inr (.inr ⟨i, nofun, hrefl i⟩)
    | ask e next =>
      cases e with
      | pause seconds => exact .inr (.inr ⟨i, fun e he => ⟨seconds, (Option.some.inj he).symm⟩, (hrefl i).beginPause _ _ _⟩)
      | _ => exact .inl ⟨i, _, rfl, nofun, rfl⟩
  | aid i task =>
    cases task with
    | done rest => exact .inr (.inr ⟨i, nofun, (hrefl i).endAssistant _⟩)
    | ask e next =>
      cases e with
      | pause seconds => exact .inr (.inr ⟨i, fun e he => ⟨seconds, (Option.some.inj he).symm⟩, (hrefl i).pauseAssistant _ _⟩)
      | _ => exact .inl ⟨i, _, rfl, nofun, rfl⟩
  | beside i w =>
    cases w with
    | done u => exact .inr (.inr ⟨i, nofun, hrefl i⟩)
    | ask e next =>
      cases e with
      | pause seconds => exact .inr (.inr ⟨i, fun e he => ⟨seconds, (Option.some.inj he).symm⟩, hrefl i⟩)
      | _ => exact .inl ⟨i, _, rfl, nofun, rfl⟩

namespace Schedule

variable {S : Setting} {s s' s'' : Schedule S} {i j : Nat}

/-! ## Marks -/

namespace Marks

theorem refl (s : Schedule S) : Marks s s := fun _ => rfl

theorem signal (h : Marks s s') (x : Signal S) : Marks s (s'.signal x) := h

theorem disarm (h : Marks s s') (fiber await : Nat) : Marks s (s'.disarm fiber await) := h

theorem modifyFiber (h : Marks s s') (i : Nat) {f : Fiber S → Fiber S}
    (hf : ∀ x, s'.fibers[i]? = some x → (f x).stage.unmarked = x.stage.unmarked) : Marks s (s'.modifyFiber i f) := by
  intro j
  rw [← h j]
  unfold Schedule.stage? Schedule.modifyFiber
  by_cases hj : i = j
  · subst hj
    rw [List.getElem?_modify_eq]
    cases hx : s'.fibers[i]? with
    | none => rfl
    | some x => exact congrArg some (hf x hx)
  · rw [List.getElem?_modify_ne _ _ hj]

theorem setStage (h : Marks s s') {stage stage' : Stage S} (hstage : s'.stage? i = some stage)
    (heq : stage'.unmarked = stage.unmarked) : Marks s (s'.setStage i stage') := by
  refine h.modifyFiber i ?_
  intro x hx
  unfold Schedule.stage? at hstage
  rw [hx] at hstage
  cases hstage
  exact heq

theorem interrupt (h : Marks s s') (i : Nat) (message : String) : Marks s (s'.interrupt i message) := by
  unfold Schedule.interrupt
  have hlater : Marks s (s'.modifyFiber i fun f => { f with interruption := some message }) :=
    h.modifyFiber i fun _ _ => rfl
  split
  · next hstage =>
    split
    · exact hlater
    · exact ((h.setStage hstage (by rfl)).signal _).disarm _ _
  · next hstage =>
    split
    · exact hlater
    · exact (h.setStage hstage (by rfl)).signal _
  · next hstage =>
    split
    · exact hlater
    · exact (h.setStage hstage (by rfl)).signal _
  · exact h
  · exact h
  · exact hlater
  · exact hlater

theorem unmarked_noticed {assistant assistant' : Assistant S} (h : assistant.noticed = some assistant') :
    assistant'.unmarked = assistant.unmarked := by
  cases assistant with
  | watching a rest =>
    unfold Assistant.noticed at h
    dsimp only at h
    split at h <;> cases h
    rfl
  | _ => cases h

theorem notice (h : Marks s s') (i : Nat) : Marks s (s'.notice i) := by
  unfold Schedule.notice
  split
  · next hstage =>
    split
    · next hnoticed => exact (h.setStage hstage (by simp only [Stage.unmarked, unmarked_noticed hnoticed])).signal _
    · exact h
  · next hstage =>
    split
    · next hnoticed => exact (h.setStage hstage (by simp only [Stage.unmarked, unmarked_noticed hnoticed])).signal _
    · exact h
  · exact h

theorem release (h : Marks s s') (i await : Nat) : Marks s (s'.release i await) := by
  unfold Schedule.release
  dsimp only
  split
  · next hstage =>
    split
    · exact (h.setStage hstage (by rfl)).signal _
    · exact h
  · next hstage =>
    split
    · exact (h.setStage hstage (by rfl)).signal _
    · exact h
  · exact h

theorem settle (h : Marks s s') (i await : Nat) : Marks s (s'.settle i await) := by
  unfold Schedule.settle
  dsimp only
  split
  · next hstage =>
    split
    · exact (h.setStage hstage (by rfl)).signal _
    · exact h
  · split
    · next hassistant =>
      split
      · refine Marks.signal (h.modifyFiber i ?_) _
        intro x hx
        unfold Schedule.assistantOf? Schedule.stage? at hassistant
        rw [hx] at hassistant
        obtain ⟨stage, token, interruption⟩ := x
        cases stage <;> cases hassistant <;> rfl
      · exact h
    · exact h

theorem cancelToken (h : Marks s s') (n : Nat) (reason : String) : Marks s (s'.cancelToken n reason) := by
  have hnotices : ∀ (is : List Nat) (s₁ : Schedule S), Marks s s₁ → Marks s (is.foldl Schedule.notice s₁) := by
    intro is
    induction is with
    | nil => exact fun _ h => h
    | cons i is ih => exact fun s₁ h => ih _ (h.notice i)
  exact hnotices _ _ h

theorem affect (h : Marks s s') (i : Nat) (e : Effect S.World) : Marks s (s'.affect i e).2 := by
  cases e with
  | cancel execution reason =>
    show Marks s (s'.cancelExecution execution reason).2
    unfold Schedule.cancelExecution
    split
    · exact h.cancelToken _ _
    · exact h
  | cancelOwn reason =>
    unfold Schedule.affect
    dsimp only
    split
    · exact h.cancelToken _ _
    · exact h
  | interrupt message => exact h.interrupt i message
  | _ => exact h

end Marks

end Schedule

/-! ## Tokens and the clock -/

namespace Binary64

theorem le_iff {x y : Binary64} : x.le y ↔ x.compare? y = some .lt ∨ x.compare? y = some .eq := by
  simp only [le, Bool.or_eq_true, beq_iff_eq]

theorem lt_iff {x y : Binary64} : x.lt y ↔ x.compare? y = some .lt := by
  simp only [lt, beq_iff_eq]

/-- A number that is at most another is at most any greater one. -/
theorem le_of_le_of_lt {x y z : Binary64} (h : x.le y) (h' : y.lt z) : x.le z := by
  rw [le_iff] at h ⊢
  rw [lt_iff] at h'
  cases x with
  | nan => simp [compare?] at h
  | inf s =>
    cases y with
    | nan => simp [compare?] at h
    | inf t =>
      cases z with
      | nan => simp [compare?] at h'
      | inf u => revert s t u; decide
      | finite u p k => cases s <;> cases t <;> simp_all [compare?]
    | finite t n f =>
      cases z with
      | nan => simp [compare?] at h'
      | inf u =>
        cases s <;> cases u <;> simp_all [compare?]
        rfl
      | finite u p k => cases s <;> simp_all [compare?]
  | finite s m e =>
    cases y with
    | nan => simp [compare?] at h
    | inf t =>
      cases z with
      | nan => simp [compare?] at h'
      | inf u => cases t <;> cases u <;> simp_all [compare?]
      | finite u p k => cases t <;> simp_all [compare?]
    | finite t n f =>
      cases z with
      | nan => simp [compare?] at h'
      | inf u => cases u <;> simp_all [compare?]
      | finite u p k =>
        simp only [compare?] at h h' ⊢
        generalize value s m e = a at *
        generalize value t n f = b at *
        generalize value u p k = c at *
        grind

end Binary64

namespace Schedule

variable {S : Setting} {R : String → Prop} {s s' s'' : Schedule S} {i : Nat}

/-- The clock has not gone back, no token has lost its deadline, tokens were cancelled for one of these reasons only, and no run
has lost its token. -/
structure Onward (R : String → Prop) (s s' : Schedule S) : Prop where
  clock : ∀ d : Binary64, d.le s.clock → d.le s'.clock
  tokens : ∀ (n : Nat) (t : Token), s.tokens[n]? = some t → ∃ t' : Token, s'.tokens[n]? = some t' ∧ t'.deadline = t.deadline ∧
    (t'.cancelled = t.cancelled ∨ ∃ reason, R reason ∧ t'.cancelled = some reason)
  owners : ∀ i n, s.tokenOf? i = some n → s'.tokenOf? i = some n

namespace Onward

theorem refl (s : Schedule S) : Onward R s s := ⟨fun _ h => h, fun _ t h => ⟨t, h, rfl, .inl rfl⟩, fun _ _ h => h⟩

theorem trans (h : Onward R s s') (h' : Onward R s' s'') : Onward R s s'' where
  clock d hd := h'.clock d (h.clock d hd)
  tokens n t ht := by
    obtain ⟨t₁, ht₁, hd₁, hc₁⟩ := h.tokens n t ht
    obtain ⟨t₂, ht₂, hd₂, hc₂⟩ := h'.tokens n t₁ ht₁
    refine ⟨t₂, ht₂, hd₂.trans hd₁, ?_⟩
    rcases hc₂ with hc₂ | hc₂
    · rw [hc₂]
      exact hc₁
    · exact .inr hc₂
  owners i n hn := h'.owners i n (h.owners i n hn)

theorem mono {R' : String → Prop} (h : Onward R s s') (hR : ∀ reason, R reason → R' reason) : Onward R' s s' where
  clock := h.clock
  tokens n t ht := by
    obtain ⟨t', ht', hd, hc⟩ := h.tokens n t ht
    exact ⟨t', ht', hd, hc.imp_right fun ⟨reason, hr, hc⟩ => ⟨reason, hR reason hr, hc⟩⟩
  owners := h.owners

theorem of_eq (hclock : s'.clock = s.clock) (htokens : s'.tokens = s.tokens)
    (howners : ∀ i, s'.tokenOf? i = s.tokenOf? i) : Onward R s s' where
  clock _ hd := hclock ▸ hd
  tokens _ t ht := ⟨t, htokens ▸ ht, rfl, .inl rfl⟩
  owners i _ hn := (howners i).trans hn

theorem of_apart (h : Apart i s s') : Onward R s s' := of_eq h.clock h.tokens h.tokenOf?

theorem newToken (s : Schedule S) (timeout : Option Binary64) : Onward R s (s.newToken timeout).2 where
  clock _ hd := hd
  tokens _ t ht := ⟨t, List.getElem?_append_left (List.getElem?_eq_some_iff.mp ht).1 ▸ ht, rfl, .inl rfl⟩
  owners _ _ hn := hn

theorem openToken (s : Schedule S) (i : Nat) (timeout : Option Binary64) : Onward R s (s.openToken i timeout) := by
  unfold Schedule.openToken
  split
  · exact refl s
  · next hnone =>
    refine (newToken s timeout).trans ⟨fun _ hd => hd, fun n t ht => ⟨t, ht, rfl, .inl rfl⟩, ?_⟩
    intro j n hn
    have hj : i ≠ j := by
      rintro rfl
      have hsome : s.tokenOf? i = some n := hn
      rw [hnone] at hsome
      cases hsome
    unfold Schedule.tokenOf? Schedule.modifyFiber
    rw [List.getElem?_modify_ne _ _ hj]
    exact hn

theorem launch (s : Schedule S) (rest : S.Rest) (token : Option Nat) : Onward R s (s.launch rest token).2 where
  clock _ hd := hd
  tokens _ t ht := ⟨t, ht, rfl, .inl rfl⟩
  owners j n hn := by
    unfold Schedule.tokenOf? at hn
    obtain ⟨x, hx, htoken⟩ := Option.bind_eq_some_iff.mp hn
    show ((s.fibers ++ [_])[j]?).bind (·.token) = some n
    rw [List.getElem?_append_left (List.getElem?_eq_some_iff.mp hx).1, hx]
    exact htoken

theorem noticed (is : List Nat) (s : Schedule S) : Onward R s (is.foldl Schedule.notice s) := by
  induction is generalizing s with
  | nil => exact refl s
  | cons i is ih => exact (of_apart (Apart.refl i s).notice).trans (ih _)

theorem cancelToken (s : Schedule S) (n : Nat) {reason : String} (hR : R reason) : Onward R s (s.cancelToken n reason) := by
  have hcancelled : Onward R s { s with tokens := s.tokens.modify n fun t => { t with cancelled := some reason } } := by
    refine ⟨fun _ hd => hd, ?_, fun _ _ hn => hn⟩
    intro m t ht
    by_cases hm : n = m
    · subst hm
      exact ⟨{ t with cancelled := some reason }, by rw [List.getElem?_modify_eq, ht]; rfl, rfl, .inr ⟨reason, hR, rfl⟩⟩
    · exact ⟨t, by rw [List.getElem?_modify_ne _ _ hm, ht], rfl, .inl rfl⟩
  exact hcancelled.trans (noticed _ _)

theorem affect (s : Schedule S) (i : Nat) {e : Effect S.World} (hR : ∀ reason, e.reason? = some reason → R reason) :
    Onward R s (s.affect i e).2 := by
  cases e with
  | cancel execution reason =>
    show Onward R s (s.cancelExecution execution reason).2
    unfold Schedule.cancelExecution
    split
    · exact cancelToken s _ (hR reason rfl)
    · exact refl s
  | cancelOwn reason =>
    unfold Schedule.affect
    dsimp only
    split
    · exact cancelToken s _ (hR reason rfl)
    · exact refl s
  | interrupt message => exact of_apart ((Apart.refl i s).interrupt message)
  | _ => exact of_eq rfl rfl fun _ => rfl

theorem respond (s : Schedule S) (i : Nat) (q : Request S.Call) (next : q.Reply S.Answer → S.Rest) :
    Onward R s (s.respond i q next).schedule := by
  cases q with
  | openToken timeout => exact openToken s i timeout
  | enlist execution workflow tenant =>
    show Onward R s (s.enlist i execution workflow tenant)
    unfold Schedule.enlist
    split <;> exact of_eq rfl rfl fun _ => rfl
  | awaitCancel limit => exact of_apart ((Apart.refl i s).beginErrand _ _ _)
  | call c limit =>
    cases limit with
    | none => exact refl s
    | some limit => exact of_apart ((Apart.refl i s).beginErrand _ _ _)
  | _ => exact of_eq rfl rfl fun _ => rfl

theorem take (s : Schedule S) (x : Signal S) : Onward (Moment.Cancels ⟨.idle, s⟩ (s.take x)) s (s.take x).schedule := by
  cases x with
  | step i interruption => exact of_apart ((Apart.refl i s).step _)
  | assist i withdraw => exact of_apart ((Apart.refl i s).assist _)
  | release i await => exact of_apart ((Apart.refl i s).release _)
  | settle i await => exact of_apart ((Apart.refl i s).settle _)
  | occur i w => exact refl s
  | cancel n reason => exact cancelToken s n .signal

theorem next (m : Moment S) : Onward (m.Cancels m.next) m.schedule m.next.schedule := by
  obtain ⟨i, e, he, -, hnext⟩ | ⟨i, q, next, -, hnext⟩ | ⟨i, -, hapart⟩ := m.schedule_next
  · exact hnext ▸ affect m.schedule i fun _ => .effect he
  · exact hnext ▸ respond m.schedule i q next
  · exact of_apart hapart

end Onward

end Schedule

variable {S : Setting} {m m' : Moment S} {i : Nat}

/-- **Tokens and the clock go on** in every move. -/
theorem Move.onward (h : Move m m') : m.schedule.Onward (m.Cancels m') m'.schedule := by
  cases h with
  | next m => exact .next m
  | take s x => exact .take s x
  | arrange s queue timers => exact .of_eq rfl rfl fun _ => rfl
  | wait s clock hlt =>
    exact ⟨fun d hd => Binary64.le_of_le_of_lt hd hlt, fun n t ht => ⟨t, ht, rfl, .inl rfl⟩, fun i n hn => hn⟩
  | launch s rest token => exact .launch s rest token
  | newToken s timeout => exact .newToken s timeout

theorem Moment.Goes.onward (h : m.Goes m') : m.schedule.Onward (m.CancelsUntil m') m'.schedule := by
  induction h with
  | refl => exact .refl _
  | @tail m₁ m₂ hgoes hmove ih =>
    refine (ih.mono fun reason hr => ?_).trans (hmove.onward.mono fun reason hr => ?_)
    · obtain ⟨m₃, m₄, h₃, h₃₄, h₄, hc⟩ := hr
      exact ⟨m₃, m₄, h₃, h₃₄, h₄.move hmove, hc⟩
    · exact ⟨m₁, m₂, hgoes, hmove, .refl _, hr⟩

/-- A run whose token is cancelled or past its deadline. -/
def Schedule.IsDead (s : Schedule S) (i : Nat) : Prop := (s.tokenView i).check ≠ .ok ()

theorem TokenView.check_ne_ok {v : TokenView} : v.check ≠ .ok () ↔ v.token.cancelled.isSome ∨ v.isLate := by
  unfold TokenView.check
  cases hc : v.token.cancelled with
  | some reason => simp
  | none => cases hl : v.isLate <;> simp

theorem Schedule.Onward.dead {R : String → Prop} {s s' : Schedule S} (h : s.Onward R s') (hdead : s.IsDead i) : s'.IsDead i := by
  unfold IsDead at hdead ⊢
  rw [TokenView.check_ne_ok] at hdead ⊢
  unfold tokenView at hdead ⊢
  cases hn : s.tokenOf? i with
  | none =>
    rw [hn] at hdead
    simp [TokenView.isLate] at hdead
  | some n =>
    rw [hn] at hdead
    rw [h.owners i n hn]
    cases ht : s.tokens[n]? with
    | none => simp [ht, TokenView.isLate] at hdead
    | some t =>
      obtain ⟨t', ht', hdeadline, hcancelled⟩ := h.tokens n t ht
      simp only [Option.bind_some, ht, ht', Option.getD_some, TokenView.isLate, hdeadline] at hdead ⊢
      rcases hdead with hc | hl
      · left
        rcases hcancelled with hsame | ⟨reason, -, hreason⟩
        · rw [hsame]
          exact hc
        · rw [hreason]
          rfl
      · right
        rw [Option.any_eq_true] at hl ⊢
        obtain ⟨d, hd, hle⟩ := hl
        exact ⟨d, hd, h.clock d hle⟩

/-- **A dead token stays dead**, whatever happens. -/
theorem Moment.Goes.dead (h : m.Goes m') (hdead : m.schedule.IsDead i) : m'.schedule.IsDead i := h.onward.dead hdead

/-! ## The world -/

namespace Schedule

variable {s : Schedule S}

theorem world_cancelToken (n : Nat) (reason : String) : (s.cancelToken n reason).world = s.world := by
  have hnoticed : ∀ (is : List Nat) (s : Schedule S), (is.foldl notice s).world = s.world := by
    intro is
    induction is with
    | nil => exact fun _ => rfl
    | cons i is ih => exact fun s => (ih _).trans (Apart.refl i s).notice.world
  exact hnoticed _ _

/-- An effect that is no change of the world leaves it as it is. -/
theorem world_affect {e : Effect S.World} (he : ∀ f, e ≠ .change f) : (s.affect i e).2.world = s.world := by
  cases e with
  | change f => exact absurd rfl (he f)
  | cancel execution reason =>
    show (s.cancelExecution execution reason).2.world = s.world
    unfold cancelExecution
    split
    · exact world_cancelToken _ _
    · rfl
  | cancelOwn reason =>
    unfold affect
    dsimp only
    split
    · exact world_cancelToken _ _
    · rfl
  | interrupt message => exact ((Apart.refl i s).interrupt message).world
  | _ => rfl

theorem world_respond (q : Request S.Call) (next : q.Reply S.Answer → S.Rest) :
    (s.respond i q next).schedule.world = s.world := by
  cases q with
  | openToken timeout =>
    show (s.openToken i timeout).world = s.world
    unfold openToken
    split <;> rfl
  | enlist execution workflow tenant =>
    show (s.enlist i execution workflow tenant).world = s.world
    unfold enlist
    split <;> rfl
  | awaitCancel limit => exact ((Apart.refl i s).beginErrand _ _ _).world
  | call c limit =>
    cases limit with
    | none => rfl
    | some limit => exact ((Apart.refl i s).beginErrand _ _ _).world
  | _ => rfl

theorem world_take (x : Signal S) : (s.take x).schedule.world = s.world := by
  cases x with
  | step i interruption => exact ((Apart.refl i s).step _).world
  | assist i withdraw => exact ((Apart.refl i s).assist _).world
  | release i await => exact ((Apart.refl i s).release _).world
  | settle i await => exact ((Apart.refl i s).settle _).world
  | occur i w => rfl
  | cancel n reason => exact world_cancelToken _ _

end Schedule

/-- **The world is changed by effects only**: it goes on by the effect of the moment, if that is a change. -/
theorem Moment.world_next (m : Moment S) : m.next.schedule.world = m.schedule.world ∨
    ∃ f, m.activity.effect? = some (.change f) ∧ m.next.schedule.world = f m.schedule.world := by
  obtain ⟨i, e, he, -, hnext⟩ | ⟨i, q, next, -, hnext⟩ | ⟨i, -, hapart⟩ := m.schedule_next
  · rw [hnext]
    by_cases hchange : ∃ f, e = .change f
    · obtain ⟨f, rfl⟩ := hchange
      exact .inr ⟨f, he, rfl⟩
    · exact .inl (Schedule.world_affect fun f h => hchange ⟨f, h⟩)
  · rw [hnext]
    exact .inl (Schedule.world_respond q next)
  · exact .inl hapart.world

/-! ## The list of running executions -/

namespace Schedule

variable {s s' s'' : Schedule S}

/-- The list of running executions is as it was, and so is the number of runs. -/
structure Steady (s s' : Schedule S) : Prop where
  running : s'.running = s.running
  count : s'.fibers.length = s.fibers.length

namespace Steady

theorem refl (s : Schedule S) : Steady s s := ⟨rfl, rfl⟩

theorem trans (h : Steady s s') (h' : Steady s' s'') : Steady s s'' := ⟨h'.running.trans h.running, h'.count.trans h.count⟩

theorem of_apart (h : Apart i s s') : Steady s s' := ⟨h.running, h.count⟩

theorem cancelToken (s : Schedule S) (n : Nat) (reason : String) : Steady s (s.cancelToken n reason) := by
  have hnoticed : ∀ (is : List Nat) (s : Schedule S), Steady s (is.foldl notice s) := by
    intro is
    induction is with
    | nil => exact refl
    | cons i is ih => exact fun s => (of_apart (Apart.refl i s).notice).trans (ih _)
  have hcancelled : Steady s { s with tokens := s.tokens.modify n fun t => { t with cancelled := some reason } } := ⟨rfl, rfl⟩
  exact hcancelled.trans (hnoticed _ _)

theorem affect (s : Schedule S) (i : Nat) (e : Effect S.World) : Steady s (s.affect i e).2 := by
  cases e with
  | cancel execution reason =>
    show Steady s (s.cancelExecution execution reason).2
    unfold cancelExecution
    split
    · exact cancelToken s _ _
    · exact refl s
  | cancelOwn reason =>
    unfold Schedule.affect
    dsimp only
    split
    · exact cancelToken s _ _
    · exact refl s
  | interrupt message => exact of_apart ((Apart.refl i s).interrupt message)
  | _ => exact ⟨rfl, rfl⟩

theorem take (s : Schedule S) (x : Signal S) : Steady s (s.take x).schedule := by
  cases x with
  | step i interruption => exact of_apart ((Apart.refl i s).step _)
  | assist i withdraw => exact of_apart ((Apart.refl i s).assist _)
  | release i await => exact of_apart ((Apart.refl i s).release _)
  | settle i await => exact of_apart ((Apart.refl i s).settle _)
  | occur i w => exact refl s
  | cancel n reason => exact cancelToken s n reason

/-- A request other than those to be listed and to be taken off. -/
theorem respond {q : Request S.Call} {next : q.Reply S.Answer → S.Rest}
    (henlist : ∀ execution workflow tenant, q ≠ .enlist execution workflow tenant) (hdelist : ∀ execution, q ≠ .delist execution) :
    Steady s (s.respond i q next).schedule := by
  cases q with
  | openToken timeout =>
    show Steady s (s.openToken i timeout)
    unfold openToken
    split
    · exact refl s
    · exact ⟨rfl, List.length_modify _ _ _⟩
  | enlist execution workflow tenant => exact absurd rfl (henlist _ _ _)
  | delist execution => exact absurd rfl (hdelist _)
  | awaitCancel limit => exact of_apart ((Apart.refl i s).beginErrand _ _ _)
  | call c limit =>
    cases limit with
    | none => exact refl s
    | some limit => exact of_apart ((Apart.refl i s).beginErrand _ _ _)
  | _ => exact ⟨rfl, rfl⟩

end Steady

theorem count_respond (q : Request S.Call) (next : q.Reply S.Answer → S.Rest) :
    (s.respond i q next).schedule.fibers.length = s.fibers.length := by
  cases q with
  | enlist execution workflow tenant =>
    show (s.enlist i execution workflow tenant).fibers.length = _
    unfold enlist
    split <;> rfl
  | delist execution => rfl
  | _ => exact Steady.count (Steady.respond (by exact nofun) (by exact nofun))

end Schedule

/-- **The list of running executions is changed by requests only.** -/
theorem Move.running (h : Move m m') : m'.schedule.running = m.schedule.running ∨
    ∃ i q next, m.activity = .run i (.ask q next) ∧ m' = m.schedule.respond i q next := by
  cases h with
  | next m =>
    obtain ⟨i, e, -, -, hnext⟩ | hrespond | ⟨i, -, hapart⟩ := m.schedule_next
    · exact .inl (hnext ▸ (Schedule.Steady.affect _ _ e).running)
    · exact .inr hrespond
    · exact .inl hapart.running
  | take s x => exact .inl (Schedule.Steady.take s x).running
  | arrange | wait | launch | newToken => exact .inl rfl

/-- No run is ever gone. -/
theorem Move.count_le (h : Move m m') : m.schedule.fibers.length ≤ m'.schedule.fibers.length := by
  cases h with
  | next m =>
    obtain ⟨i, e, -, -, hnext⟩ | ⟨i, q, next, -, hnext⟩ | ⟨i, -, hapart⟩ := m.schedule_next
    · exact hnext ▸ Nat.le_of_eq (Schedule.Steady.affect _ _ e).count.symm
    · exact hnext ▸ Nat.le_of_eq (Schedule.count_respond q next).symm
    · exact Nat.le_of_eq hapart.count.symm
  | take s x => exact Nat.le_of_eq (Schedule.Steady.take s x).count.symm
  | arrange | wait | newToken => exact Nat.le_refl _
  | launch s rest token => exact (List.length_append ▸ Nat.le_add_right _ _ : s.fibers.length ≤ (s.fibers ++ [_]).length)

theorem Moment.Goes.count_le (h : m.Goes m') : m.schedule.fibers.length ≤ m'.schedule.fibers.length := by
  induction h with
  | refl => exact Nat.le_refl _
  | tail _ hmove ih => exact Nat.le_trans ih hmove.count_le

end Runbook
