import Runbook.Proofs.Hosting

/-!
# What others do

Whatever is done for one run, any other run only sees what befalls it.

* `Schedule.Spares`: a run is where it was, with the same signals, timers and token.
* `Schedule.Befalls`: a run is spared, or its token is cancelled, or it is interrupted. **`Schedule.befalls_affect`**: that is all
  that an effect can be to a run.
* `Own`, `Elsewhere`, **`Turn.own_or_elsewhere`**: a turn is one of the run's own, or it is what befalls the run.
* **`Turn.spares`**: a turn spares all runs but one, unless it is the passing of time.
* `Moment.Lacks`, **`Hosts.lacks`**: nothing is due for a run that has not been added.
-/

namespace Runbook

variable {S : Setting} {i : Nat}

/-! ## What befalls a run -/

namespace Schedule

variable {s s' s'' : Schedule S} {j : Nat}

/-- A run is where it was, and what is due for it, its token and the clock are as they were. -/
structure Spares (i : Nat) (s s' : Schedule S) : Prop where
  clock : s'.clock = s.clock
  fiber : s'.fibers[i]? = s.fibers[i]?
  token : ∀ n t, s.tokenOf? i = some n → s.tokens[n]? = some t → s'.tokens[n]? = some t
  signals : s'.signalsOf i = s.signalsOf i
  timers : s'.timersOf i = s.timersOf i
  awaits : s.awaits ≤ s'.awaits

namespace Spares

theorem refl (i : Nat) (s : Schedule S) : Spares i s s := ⟨rfl, rfl, fun _ _ _ ht => ht, rfl, rfl, Nat.le_refl _⟩

theorem tokenOf? (h : Spares i s s') : s'.tokenOf? i = s.tokenOf? i := by
  unfold Schedule.tokenOf?
  rw [h.fiber]

theorem trans (h : Spares i s s') (h' : Spares i s' s'') : Spares i s s'' where
  clock := h'.clock.trans h.clock
  fiber := h'.fiber.trans h.fiber
  token n t hn ht := h'.token n t (h.tokenOf?.trans hn) (h.token n t hn ht)
  signals := h'.signals.trans h.signals
  timers := h'.timers.trans h.timers
  awaits := Nat.le_trans h.awaits h'.awaits

theorem of_apart (h : Apart j s s') (hij : i ≠ j) : Spares i s s' where
  clock := h.clock
  fiber := h.others i hij
  token _ _ _ ht := h.tokens ▸ ht
  signals := h.signals i hij
  timers := h.timers i hij
  awaits := h.awaits

theorem newToken (s : Schedule S) (timeout : Option Binary64) : Spares i s (s.newToken timeout).2 :=
  { refl i s with token := fun _ _ _ ht => List.getElem?_append_left (List.getElem?_eq_some_iff.mp ht).1 ▸ ht }

theorem foldl_notice {l : List Nat} (hl : i ∉ l) (s : Schedule S) : Spares i s (l.foldl notice s) := by
  induction l generalizing s with
  | nil => exact refl i s
  | cons j l ih =>
    obtain ⟨hj, hl⟩ := not_or.mp (mt List.mem_cons.mpr hl)
    exact (of_apart (Apart.refl j s).notice hj).trans (ih hl _)

/-- The token of another run is cancelled. -/
theorem cancelToken {n : Nat} (hn : s.tokenOf? i ≠ some n) (reason : String) : Spares i s (s.cancelToken n reason) := by
  have hmodify : Spares i s { s with tokens := s.tokens.modify n fun t => { t with cancelled := some reason } } :=
    { refl i s with
      token := fun m t hm ht => by
        have hnm : n ≠ m := fun h => hn (h ▸ hm)
        rw [List.getElem?_modify_ne _ _ hnm]
        exact ht }
  refine hmodify.trans (foldl_notice ?_ _)
  intro hi
  exact hn (eq_of_beq (List.mem_filter.mp hi).2)

theorem openToken (hij : i ≠ j) (timeout : Option Binary64) : Spares i s (s.openToken j timeout) := by
  unfold Schedule.openToken
  split
  · exact refl i s
  · exact { newToken s timeout with fiber := List.getElem?_modify_ne _ _ hij.symm }

theorem respond (hij : i ≠ j) (q : Request S.Call) (next : q.Reply S.Answer → S.Rest) :
    Spares i s (s.respond j q next).schedule := by
  cases q with
  | openToken timeout => exact openToken hij timeout
  | enlist execution workflow tenant =>
    show Spares i s (s.enlist j execution workflow tenant)
    unfold enlist
    split <;> exact { refl i s with }
  | delist execution => exact { refl i s with }
  | awaitCancel limit => exact of_apart ((Apart.refl j s).beginErrand _ _ _) hij
  | call c limit =>
    cases limit with
    | none => exact refl i s
    | some limit => exact of_apart ((Apart.refl j s).beginErrand _ _ _) hij
  | _ => exact refl i s

theorem launch (hi : i ≠ s.fibers.length) (rest : S.Rest) (token : Option Nat) : Spares i s (s.launch rest token).2 :=
  { refl i s with
    fiber := getElem?_concat_of_ne hi
    signals := signalsOf_signal fun h => hi (Option.some.inj h).symm }

/-- A signal of others is taken from the queue. -/
theorem dequeue {x : Signal S} {rest : List (Signal S)} (hqueue : s.queue = x :: rest) (hx : x.fiber? ≠ some i) :
    Spares i s { s with queue := rest } :=
  { refl i s with
    signals := by
      unfold signalsOf
      rw [hqueue]
      exact (List.filter_cons_of_neg (by rwa [beq_iff_eq])).symm }

/-- A timer of others rings. -/
theorem ring {before after : List (Timer S)} {t : Timer S} (htimers : s.timers = before ++ t :: after)
    (ht : t.signal.fiber? ≠ some i) : Spares i s { s with queue := s.queue ++ [t.signal], timers := before ++ after } :=
  { refl i s with
    signals := signalsOf_signal ht
    timers := by
      unfold timersOf
      rw [htimers, List.filter_append, List.filter_append, List.filter_cons_of_neg (by rwa [beq_iff_eq])] }

theorem after {x : Signal S} (hx : x.fiber? ≠ some i) (s : Schedule S) (seconds : Binary64) : Spares i s (s.after seconds x) :=
  { refl i s with timers := timersOf_after hx seconds }

end Spares

/-- What befalls a run in a change of the schedule that it has not made: nothing, or its token is cancelled, or it is
interrupted. -/
inductive Befalls (i : Nat) (s : Schedule S) : Option (Incident S.Rest) → Schedule S → Prop where
  | nothing {s' : Schedule S} : s.Spares i s' → Befalls i s none s'
  | cancelled {n : Nat} {reason : String} : s.tokenOf? i = some n →
    Befalls i s (some (.cancelled reason)) (s.cancelToken n reason)
  | interrupted {message : String} : Befalls i s (some (.interrupted message)) (s.interrupt i message)

theorem Befalls.spares (h : s.Befalls i none s') : s.Spares i s' := by
  cases h with
  | nothing h => exact h

theorem befalls_cancelToken (s : Schedule S) (i n : Nat) (reason : String) :
    s.Befalls i (s.cancelled? n reason i) (s.cancelToken n reason) := by
  unfold cancelled?
  split
  · next hn => exact .cancelled hn
  · next hn => exact .nothing (.cancelToken hn reason)

/-- **What an effect is to a run.** -/
theorem befalls_affect (s : Schedule S) (i j : Nat) (e : Effect S.World) :
    s.Befalls i (s.incident? j e i) (s.affect j e).2 := by
  cases e with
  | cancel execution reason =>
    have hincident : s.incident? j (.cancel execution reason) i =
        (s.running.find? (·.execution == execution)).bind fun r => s.cancelled? r.token reason i := rfl
    have haffect : (s.affect j (.cancel execution reason)).2 = (s.cancelExecution execution reason).2 := rfl
    rw [hincident, haffect]
    unfold cancelExecution
    cases s.running.find? (·.execution == execution) with
    | none => exact .nothing (.refl i s)
    | some r => exact befalls_cancelToken s i r.token reason
  | cancelOwn reason =>
    unfold incident? affect
    dsimp only
    cases s.tokenOf? j with
    | none => exact .nothing (.refl i s)
    | some n => exact befalls_cancelToken s i n reason
  | interrupt message =>
    unfold incident? affect
    dsimp only
    split
    · next hij => exact hij ▸ .interrupted
    · next hij => exact .nothing (.of_apart ((Apart.refl j s).interrupt message) hij)
  | change f => exact .nothing { Spares.refl i s with }
  | _ => exact .nothing (.refl i s)

/-- What a signal for others is to a run. -/
theorem befalls_take {x : Signal S} (hx : x.fiber? ≠ some i) : s.Befalls i (s.incidentOf? x i) (s.take x).schedule := by
  have hij : ∀ {j}, some j ≠ some i → i ≠ j := fun h hij => h (congrArg some hij.symm)
  cases x with
  | step j interruption => exact .nothing (.of_apart ((Apart.refl j s).step _) (hij hx))
  | assist j withdraw => exact .nothing (.of_apart ((Apart.refl j s).assist _) (hij hx))
  | release j await => exact .nothing (.of_apart ((Apart.refl j s).release _) (hij hx))
  | settle j await => exact .nothing (.of_apart ((Apart.refl j s).settle _) (hij hx))
  | occur j w => exact .nothing (.refl i s)
  | cancel n reason => exact befalls_cancelToken s i n reason

end Schedule

/-- What is being done for others is nothing to a run but what befalls it. -/
theorem Moment.befalls_next {m : Moment S} (hm : ¬ m.activity.IsOf i) :
    m.schedule.Befalls i (m.incident? i) m.next.schedule ∧ ¬ m.next.activity.IsOf i := by
  obtain ⟨activity, s⟩ := m
  cases activity with
  | idle => exact ⟨.nothing (.refl i s), id⟩
  | run j rest =>
    have hij : i ≠ j := Ne.symm hm
    have hnone : Moment.incident? ⟨.run j rest, s⟩ i = none := if_neg hij
    rw [hnone]
    cases rest with
    | done result => exact ⟨.nothing (.of_apart ((Schedule.Apart.refl j s).finishRun _) hij), id⟩
    | ask q next => exact ⟨.nothing (.respond hij q next), (Schedule.respond_stays hij).2⟩
  | task j task onFailure =>
    have hij : i ≠ j := Ne.symm hm
    cases task with
    | done rest =>
      have hnone : Moment.incident? ⟨.task j (.done rest) onFailure, s⟩ i = none := if_neg hij
      rw [hnone]
      exact ⟨.nothing (.refl i s), hm⟩
    | ask e next =>
      have he := s.befalls_affect i j e
      cases e with
      | pause seconds =>
        have hnone : Moment.incident? ⟨.task j (.ask (.pause seconds) next) onFailure, s⟩ i = none := if_neg hij
        rw [hnone]
        exact ⟨.nothing (.of_apart ((Schedule.Apart.refl j s).beginPause _ _ _) hij), id⟩
      | _ => exact ⟨he, hm⟩
  | aid j task =>
    have hij : i ≠ j := Ne.symm hm
    cases task with
    | done rest =>
      have hnone : Moment.incident? ⟨.aid j (.done rest), s⟩ i = none := if_neg hij
      rw [hnone]
      exact ⟨.nothing (.of_apart ((Schedule.Apart.refl j s).endAssistant _) hij), id⟩
    | ask e next =>
      have he := s.befalls_affect i j e
      cases e with
      | pause seconds =>
        have hnone : Moment.incident? ⟨.aid j (.ask (.pause seconds) next), s⟩ i = none := if_neg hij
        rw [hnone]
        exact ⟨.nothing (.of_apart ((Schedule.Apart.refl j s).pauseAssistant _ _) hij), id⟩
      | _ => exact ⟨he, hm⟩
  | beside j w =>
    cases w with
    | done u => exact ⟨.nothing (.refl i s), id⟩
    | ask e next =>
      have he := s.befalls_affect i j e
      cases e with
      | pause seconds => exact ⟨.nothing (.refl i s), id⟩
      | _ => exact ⟨he, id⟩

/-! ## Whose turn it is -/

variable {m m' : Moment S} {s : Schedule S}

theorem Schedule.take_elsewhere {x : Signal S} (hx : x.fiber? ≠ some i) : ¬ (s.take x).activity.IsOf i := by
  have hij : ∀ {j}, some j ≠ some i → i ≠ j := fun h hij => h (congrArg some hij.symm)
  cases x with
  | step j interruption => exact step_elsewhere (hij hx) interruption
  | assist j withdraw => exact assist_elsewhere (hij hx) withdraw
  | release | settle | occur | cancel => exact id

theorem Schedule.incidentOf?_of_fiber? {x : Signal S} (hx : x.fiber? = some i) (j : Nat) : s.incidentOf? x j = none := by
  cases x <;> first | rfl | cases hx

/-- The turns in which a run has a part itself: it goes on, or its work does; a signal for it is taken; a timer of it rings; or
time passes. -/
inductive Own (i : Nat) : Moment S → Option (Incident S.Rest) → Moment S → Prop where
  | next {m : Moment S} : m.activity.IsOf i → Own i m (m.incident? i) m.next
  | take {s : Schedule S} {x : Signal S} {rest : List (Signal S)} : s.queue = x :: rest → x.fiber? = some i →
    Own i ⟨.idle, s⟩ none ({ s with queue := rest }.take x)
  | ring {s : Schedule S} {before after : List (Timer S)} {t : Timer S} : s.timers = before ++ t :: after →
    t.due.lt (s.clock.add Schedule.resolution) → t.signal.fiber? = some i →
    Own i ⟨.idle, s⟩ none ⟨.idle, { s with queue := s.queue ++ [t.signal], timers := before ++ after }⟩
  | wait {s : Schedule S} {clock : Binary64} : s.clock.lt clock → Own i ⟨.idle, s⟩ none ⟨.idle, { s with clock := clock }⟩

/-- What befalls a run while others have their turn. -/
structure Elsewhere (i : Nat) (m : Moment S) (what : Option (Incident S.Rest)) (m' : Moment S) : Prop where
  before : ¬ m.activity.IsOf i
  after : ¬ m'.activity.IsOf i
  befalls : ∃ s, m.schedule.Spares i s ∧ s.Befalls i what m'.schedule

theorem Elsewhere.of_spares (hm : ¬ m.activity.IsOf i) (hm' : ¬ m'.activity.IsOf i) (h : m.schedule.Spares i m'.schedule) :
    Elsewhere i m none m' :=
  ⟨hm, hm', _, h, .nothing (.refl i _)⟩

/-- **A turn is one of the run's own, or it is what befalls the run.** -/
theorem Turn.own_or_elsewhere {what : Nat → Option (Incident S.Rest)} (h : Turn m what m') (i : Nat) :
    Own i m (what i) m' ∨ Elsewhere i m (what i) m' := by
  cases h with
  | next m hbusy =>
    by_cases hm : m.activity.IsOf i
    · exact .inl (.next hm)
    · obtain ⟨hwhat, hm'⟩ := Moment.befalls_next hm
      exact .inr ⟨hm, hm', _, .refl i _, hwhat⟩
  | take s x rest hqueue =>
    by_cases hx : x.fiber? = some i
    · rw [Schedule.incidentOf?_of_fiber? hx]
      exact .inl (.take hqueue hx)
    · exact .inr ⟨id, Schedule.take_elsewhere hx, _, .dequeue hqueue hx, Schedule.befalls_take hx⟩
  | ring s before t after htimers hdue =>
    by_cases ht : t.signal.fiber? = some i
    · exact .inl (.ring htimers hdue ht)
    · exact .inr (.of_spares id id (.ring htimers ht))
  | wait s clock hclock => exact .inl (.wait hclock)
  | occur s j work => exact .inr (.of_spares id id (.refl i s))
  | cancel s n reason => exact .inr ⟨id, id, s, .refl i s, s.befalls_cancelToken i n reason⟩
  | plan s seconds x hx => exact .inr (.of_spares id id (.after (hx ▸ nofun) s seconds))
  | newToken s timeout => exact .inr (.of_spares id id (.newToken s timeout))

/-- What is being done spares a run to which it is no incident, be it done by the run itself. -/
theorem Moment.spares_next (h : m.incident? i = none) : m.schedule.Spares i m.next.schedule := by
  by_cases hm : m.activity.IsOf i
  · obtain ⟨y, hwhat⟩ | ⟨doing, e, next, hdoing, he, heq⟩ := m.incident_or_does hm
    · rw [hwhat, if_pos rfl] at h
      cases h
    · obtain ⟨activity, s⟩ := m
      obtain rfl : activity = _ := heq
      rw [hdoing.incident e next s i he] at h
      rw [hdoing.next e next s he]
      have hbefalls := s.befalls_affect i i e
      rw [h] at hbefalls
      exact hbefalls.spares
  · have hbefalls := (Moment.befalls_next hm).1
    rw [h] at hbefalls
    exact hbefalls.spares

/-- **A turn changes one run only**, unless it is the passing of time. -/
theorem Turn.spares {what : Nat → Option (Incident S.Rest)} (h : Turn m what m') (hm : m.schedule.OwnTokens) :
    (∃ clock, m' = ⟨.idle, { m.schedule with clock := clock }⟩) ∨
    ∃ j, ∀ i, i ≠ j → what i = none ∧ m.schedule.Spares i m'.schedule := by
  -- the run that is changed is the one to which the turn is an incident, and that need not be the one that has the turn
  have hone : (∀ i, what i = none → m.schedule.Spares i m'.schedule) →
      ∃ j, ∀ i, i ≠ j → what i = none ∧ m.schedule.Spares i m'.schedule := by
    intro hspares
    by_cases hwhat : ∃ j y, what j = some y
    · obtain ⟨j, y, hj⟩ := hwhat
      refine ⟨j, fun i hij => ?_⟩
      have hnone : what i = none := Option.eq_none_iff_forall_ne_some.mpr fun z hi => hij (h.eq_of_incident hm hi hj)
      exact ⟨hnone, hspares i hnone⟩
    · have hnone : ∀ i, what i = none := fun i => Option.eq_none_iff_forall_ne_some.mpr fun z hi => hwhat ⟨i, z, hi⟩
      exact ⟨0, fun i _ => ⟨hnone i, hspares i (hnone i)⟩⟩
  cases h with
  | next m => exact .inr (hone fun i hi => Moment.spares_next hi)
  | take s x rest hqueue =>
    have htake : ∀ i, x.fiber? ≠ some i → s.incidentOf? x i = none → s.Spares i ({ s with queue := rest }.take x).schedule := by
      intro i hx hi
      have hbefalls : ({ s with queue := rest } : Schedule S).Befalls i (s.incidentOf? x i) _ := Schedule.befalls_take hx
      rw [hi] at hbefalls
      exact (Schedule.Spares.dequeue hqueue hx).trans hbefalls.spares
    cases hx : x.fiber? with
    | none => exact .inr (hone fun i hi => htake i (hx ▸ nofun) hi)
    | some j =>
      refine .inr ⟨j, fun i hij => ⟨Schedule.incidentOf?_of_fiber? hx i, htake i ?_ (Schedule.incidentOf?_of_fiber? hx i)⟩⟩
      rw [hx]
      exact fun h => hij (Option.some.inj h).symm
  | ring s before t after htimers hdue =>
    refine .inr ⟨t.signal.fiber?.getD 0, fun i hij => ⟨rfl, .ring htimers fun ht => hij ?_⟩⟩
    rw [ht]
    rfl
  | wait s clock => exact .inl ⟨clock, rfl⟩
  | occur s => exact .inr (hone fun i _ => .refl i s)
  | cancel s n reason =>
    refine .inr (hone fun i hi => ?_)
    have hbefalls := s.befalls_cancelToken i n reason
    rw [hi] at hbefalls
    exact hbefalls.spares
  | plan s seconds x hx => exact .inr (hone fun i _ => .after (hx ▸ nofun) s seconds)
  | newToken s timeout => exact .inr (hone fun i _ => .newToken s timeout)

/-! ## Runs that have not been added -/

/-- There is no such run, nothing is due for it, and nothing is being done for it. -/
structure Moment.Lacks (i : Nat) (m : Moment S) : Prop where
  activity : ¬ m.activity.IsOf i
  fiber : m.schedule.fibers[i]? = none
  signals : m.schedule.signalsOf i = []
  timers : m.schedule.timersOf i = []

theorem Moment.Lacks.spare (h : m.Lacks i) (hm' : ¬ m'.activity.IsOf i) (hs : m.schedule.Spares i m'.schedule) : m'.Lacks i :=
  ⟨hm', hs.fiber.trans h.fiber, hs.signals.trans h.signals, hs.timers.trans h.timers⟩

/-- Nothing can befall a run that there is not. -/
theorem Schedule.Befalls.spares_absent {what : Option (Incident S.Rest)} {s' : Schedule S} (h : s.Befalls i what s')
    (hi : s.fibers[i]? = none) : s.Spares i s' := by
  cases h with
  | nothing h => exact h
  | cancelled hn =>
    unfold tokenOf? at hn
    rw [hi] at hn
    cases hn
  | interrupted =>
    unfold interrupt stage?
    rw [hi]
    exact .refl i s

theorem Turn.lacks {what : Nat → Option (Incident S.Rest)} (h : Turn m what m') (hm : m.Lacks i) : m'.Lacks i := by
  obtain hown | ⟨-, hm', s, hspares, hbefalls⟩ := h.own_or_elsewhere i
  · generalize what i = y at hown
    cases hown with
    | next hof => exact absurd hof hm.activity
    | take hqueue hx =>
      have hno := List.filter_eq_nil_iff.mp hm.signals _ (hqueue ▸ List.mem_cons_self)
      exact absurd (beq_iff_eq.mpr hx) hno
    | ring htimers _ ht =>
      have hno := List.filter_eq_nil_iff.mp hm.timers _ (htimers ▸ List.mem_append_cons_self)
      exact absurd (beq_iff_eq.mpr ht) hno
    | wait => exact ⟨id, hm.fiber, hm.signals, hm.timers⟩
  · exact hm.spare hm' (hspares.trans (hbefalls.spares_absent (hspares.fiber.trans hm.fiber)))

/-- **Nothing is due for a run that has not been added.** -/
theorem Hosts.lacks {O : Type} {program : O → S.Rest} {runs : List (Hosted O S.Rest)} (h : Hosts program m runs)
    (hi : runs.length ≤ i) : m.Lacks i := by
  induction h with
  | begin hfibers hqueue htimers =>
    refine ⟨id, by rw [hfibers]; rfl, List.filter_eq_nil_iff.mpr fun x hx => ?_, List.filter_eq_nil_iff.mpr fun t ht => ?_⟩
    · rw [hqueue x hx]
      exact nofun
    · rw [htimers t ht]
      exact nofun
  | launch o token hhosts _ ih =>
    rw [List.length_append] at hi
    refine (ih (Nat.le_of_succ_le hi)).spare id (.launch ?_ _ token)
    exact Nat.ne_of_gt (Nat.lt_of_le_of_lt (Nat.le_of_eq hhosts.count) hi)
  | turn _ hturn ih =>
    rw [List.length_mapIdx] at hi
    exact hturn.lacks (ih hi)

end Runbook
