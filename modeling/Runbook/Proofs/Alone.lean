import Runbook.Proofs.Cancel
import Runbook.Proofs.Taped

/-!
# A run as it is alone

A run that is hosted with others goes the way that it goes alone. It is followed, turn by turn, by a run that is hosted alone in front
of a tape: a turn of the run is taken by the run alone, what befalls the run befalls the run alone, and all other turns are left out.

* `Schedule.Mirrors.befalls`, `Schedule.Mirrors.effect`: what befalls a run, and an effect of its work, for the run alone.
* `Follows`, **`Turn.follows`**: every turn is followed by each run alone.
* **`Hosts.exists_alone`**: each run that is hosted can be hosted alone, with the same story.
* **`Engine.hosted_runs_are_independent`**: any number of runs of one engine are independent of each other.
-/

namespace Runbook

/-! ## Turns of a run alone -/

section Alone

variable {S : Setting} {O : Type} {x : Hosted O S.Rest}

theorem Hosted.after_none {Rest : Type} (x : Hosted O Rest) (clock : Binary64) : x.after clock none = x := by
  unfold Hosted.after
  rw [Option.map_none, Option.toList_none, List.append_nil]

namespace Hosts

variable {program : O → S.Rest} {m m' : Moment S} {s : Schedule S}

theorem turn_alone {what : Nat → Option (Incident S.Rest)} (h : Hosts program m [x]) (hturn : Turn m what m') :
    Hosts program m' [x.after m.schedule.clock (what 0)] :=
  h.turn hturn

theorem next_alone (h : Hosts program m [x]) (hbusy : m.activity ≠ .idle) :
    Hosts program m.next [x.after m.schedule.clock (m.incident? 0)] :=
  h.turn_alone (.next m hbusy)

theorem effect_alone {doing : S.Task → Activity S} (hdoing : Activity.Does 0 doing) {e : Effect S.World}
    {next : e.Reply → S.Task} (h : Hosts program ⟨doing (.ask e next), s⟩ [x]) (he : ∀ seconds, e ≠ .pause seconds) :
    Hosts program ⟨doing (next (s.affect 0 e).1), (s.affect 0 e).2⟩ [x.after s.clock (s.incident? 0 e 0)] := by
  have hbusy : doing (.ask e next) ≠ .idle := by
    intro hidle
    have hof := hdoing.isOf (.ask e next)
    rw [hidle] at hof
    exact hof
  have hnext := h.next_alone hbusy
  rw [hdoing.next e next s he, hdoing.incident e next s 0 he] at hnext
  exact hnext

/-- The run alone is interrupted by what happens beside it. -/
theorem interrupt_alone (h : Hosts program ⟨.idle, s⟩ [x]) (message : String) :
    Hosts program ⟨.idle, s.interrupt 0 message⟩ [x.after s.clock (some (.interrupted message))] := by
  have hoccur := h.turn_alone (.occur s 0 (Work.interrupt message))
  rw [Hosted.after_none] at hoccur
  have hinterrupt := hoccur.next_alone nofun
  have hdone := hinterrupt.next_alone nofun
  have hnone : Moment.incident? (Moment.next ⟨.beside 0 (Work.interrupt message), s⟩) 0 = none := rfl
  rw [hnone, Hosted.after_none] at hdone
  exact hdone

theorem cancel_alone (h : Hosts program ⟨.idle, s⟩ [x]) {n : Nat} (hn : s.tokenOf? 0 = some n) (reason : String) :
    Hosts program ⟨.idle, s.cancelToken n reason⟩ [x.after s.clock (some (.cancelled reason))] := by
  have hcancel := h.turn_alone (.cancel s n reason)
  have hwhat : s.cancelled? n reason 0 = some (.cancelled reason) := if_pos hn
  rw [hwhat] at hcancel
  exact hcancel

end Hosts

namespace Schedule

variable {i : Nat} {L : List Nat} {tape : Tape S.World} {s s₁ : Schedule S} {s' : Schedule S.taped} {program : O → S.Rest}

/-- **What befalls a run befalls it alone.** -/
theorem Mirrors.befalls {what : Option (Incident S.Rest)} (h : s.Mirrors i L tape s') (hwhat : s.Befalls i what s₁)
    (hhosts : Hosts (S := S.taped) program ⟨.idle, s'⟩ [x]) :
    ∃ s'', Hosts (S := S.taped) program ⟨.idle, s''⟩ [x.after s.clock what] ∧ s₁.Mirrors i L tape s'' := by
  cases hwhat with
  | nothing hspares =>
    rw [Hosted.after_none]
    exact ⟨s', hhosts, h.spare hspares⟩
  | cancelled hn =>
    obtain ⟨n', hn'⟩ := h.exists_tokenOf? hn
    rw [← h.clock]
    exact ⟨_, hhosts.cancel_alone hn' _, h.cancelToken hn hn' _⟩
  | interrupted =>
    rw [← h.clock]
    exact ⟨_, hhosts.interrupt_alone _, h.interrupt _⟩

/-- What the work of a run finds by an effect. -/
def readings (s : Schedule S) (i : Nat) : Effect S.World → List (Reading S.World)
  | .change _ | .running => [⟨s.world, s.runningList, false, false⟩]
  | .cancel execution reason =>
    [⟨s.world, s.runningList, (s.cancelExecution execution reason).1, (s.incident? i (.cancel execution reason) i).isSome⟩]
  | .clock | .pause _ | .cancelOwn _ | .interrupt _ => []

theorem incident?_interrupt {S : Setting} (s : Schedule S) (i : Nat) (message : String) :
    s.incident? i (.interrupt message) i = some (.interrupted message) := by
  unfold incident?
  exact if_pos rfl

section Effects

variable {doing : S.taped.Task → Activity S.taped} (hdoing : Activity.Does 0 doing)

include hdoing

/-- A reading is taken from the tape. -/
theorem Mirrors.read {r : Reading S.World} (h : s.Mirrors i L ([r] ++ₛ tape) s') (hs : s.Spares i s₁)
    {next : Tape S.World → S.taped.Task}
    (hhosts : Hosts (S := S.taped) program ⟨doing (.ask (.change Stream'.tail) next), s'⟩ [x]) :
    ∃ s'', Hosts (S := S.taped) program ⟨doing (next (Stream'.cons r tape)), s''⟩ [x] ∧ s₁.Mirrors i L tape s'' := by
  have hworld : s'.world = Stream'.cons r tape := h.world
  have hread := hhosts.effect_alone hdoing nofun
  have hnone : s'.incident? 0 (.change Stream'.tail) 0 = none := rfl
  have hreply : (s'.affect 0 (.change Stream'.tail)).1 = Stream'.cons r tape := hworld
  rw [hnone, Hosted.after_none, hreply] at hread
  refine ⟨_, hread, { h.spare hs with world := ?_ }⟩
  show Stream'.tail s'.world = tape
  rw [hworld, Stream'.tail_cons]

/-- The run alone cancels its own token if the run does. -/
theorem Mirrors.cancelOwn {n : Nat} (h : s.Mirrors i L tape s') (hn : s.tokenOf? i = some n) {reason : String}
    {task : S.taped.Task} (hhosts : Hosts (S := S.taped) program ⟨doing (.ask (.cancelOwn reason) fun _ => task), s'⟩ [x]) :
    ∃ s'', Hosts (S := S.taped) program ⟨doing task, s''⟩ [x.after s.clock (some (.cancelled reason))] ∧
      (s.cancelToken n reason).Mirrors i L tape s'' := by
  obtain ⟨n', hn'⟩ := h.exists_tokenOf? hn
  have hcancel := hhosts.effect_alone hdoing nofun
  have haffect : (s'.affect 0 (.cancelOwn reason)).2 = s'.cancelToken n' reason := by
    unfold affect
    rw [hn']
  have hincident : s'.incident? 0 (.cancelOwn reason) 0 = some (.cancelled reason) := by
    show ((s'.tokenOf? 0).bind fun n => s'.cancelled? n reason 0) = _
    rw [hn', Option.bind_some]
    exact if_pos hn'
  rw [haffect, hincident, h.clock] at hcancel
  exact ⟨_, hcancel, h.cancelToken hn hn' reason⟩

/-- An execution is cancelled for a run. If its token is the token of the run, the run alone cancels its own. -/
theorem Mirrors.cancelExecution {execution reason : String} {next : Bool → S.Task}
    (h : s.Mirrors i L (s.readings i (.cancel execution reason) ++ₛ tape) s')
    (hhosts : Hosts (S := S.taped) program ⟨doing (Work.taped (.ask (.cancel execution reason) next)), s'⟩ [x]) :
    ∃ s'', Hosts (S := S.taped) program ⟨doing (Work.taped (next (s.cancelExecution execution reason).1)), s''⟩
        [x.after s.clock (s.incident? i (.cancel execution reason) i)] ∧
      (s.cancelExecution execution reason).2.Mirrors i L tape s'' := by
  have hincident : s.incident? i (.cancel execution reason) i =
      (s.running.find? (·.execution == execution)).bind fun r => s.cancelled? r.token reason i := rfl
  have h : s.Mirrors i L ([⟨s.world, s.runningList, (s.cancelExecution execution reason).1,
    (s.incident? i (.cancel execution reason) i).isSome⟩] ++ₛ tape) s' := h
  rw [hincident] at h ⊢
  unfold Schedule.cancelExecution at h ⊢
  cases hfind : s.running.find? (·.execution == execution) with
  | none =>
    rw [hfind] at h
    rw [Option.bind_none, Hosted.after_none]
    exact h.read hdoing (.refl i s) hhosts
  | some r =>
    rw [hfind] at h
    rw [Option.bind_some] at h ⊢
    by_cases hn : s.tokenOf? i = some r.token
    · have hcancelled : s.cancelled? r.token reason i = some (.cancelled reason) := if_pos hn
      rw [hcancelled] at h ⊢
      obtain ⟨s'', hread, hmirrors⟩ := h.read hdoing (.refl i s) hhosts
      exact hmirrors.cancelOwn hdoing hn hread
    · have hnone : s.cancelled? r.token reason i = none := if_neg hn
      rw [hnone] at h ⊢
      rw [Hosted.after_none]
      exact h.read hdoing (.cancelToken hn reason) hhosts

/-- A run that has no token cancels nothing. -/
theorem Mirrors.cancelNone (h : s.Mirrors i L tape s') (hn : s.tokenOf? i = none) {reason : String} {task : S.taped.Task}
    (hhosts : Hosts (S := S.taped) program ⟨doing (.ask (.cancelOwn reason) fun _ => task), s'⟩ [x]) :
    Hosts (S := S.taped) program ⟨doing task, s'⟩ [x] := by
  have hn' := h.tokenOf?_eq_none hn
  have hcancel := hhosts.effect_alone hdoing nofun
  have haffect : (s'.affect 0 (.cancelOwn reason)).2 = s' := by
    unfold affect
    rw [hn']
  have hnone : s'.incident? 0 (.cancelOwn reason) 0 = none := by
    unfold incident?
    rw [hn']
    rfl
  rw [haffect, hnone, Hosted.after_none] at hcancel
  exact hcancel

/-- **An effect for a run has its counterpart for the run alone**, with the answer that stands on the tape. -/
theorem Mirrors.effect {e : Effect S.World} (h : s.Mirrors i L (s.readings i e ++ₛ tape) s') (he : ∀ seconds, e ≠ .pause seconds)
    {next : e.Reply → S.Task}
    (hhosts : Hosts (S := S.taped) program ⟨doing (Work.taped (.ask e next)), s'⟩ [x]) :
    ∃ s'', Hosts (S := S.taped) program ⟨doing (Work.taped (next (s.affect i e).1)), s''⟩
        [x.after s.clock (s.incident? i e i)] ∧ (s.affect i e).2.Mirrors i L tape s'' := by
  cases e with
  | change f =>
    have hchange : s.Spares i { s with world := f s.world } := { Spares.refl i s with }
    rw [show s.incident? i (.change f) i = none from rfl, Hosted.after_none]
    exact h.read hdoing hchange hhosts
  | running =>
    rw [show s.incident? i .running i = none from rfl, Hosted.after_none]
    exact h.read hdoing (.refl i s) hhosts
  | clock =>
    have hread := hhosts.effect_alone hdoing nofun
    have hnone : s'.incident? 0 .clock 0 = none := rfl
    have hreply : (s'.affect 0 .clock).1 = (s.affect i .clock).1 := h.clock
    rw [hnone, Hosted.after_none, hreply] at hread
    rw [show s.incident? i .clock i = none from rfl, Hosted.after_none]
    exact ⟨s', hread, h⟩
  | pause seconds => exact absurd rfl (he seconds)
  | cancel execution reason => exact h.cancelExecution hdoing hhosts
  | cancelOwn reason =>
    have hincident : s.incident? i (.cancelOwn reason) i = (s.tokenOf? i).bind fun n => s.cancelled? n reason i := rfl
    rw [hincident]
    unfold affect
    dsimp only
    cases hn : s.tokenOf? i with
    | none =>
      rw [Option.bind_none, Hosted.after_none]
      exact ⟨s', h.cancelNone hdoing hn hhosts, h⟩
    | some n =>
      have hcancelled : s.cancelled? n reason i = some (.cancelled reason) := if_pos hn
      rw [Option.bind_some, hcancelled]
      exact h.cancelOwn hdoing hn hhosts
  | interrupt message =>
    have hinterrupt := hhosts.effect_alone hdoing nofun
    rw [incident?_interrupt, h.clock] at hinterrupt
    rw [incident?_interrupt]
    exact ⟨_, hinterrupt, h.interrupt message⟩

end Effects

end Schedule

/-! ## Following a run -/

section Follow

variable {i : Nat} {tape : Tape S.World} {m m' : Moment S} {s : Schedule S} {program : O → S.Rest}

/-- A turn is followed by the run alone: if it finds what the run has found, the same comes to it, and it is where the run is. -/
def Follows (program : O → S.Rest) (i : Nat) (m m' : Moment S) (what : Option (Incident S.Rest)) : Prop :=
  ∃ readings : List (Reading S.World), ∀ (tape : Tape S.World) (alone : Moment S.taped) (x : Hosted O S.Rest),
    m.Mirrors i (readings ++ₛ tape) alone → Hosts (S := S.taped) program alone [x] →
      ∃ alone', Hosts (S := S.taped) program alone' [x.after m.schedule.clock what] ∧ m'.Mirrors i tape alone'

theorem Moment.Mirrors.eq_idle {alone : Moment S.taped} (h : m.Mirrors i tape alone) (hm : ¬ m.activity.IsOf i) :
    ∃ s' L, alone = ⟨.idle, s'⟩ ∧ m.schedule.Mirrors i L tape s' := by
  obtain ⟨activity, s⟩ := m
  obtain ⟨activity', s'⟩ := alone
  obtain ⟨halike, L, hs⟩ := h
  cases halike with
  | elsewhere => exact ⟨s', L, rfl, hs⟩
  | run | task | aid => exact absurd rfl hm

/-- What is done by others is followed by what befalls the run. -/
theorem follows_elsewhere {what : Option (Incident S.Rest)} (h : Elsewhere i m what m') : Follows program i m m' what := by
  refine ⟨[], fun tape alone x hmirrors hhosts => ?_⟩
  obtain ⟨s', L, rfl, hs'⟩ := hmirrors.eq_idle h.before
  obtain ⟨s, hs, hwhat⟩ := h.befalls
  obtain ⟨s'', hhosts', hs''⟩ := (hs'.spare hs).befalls hwhat hhosts
  rw [hs.clock] at hhosts'
  exact ⟨⟨.idle, s''⟩, hhosts', .elsewhere h.after, L, hs''⟩

theorem Activity.Alike.eq_run {rest : S.Rest} {a : Activity S.taped} (h : (Activity.run i rest).Alike i a) :
    a = .run 0 rest := by
  cases h with
  | elsewhere h => exact absurd rfl h
  | run => rfl

theorem Activity.Alike.eq_task {task : S.Task} {onFailure : Failure → S.Rest} {a : Activity S.taped}
    (h : (Activity.task i task onFailure).Alike i a) : a = .task 0 (Work.taped task) onFailure := by
  cases h with
  | elsewhere h => exact absurd rfl h
  | task => rfl

theorem Activity.Alike.eq_aid {task : S.Task} {a : Activity S.taped} (h : (Activity.aid i task).Alike i a) :
    a = .aid 0 (Work.taped task) := by
  cases h with
  | elsewhere h => exact absurd rfl h
  | aid => rfl

/-- What is being done goes on alike for the run alone. -/
theorem follows_of_next {a : Activity S} {a' : Activity S.taped} {what : Option (Incident S.Rest)}
    (halike : ∀ b, a.Alike i b → b = a') (hbusy : a' ≠ .idle)
    (hwhat : ∀ s' : Schedule S.taped, Moment.incident? ⟨a', s'⟩ 0 = what)
    (hnext : ∀ tape L s', s.Mirrors i L tape s' → m'.Mirrors i tape (Moment.next ⟨a', s'⟩)) :
    Follows program i ⟨a, s⟩ m' what := by
  refine ⟨[], fun tape alone x hmirrors hhosts => ?_⟩
  obtain ⟨activity', s'⟩ := alone
  obtain ⟨hactivity, L, hs⟩ := hmirrors
  obtain rfl : activity' = a' := halike _ hactivity
  have hgoes := hhosts.next_alone hbusy
  have hclock : s'.clock = s.clock := hs.clock
  rw [hwhat, hclock] at hgoes
  exact ⟨_, hgoes, hnext tape L s' hs⟩

/-- An effect of the work for a run is followed by the run alone. -/
theorem follows_effect {doing : S.Task → Activity S} {doing' : S.taped.Task → Activity S.taped} (hdoing : Activity.Does i doing)
    (hdoing' : Activity.Does 0 doing') (halike : ∀ task, (doing task).Alike i (doing' (Work.taped task)))
    (heq : ∀ task b, (doing task).Alike i b → b = doing' (Work.taped task)) {e : Effect S.World} (next : e.Reply → S.Task)
    (he : ∀ seconds, e ≠ .pause seconds) :
    Follows program i ⟨doing (.ask e next), s⟩ (Moment.next ⟨doing (.ask e next), s⟩)
      (Moment.incident? ⟨doing (.ask e next), s⟩ i) := by
  rw [hdoing.next e next s he, hdoing.incident e next s i he]
  refine ⟨s.readings i e, fun tape alone x hmirrors hhosts => ?_⟩
  obtain ⟨activity', s'⟩ := alone
  obtain ⟨hactivity, L, hs⟩ := hmirrors
  obtain rfl : activity' = _ := heq _ _ hactivity
  obtain ⟨s'', hhosts', hs''⟩ := hs.effect hdoing' he hhosts
  exact ⟨_, hhosts', halike _, L, hs''⟩

/-- What a run does itself is done by it alone. -/
theorem follows_next (hm : m.activity.IsOf i) : Follows program i m m.next (m.incident? i) := by
  obtain ⟨activity, s⟩ := m
  cases activity with
  | idle => cases hm
  | beside => cases hm
  | run j rest =>
    obtain rfl : j = i := hm
    have hwhat : Moment.incident? ⟨.run j rest, s⟩ j = some (.goes rest) := if_pos rfl
    rw [hwhat]
    refine follows_of_next (fun _ h => h.eq_run) nofun (fun _ => rfl) fun tape L s' hs => ?_
    cases rest with
    | done result => exact (hs.finishRun result).idle
    | ask q next => exact hs.respond q next
  | task j task onFailure =>
    obtain rfl : j = i := hm
    cases task with
    | done rest =>
      have hwhat : Moment.incident? ⟨.task j (.done rest) onFailure, s⟩ j = some (.returns rest) := if_pos rfl
      rw [hwhat]
      exact follows_of_next (fun _ h => h.eq_task) nofun (fun _ => rfl) fun tape L s' hs => hs.run rest
    | ask e next =>
      by_cases he : ∃ seconds, e = .pause seconds
      · obtain ⟨seconds, rfl⟩ := he
        have hwhat : Moment.incident? ⟨.task j (.ask (.pause seconds) next) onFailure, s⟩ j = some (.pauses seconds) :=
          if_pos rfl
        rw [hwhat]
        exact follows_of_next (fun _ h => h.eq_task) nofun (fun _ => rfl) fun tape L s' hs =>
          (hs.beginPause seconds _ onFailure).idle
      · exact follows_effect (Activity.does_task j onFailure) (Activity.does_task (S := S.taped) 0 onFailure)
          (fun _ => .task _ _) (fun _ _ h => h.eq_task) next fun seconds h => he ⟨seconds, h⟩
  | aid j task =>
    obtain rfl : j = i := hm
    cases task with
    | done rest =>
      have hwhat : Moment.incident? ⟨.aid j (.done rest), s⟩ j = some (.returns rest) := if_pos rfl
      rw [hwhat]
      exact follows_of_next (fun _ h => h.eq_aid) nofun (fun _ => rfl) fun tape L s' hs => (hs.endAssistant (some rest)).idle
    | ask e next =>
      by_cases he : ∃ seconds, e = .pause seconds
      · obtain ⟨seconds, rfl⟩ := he
        have hwhat : Moment.incident? ⟨.aid j (.ask (.pause seconds) next), s⟩ j = some (.pauses seconds) := if_pos rfl
        rw [hwhat]
        exact follows_of_next (fun _ h => h.eq_aid) nofun (fun _ => rfl) fun tape L s' hs =>
          (hs.pauseAssistant seconds _).idle
      · exact follows_effect (Activity.does_aid j) (Activity.does_aid (S := S.taped) 0) (fun _ => .aid _)
          (fun _ _ h => h.eq_aid) next fun seconds h => he ⟨seconds, h⟩

/-- A signal for the run is taken from the queue of the run alone. -/
theorem follows_take {y : Signal S} {rest : List (Signal S)} (hqueue : s.queue = y :: rest) (hy : y.fiber? = some i) :
    Follows program i ⟨.idle, s⟩ ({ s with queue := rest }.take y) none := by
  refine ⟨[], fun tape alone x hmirrors hhosts => ?_⟩
  obtain ⟨s', L, rfl, hs⟩ := hmirrors.eq_idle id
  have hsignals : s.signalsOf i = y :: ({ s with queue := rest } : Schedule S).signalsOf i := by
    unfold Schedule.signalsOf
    rw [hqueue]
    exact List.filter_cons_of_pos (beq_iff_eq.mpr hy)
  have hdue := hs.signals
  rw [hsignals] at hdue
  obtain ⟨y', rest', hy', hrest, hqueue'⟩ := List.forall₂_cons_left_iff.mp hdue
  have hrests : Schedule.Mirrors i L tape { s with queue := rest } { s' with queue := rest' } :=
    { hs with signals := hrest }
  have htake := hhosts.turn_alone (.take s' y' rest' hqueue')
  have hfiber' : y'.fiber? = some 0 := by cases hy' <;> rfl
  rw [Schedule.incidentOf?_of_fiber? hfiber', Hosted.after_none] at htake
  rw [Hosted.after_none]
  exact ⟨_, htake, hrests.take hy'⟩

/-- A timer of the run rings for the run alone. -/
theorem follows_ring {before after : List (Timer S)} {t : Timer S} (htimers : s.timers = before ++ t :: after)
    (hdue : t.due.lt (s.clock.add Schedule.resolution)) (ht : t.signal.fiber? = some i) :
    Follows program i ⟨.idle, s⟩ ⟨.idle, { s with queue := s.queue ++ [t.signal], timers := before ++ after }⟩ none := by
  refine ⟨[], fun tape alone x hmirrors hhosts => ?_⟩
  obtain ⟨s', L, rfl, hs⟩ := hmirrors.eq_idle id
  have hsplit : (s.timersOf i).Perm (t :: ({ s with timers := before ++ after } : Schedule S).timersOf i) := by
    unfold Schedule.timersOf
    rw [htimers]
    have hmiddle : (before ++ t :: after).Perm (t :: (before ++ after)) := List.perm_middle
    have hfirst := hmiddle.filter (·.signal.fiber? == some i)
    rwa [List.filter_cons_of_pos (by rw [ht, beq_self_eq_true])] at hfirst
  have hset := hs.timers
  rw [Multiset.coe_eq_coe.mpr hsplit, ← Multiset.cons_coe, Multiset.rel_cons_left] at hset
  obtain ⟨t', others, ht', hothers, htimers'⟩ := hset
  have hmem : t' ∈ s'.timers := by
    rw [← Multiset.mem_coe, htimers']
    exact Multiset.mem_cons_self t' others
  obtain ⟨before', after', hsplit'⟩ := List.append_of_mem hmem
  have hothers' : others = ((before' ++ after' : List (Timer S.taped)) : Multiset (Timer S.taped)) := by
    refine (Multiset.cons_inj_right t').mp ?_
    rw [← htimers', Multiset.cons_coe, hsplit']
    exact Multiset.coe_eq_coe.mpr List.perm_middle
  have hrests : Schedule.Mirrors i L tape { s with timers := before ++ after } { s' with timers := before' ++ after' } :=
    { hs with timers := hothers' ▸ hothers }
  have hdue' : t'.due.lt (s'.clock.add Schedule.resolution) := by
    rw [ht'.due, hs.clock]
    exact hdue
  have hring := hhosts.turn_alone (.ring s' before' t' after' hsplit' hdue')
  rw [Hosted.after_none] at hring ⊢
  exact ⟨_, hring, (hrests.signal ht'.signal).idle⟩

/-- Time passes for the run alone as for all. -/
theorem follows_wait {clock : Binary64} (hclock : s.clock.lt clock) :
    Follows program i ⟨.idle, s⟩ ⟨.idle, { s with clock := clock }⟩ none := by
  refine ⟨[], fun tape alone x hmirrors hhosts => ?_⟩
  obtain ⟨s', L, rfl, hs⟩ := hmirrors.eq_idle id
  have hclock' : s'.clock.lt clock := hs.clock ▸ hclock
  have hwait := hhosts.turn_alone (.wait s' clock hclock')
  rw [Hosted.after_none] at hwait ⊢
  have hlater : Schedule.Mirrors i L tape { s with clock := clock } { s' with clock := clock } := { hs with clock := rfl }
  exact ⟨_, hwait, hlater.idle⟩

/-- **Every turn is followed by each run alone.** -/
theorem Turn.follows {what : Nat → Option (Incident S.Rest)} (h : Turn m what m') (i : Nat) :
    Follows program i m m' (what i) := by
  obtain hown | helsewhere := h.own_or_elsewhere i
  · generalize what i = y at hown ⊢
    cases hown with
    | next hm => exact follows_next hm
    | take hqueue hy => exact follows_take hqueue hy
    | ring htimers hdue ht => exact follows_ring htimers hdue ht
    | wait hclock => exact follows_wait hclock
  · exact follows_elsewhere helsewhere

end Follow

/-! ## Runs alone -/

section Runs

variable {i : Nat} {m : Moment S} {s : Schedule S} {program : O → S.Rest} {runs : List (Hosted O S.Rest)}

/-- A run that is added is added alone, with its token only. -/
theorem Schedule.mirrors_launch {token token' : Option Nat} {tokens' : List Token}
    (hlacks : Moment.Lacks s.fibers.length ⟨.idle, s⟩) (htoken : TokenAlike s.tokens tokens' token token') (rest : S.Rest)
    (tape : Tape S.World) : Mirrors s.fibers.length [] tape (s.launch rest token).2
      (({ world := tape, clock := s.clock, tokens := tokens' } : Schedule S.taped).launch rest token').2 where
  world := rfl
  clock := rfl
  fiber := ⟨_, _, List.getElem?_concat_length, rfl, .ready rest, rfl⟩
  token := by
    rw [s.tokenOf?_launch]
    exact htoken
  signals := by
    have hsignals : (s.launch rest token).2.signalsOf s.fibers.length = [.step s.fibers.length none] := by
      have hnone : s.queue.filter (·.fiber? == some s.fibers.length) = [] := hlacks.signals
      unfold signalsOf
      show List.filter _ (s.queue ++ [Signal.step s.fibers.length none]) = _
      rw [List.filter_append, hnone, List.nil_append]
      exact List.filter_cons_of_pos (beq_self_eq_true _)
    rw [hsignals]
    exact .cons (.step none) .nil
  timers := by
    have htimers : (s.launch rest token).2.timersOf s.fibers.length = [] := hlacks.timers
    rw [htimers]
    exact .zero
  count := rfl
  nodup := List.nodup_nil
  bound _ ha := absurd ha List.not_mem_nil

theorem Hosts.exists_launched {token : Option Nat} (o : O) (h : Hosts program ⟨.idle, s⟩ runs) (hfree : ∀ n ∈ token, s.IsFree n)
    (tape : Tape S.World) : ∃ alone : Moment S.taped,
      Hosts (S := S.taped) program alone [⟨o, s.clock, token.bind (s.tokens[·]?), []⟩] ∧
        Moment.Mirrors runs.length tape ⟨.idle, (s.launch (program o) token).2⟩ alone := by
  have hlacks : Moment.Lacks s.fibers.length ⟨.idle, s⟩ := h.lacks (Nat.le_of_eq h.count.symm)
  have hcount : s.fibers.length = runs.length := h.count
  have hbegin : ∀ tokens', Hosts (S := S.taped) program ⟨.idle, { world := tape, clock := s.clock, tokens := tokens' }⟩ [] :=
    fun _ => .begin rfl nofun nofun
  rw [← hcount]
  cases token with
  | none => exact ⟨_, (hbegin []).launch o none nofun, (Schedule.mirrors_launch hlacks .none _ tape).idle⟩
  | some n =>
    have hn := (hfree n rfl).1
    have ht : s.tokens[n]? = some s.tokens[n] := List.getElem?_eq_getElem hn
    rw [Option.bind_some, ht]
    refine ⟨_, (hbegin [s.tokens[n]]).launch o (some 0) ?_, (Schedule.mirrors_launch hlacks (.some ht rfl) _ tape).idle⟩
    intro n' hn'
    cases hn'
    exact ⟨Nat.one_pos, fun _ => nofun⟩

/-- **Each run that is hosted can be hosted alone**: with the same story, in a state that is the state of the run. -/
theorem Hosts.exists_alone {x : Hosted O S.Rest} (h : Hosts program m runs) (hx : runs[i]? = some x) (tape : Tape S.World) :
    ∃ alone : Moment S.taped, Hosts (S := S.taped) program alone [x] ∧ m.Mirrors i tape alone := by
  induction h generalizing x tape with
  | begin => cases hx
  | @launch s runs o token hhosts hfree ih =>
    by_cases hi : i = runs.length
    · subst hi
      rw [List.getElem?_concat_length] at hx
      cases hx
      exact hhosts.exists_launched o hfree tape
    · rw [getElem?_concat_of_ne hi] at hx
      obtain ⟨alone, halone, hmirrors⟩ := ih hx tape
      obtain ⟨s', L, rfl, hs⟩ := hmirrors.eq_idle id
      have hne : i ≠ s.fibers.length := fun h => hi (h.trans hhosts.count)
      exact ⟨_, halone, (hs.spare (.launch hne _ token)).idle⟩
  | turn hhosts hturn ih =>
    rw [List.getElem?_mapIdx] at hx
    obtain ⟨y, hy, rfl⟩ := Option.map_eq_some_iff.mp hx
    -- what is found in this turn stands on the tape behind what was found before, and before all that is still to be found
    obtain ⟨readings, hfollows⟩ : Follows program i _ _ _ := hturn.follows i
    obtain ⟨alone, halone, hmirrors⟩ := ih hy (readings ++ₛ tape)
    exact hfollows tape alone y hmirrors halone

end Runs

end Alone

theorem Schedule.Mirrors.result? {S : Setting} {i : Nat} {L : List Nat} {tape : Tape S.World} {s : Schedule S}
    {s' : Schedule S.taped} (h : s.Mirrors i L tape s') : s'.result? 0 = s.result? i := by
  obtain ⟨x, x', hx, hx', halike⟩ := h.stage
  unfold Schedule.result?
  rw [hx, hx']
  cases halike <;> rfl

namespace Engine

variable {World : Type} {perform : (c : Call) → Work World (Except Failure c.Answer)} {m : Moment (setting World perform)}

/-- **Runs that are hosted together are independent.** Any number of runs are added to one engine, each without a token or with one
that no other run has, and go on in any order; tokens are cancelled, runs are interrupted, and time passes, at any moment. Each of
the runs can then be hosted alone, for the same order, with the same token and with the same story: step by step it has the same
left to do, at the same time of the clock, its work takes the same time and returns the same, and it is cancelled and interrupted
as it was. Only what its own calls found in the world is taken over, answer by answer. Hosted alone it finds the same token, and it
has ended if it has ended among the others, with the same result.

And no turn changes two runs: unless time passes, it is an incident to one run at most, and leaves every other run where it was,
with its token and with what is due for it. -/
theorem hosted_runs_are_independent (g : Engine) {runs : List (Hosted Order (setting World perform).Rest)}
    (h : Hosts (fun o => (g.run o).run) m runs) :
    (∀ i x, runs[i]? = some x → ∃ alone : Moment (setting World perform).taped,
      Hosts (S := (setting World perform).taped) (fun o => (g.run o).run) alone [x] ∧
        alone.schedule.clock = m.schedule.clock ∧ alone.schedule.tokenView 0 = m.schedule.tokenView i ∧
        alone.schedule.result? 0 = m.schedule.result? i) ∧
    ∀ what m', Turn m what m' → (∃ clock, m' = ⟨.idle, { m.schedule with clock := clock }⟩) ∨
      ∃ j, ∀ i, i ≠ j → what i = none ∧ m.schedule.Spares i m'.schedule := by
  refine ⟨fun i x hx => ?_, fun what m' hturn => hturn.spares h.ownTokens⟩
  have tape : Tape World := fun _ => ⟨m.schedule.world, [], false, false⟩
  obtain ⟨alone, halone, -, L, hs⟩ := h.exists_alone hx tape
  exact ⟨alone, halone, hs.clock, hs.tokenView, hs.result?⟩

end Engine

namespace Checking

/-- A schedule with two tokens. -/
def paired : Schedule (Engine.setting (List String) (closing "last")) := { world := [], tokens := [{}, {}] }

/-- Two runs for the same order, each with a token of its own. -/
def twins : Schedule (Engine.setting (List String) (closing "last")) :=
  ((paired.launch (({} : Engine).run order).run (some 0)).2.launch (({} : Engine).run order).run (some 1)).2

theorem hosts_twins : Hosts (fun o => (({} : Engine).run o).run) ⟨.idle, twins⟩
    [⟨order, Binary64.zero false, some {}, []⟩, ⟨order, Binary64.zero false, some {}, []⟩] := by
  have hbegin : Hosts (fun o => (({} : Engine).run o).run) ⟨.idle, paired⟩ [] :=
    .begin rfl (fun _ hx => absurd hx List.not_mem_nil) fun _ ht => absurd ht List.not_mem_nil
  refine (hbegin.launch order (some 0) ?_).launch order (some 1) ?_
  · intro n hn
    cases hn
    exact ⟨by decide, fun _ => nofun⟩
  · intro n hn
    cases hn
    refine ⟨by decide, fun j => ?_⟩
    cases j <;> exact nofun

/-- One of two runs is cancelled before it begins, and all goes on to the end: the other one is as it is alone. -/
theorem twin_is_as_alone : ∃ runs x, Hosts (fun o => (({} : Engine).run o).run) ⟨.idle, (twins.cancelToken 0 "stop").finish⟩ runs ∧
    runs[1]? = some x ∧ x.order = order ∧ ∃ alone : Moment (Engine.setting (List String) (closing "last")).taped,
      Hosts (S := (Engine.setting (List String) (closing "last")).taped) (fun o => (({} : Engine).run o).run) alone [x] ∧
        alone.schedule.result? 0 = (twins.cancelToken 0 "stop").finish.result? 1 := by
  have hcancelled := hosts_twins.turn (.cancel twins 0 "stop")
  obtain ⟨runs, hruns, horders⟩ := hcancelled.turns (Schedule.turns_finish _)
  have hsecond : (runs.map (·.order))[1]? = some order := by
    rw [horders]
    rfl
  rw [List.getElem?_map] at hsecond
  obtain ⟨x, hx, horder⟩ := Option.map_eq_some_iff.mp hsecond
  obtain ⟨alone, halone, -, -, hresult⟩ := (Engine.hosted_runs_are_independent {} hruns).1 1 x hx
  exact ⟨runs, x, hruns, hx, horder, alone, halone, hresult⟩

end Checking

end Runbook
