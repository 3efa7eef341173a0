import Runbook.Proofs.Phase

/-!
# Runs that are hosted together

A schedule hosts any number of runs. It goes on turn by turn: what is being done goes on; else the first signal of the queue is
taken, a timer that is due rings, or time passes; and at any time something may happen beside the runs. Each run has a story: what
happened to it, and when.

* `Incident`: what happens to a run; `Moment.incident?`: what a run has to do with what is being done.
* `Turn`: the turns of a schedule, each with what it is to the runs. **`Schedule.turns_finish`**: all that a schedule does is done
  in turns; `Turn.goes`, `Schedule.goes_finish`: so it goes from moment to moment.
* `Schedule.OwnTokens`, **`Turn.eq_of_incident`**: as long as no two runs have the same token, a turn is an incident to one run only.
* `Hosted`, `Hosts`: the runs that a schedule hosts, with their stories. **`Hosts.ownTokens`**: no two of them have the same token.
-/

namespace Runbook

/-- What happens to a run. -/
inductive Incident (Rest : Type) where
  /-- It goes on, with this left of its program. -/
  | goes (rest : Rest)
  /-- The work for a call of it takes so many seconds. -/
  | pauses (seconds : Binary64)
  /-- The work for a call of it is done, and it is to go on so. -/
  | returns (rest : Rest)
  /-- Its token is cancelled. -/
  | cancelled (reason : String)
  /-- It is interrupted. -/
  | interrupted (message : String)

variable {S : Setting} {s s' : Schedule S} {m m' : Moment S}

/-! ## Turns -/

/-- What the cancellation of a token is to a run. -/
def Schedule.cancelled? (s : Schedule S) (n : Nat) (reason : String) (i : Nat) : Option (Incident S.Rest) :=
  if s.tokenOf? i = some n then some (.cancelled reason) else none

/-- What an effect that is made for the run `j` is to a run. -/
def Schedule.incident? (s : Schedule S) (j : Nat) (e : Effect S.World) (i : Nat) : Option (Incident S.Rest) :=
  match e with
  | .cancel execution reason =>
    (s.running.find? (·.execution == execution)).bind fun r => s.cancelled? r.token reason i
  | .cancelOwn reason => (s.tokenOf? j).bind fun n => s.cancelled? n reason i
  | .interrupt message => if i = j then some (.interrupted message) else none
  | .change _ | .clock | .pause _ | .running => none

/-- What a run has to do with what is being done. -/
def Moment.incident? (m : Moment S) (i : Nat) : Option (Incident S.Rest) :=
  match m.activity with
  | .idle | .beside _ (.done _) => none
  | .run j rest => if i = j then some (.goes rest) else none
  | .task j (.done rest) _ | .aid j (.done rest) => if i = j then some (.returns rest) else none
  | .task j (.ask (.pause seconds) _) _ | .aid j (.ask (.pause seconds) _) => if i = j then some (.pauses seconds) else none
  | .task j (.ask e _) _ | .aid j (.ask e _) | .beside j (.ask e _) => m.schedule.incident? j e i

/-- What a signal is to a run when it is taken. -/
def Schedule.incidentOf? (s : Schedule S) (x : Signal S) (i : Nat) : Option (Incident S.Rest) :=
  match x with
  | .cancel n reason => s.cancelled? n reason i
  | _ => none

/-- The turns of a schedule, with what they are to the runs. How much time passes, and what happens beside the runs, is left
open. -/
inductive Turn : Moment S → (Nat → Option (Incident S.Rest)) → Moment S → Prop where
  /-- What is being done goes on. -/
  | next (m : Moment S) : m.activity ≠ .idle → Turn m m.incident? m.next
  /-- The first signal of the queue is taken. -/
  | take (s : Schedule S) (x : Signal S) (rest : List (Signal S)) : s.queue = x :: rest →
    Turn ⟨.idle, s⟩ (s.incidentOf? x) ({ s with queue := rest }.take x)
  /-- A timer rings. -/
  | ring (s : Schedule S) (before : List (Timer S)) (t : Timer S) (after : List (Timer S)) : s.timers = before ++ t :: after →
    t.due.lt (s.clock.add Schedule.resolution) →
    Turn ⟨.idle, s⟩ (fun _ => none) ⟨.idle, { s with queue := s.queue ++ [t.signal], timers := before ++ after }⟩
  /-- Time passes. -/
  | wait (s : Schedule S) (clock : Binary64) : s.clock.lt clock →
    Turn ⟨.idle, s⟩ (fun _ => none) ⟨.idle, { s with clock := clock }⟩
  /-- Something happens beside the runs, for one of them. -/
  | occur (s : Schedule S) (i : Nat) (work : Work S.World Unit) : Turn ⟨.idle, s⟩ (fun _ => none) ⟨.beside i work, s⟩
  /-- A token is cancelled by who holds it. -/
  | cancel (s : Schedule S) (n : Nat) (reason : String) :
    Turn ⟨.idle, s⟩ (s.cancelled? n reason) ⟨.idle, s.cancelToken n reason⟩
  /-- Something is planned that will happen beside the runs. -/
  | plan (s : Schedule S) (seconds : Binary64) (x : Signal S) : x.fiber? = none →
    Turn ⟨.idle, s⟩ (fun _ => none) ⟨.idle, s.after seconds x⟩
  /-- Somebody makes a token. -/
  | newToken (s : Schedule S) (timeout : Option Binary64) :
    Turn ⟨.idle, s⟩ (fun _ => none) ⟨.idle, (s.newToken timeout).2⟩

/-- A turn is a move, or the preparation of one and the move. -/
theorem Turn.goes {what : Nat → Option (Incident S.Rest)} (h : Turn m what m') : m.Goes m' := by
  cases h with
  | next m => exact .of_move (.next m)
  | take s x rest => exact (Moment.Goes.of_move (.arrange s rest s.timers)).move (.take _ x)
  | ring s before t after => exact .of_move (.arrange s _ _)
  | wait s clock hlt => exact .of_move (.wait s clock hlt)
  | occur s i work => exact .of_move (.take s (.occur i work))
  | cancel s n reason => exact .of_move (.take s (.cancel n reason))
  | plan s seconds x => exact .of_move (.arrange s _ _)
  | newToken s timeout => exact .of_move (.newToken s timeout)

/-- The moments that follow on a moment, turn by turn. -/
def Moment.Turns : Moment S → Moment S → Prop := Relation.ReflTransGen fun m m' => ∃ what, Turn m what m'

namespace Moment.Turns

theorem refl (m : Moment S) : m.Turns m := Relation.ReflTransGen.refl

theorem trans {m'' : Moment S} (h : m.Turns m') (h' : m'.Turns m'') : m.Turns m'' := Relation.ReflTransGen.trans h h'

theorem of_turn {what : Nat → Option (Incident S.Rest)} (h : Turn m what m') : m.Turns m' :=
  Relation.ReflTransGen.single ⟨what, h⟩

theorem goes (h : m.Turns m') : m.Goes m' := by
  induction h with
  | refl => exact .refl m
  | tail _ hturn ih =>
    obtain ⟨what, hturn⟩ := hturn
    exact ih.trans hturn.goes

theorem of_through (h : m.Through (· ≠ .idle) m') : m.Turns m' := by
  induction h with
  | refl => exact refl m
  | tail _ hnext ih =>
    obtain ⟨hactive, rfl⟩ := hnext
    exact ih.trans (of_turn (.next _ hactive))

end Moment.Turns

theorem Moment.Through.mono {P Q : Activity S → Prop} (h : m.Through P m') (hPQ : ∀ a, P a → Q a) : m.Through Q m' :=
  Relation.ReflTransGen.mono (fun _ _ hnext => ⟨hPQ _ hnext.1, hnext.2⟩) _ _ h

/-- What is being done is carried out in turns. -/
theorem Moment.turns_carryOut (m : Moment S) : m.Turns ⟨.idle, m.carryOut⟩ := by
  obtain ⟨activity, s⟩ := m
  have hof : ∀ i, activity.IsOf i → Turns ⟨activity, s⟩ ⟨.idle, carryOut ⟨activity, s⟩⟩ := by
    refine fun i hi => .of_through ((through_carryOut hi).mono fun a ha => ?_)
    rintro rfl
    exact ha
  cases activity with
  | idle => exact .refl _
  | run i rest => exact hof i rfl
  | task i task onFailure => exact hof i rfl
  | aid i task => exact hof i rfl
  | beside i w =>
    have hworks : Moment.Through (· ≠ .idle) ⟨.beside i w, s⟩ ⟨.beside i (Schedule.work i w s).1.rest, (Schedule.work i w s).2⟩ := by
      refine Schedule.through_work i (.beside i ·) (fun _ => nofun) ?_ w s
      intro e next s he
      cases e with
      | pause seconds => exact absurd rfl (he seconds)
      | _ => rfl
    have hend := Turns.of_through (hworks.next nofun)
    unfold Moment.carryOut
    dsimp only
    cases hw : Schedule.work i w s with
    | mk progress s' =>
      rw [hw] at hend
      cases progress with
      | finished u => exact hend
      | paused seconds rest => exact hend

namespace Schedule

theorem turns_handle {x : Signal S} {rest : List (Signal S)} (h : s.queue = x :: rest) :
    Moment.Turns ⟨.idle, s⟩ ⟨.idle, { s with queue := rest }.handle x⟩ :=
  (Moment.Turns.of_turn (.take s x rest h)).trans (Moment.turns_carryOut _)

/-- The timers that are due ring one after the other. -/
theorem turns_ring (s : Schedule S) : Moment.Turns ⟨.idle, s⟩ ⟨.idle, s.ring⟩ := by
  unfold ring
  dsimp only
  generalize htimers : s.timers = timers
  induction timers generalizing s with
  | nil =>
    rw [List.takeWhile_nil, List.dropWhile_nil, List.map_nil, List.append_nil, ← htimers]
    exact .refl _
  | cons t timers ih =>
    by_cases ht : t.due.lt (s.clock.add resolution)
    · rw [List.takeWhile_cons_of_pos (by exact ht), List.dropWhile_cons_of_pos (by exact ht), List.map_cons]
      have hlater := ih { s with queue := s.queue ++ [t.signal], timers := timers } rfl
      dsimp only at hlater
      rw [List.append_assoc, List.singleton_append] at hlater
      exact (Moment.Turns.of_turn (.ring s [] t timers htimers ht)).trans hlater
    · rw [List.takeWhile_cons_of_neg (by exact ht), List.dropWhile_cons_of_neg (by exact ht), List.map_nil, List.append_nil,
        ← htimers]
      exact .refl _

theorem turns_advance (h : s.advance? = some s') : Moment.Turns ⟨.idle, s⟩ ⟨.idle, s'⟩ := by
  unfold advance? at h
  split at h
  · cases h
  · next t rest htimers =>
    split at h
    · cases h
      refine Moment.Turns.trans ?_ (turns_ring _)
      unfold Binary64.max
      split
      · next hlt => exact .of_turn (.wait s t.due hlt)
      · exact .refl _
    · cases h

theorem turns_turn (h : s.turn? = some s') : Moment.Turns ⟨.idle, s⟩ ⟨.idle, s'⟩ := by
  unfold turn? at h
  split at h
  · next hqueue =>
    cases h
    exact turns_handle hqueue
  · exact turns_advance h

theorem turns_settleQueue (n : Nat) (s : Schedule S) : Moment.Turns ⟨.idle, s⟩ ⟨.idle, settleQueue n s⟩ := by
  induction n generalizing s with
  | zero => exact .refl _
  | succ n ih =>
    unfold settleQueue
    split
    · exact .refl _
    · next hqueue => exact (turns_handle hqueue).trans (ih _)

theorem turns_goOn (n : Nat) (s : Schedule S) : Moment.Turns ⟨.idle, s⟩ ⟨.idle, goOn n s⟩ := by
  induction n generalizing s with
  | zero => exact .refl _
  | succ n ih =>
    unfold goOn
    split
    · exact turns_settleQueue _ s
    · split
      · next s' hturn => exact (turns_turn hturn).trans (ih s')
      · exact .refl _

/-- **All that a schedule does is done in turns.** -/
theorem turns_finish (s : Schedule S) : Moment.Turns ⟨.idle, s⟩ ⟨.idle, s.finish⟩ :=
  (turns_ring s).trans (turns_goOn turnLimit _)

/-- So whatever it does, it goes from moment to moment. -/
theorem goes_finish (s : Schedule S) : Moment.Goes ⟨.idle, s⟩ ⟨.idle, s.finish⟩ := (turns_finish s).goes

end Schedule

/-! ## Whose token it is -/

theorem getElem?_concat_of_ne {α : Type} {l : List α} {a : α} {i : Nat} (h : i ≠ l.length) : (l ++ [a])[i]? = l[i]? := by
  rcases Nat.lt_or_gt_of_ne h with hlt | hgt
  · rw [List.getElem?_append_left hlt]
  · rw [List.getElem?_eq_none (by rw [List.length_append]; exact hgt), List.getElem?_eq_none (Nat.le_of_lt hgt)]

namespace Schedule

theorem tokenOf?_launch (s : Schedule S) (rest : S.Rest) (token : Option Nat) :
    (s.launch rest token).2.tokenOf? s.fibers.length = token := by
  show ((s.fibers ++ [_])[s.fibers.length]?).bind (·.token) = token
  rw [List.getElem?_concat_length]
  rfl

/-- No two runs have the same token, and every token of a run has been made. -/
structure OwnTokens (s : Schedule S) : Prop where
  made : ∀ i n, s.tokenOf? i = some n → n < s.tokens.length
  unique : ∀ i j n, s.tokenOf? i = some n → s.tokenOf? j = some n → i = j

/-- A token that can be handed over to a run: there is one, and no run has it. -/
def IsFree (s : Schedule S) (n : Nat) : Prop := n < s.tokens.length ∧ ∀ j, s.tokenOf? j ≠ some n

namespace OwnTokens

theorem of_eq (h : s.OwnTokens) (howner : ∀ i, s'.tokenOf? i = s.tokenOf? i) (htokens : s.tokens.length ≤ s'.tokens.length) :
    s'.OwnTokens where
  made i n hn := Nat.lt_of_lt_of_le (h.made i n (howner i ▸ hn)) htokens
  unique i j n hi hj := h.unique i j n (howner i ▸ hi) (howner j ▸ hj)

theorem of_apart (h : s.OwnTokens) {j : Nat} (hs : Apart j s s') : s'.OwnTokens :=
  h.of_eq hs.tokenOf? (Nat.le_of_eq (congrArg List.length hs.tokens.symm))

theorem cancelToken (h : s.OwnTokens) (n : Nat) (reason : String) : (s.cancelToken n reason).OwnTokens := by
  have hmodify : OwnTokens { s with tokens := s.tokens.modify n fun t => { t with cancelled := some reason } } :=
    h.of_eq (fun _ => rfl) (Nat.le_of_eq (List.length_modify _ _ _).symm)
  exact List.foldlRecOn _ notice hmodify fun s hs i _ => hs.of_apart (Apart.refl i s).notice

theorem affect (h : s.OwnTokens) (j : Nat) (e : Effect S.World) : (s.affect j e).2.OwnTokens := by
  cases e with
  | cancel execution reason =>
    show (s.cancelExecution execution reason).2.OwnTokens
    unfold cancelExecution
    split
    · exact h.cancelToken _ _
    · exact h
  | cancelOwn reason =>
    unfold Schedule.affect
    dsimp only
    split
    · exact h.cancelToken _ _
    · exact h
  | interrupt message => exact h.of_apart ((Apart.refl j s).interrupt message)
  | _ => exact h.of_eq (fun _ => rfl) (Nat.le_refl _)

/-- A token is handed over to a run that has none. -/
theorem give (h : s.OwnTokens) {j n : Nat} (hn : s.IsFree n) (hother : ∀ i, i ≠ j → s'.tokenOf? i = s.tokenOf? i)
    (hown : ∀ m, s'.tokenOf? j = some m → m = n) (htokens : s'.tokens.length = s.tokens.length) : s'.OwnTokens where
  made i m hm := by
    rw [htokens]
    by_cases hi : i = j
    · rw [hown m (hi ▸ hm)]
      exact hn.1
    · exact h.made i m (hother i hi ▸ hm)
  unique i k m hi hk := by
    by_cases hij : i = j <;> by_cases hkj : k = j
    · rw [hij, hkj]
    · rw [hother k hkj, hown m (hij ▸ hi)] at hk
      exact absurd hk (hn.2 k)
    · rw [hother i hij, hown m (hkj ▸ hk)] at hi
      exact absurd hi (hn.2 i)
    · exact h.unique i k m (hother i hij ▸ hi) (hother k hkj ▸ hk)

/-- A new token is free. -/
theorem isFree (h : s.OwnTokens) (timeout : Option Binary64) : (s.newToken timeout).2.IsFree s.tokens.length := by
  refine ⟨?_, fun j hj => Nat.lt_irrefl _ (h.made j _ hj)⟩
  show s.tokens.length < (s.tokens ++ [_]).length
  rw [List.length_append]
  exact Nat.lt_succ_self _

theorem newToken (h : s.OwnTokens) (timeout : Option Binary64) : (s.newToken timeout).2.OwnTokens :=
  h.of_eq (fun _ => rfl) (List.length_append ▸ Nat.le_add_right _ _)

theorem openToken (h : s.OwnTokens) (j : Nat) (timeout : Option Binary64) : (s.openToken j timeout).OwnTokens := by
  unfold Schedule.openToken
  split
  · exact h
  · refine (h.newToken timeout).give (h.isFree timeout) (j := j) (fun i hi => ?_) (fun m hm => ?_) rfl
    · unfold tokenOf? modifyFiber
      rw [List.getElem?_modify_ne _ _ hi.symm]
    · unfold tokenOf? modifyFiber at hm
      rw [List.getElem?_modify_eq] at hm
      obtain ⟨x, hx, hm⟩ := Option.bind_eq_some_iff.mp hm
      obtain ⟨y, -, rfl⟩ := Option.map_eq_some_iff.mp hx
      exact (Option.some.inj hm).symm

theorem respond (h : s.OwnTokens) (j : Nat) (q : Request S.Call) (next : q.Reply S.Answer → S.Rest) :
    (s.respond j q next).schedule.OwnTokens := by
  cases q with
  | openToken timeout => exact h.openToken j timeout
  | enlist execution workflow tenant =>
    show (s.enlist j execution workflow tenant).OwnTokens
    unfold enlist
    split <;> exact h.of_eq (fun _ => rfl) (Nat.le_refl _)
  | delist execution => exact h.of_eq (fun _ => rfl) (Nat.le_refl _)
  | awaitCancel limit => exact h.of_apart ((Apart.refl j s).beginErrand _ _ _)
  | call c limit =>
    cases limit with
    | none => exact h
    | some limit => exact h.of_apart ((Apart.refl j s).beginErrand _ _ _)
  | _ => exact h

theorem take (h : s.OwnTokens) (x : Signal S) : (s.take x).schedule.OwnTokens := by
  cases x with
  | step j interruption => exact h.of_apart ((Apart.refl j s).step _)
  | assist j withdraw => exact h.of_apart ((Apart.refl j s).assist _)
  | release j await => exact h.of_apart ((Apart.refl j s).release _)
  | settle j await => exact h.of_apart ((Apart.refl j s).settle _)
  | occur j work => exact h
  | cancel n reason => exact h.cancelToken n reason

theorem launch (h : s.OwnTokens) (rest : S.Rest) {token : Option Nat} (htoken : ∀ n ∈ token, s.IsFree n) :
    (s.launch rest token).2.OwnTokens := by
  have hother : ∀ i, i ≠ s.fibers.length → (s.launch rest token).2.tokenOf? i = s.tokenOf? i := by
    intro i hi
    show ((s.fibers ++ [_])[i]?).bind (·.token) = (s.fibers[i]?).bind (·.token)
    rw [getElem?_concat_of_ne hi]
  have hown := s.tokenOf?_launch rest token
  cases token with
  | none =>
    refine h.of_eq (fun i => ?_) (Nat.le_refl _)
    by_cases hi : i = s.fibers.length
    · subst hi
      unfold tokenOf? at hown ⊢
      rw [hown, List.getElem?_eq_none (Nat.le_refl _)]
      rfl
    · exact hother i hi
  | some n => exact h.give (htoken n rfl) hother (fun m hm => (Option.some.inj (hown.symm.trans hm)).symm) rfl

end OwnTokens

theorem tokenOf?_of_cancelled? {n : Nat} {reason : String} {i : Nat} {y : Incident S.Rest}
    (h : s.cancelled? n reason i = some y) : s.tokenOf? i = some n :=
  (Option.ite_none_right_eq_some.mp h).1

/-- **An effect is an incident to one run only**, as long as no two runs have the same token. -/
theorem OwnTokens.eq_of_incident? (h : s.OwnTokens) {k i j : Nat} {e : Effect S.World} {y z : Incident S.Rest}
    (hi : s.incident? k e i = some y) (hj : s.incident? k e j = some z) : i = j := by
  cases e with
  | cancel execution reason =>
    obtain ⟨r, hr, hi⟩ := Option.bind_eq_some_iff.mp hi
    obtain ⟨r', hr', hj⟩ := Option.bind_eq_some_iff.mp hj
    obtain rfl := Option.some.inj (hr.symm.trans hr')
    exact h.unique i j r.token (tokenOf?_of_cancelled? hi) (tokenOf?_of_cancelled? hj)
  | cancelOwn reason =>
    obtain ⟨n, hn, hi⟩ := Option.bind_eq_some_iff.mp hi
    obtain ⟨n', hn', hj⟩ := Option.bind_eq_some_iff.mp hj
    obtain rfl := Option.some.inj (hn.symm.trans hn')
    exact h.unique i j n (tokenOf?_of_cancelled? hi) (tokenOf?_of_cancelled? hj)
  | interrupt message => exact (Option.ite_none_right_eq_some.mp hi).1.trans (Option.ite_none_right_eq_some.mp hj).1.symm
  | _ => cases hi

end Schedule

/-- Work that is done for a run, effect by effect. -/
structure Activity.Does (j : Nat) (doing : S.Task → Activity S) : Prop where
  isOf : ∀ task, (doing task).IsOf j
  next : ∀ (e : Effect S.World) (next : e.Reply → S.Task) (s : Schedule S), (∀ seconds, e ≠ .pause seconds) →
    Moment.next ⟨doing (.ask e next), s⟩ = ⟨doing (next (s.affect j e).1), (s.affect j e).2⟩
  incident : ∀ (e : Effect S.World) (next : e.Reply → S.Task) (s : Schedule S) (i : Nat), (∀ seconds, e ≠ .pause seconds) →
    Moment.incident? ⟨doing (.ask e next), s⟩ i = s.incident? j e i

theorem Activity.does_task (j : Nat) (onFailure : Failure → S.Rest) : Does j (.task j · onFailure) where
  isOf _ := rfl
  next e next s he := by cases e <;> first | rfl | exact absurd rfl (he _)
  incident e next s i he := by cases e <;> first | rfl | exact absurd rfl (he _)

theorem Activity.does_aid (j : Nat) : Does j (.aid (S := S) j) where
  isOf _ := rfl
  next e next s he := by cases e <;> first | rfl | exact absurd rfl (he _)
  incident e next s i he := by cases e <;> first | rfl | exact absurd rfl (he _)

/-- What a run does is an incident to it only, or it is an effect of work for it. -/
theorem Moment.incident_or_does {j : Nat} (h : m.activity.IsOf j) :
    (∃ y, ∀ i, m.incident? i = if i = j then some y else none) ∨
    ∃ doing e next, Activity.Does j doing ∧ (∀ seconds, e ≠ .pause seconds) ∧ m.activity = doing (.ask e next) := by
  obtain ⟨activity, s⟩ := m
  cases activity with
  | idle | beside => cases h
  | run k rest =>
    obtain rfl : k = j := h
    exact .inl ⟨_, fun _ => rfl⟩
  | task k task onFailure =>
    obtain rfl : k = j := h
    cases task with
    | done rest => exact .inl ⟨_, fun _ => rfl⟩
    | ask e next =>
      by_cases he : ∃ seconds, e = .pause seconds
      · obtain ⟨seconds, rfl⟩ := he
        exact .inl ⟨_, fun _ => rfl⟩
      · exact .inr ⟨_, e, next, Activity.does_task k onFailure, fun seconds h => he ⟨seconds, h⟩, rfl⟩
  | aid k task =>
    obtain rfl : k = j := h
    cases task with
    | done rest => exact .inl ⟨_, fun _ => rfl⟩
    | ask e next =>
      by_cases he : ∃ seconds, e = .pause seconds
      · obtain ⟨seconds, rfl⟩ := he
        exact .inl ⟨_, fun _ => rfl⟩
      · exact .inr ⟨_, e, next, Activity.does_aid k, fun seconds h => he ⟨seconds, h⟩, rfl⟩

/-- What is being done is an incident to one run, as long as no two runs have the same token. -/
theorem Moment.eq_of_incident? (hm : m.schedule.OwnTokens) {i j : Nat} {y z : Incident S.Rest} (hi : m.incident? i = some y)
    (hj : m.incident? j = some z) : i = j := by
  have hof : ∀ {k}, m.activity.IsOf k → i = j := by
    intro k hk
    obtain ⟨x, hwhat⟩ | ⟨doing, e, next, hdoing, he, heq⟩ := incident_or_does hk
    · rw [hwhat, Option.ite_none_right_eq_some] at hi hj
      exact hi.1.trans hj.1.symm
    · obtain ⟨activity, s⟩ := m
      obtain rfl : activity = _ := heq
      rw [hdoing.incident e next s _ he] at hi hj
      exact hm.eq_of_incident? hi hj
  obtain ⟨activity, s⟩ := m
  cases activity with
  | idle => cases hi
  | run k rest => exact hof rfl
  | task k task onFailure => exact hof rfl
  | aid k task => exact hof rfl
  | beside k work =>
    cases work with
    | done u => cases hi
    | ask e next => exact hm.eq_of_incident? (e := e) hi hj

theorem Turn.ownTokens {what : Nat → Option (Incident S.Rest)} (h : Turn m what m') (hm : m.schedule.OwnTokens) :
    m'.schedule.OwnTokens := by
  cases h with
  | next m =>
    obtain ⟨i, e, -, -, hnext⟩ | ⟨i, q, next, -, hnext⟩ | ⟨i, -, hapart⟩ := m.schedule_next
    · exact hnext ▸ hm.affect i e
    · exact hnext ▸ hm.respond i q next
    · exact hm.of_apart hapart
  | take s x rest hqueue =>
    have hrest : Schedule.OwnTokens { s with queue := rest } := hm.of_eq (fun _ => rfl) (Nat.le_refl _)
    exact hrest.take x
  | cancel s n reason => exact hm.cancelToken n reason
  | newToken s timeout => exact hm.newToken timeout
  | occur => exact hm
  | ring | wait | plan => exact hm.of_eq (fun _ => rfl) (Nat.le_refl _)

/-- The number of runs is as it was. -/
theorem Turn.count {what : Nat → Option (Incident S.Rest)} (h : Turn m what m') :
    m'.schedule.fibers.length = m.schedule.fibers.length := by
  cases h with
  | next m =>
    obtain ⟨i, e, -, -, hnext⟩ | ⟨i, q, next, -, hnext⟩ | ⟨i, -, hapart⟩ := m.schedule_next
    · exact hnext ▸ (Schedule.Steady.affect _ _ e).count
    · exact hnext ▸ Schedule.count_respond q next
    · exact hapart.count
  | take s x rest hqueue => exact (Schedule.Steady.take { s with queue := rest } x).count
  | cancel s n reason => exact (Schedule.Steady.cancelToken s n reason).count
  | ring | wait | occur | plan | newToken => rfl

/-- **A turn is an incident to one run only**, as long as no two runs have the same token. -/
theorem Turn.eq_of_incident {what : Nat → Option (Incident S.Rest)} (h : Turn m what m') (hm : m.schedule.OwnTokens) {i j : Nat}
    {y z : Incident S.Rest} (hi : what i = some y) (hj : what j = some z) : i = j := by
  have hcancelled : ∀ n reason, m.schedule.cancelled? n reason i = some y → m.schedule.cancelled? n reason j = some z → i = j :=
    fun n _ hi hj => hm.unique i j n (Schedule.tokenOf?_of_cancelled? hi) (Schedule.tokenOf?_of_cancelled? hj)
  cases h with
  | next m => exact Moment.eq_of_incident? hm hi hj
  | take s x rest hqueue =>
    cases x with
    | cancel n reason => exact hcancelled n reason hi hj
    | _ => cases hi
  | cancel s n reason => exact hcancelled n reason hi hj
  | ring | wait | occur | plan | newToken => cases hi

/-! ## Hosted runs -/

/-- A run that is hosted: what was ordered, when it was added and with which token, and what has happened to it. -/
structure Hosted (O Rest : Type) where
  order : O
  since : Binary64
  token : Option Token
  story : List (Binary64 × Incident Rest)

/-- The run after an incident, if it is one for this run. -/
def Hosted.after {O Rest : Type} (x : Hosted O Rest) (clock : Binary64) (what : Option (Incident Rest)) : Hosted O Rest :=
  { x with story := x.story ++ (what.map (clock, ·)).toList }

/-- The moments of a schedule that hosts runs of programs, with the runs. It begins with no run, and runs are added one by one, at
any time, without a token or with a token that no other run has. -/
inductive Hosts {O : Type} (program : O → S.Rest) : Moment S → List (Hosted O S.Rest) → Prop where
  | begin {s : Schedule S} : s.fibers = [] → (∀ x ∈ s.queue, x.fiber? = none) → (∀ t ∈ s.timers, t.signal.fiber? = none) →
    Hosts program ⟨.idle, s⟩ []
  | launch {s : Schedule S} {runs : List (Hosted O S.Rest)} (o : O) (token : Option Nat) : Hosts program ⟨.idle, s⟩ runs →
    (∀ n ∈ token, s.IsFree n) →
    Hosts program ⟨.idle, (s.launch (program o) token).2⟩ (runs ++ [⟨o, s.clock, token.bind (s.tokens[·]?), []⟩])
  | turn {m m' : Moment S} {runs : List (Hosted O S.Rest)} {what : Nat → Option (Incident S.Rest)} : Hosts program m runs →
    Turn m what m' → Hosts program m' (runs.mapIdx fun i x => x.after m.schedule.clock (what i))

theorem Hosts.ownTokens {O : Type} {program : O → S.Rest} {runs : List (Hosted O S.Rest)} (h : Hosts program m runs) :
    m.schedule.OwnTokens := by
  induction h with
  | begin hfibers =>
    have hnone : ∀ i n, Schedule.tokenOf? _ i ≠ some n := fun i n => by
      unfold Schedule.tokenOf?
      rw [hfibers]
      exact nofun
    exact ⟨fun i n hn => absurd hn (hnone i n), fun i _ n hn => absurd hn (hnone i n)⟩
  | launch o token _ hfree ih => exact ih.launch _ hfree
  | turn _ hturn ih => exact hturn.ownTokens ih

/-- The runs of the list are the runs of the schedule. -/
theorem Hosts.count {O : Type} {program : O → S.Rest} {runs : List (Hosted O S.Rest)} (h : Hosts program m runs) :
    m.schedule.fibers.length = runs.length := by
  induction h with
  | begin hfibers => exact congrArg List.length hfibers
  | launch o token _ _ ih =>
    rw [List.length_append, ← ih]
    exact List.length_append
  | turn _ hturn ih => rw [hturn.count, ih, List.length_mapIdx]

/-- The runs go on with the schedule. -/
theorem Hosts.turns {O : Type} {program : O → S.Rest} {runs : List (Hosted O S.Rest)} (h : Hosts program m runs)
    (hm : m.Turns m') : ∃ runs', Hosts program m' runs' ∧ runs'.map (·.order) = runs.map (·.order) := by
  induction hm with
  | refl => exact ⟨runs, h, rfl⟩
  | tail _ hturn ih =>
    obtain ⟨runs', hhosts, horders⟩ := ih
    obtain ⟨what, hturn⟩ := hturn
    refine ⟨_, hhosts.turn hturn, ?_⟩
    rw [← horders]
    refine List.ext_getElem? fun i => ?_
    rw [List.getElem?_map, List.getElem?_map, List.getElem?_mapIdx, Option.map_map]
    rfl

end Runbook
