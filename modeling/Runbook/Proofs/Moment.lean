import Mathlib.Logic.Relation
import Runbook.Schedule.Turn

/-!
# The moments of a schedule

A schedule goes on signal by signal, and a signal may keep a run busy for many requests and effects. Between two of them lies
a moment: what is being done, and the state in which it is done. Laws about what happens while something else is under way are
laws about moments.

* `Schedule.affect`, `Schedule.respond`: what comes of a single effect, and of a single request.
* `Moment.next`, `Move`, `Moment.Goes`: the moment after a moment, and the moments that may follow on one.
* `Activity.IsOf`, `Moment.Through`: whose doing it is, and the moments that follow while it is.
* **`Moment.through_carryOut`**, **`Moment.goes_carryOut`**: what is being done is carried out from moment to moment.
-/

namespace Runbook

/-- What is left of work at a pause, or at its end. -/
def Progress.rest {World α : Type} : Progress World α → Work World α
  | .finished a => .done a
  | .paused seconds rest => .ask (.pause seconds) fun _ => rest

namespace Schedule

variable {S : Setting} {α β : Type}

/-! ## Single effects and requests -/

/-- What an effect answers that is made for a run, and the state after it. A pause is the end of a moment, not an effect
in it. -/
def affect (s : Schedule S) (i : Nat) : (e : Effect S.World) → e.Reply × Schedule S
  | .change f => (s.world, { s with world := f s.world })
  | .clock => (s.clock, s)
  | .pause _ => ((), s)
  | .running => (s.runningList, s)
  | .cancel execution reason => s.cancelExecution execution reason
  | .cancelOwn reason => ((), match s.tokenOf? i with
    | some n => s.cancelToken n reason
    | none => s)
  | .interrupt message => ((), s.interrupt i message)

/-- What is done when a run makes a request. -/
def respond (s : Schedule S) (i : Nat) : (q : Request S.Call) → (q.Reply S.Answer → S.Rest) → Moment S
  | .now, next => ⟨.run i (next s.clock), s⟩
  | .token, next => ⟨.run i (next (s.tokenView i)), s⟩
  | .openToken timeout, next => ⟨.run i (next ()), s.openToken i timeout⟩
  | .enlist execution workflow tenant, next => ⟨.run i (next ()), s.enlist i execution workflow tenant⟩
  | .delist execution, next => ⟨.run i (next ()), s.delist execution⟩
  | .awaitCancel limit, next => ⟨.idle, s.beginErrand i limit (.watch (next (.ok true))) (watchFailure next)⟩
  | .call c (some limit), next =>
    ⟨.idle, s.beginErrand i limit (.work (next <$> S.perform c)) fun f => next (.error f)⟩
  | .call c none, next => ⟨.task i (next <$> S.perform c) fun f => next (.error f), s⟩

/-- Leaves the assistant of a run waiting for a pause to end. -/
def pauseAssistant (s : Schedule S) (i : Nat) (seconds : Binary64) (task : S.Task) : Schedule S :=
  let (a, s) := s.newAwait
  (s.after seconds (.settle i a.id)).setAssistant i (.pausing a task)

end Schedule

open Schedule

variable {S : Setting} {α β : Type}

/-- The moment after a moment: what is being done goes on by one request or effect. -/
def Moment.next : Moment S → Moment S
  | ⟨.idle, s⟩ => ⟨.idle, s⟩
  | ⟨.run i (.done result), s⟩ => ⟨.idle, s.finishRun i result⟩
  | ⟨.run i (.ask q next), s⟩ => s.respond i q next
  | ⟨.task i (.done rest) _, s⟩ => ⟨.run i rest, s⟩
  | ⟨.task i (.ask (.pause seconds) next) onFailure, s⟩ => ⟨.idle, s.beginPause i seconds (next ()) onFailure⟩
  | ⟨.task i (.ask e next) onFailure, s⟩ => ⟨.task i (next (s.affect i e).1) onFailure, (s.affect i e).2⟩
  | ⟨.aid i (.done rest), s⟩ => ⟨.idle, s.endAssistant i (some rest)⟩
  | ⟨.aid i (.ask (.pause seconds) next), s⟩ => ⟨.idle, s.pauseAssistant i seconds (next ())⟩
  | ⟨.aid i (.ask e next), s⟩ => ⟨.aid i (next (s.affect i e).1), (s.affect i e).2⟩
  | ⟨.beside _ (.done _), s⟩ => ⟨.idle, s⟩
  | ⟨.beside _ (.ask (.pause _) _), s⟩ => ⟨.idle, s⟩
  | ⟨.beside i (.ask e next), s⟩ => ⟨.beside i (next (s.affect i e).1), (s.affect i e).2⟩

/-- What may come next: what is being done goes on, or, when nothing is being done, any signal is taken, time passes, or a run
or a token is added. What is due is left open, so that a law about moves holds for every order of events. -/
inductive Move : Moment S → Moment S → Prop where
  | next (m : Moment S) : Move m m.next
  | take (s : Schedule S) (x : Signal S) : Move ⟨.idle, s⟩ (s.take x)
  | arrange (s : Schedule S) (queue : List (Signal S)) (timers : List (Timer S)) :
    Move ⟨.idle, s⟩ ⟨.idle, { s with queue := queue, timers := timers }⟩
  | wait (s : Schedule S) (clock : Binary64) : s.clock.lt clock → Move ⟨.idle, s⟩ ⟨.idle, { s with clock := clock }⟩
  | launch (s : Schedule S) (rest : S.Rest) (token : Option Nat) : Move ⟨.idle, s⟩ ⟨.idle, (s.launch rest token).2⟩
  | newToken (s : Schedule S) (timeout : Option Binary64) : Move ⟨.idle, s⟩ ⟨.idle, (s.newToken timeout).2⟩

/-- The effect that is asked for at a moment. -/
def Activity.effect? : Activity S → Option (Effect S.World)
  | .task _ (.ask e _) _ | .aid _ (.ask e _) | .beside _ (.ask e _) => some e
  | _ => none

/-- The reason that an effect gives for a cancellation. -/
def Effect.reason? {World : Type} : Effect World → Option String
  | .cancel _ reason | .cancelOwn reason => some reason
  | _ => none

/-- A cancellation with a reason, in the move from a moment to the next one. -/
inductive Moment.Cancels : Moment S → Moment S → String → Prop where
  | effect {m : Moment S} {e : Effect S.World} {reason : String} :
    m.activity.effect? = some e → e.reason? = some reason → Cancels m m.next reason
  | signal {s : Schedule S} {n : Nat} {reason : String} : Cancels ⟨.idle, s⟩ (s.take (.cancel n reason)) reason

/-- The moments that may follow on a moment, itself among them. -/
def Moment.Goes : Moment S → Moment S → Prop := Relation.ReflTransGen Move

namespace Moment.Goes

variable {m m' m'' : Moment S}

theorem refl (m : Moment S) : m.Goes m := Relation.ReflTransGen.refl

theorem trans (h : m.Goes m') (h' : m'.Goes m'') : m.Goes m'' := Relation.ReflTransGen.trans h h'

theorem move (h : m.Goes m') (h' : Move m' m'') : m.Goes m'' := Relation.ReflTransGen.tail h h'

theorem next (h : m.Goes m') : m.Goes m'.next := h.move (.next m')

theorem of_move (h : Move m m') : m.Goes m' := (refl m).move h

end Moment.Goes

/-- On the way from one moment to another there is a cancellation with this reason. -/
def Moment.CancelsUntil (m m' : Moment S) (reason : String) : Prop :=
  ∃ m₁ m₂, m.Goes m₁ ∧ Move m₁ m₂ ∧ m₂.Goes m' ∧ m₁.Cancels m₂ reason

/-! ## What is being done is carried out moment by moment -/

/-- What is being done is done by this run or its assistant. -/
def Activity.IsOf (i : Nat) : Activity S → Prop
  | .run j _ | .task j _ _ | .aid j _ => j = i
  | .idle | .beside .. => False

/-- Whoever does something makes the next move. -/
theorem Move.eq_next_of_isOf {i : Nat} {m m' : Moment S} (h : Move m m') (hm : m.activity.IsOf i) : m' = m.next := by
  cases h <;> first | rfl | cases hm

/-- The moments in which what is being done goes on, as long as it is of this kind. -/
def Moment.Through (P : Activity S → Prop) : Moment S → Moment S → Prop :=
  Relation.ReflTransGen fun m m' => P m.activity ∧ m' = m.next

namespace Moment.Through

variable {P : Activity S → Prop} {m m' m'' : Moment S}

theorem refl (m : Moment S) : m.Through P m := Relation.ReflTransGen.refl

theorem trans (h : m.Through P m') (h' : m'.Through P m'') : m.Through P m'' := Relation.ReflTransGen.trans h h'

theorem next (h : m.Through P m') (hP : P m'.activity) : m.Through P m'.next := Relation.ReflTransGen.tail h ⟨hP, rfl⟩

theorem goes (h : m.Through P m') : m.Goes m' := by
  induction h with
  | refl => exact .refl m
  | tail _ hnext ih =>
    obtain ⟨-, rfl⟩ := hnext
    exact ih.next

end Moment.Through

namespace Schedule

theorem work_map (i : Nat) (f : α → β) (w : Work S.World α) (s : Schedule S) :
    (work i (f <$> w) s).1.rest = f <$> (work i w s).1.rest ∧ (work i (f <$> w) s).2 = (work i w s).2 := by
  induction w generalizing s with
  | done a => exact ⟨rfl, rfl⟩
  | ask e next ih =>
    cases e with
    | pause seconds => exact ⟨rfl, rfl⟩
    | _ => exact ih _ _

/-- Work goes on effect by effect up to its next pause. -/
theorem through_work {P : Activity S → Prop} (i : Nat) (doing : Work S.World α → Activity S) (hP : ∀ w, P (doing w))
    (hnext : ∀ (e : Effect S.World) (next : e.Reply → Work S.World α) (s : Schedule S), (∀ seconds, e ≠ .pause seconds) →
      Moment.next ⟨doing (.ask e next), s⟩ = ⟨doing (next (s.affect i e).1), (s.affect i e).2⟩)
    (w : Work S.World α) (s : Schedule S) :
    Moment.Through P ⟨doing w, s⟩ ⟨doing (work i w s).1.rest, (work i w s).2⟩ := by
  induction w generalizing s with
  | done a => exact .refl _
  | ask e next ih =>
    by_cases hp : ∃ seconds, e = .pause seconds
    · obtain ⟨seconds, rfl⟩ := hp
      exact .refl _
    · have hfirst : Moment.Through P ⟨doing (.ask e next), s⟩ ⟨doing (next (s.affect i e).1), (s.affect i e).2⟩ :=
        hnext e next s (fun seconds h => hp ⟨seconds, h⟩) ▸ (Moment.Through.refl _).next (hP _)
      have hlater : work i (.ask e next) s = work i (next (s.affect i e).1) (s.affect i e).2 := by
        cases e with
        | pause seconds => exact absurd ⟨seconds, rfl⟩ hp
        | _ => rfl
      rw [hlater]
      exact hfirst.trans (ih _ _)

theorem through_task (i : Nat) (task : S.Task) (onFailure : Failure → S.Rest) (s : Schedule S) :
    Moment.Through (·.IsOf i) ⟨.task i task onFailure, s⟩ ⟨.task i (work i task s).1.rest onFailure, (work i task s).2⟩ := by
  refine through_work i (.task i · onFailure) (fun _ => rfl) ?_ task s
  intro e next s he
  cases e with
  | pause seconds => exact absurd rfl (he seconds)
  | _ => rfl

theorem through_aid (i : Nat) (task : S.Task) (s : Schedule S) :
    Moment.Through (·.IsOf i) ⟨.aid i task, s⟩ ⟨.aid i (work i task s).1.rest, (work i task s).2⟩ := by
  refine through_work i (.aid i ·) (fun _ => rfl) ?_ task s
  intro e next s he
  cases e with
  | pause seconds => exact absurd rfl (he seconds)
  | _ => rfl

theorem goes_beside (i : Nat) (w : Work S.World Unit) (s : Schedule S) :
    Moment.Goes ⟨.beside i w, s⟩ ⟨.beside i (work i w s).1.rest, (work i w s).2⟩ := by
  refine Moment.Through.goes (P := fun _ => True) (through_work i (.beside i ·) (fun _ => trivial) ?_ w s)
  intro e next s he
  cases e with
  | pause seconds => exact absurd rfl (he seconds)
  | _ => rfl

section Call

variable {i : Nat} {s s' : Schedule S} {c : S.Call} {next : Request.Reply S.Answer (.call c none) → S.Rest}

/-- A run that makes a call goes on with the answer once the work for it is done, -/
theorem drive_finished {a : Except Failure (S.Answer c)} (h : work i (S.perform c) s = (.finished a, s')) :
    drive i (.ask (.call c none) next) s = drive i (next a) s' := by
  simp only [drive]
  rw [h]

/-- and waits where the work does. -/
theorem drive_paused {seconds : Binary64} {rest : Work S.World (Except Failure (S.Answer c))}
    (h : work i (S.perform c) s = (.paused seconds rest, s')) :
    drive i (.ask (.call c none) next) s = s'.beginPause i seconds (next <$> rest) fun f => next (.error f) := by
  simp only [drive]
  rw [h]

end Call

/-- Work that a run does itself is carried out up to its next wait if what follows on the work is. -/
theorem through_workedOut (i : Nat) (f : α → S.Rest) (w : Work S.World α) (onFailure : Failure → S.Rest) (s : Schedule S)
    (hf : ∀ a s, Moment.Through (·.IsOf i) ⟨.run i (f a), s⟩ ⟨.idle, drive i (f a) s⟩) :
    Moment.Through (·.IsOf i) ⟨.task i (f <$> w) onFailure, s⟩ ⟨.idle, match work i w s with
      | (.finished a, s) => drive i (f a) s
      | (.paused seconds rest, s) => s.beginPause i seconds (f <$> rest) onFailure⟩ := by
  have hwork := through_task i (f <$> w) onFailure s
  obtain ⟨hrest, hstate⟩ := work_map i f w s
  rw [hrest, hstate] at hwork
  have hend := hwork.next rfl
  cases hw : work i w s with
  | mk progress s' =>
    rw [hw] at hend
    cases progress with
    | finished a => exact hend.trans (hf a s')
    | paused seconds rest => exact hend

theorem through_drive (i : Nat) (rest : S.Rest) (s : Schedule S) :
    Moment.Through (·.IsOf i) ⟨.run i rest, s⟩ ⟨.idle, drive i rest s⟩ := by
  induction rest generalizing s with
  | done result => exact (Moment.Through.refl _).next rfl
  | ask q next ih =>
    have hnext : Moment.Through (·.IsOf i) ⟨.run i (.ask q next), s⟩ (s.respond i q next) := (Moment.Through.refl _).next rfl
    cases q with
    | call c limit =>
      cases limit with
      | none =>
        have hwork := through_workedOut (α := Except Failure (S.Answer c)) i next (S.perform c) (fun f => next (.error f)) s ih
        refine hnext.trans ?_
        simp only [drive]
        generalize work i (S.perform c) s = result at hwork ⊢
        obtain ⟨answer | ⟨seconds, left⟩, s'⟩ := result <;> exact hwork
      | some limit => exact hnext
    | awaitCancel limit => exact hnext
    | _ => exact hnext.trans (ih _ _)

end Schedule

/-- What a run or its assistant does is carried out by it alone. -/
theorem Moment.through_carryOut {i : Nat} {m : Moment S} (h : m.activity.IsOf i) :
    m.Through (·.IsOf i) ⟨.idle, m.carryOut⟩ := by
  obtain ⟨activity, s⟩ := m
  cases activity with
  | idle => cases h
  | beside => cases h
  | run j rest =>
    obtain rfl : j = i := h
    exact through_drive j rest s
  | task j task onFailure =>
    obtain rfl : j = i := h
    have hend := (through_task j task onFailure s).next rfl
    unfold Moment.carryOut driveTask
    dsimp only
    cases hw : work j task s with
    | mk progress s' =>
      rw [hw] at hend
      cases progress with
      | finished rest => exact hend.trans (through_drive j rest s')
      | paused seconds rest => exact hend
  | aid j task =>
    obtain rfl : j = i := h
    have hend := (through_aid j task s).next rfl
    unfold Moment.carryOut assistTask
    dsimp only
    cases hw : work j task s with
    | mk progress s' =>
      rw [hw] at hend
      cases progress with
      | finished rest => exact hend
      | paused seconds rest => exact hend

/-- **What is being done is carried out moment by moment.** -/
theorem Moment.goes_carryOut (m : Moment S) : m.Goes ⟨.idle, m.carryOut⟩ := by
  obtain ⟨activity, s⟩ := m
  have hof : ∀ i, activity.IsOf i → Goes ⟨activity, s⟩ ⟨.idle, carryOut ⟨activity, s⟩⟩ := fun i h => (through_carryOut h).goes
  cases activity with
  | idle => exact .refl _
  | run i rest => exact hof i rfl
  | task i task onFailure => exact hof i rfl
  | aid i task => exact hof i rfl
  | beside i w =>
    have hend := (goes_beside i w s).next
    unfold Moment.carryOut
    dsimp only
    cases hw : work i w s with
    | mk progress s' =>
      rw [hw] at hend
      cases progress with
      | finished u => exact hend
      | paused seconds rest => exact hend

namespace Schedule

/-- A signal is handled from moment to moment. -/
theorem goes_handle (s : Schedule S) (x : Signal S) : Moment.Goes ⟨.idle, s⟩ ⟨.idle, s.handle x⟩ :=
  ((Moment.Goes.refl _).move (.take s x)).trans (Moment.goes_carryOut _)

end Schedule

end Runbook
