import Mathlib.Algebra.Order.Ring.Unbundled.Rat
import Mathlib.Data.Prod.Lex
import Runbook.Proofs.Frame

/-!
# A run by itself

A run that is the last of its schedule and the only one that has not ended. What it does between two waits is an equation, so
what it does altogether is a chain of turns, each of which takes the one signal that is due or moves the clock to the one
timer that is next.

* `Binary64.IsSharp`, `Binary64.Before`, `Binary64.Told`: times that the clock tells apart.
* `Schedule.host`: a schedule with one more run; `Schedule.mark`: a token of it that is cancelled, if a reason is given.
* `Schedule.Turns`, `Schedule.Reaches`: where a number of turns leads.
* `Schedule.planned`, `Schedule.byThen`: a cancellation that is set for a time, and whether it comes by another.
* **`Schedule.turns_wait`**: a run waits until its next timers come up, and a cancellation that is set for then comes first.
-/

namespace Runbook

namespace Binary64

/-! ## The order of times -/

/-- The place of a number in the order by value, where the infinities come before and after all finite numbers. -/
def rank : Binary64 → Int ×ₗ Rat
  | nan _ => toLex (0, 0)
  | inf s => toLex (if s then -1 else 1, 0)
  | finite s m e => toLex (0, value s m e)

theorem lt_iff_rank {x y : Binary64} : x.lt y ↔ x.isNaN = false ∧ y.isNaN = false ∧ x.rank < y.rank := by
  rw [lt_iff]
  cases x with
  | nan => simp [compare?, isNaN]
  | inf s =>
    cases y with
    | nan => simp [compare?, isNaN]
    | inf t => cases s <;> cases t <;> simp [compare?, isNaN, rank, compare, Prod.Lex.toLex_lt_toLex]
    | finite t n f => cases s <;> simp [compare?, isNaN, rank, Prod.Lex.toLex_lt_toLex]
  | finite s m e =>
    cases y with
    | nan => simp [compare?, isNaN]
    | inf t => cases t <;> simp [compare?, isNaN, rank, Prod.Lex.toLex_lt_toLex]
    | finite t n f =>
      simp only [compare?, Option.some.injEq, ite_eq_left_iff, not_lt, isNaN, rank,
        Prod.Lex.toLex_lt_toLex, lt_self_iff_false, true_and, false_or]
      grind

theorem le_iff_rank {x y : Binary64} : x.le y ↔ x.isNaN = false ∧ y.isNaN = false ∧ x.rank ≤ y.rank := by
  rw [le_iff]
  cases x with
  | nan => simp [compare?, isNaN]
  | inf s =>
    cases y with
    | nan => simp [compare?, isNaN]
    | inf t => cases s <;> cases t <;> simp [compare?, isNaN, rank, compare, Prod.Lex.toLex_le_toLex]
    | finite t n f => cases s <;> simp [compare?, isNaN, rank, Prod.Lex.toLex_le_toLex]
  | finite s m e =>
    cases y with
    | nan => simp [compare?, isNaN]
    | inf t => cases t <;> simp [compare?, isNaN, rank, Prod.Lex.toLex_le_toLex]
    | finite t n f =>
      simp only [compare?, Option.some.injEq, ite_eq_left_iff, not_lt, isNaN, rank,
        Prod.Lex.toLex_le_toLex, lt_self_iff_false, true_and, false_or]
      grind

variable {x y z : Binary64}

theorem lt_trans (h : x.lt y) (h' : y.lt z) : x.lt z := by
  rw [lt_iff_rank] at h h' ⊢
  exact ⟨h.1, h'.2.1, h.2.2.trans h'.2.2⟩

theorem lt_asymm (h : x.lt y) : y.lt x = false := by
  rw [Bool.eq_false_iff, ne_eq, lt_iff_rank]
  rw [lt_iff_rank] at h
  exact fun h' => h.2.2.not_gt h'.2.2

theorem lt_irrefl (x : Binary64) : x.lt x = false := by
  rw [Bool.eq_false_iff, ne_eq, lt_iff_rank]
  exact fun h => h.2.2.ne rfl

theorem le_of_lt (h : x.lt y) : x.le y := by
  rw [lt_iff_rank] at h
  exact le_iff_rank.mpr ⟨h.1, h.2.1, h.2.2.le⟩

theorem not_le_of_lt (h : x.lt y) : y.le x = false := by
  rw [Bool.eq_false_iff, ne_eq, le_iff_rank]
  rw [lt_iff_rank] at h
  exact fun h' => h'.2.2.not_gt h.2.2

theorem lt_of_not_le (hx : x.isNaN = false) (hy : y.isNaN = false) (h : y.le x = false) : x.lt y := by
  rw [Bool.eq_false_iff, ne_eq, le_iff_rank] at h
  exact lt_iff_rank.mpr ⟨hx, hy, lt_of_not_ge fun h' => h ⟨hy, hx, h'⟩⟩

theorem max_of_lt (h : x.lt y) : x.max y = y := if_pos h

/-- A time that the clock tells apart from all later ones that are not its neighbours. -/
def IsSharp (x : Binary64) : Prop := x.lt (x.add Schedule.resolution)

/-- A time is before another for the clock, which does not tell all times apart. -/
def Before (x y : Binary64) : Prop := x.lt y ∧ y.lt (x.add Schedule.resolution) = false

/-- Two times that the clock tells apart, unless they are the same. -/
def Told (x y : Binary64) : Prop := x = y ∨ x.Before y ∨ y.Before x

instance : Decidable x.IsSharp := inferInstanceAs (Decidable (_ = true))

instance : Decidable (x.Before y) := inferInstanceAs (Decidable (_ ∧ _))

instance : Decidable (x.Told y) := inferInstanceAs (Decidable (_ ∨ _))

theorem Before.trans (h : x.Before y) (h' : y.lt z) : x.Before z := by
  refine ⟨lt_trans h.1 h', Bool.eq_false_iff.mpr fun hz => ?_⟩
  exact Bool.false_ne_true (h.2.symm.trans (lt_trans h' hz))

theorem IsSharp.le_self (h : x.IsSharp) : x.le x :=
  le_iff_rank.mpr ⟨(lt_iff_rank.mp h).1, (lt_iff_rank.mp h).1, le_refl _⟩

theorem IsSharp.isFinite (h : x.IsSharp) : x.isFinite := by
  cases x with
  | nan => cases h
  | inf s => cases s <;> cases h
  | finite => rfl

end Binary64

/-- Nothing that a run waits for here is brought about by a cancellation. -/
def Stage.IsDeaf {S : Setting} : Stage S → Prop
  | .limited _ assistant .. | .draining _ assistant .. => assistant.noticed = none
  | _ => True

namespace Schedule

variable {S : Setting} {s s' s'' : Schedule S} {n : Nat} {stage : Stage S}

/-! ## A run that is the last of its schedule -/

/-- The schedule with one more run, which is somewhere and has the token `n`. -/
def host (s : Schedule S) (n : Nat) (stage : Stage S) : Schedule S :=
  { s with fibers := s.fibers ++ [{ stage := stage, token := some n }] }

theorem fiber_host : (s.host n stage).fibers[s.fibers.length]? = some { stage := stage, token := some n } :=
  List.getElem?_concat_length

theorem stage_host : (s.host n stage).stage? s.fibers.length = some stage := by
  rw [stage?, fiber_host]
  rfl

theorem tokenOf_host : (s.host n stage).tokenOf? s.fibers.length = some n := by
  rw [tokenOf?, fiber_host]
  rfl

theorem tokenView_host : (s.host n stage).tokenView s.fibers.length = ⟨s.tokens[n]?.getD {}, s.clock⟩ := by
  rw [tokenView, tokenOf_host]
  rfl

theorem modify_concat {α : Type} (f : α → α) (xs : List α) (a : α) : (xs ++ [a]).modify xs.length f = xs ++ [f a] := by
  induction xs with
  | nil => rfl
  | cons x xs ih => exact congrArg (x :: ·) ih

theorem modifyFiber_host (f : Fiber S → Fiber S) :
    (s.host n stage).modifyFiber s.fibers.length f =
      { s with fibers := s.fibers ++ [f { stage := stage, token := some n }] } := by
  rw [modifyFiber, host, modify_concat]

theorem setStage_host (stage' : Stage S) : (s.host n stage).setStage s.fibers.length stage' = s.host n stage' :=
  modifyFiber_host _

theorem suspend_host (stage' : Stage S) : (s.host n stage).suspend s.fibers.length stage' = s.host n stage' := by
  rw [suspend, setStage_host, fiber_host]
  rfl

theorem finishRun_host (result : S.Result) :
    (s.host n stage).finishRun s.fibers.length result = s.host n (.ended (.ok result)) := by
  rw [finishRun, fiber_host]
  exact setStage_host _

/-! ## What signals do to it -/

section Signals

variable {a b : Await} {assistant : Assistant S} {task : S.Task} {rest : S.Rest} {withdrawn : Bool} {limit : Nat}
  {cause : Failure} {onFailure : Failure → S.Rest}

theorem step_ready : (s.host n (.ready rest)).step s.fibers.length none = ⟨.run s.fibers.length rest, s.host n .active⟩ := by
  rw [step, fiber_host]
  simp only [modifyFiber_host]
  rfl

theorem step_pausing : (s.host n (.pausing a task onFailure)).step s.fibers.length none =
    ⟨.task s.fibers.length task onFailure, s.host n .active⟩ := by
  rw [step, fiber_host]
  simp only [modifyFiber_host]
  rfl

theorem step_ended : (s.host n (.limited a (.ended (some rest)) withdrawn onFailure)).step s.fibers.length none =
    ⟨.run s.fibers.length rest, (s.disarm s.fibers.length a.id).host n .active⟩ := by
  rw [step, fiber_host]
  simp only [modifyFiber_host]
  rfl

theorem step_limit (h : ∀ rest, assistant ≠ .ended (some rest)) :
    (s.host n (.limited a assistant withdrawn onFailure)).step s.fibers.length none =
      ⟨.idle, (s.host n .active).drain s.fibers.length assistant a.id (.timedOut "") onFailure⟩ := by
  rw [step, fiber_host]
  simp only [modifyFiber_host]
  cases assistant with
  | ended rest? =>
    cases rest? with
    | none => rfl
    | some rest => exact absurd rfl (h rest)
  | _ => rfl

theorem step_drained : (s.host n (.draining a (.ended none) withdrawn limit cause onFailure)).step s.fibers.length none =
    ⟨.run s.fibers.length (onFailure cause), (s.disarm s.fibers.length limit).host n .active⟩ := by
  rw [step, fiber_host]
  simp only [modifyFiber_host]
  cases cause <;> rfl

theorem release_limited (ha : a.settled = false) :
    (s.host n (.limited a assistant withdrawn onFailure)).release s.fibers.length a.id =
      (s.signal (.step s.fibers.length none)).host n (.limited { a with settled := true } assistant withdrawn onFailure) := by
  rw [release, stage_host]
  simp only [ha, beq_self_eq_true, Bool.not_false, Bool.and_self, if_true]
  rw [setStage_host]
  rfl

theorem release_draining (ha : a.settled = false) :
    (s.host n (.draining a assistant withdrawn limit cause onFailure)).release s.fibers.length a.id =
      (s.signal (.step s.fibers.length none)).host n
        (.draining { a with settled := true } assistant withdrawn limit cause onFailure) := by
  rw [release, stage_host]
  simp only [ha, beq_self_eq_true, Bool.not_false, Bool.and_self, if_true]
  rw [setStage_host]
  rfl

theorem settle_pausing (ha : a.settled = false) :
    (s.host n (.pausing a task onFailure)).settle s.fibers.length a.id =
      (s.signal (.step s.fibers.length none)).host n (.pausing { a with settled := true } task onFailure) := by
  rw [settle, stage_host]
  simp only [ha, beq_self_eq_true, Bool.not_false, Bool.and_self, if_true]
  rw [setStage_host]
  rfl

theorem setAssistant_limited (assistant' : Assistant S) :
    (s.host n (.limited a assistant withdrawn onFailure)).setAssistant s.fibers.length assistant' =
      s.host n (.limited a assistant' withdrawn onFailure) :=
  modifyFiber_host _

theorem setAssistant_draining (assistant' : Assistant S) :
    (s.host n (.draining a assistant withdrawn limit cause onFailure)).setAssistant s.fibers.length assistant' =
      s.host n (.draining a assistant' withdrawn limit cause onFailure) :=
  modifyFiber_host _

theorem settle_limited (hb : b.settled = false) :
    (s.host n (.limited a (.pausing b task) withdrawn onFailure)).settle s.fibers.length b.id =
      (s.signal (.assist s.fibers.length false)).host n
        (.limited a (.pausing { b with settled := true } task) withdrawn onFailure) := by
  rw [settle, stage_host, assistantOf?, stage_host]
  simp only [hb, beq_self_eq_true, Bool.not_false, Bool.and_self, if_true]
  rw [setAssistant_limited]
  rfl

theorem endAssistant_limited (rest? : Option S.Rest) :
    (s.host n (.limited a assistant withdrawn onFailure)).endAssistant s.fibers.length rest? =
      (s.signal (.release s.fibers.length a.id)).host n (.limited a (.ended rest?) withdrawn onFailure) := by
  rw [endAssistant, setAssistant_limited, awaitOf?, stage_host]
  rfl

theorem endAssistant_draining (rest? : Option S.Rest) :
    (s.host n (.draining a assistant withdrawn limit cause onFailure)).endAssistant s.fibers.length rest? =
      (s.signal (.release s.fibers.length a.id)).host n (.draining a (.ended rest?) withdrawn limit cause onFailure) := by
  rw [endAssistant, setAssistant_draining, awaitOf?, stage_host]
  rfl

theorem assist_called : (s.host n (.limited a (.called (.work task)) false onFailure)).assist s.fibers.length false =
    ⟨.aid s.fibers.length task, s.host n (.limited a (.called (.work task)) false onFailure)⟩ := by
  rw [assist, assistantOf?, stage_host]
  rfl

theorem assist_paused : (s.host n (.limited a (.pausing b task) false onFailure)).assist s.fibers.length false =
    ⟨.aid s.fibers.length task, s.host n (.limited a (.pausing b task) false onFailure)⟩ := by
  rw [assist, assistantOf?, stage_host]
  rfl

theorem assist_withdrawn {withdraw : Bool} (hassistant : ∀ rest, assistant ≠ .ended rest) (h : (withdraw || withdrawn) = true) :
    (s.host n (.draining a assistant withdrawn limit cause onFailure)).assist s.fibers.length withdraw =
      ⟨.idle, (s.signal (.release s.fibers.length a.id)).host n (.draining a (.ended none) withdrawn limit cause onFailure)⟩ := by
  rw [assist, assistantOf?, stage_host]
  cases assistant with
  | ended rest => exact absurd rfl (hassistant rest)
  | _ =>
    simp only [h, if_true]
    rw [endAssistant_draining]

/-- A run that withdraws work in its pause. -/
theorem drain_paused (hb : b.settled = false) :
    (s.host n stage).drain s.fibers.length (.pausing b task) limit cause onFailure =
      ((s.newAwait.2.disarm s.fibers.length b.id).signal (.assist s.fibers.length true)).host n
        (.draining s.newAwait.1 (.pausing { b with settled := true } task) false limit cause onFailure) := by
  rw [drain]
  simp only [hb, Bool.false_eq_true, if_false]
  exact suspend_host (s := (s.newAwait.2.disarm s.fibers.length b.id).signal (.assist s.fibers.length true)) _

/-- A run that withdraws work whose pause is over already. -/
theorem drain_settled (hb : b.settled = true) :
    (s.host n stage).drain s.fibers.length (.pausing b task) limit cause onFailure =
      s.newAwait.2.host n (.draining s.newAwait.1 (.pausing { b with settled := true } task) true limit cause onFailure) := by
  rw [drain]
  simp only [hb, if_true]
  exact suspend_host (s := s.newAwait.2) _

end Signals

/-! ## What it does itself -/

theorem beginPause_host (seconds : Binary64) (task : S.Task) (onFailure : Failure → S.Rest) :
    (s.host n stage).beginPause s.fibers.length seconds task onFailure =
      (s.newAwait.2.after seconds (.settle s.fibers.length s.awaits)).host n (.pausing s.newAwait.1 task onFailure) :=
  suspend_host (s := s.newAwait.2.after seconds (.settle s.fibers.length s.awaits)) _

theorem beginErrand_host {limit : Binary64} (h : limit.le (Binary64.zero false) = false) (errand : Errand S)
    (onFailure : Failure → S.Rest) :
    (s.host n stage).beginErrand s.fibers.length limit errand onFailure =
      ((s.newAwait.2.after limit (.release s.fibers.length s.awaits)).signal (.assist s.fibers.length false)).host n
        (.limited s.newAwait.1 (.called errand) false onFailure) := by
  rw [beginErrand]
  simp only [h, Bool.false_eq_true, if_false]
  exact suspend_host
    (s := (s.newAwait.2.after limit (.release s.fibers.length s.awaits)).signal (.assist s.fibers.length false)) _

/-! ## Cancellations of its token -/

theorem notice_of_isDeaf {i : Nat} (h : ∀ stage, s.stage? i = some stage → stage.IsDeaf) : s.notice i = s := by
  unfold notice
  split
  · next hi =>
    have hdeaf : Assistant.noticed _ = none := h _ hi
    rw [hdeaf]
  · next hi =>
    have hdeaf : Assistant.noticed _ = none := h _ hi
    rw [hdeaf]
  · rfl

/-- The schedule with a token that is cancelled, if a reason is given, and with nobody told. -/
def mark (s : Schedule S) (m : Nat) (reason? : Option String) : Schedule S :=
  { s with
    tokens := match reason? with
      | some reason => s.tokens.modify m fun t => { t with cancelled := some reason }
      | none => s.tokens }

theorem cancelToken_host (hover : s.isOver) (hstage : stage.IsDeaf) (m : Nat) (reason : String) :
    (s.host n stage).cancelToken m reason = (s.mark m (some reason)).host n stage := by
  have hdeaf (i : Nat) : ∀ x, ((s.mark m (some reason)).host n stage).stage? i = some x → x.IsDeaf := by
    intro x hx
    obtain ⟨f, hf, rfl⟩ := Option.map_eq_some_iff.mp hx
    obtain hmem | hmem := List.mem_append.mp (List.mem_of_getElem? hf)
    · have hf : f.isOver := List.all_eq_true.mp hover f hmem
      unfold Fiber.isOver at hf
      split at hf
      · next hended =>
        rw [hended]
        trivial
      · cases hf
    · rw [List.mem_singleton.mp hmem]
      exact hstage
  have hsame (l : List Nat) : l.foldl notice ((s.mark m (some reason)).host n stage) = (s.mark m (some reason)).host n stage := by
    induction l with
    | nil => rfl
    | cons i l ih => rw [List.foldl_cons, notice_of_isDeaf (hdeaf i), ih]
  exact hsame _

theorem cancelOwn_host (hover : s.isOver) (hstage : stage.IsDeaf) (reason : String) :
    ((s.host n stage).affect s.fibers.length (.cancelOwn reason)).2 = (s.mark n (some reason)).host n stage := by
  rw [affect, tokenOf_host]
  exact cancelToken_host hover hstage n reason

theorem tokens_mark {t : Token} (h : s.tokens[n]? = some t) (r : Option String) :
    (s.mark n r).tokens[n]? = some { t with cancelled := r.or t.cancelled } := by
  cases r with
  | none => exact h
  | some reason =>
    show (s.tokens.modify n _)[n]? = _
    rw [List.getElem?_modify_eq, h]
    rfl

/-! ## Turns -/

/-- So many turns lead from a schedule that has not ended to another. -/
inductive Turns : Nat → Schedule S → Schedule S → Prop where
  | refl (s : Schedule S) : Turns 0 s s
  | turn {s s' s'' : Schedule S} {k : Nat} : s.isOver = false → s.turn? = some s' → Turns k s' s'' → Turns (k + 1) s s''

theorem Turns.of_eq (h : s = s') : Turns 0 s s' := h ▸ .refl s

theorem Turns.since {k : Nat} (h : s = s') (h' : Turns k s' s'') : Turns k s s'' := h ▸ h'

theorem Turns.goOn {k : Nat} (h : Turns k s s') (m : Nat) : s.goOn (k + m) = s'.goOn m := by
  induction h with
  | refl => rw [Nat.zero_add]
  | @turn s s' s'' k hover hturn _ ih =>
    rw [Nat.add_right_comm, Schedule.goOn, hover, hturn]
    exact ih

theorem Turns.trans {k l : Nat} (h : Turns k s s') (h' : Turns l s' s'') : Turns (k + l) s s'' := by
  induction h with
  | refl => rwa [Nat.zero_add]
  | turn hover hturn _ ih =>
    rw [Nat.add_right_comm]
    exact .turn hover hturn (ih h')

/-- At most so many turns lead from a schedule to another. -/
def Reaches (k : Nat) (s s' : Schedule S) : Prop := ∃ j ≤ k, Turns j s s'

theorem Turns.reaches {k : Nat} (h : Turns k s s') : Reaches k s s' := ⟨k, Nat.le_refl k, h⟩

theorem Reaches.trans {k l : Nat} (h : Reaches k s s') (h' : Reaches l s' s'') : Reaches (k + l) s s'' := by
  obtain ⟨i, hi, h⟩ := h
  obtain ⟨j, hj, h'⟩ := h'
  exact ⟨i + j, Nat.add_le_add hi hj, h.trans h'⟩

theorem Reaches.mono {k l : Nat} (h : Reaches k s s') (hkl : k ≤ l) : Reaches l s s' := by
  obtain ⟨j, hj, h⟩ := h
  exact ⟨j, hj.trans hkl, h⟩

theorem Reaches.finish {k : Nat} (h : Reaches k s.ring s') (hover : s'.isOver) (hk : k < turnLimit) :
    s.finish = settleQueue s'.queue.length s' := by
  obtain ⟨j, hj, h⟩ := h
  obtain ⟨m, hm⟩ : ∃ m, turnLimit = j + (m + 1) := ⟨turnLimit - j - 1, by omega⟩
  rw [Schedule.finish, hm, h.goOn, Schedule.goOn, if_pos hover]

theorem isOver_host (hstage : ∀ r, stage ≠ .ended r) : (s.host n stage).isOver = false := by
  have hlast : Fiber.isOver { stage := stage, token := some n : Fiber S } = false := by
    unfold Fiber.isOver
    split
    · next r hr => exact absurd hr (hstage r)
    · rfl
  rw [isOver, host, List.all_append, List.all_cons, hlast, Bool.false_and, Bool.and_false]

theorem isOver_host_ended (hover : s.isOver) (r : Except String S.Result) : (s.host n (.ended r)).isOver := by
  rw [isOver, host, List.all_append, Bool.and_eq_true]
  exact ⟨hover, rfl⟩

/-- A run takes the signal that is due first. -/
theorem Turns.take {k : Nat} {x : Signal S} {rest : List (Signal S)} (hstage : ∀ r, stage ≠ .ended r)
    (hqueue : s.queue = x :: rest) (h : Turns k (({ s with queue := rest }.host n stage).handle x) s'') :
    Turns (k + 1) (s.host n stage) s'' := by
  refine .turn (isOver_host hstage) ?_ h
  rw [turn?, show (s.host n stage).queue = _ from hqueue]
  rfl

section Taking

variable {k limit : Nat} {a b : Await} {assistant : Assistant S} {task : S.Task} {follow : S.Rest} {withdrawn : Bool}
  {cause : Failure} {onFailure : Failure → S.Rest} {rest : List (Signal S)}

theorem Turns.begin (hqueue : s.queue = .step s.fibers.length none :: rest)
    (h : Turns k (drive s.fibers.length follow ({ s with queue := rest }.host n .active)) s'') :
    Turns (k + 1) (s.host n (.ready follow)) s'' := by
  refine .take nofun hqueue ?_
  rw [handle, Schedule.take, step_ready (s := { s with queue := rest })]
  exact h

theorem Turns.settle (hqueue : s.queue = .settle s.fibers.length a.id :: rest) (ha : a.settled = false)
    (h : Turns k (({ s with queue := rest }.signal (.step s.fibers.length none)).host n
      (.pausing { a with settled := true } task onFailure)) s'') :
    Turns (k + 1) (s.host n (.pausing a task onFailure)) s'' := by
  refine .take nofun hqueue ?_
  rw [handle, Schedule.take, settle_pausing (s := { s with queue := rest }) ha]
  exact h

theorem Turns.goOnAlone (hqueue : s.queue = .step s.fibers.length none :: rest)
    (h : Turns k (driveTask s.fibers.length task onFailure ({ s with queue := rest }.host n .active)) s'') :
    Turns (k + 1) (s.host n (.pausing a task onFailure)) s'' := by
  refine .take nofun hqueue ?_
  rw [handle, Schedule.take, step_pausing (s := { s with queue := rest })]
  exact h

theorem Turns.beginAid (hqueue : s.queue = .assist s.fibers.length false :: rest)
    (h : Turns k (assistTask ({ s with queue := rest }.host n (.limited a (.called (.work task)) false onFailure))
      s.fibers.length task) s'') :
    Turns (k + 1) (s.host n (.limited a (.called (.work task)) false onFailure)) s'' := by
  refine .take nofun hqueue ?_
  rw [handle, Schedule.take, assist_called (s := { s with queue := rest })]
  exact h

theorem Turns.settleAid (hqueue : s.queue = .settle s.fibers.length b.id :: rest) (hb : b.settled = false)
    (h : Turns k (({ s with queue := rest }.signal (.assist s.fibers.length false)).host n
      (.limited a (.pausing { b with settled := true } task) withdrawn onFailure)) s'') :
    Turns (k + 1) (s.host n (.limited a (.pausing b task) withdrawn onFailure)) s'' := by
  refine .take nofun hqueue ?_
  rw [handle, Schedule.take, settle_limited (s := { s with queue := rest }) hb]
  exact h

theorem Turns.aid (hqueue : s.queue = .assist s.fibers.length false :: rest)
    (h : Turns k (assistTask ({ s with queue := rest }.host n (.limited a (.pausing b task) false onFailure))
      s.fibers.length task) s'') :
    Turns (k + 1) (s.host n (.limited a (.pausing b task) false onFailure)) s'' := by
  refine .take nofun hqueue ?_
  rw [handle, Schedule.take, assist_paused (s := { s with queue := rest })]
  exact h

theorem Turns.release (hqueue : s.queue = .release s.fibers.length a.id :: rest) (ha : a.settled = false)
    (h : Turns k (({ s with queue := rest }.signal (.step s.fibers.length none)).host n
      (.limited { a with settled := true } assistant withdrawn onFailure)) s'') :
    Turns (k + 1) (s.host n (.limited a assistant withdrawn onFailure)) s'' := by
  refine .take nofun hqueue ?_
  rw [handle, Schedule.take, release_limited (s := { s with queue := rest }) ha]
  exact h

theorem Turns.finishAid (hqueue : s.queue = .step s.fibers.length none :: rest)
    (h : Turns k (drive s.fibers.length follow (({ s with queue := rest }.disarm s.fibers.length a.id).host n .active)) s'') :
    Turns (k + 1) (s.host n (.limited a (.ended (some follow)) withdrawn onFailure)) s'' := by
  refine .take nofun hqueue ?_
  rw [handle, Schedule.take, step_ended (s := { s with queue := rest })]
  exact h

theorem Turns.reachLimit (hassistant : ∀ follow, assistant ≠ .ended (some follow))
    (hqueue : s.queue = .step s.fibers.length none :: rest)
    (h : Turns k (({ s with queue := rest }.host n .active).drain s.fibers.length assistant a.id (.timedOut "") onFailure) s'') :
    Turns (k + 1) (s.host n (.limited a assistant withdrawn onFailure)) s'' := by
  refine .take nofun hqueue ?_
  rw [handle, Schedule.take, step_limit (s := { s with queue := rest }) hassistant]
  exact h

theorem Turns.endAid {withdraw : Bool} (hassistant : ∀ rest, assistant ≠ .ended rest) (hwithdrawn : (withdraw || withdrawn) = true)
    (hqueue : s.queue = .assist s.fibers.length withdraw :: rest)
    (h : Turns k (({ s with queue := rest }.signal (.release s.fibers.length a.id)).host n
      (.draining a (.ended none) withdrawn limit cause onFailure)) s'') :
    Turns (k + 1) (s.host n (.draining a assistant withdrawn limit cause onFailure)) s'' := by
  refine .take nofun hqueue ?_
  rw [handle, Schedule.take, assist_withdrawn (s := { s with queue := rest }) hassistant hwithdrawn]
  exact h

theorem Turns.releaseDrained (hqueue : s.queue = .release s.fibers.length a.id :: rest) (ha : a.settled = false)
    (h : Turns k (({ s with queue := rest }.signal (.step s.fibers.length none)).host n
      (.draining { a with settled := true } assistant withdrawn limit cause onFailure)) s'') :
    Turns (k + 1) (s.host n (.draining a assistant withdrawn limit cause onFailure)) s'' := by
  refine .take nofun hqueue ?_
  rw [handle, Schedule.take, release_draining (s := { s with queue := rest }) ha]
  exact h

theorem Turns.drained (hqueue : s.queue = .step s.fibers.length none :: rest)
    (h : Turns k (drive s.fibers.length (onFailure cause)
      (({ s with queue := rest }.disarm s.fibers.length limit).host n .active)) s'') :
    Turns (k + 1) (s.host n (.draining a (.ended none) withdrawn limit cause onFailure)) s'' := by
  refine .take nofun hqueue ?_
  rw [handle, Schedule.take, step_drained (s := { s with queue := rest })]
  exact h

/-- An errand that is withdrawn: the assistant ends, its run is told, and goes on with the failure that is the cause. -/
theorem Turns.withdraw {withdraw : Bool} (hassistant : ∀ rest, assistant ≠ .ended rest) (hwithdrawn : (withdraw || withdrawn) = true)
    (ha : a.settled = false)
    (hqueue : s.queue = [.assist s.fibers.length withdraw])
    (h : Turns k (drive s.fibers.length (onFailure cause)
      (({ s with queue := [] }.disarm s.fibers.length limit).host n .active)) s'') :
    Turns (k + 3) (s.host n (.draining a assistant withdrawn limit cause onFailure)) s'' :=
  .endAid hassistant hwithdrawn hqueue (.releaseDrained rfl ha (.drained rfl h))

end Taking

/-! ## Time -/

theorem insertTimer_append {t : Timer S} {before rest : List (Timer S)} (h : ∀ u ∈ before, t.due.lt u.due = false) :
    insertTimer t (before ++ rest) = before ++ insertTimer t rest := by
  induction before with
  | nil => rfl
  | cons u before ih =>
    obtain ⟨hu, hbefore⟩ := List.forall_mem_cons.mp h
    rw [List.cons_append, insertTimer, hu, ih hbefore]
    rfl

theorem insertTimer_eq_cons {t : Timer S} {rest : List (Timer S)} (h : ∀ u ∈ rest, t.due.lt u.due) :
    insertTimer t rest = t :: rest := by
  cases rest with
  | nil => rfl
  | cons u rest => exact if_pos (h u List.mem_cons_self)

theorem ring_eq (due later : List (Timer S)) (htimers : s.timers = due ++ later)
    (hdue : ∀ t ∈ due, t.due.lt (s.clock.add resolution)) (hlater : ∀ t ∈ later, t.due.lt (s.clock.add resolution) = false) :
    s.ring = { s with queue := s.queue ++ due.map Timer.signal, timers := later } := by
  have hnone (p : Timer S → Bool) (h : ∀ t ∈ later, p t = false) : later.takeWhile p = [] ∧ later.dropWhile p = later := by
    cases later with
    | nil => exact ⟨rfl, rfl⟩
    | cons t rest =>
      have ht := h t List.mem_cons_self
      exact ⟨List.takeWhile_cons_of_neg (by simp [ht]), List.dropWhile_cons_of_neg (by simp [ht])⟩
  obtain ⟨htake, hdrop⟩ := hnone _ hlater
  rw [ring, htimers, List.takeWhile_append_of_pos hdue, List.dropWhile_append_of_pos hdue, htake, hdrop, List.append_nil]

theorem advance_eq {x : Binary64} {t : Timer S} {due later : List (Timer S)} (htimers : s.timers = t :: due ++ later)
    (hdue : ∀ u ∈ t :: due, u.due = x) (hlater : ∀ u ∈ later, x.Before u.due) (hx : s.clock.lt x) (hsharp : x.IsSharp) :
    s.advance? = some { s with clock := x, queue := s.queue ++ (t :: due).map Timer.signal, timers := later } := by
  obtain ⟨world, clock, queue, timers, fibers, tokens, running, awaits⟩ := s
  subst htimers
  have hfirst : t.due = x := hdue t List.mem_cons_self
  rw [advance?]
  simp only [List.cons_append]
  rw [hfirst, if_pos hsharp.isFinite, Binary64.max_of_lt hx]
  exact congrArg some (ring_eq _ _ rfl (fun u hu => (hdue u hu).symm ▸ hsharp) fun u hu => (hlater u hu).2)

/-- A run that waits for the next timers. -/
theorem Turns.advance {k : Nat} {x : Binary64} {t : Timer S} {due later : List (Timer S)} (hstage : ∀ r, stage ≠ .ended r)
    (hqueue : s.queue = []) (htimers : s.timers = t :: due ++ later) (hdue : ∀ u ∈ t :: due, u.due = x)
    (hlater : ∀ u ∈ later, x.Before u.due) (hx : s.clock.lt x) (hsharp : x.IsSharp)
    (h : Turns k ({ s with clock := x, queue := (t :: due).map Timer.signal, timers := later }.host n stage) s'') :
    Turns (k + 1) (s.host n stage) s'' := by
  refine .turn (isOver_host hstage) ?_ h
  have hadvance := advance_eq (s := s.host n stage) htimers hdue hlater hx hsharp
  rw [show (s.host n stage).queue = [] from hqueue, List.nil_append] at hadvance
  rw [turn?, show (s.host n stage).queue = [] from hqueue]
  exact hadvance

/-- A run whose token is cancelled while it waits for something else. -/
theorem Turns.cancel {k m : Nat} {r : String} {rest : List (Signal S)} (hover : s.isOver) (hstage : ∀ r, stage ≠ .ended r)
    (hdeaf : stage.IsDeaf) (hqueue : s.queue = .cancel m r :: rest)
    (h : Turns k (({ s with queue := rest }.mark m (some r)).host n stage) s'') :
    Turns (k + 1) (s.host n stage) s'' := by
  refine .take hstage hqueue ?_
  have hcancel : ({ s with queue := rest }.host n stage).handle (.cancel m r) = _ :=
    cancelToken_host (s := { s with queue := rest }) hover hdeaf m r
  rwa [hcancel]

/-- A run whose token may be cancelled before anything else happens. -/
theorem reaches_mark {m : Nat} {now : Option String} {rest : List (Signal S)} (hover : s.isOver) (hstage : ∀ r, stage ≠ .ended r)
    (hdeaf : stage.IsDeaf) (hqueue : s.queue = now.toList.map (Signal.cancel m) ++ rest) :
    Reaches 1 (s.host n stage) (({ s with queue := rest }.mark m now).host n stage) := by
  cases now with
  | none =>
    refine ⟨0, Nat.zero_le 1, .of_eq ?_⟩
    rw [← show s.queue = rest from hqueue]
    rfl
  | some r => exact (Turns.cancel (m := m) (r := r) hover hstage hdeaf hqueue (.refl _)).reaches

/-! ## A planned cancellation -/

/-- A cancellation that is set for a time. -/
def planned (m : Nat) (c : Binary64 × String) : Timer S := ⟨c.1, .cancel m c.2⟩

/-- A cancellation that is set for a time, if it comes by another. -/
def byThen (plan : Option (Binary64 × String)) (x : Binary64) : Option (Binary64 × String) := plan.filter (·.1.le x)

/-- A cancellation that is set for a time that has come is due at once. -/
theorem ring_planned {plan : Option (Binary64 × String)} (htimers : s.timers = plan.toList.map (planned n)) :
    ∃ now rest : Option (Binary64 × String),
      s.ring = { s with
        queue := s.queue ++ (now.map Prod.snd).toList.map (Signal.cancel n)
        timers := rest.toList.map (planned n) } ∧
      ((∃ c ∈ plan, c.1.lt (s.clock.add resolution)) ∧ now = plan ∧ rest = none ∨
        (∀ c ∈ plan, c.1.lt (s.clock.add resolution) = false) ∧ now = none ∧ rest = plan) := by
  cases plan with
  | none => exact ⟨none, none, ring_eq [] [] htimers nofun nofun, .inr ⟨nofun, rfl, rfl⟩⟩
  | some c =>
    cases hc : c.1.lt (s.clock.add resolution) with
    | true =>
      have hdue : ∀ t ∈ [planned (S := S) n c], t.due.lt (s.clock.add resolution) := List.forall_mem_singleton.mpr hc
      exact ⟨some c, none, ring_eq [_] [] htimers hdue nofun, .inl ⟨⟨c, rfl, hc⟩, rfl, rfl⟩⟩
    | false =>
      have hlater : ∀ t ∈ [planned (S := S) n c], t.due.lt (s.clock.add resolution) = false := List.forall_mem_singleton.mpr hc
      exact ⟨none, some c, ring_eq [] [_] htimers nofun hlater, .inr ⟨fun _ h => Option.some.inj h ▸ hc, rfl, rfl⟩⟩

section Timers

variable {d f x : Binary64} {a b : Signal S} {plan : Option (Binary64 × String)}

/-- Of a planned cancellation and a time, what comes by then and what comes later. -/
theorem plan_split (hx : x.IsSharp) (h : ∀ c ∈ plan, c.1.Told x) :
    ∃ later : List (Timer S), plan.toList.map (planned n) = (byThen plan x).toList.map (planned n) ++ later ∧
      (∀ c ∈ byThen plan x, c.1 = x ∨ c.1.Before x) ∧ ∀ u ∈ later, x.Before u.due := by
  cases plan with
  | none => exact ⟨[], rfl, nofun, List.forall_mem_nil _⟩
  | some c =>
    obtain hc | hc | hc := h c rfl
    · have hle : c.1.le x := hc ▸ hx.le_self
      rw [byThen, Option.filter, if_pos hle]
      exact ⟨[], rfl, fun _ hc' => Option.some.inj hc' ▸ .inl hc, List.forall_mem_nil _⟩
    · rw [byThen, Option.filter, if_pos (Binary64.le_of_lt hc.1)]
      exact ⟨[], rfl, fun _ hc' => Option.some.inj hc' ▸ .inr hc, List.forall_mem_nil _⟩
    · have hle : ¬ c.1.le x := Bool.eq_false_iff.mp (Binary64.not_le_of_lt hc.1)
      rw [byThen, Option.filter, if_neg hle]
      exact ⟨_, rfl, nofun, List.forall_mem_singleton.mpr hc⟩

theorem forall_planned (h : ∀ c ∈ plan, c.1 = x ∨ c.1.Before x) :
    ∀ u ∈ plan.toList.map (planned (S := S) n), x.lt u.due = false := by
  intro u hu
  obtain ⟨c, hc, rfl⟩ := List.mem_map.mp hu
  obtain h | h := h c (Option.mem_toList.mp hc)
  · rw [planned, h]
    exact Binary64.lt_irrefl x
  · exact Binary64.lt_asymm h.1

/-- A timer is set: a cancellation that comes by then is before it. -/
theorem timers_one (hx : x.IsSharp) (h : ∀ c ∈ plan, c.1.Told x) :
    ∃ later, insertTimer ⟨x, a⟩ (plan.toList.map (planned n)) = (byThen plan x).toList.map (planned n) ++ ([⟨x, a⟩] ++ later) ∧
      (∀ c ∈ byThen plan x, c.1 = x ∨ c.1.Before x) ∧ ∀ u ∈ later, x.Before u.due := by
  obtain ⟨later, hplan, hbefore, hlater⟩ := plan_split (n := n) (S := S) hx h
  refine ⟨later, ?_, hbefore, hlater⟩
  rw [hplan, insertTimer_append (forall_planned hbefore), insertTimer_eq_cons fun u hu => (hlater u hu).1]
  rfl

/-- Two timers are set, and the second is to come up first. -/
theorem timers_second (hx : x.IsSharp) (h : ∀ c ∈ plan, c.1.Told x) (hd : x.Before d) :
    ∃ later, insertTimer ⟨x, b⟩ (insertTimer ⟨d, a⟩ (plan.toList.map (planned n))) =
        (byThen plan x).toList.map (planned n) ++ ([⟨x, b⟩] ++ later) ∧
      (∀ c ∈ byThen plan x, c.1 = x ∨ c.1.Before x) ∧ ∀ u ∈ later, x.Before u.due := by
  obtain ⟨later, hplan, hbefore, hlater⟩ := plan_split (n := n) (S := S) hx h
  have hfirst : ∀ u ∈ (byThen plan x).toList.map (planned (S := S) n), d.lt u.due = false := by
    intro u hu
    refine Bool.eq_false_iff.mpr fun hlt => ?_
    exact Bool.false_ne_true ((forall_planned hbefore u hu).symm.trans (Binary64.lt_trans hd.1 hlt))
  have hrest : ∀ u ∈ insertTimer ⟨d, a⟩ later, x.Before u.due := by
    intro u hu
    obtain rfl | hu := List.mem_cons.mp ((insertTimer_perm _ _).mem_iff.mp hu)
    · exact hd
    · exact hlater u hu
  refine ⟨insertTimer ⟨d, a⟩ later, ?_, hbefore, hrest⟩
  rw [hplan, insertTimer_append hfirst, insertTimer_append (forall_planned hbefore),
    insertTimer_eq_cons fun u hu => (hrest u hu).1]
  rfl

/-- Two timers are set, and the first is to come up first. -/
theorem timers_first (hx : x.IsSharp) (h : ∀ c ∈ plan, c.1.Told x) (hd : x.Before d) :
    ∃ later, insertTimer ⟨d, b⟩ (insertTimer ⟨x, a⟩ (plan.toList.map (planned n))) =
        (byThen plan x).toList.map (planned n) ++ ([⟨x, a⟩] ++ later) ∧
      (∀ c ∈ byThen plan x, c.1 = x ∨ c.1.Before x) ∧ ∀ u ∈ later, x.Before u.due := by
  obtain ⟨later, htimers, hbefore, hlater⟩ := timers_one (n := n) (a := a) hx h
  have hfirst : ∀ u ∈ (byThen plan x).toList.map (planned (S := S) n) ++ [⟨x, a⟩], d.lt u.due = false := by
    intro u hu
    obtain hu | hu := List.mem_append.mp hu
    · refine Bool.eq_false_iff.mpr fun hlt => ?_
      exact Bool.false_ne_true ((forall_planned hbefore u hu).symm.trans (Binary64.lt_trans hd.1 hlt))
    · rw [List.mem_singleton.mp hu]
      exact Binary64.lt_asymm hd.1
  refine ⟨insertTimer ⟨d, b⟩ later, ?_, hbefore, fun u hu => ?_⟩
  · rw [htimers, ← List.append_assoc, insertTimer_append hfirst, List.append_assoc]
  · obtain rfl | hu := List.mem_cons.mp ((insertTimer_perm _ _).mem_iff.mp hu)
    · exact hd
    · exact hlater u hu

/-- Two timers are set for one time: they come up in the order in which they were set. -/
theorem timers_both (hx : x.IsSharp) (h : ∀ c ∈ plan, c.1.Told x) :
    ∃ later, insertTimer ⟨x, b⟩ (insertTimer ⟨x, a⟩ (plan.toList.map (planned n))) =
        (byThen plan x).toList.map (planned n) ++ ([⟨x, a⟩, ⟨x, b⟩] ++ later) ∧
      (∀ c ∈ byThen plan x, c.1 = x ∨ c.1.Before x) ∧ ∀ u ∈ later, x.Before u.due := by
  obtain ⟨later, htimers, hbefore, hlater⟩ := timers_one (n := n) (a := a) hx h
  have hfirst : ∀ u ∈ (byThen plan x).toList.map (planned (S := S) n) ++ [⟨x, a⟩], x.lt u.due = false := by
    intro u hu
    obtain hu | hu := List.mem_append.mp hu
    · exact forall_planned hbefore u hu
    · rw [List.mem_singleton.mp hu]
      exact Binary64.lt_irrefl x
  refine ⟨later, ?_, hbefore, hlater⟩
  rw [htimers, ← List.append_assoc, insertTimer_append hfirst, insertTimer_eq_cons fun u hu => (hlater u hu).1,
    List.append_assoc]
  rfl

end Timers

/-- **A run waits** for the time at which its next timers come up. A cancellation that is set for then or before comes first. -/
theorem turns_wait {m : Nat} {x : Binary64} {t : Timer S} {due later : List (Timer S)} {plan : Option (Binary64 × String)}
    (hover : s.isOver) (hstage : ∀ r, stage ≠ .ended r) (hdeaf : stage.IsDeaf) (hqueue : s.queue = [])
    (htimers : s.timers = plan.toList.map (planned m) ++ (t :: due ++ later)) (hdue : ∀ u ∈ t :: due, u.due = x)
    (hlater : ∀ u ∈ later, x.Before u.due) (hx : s.clock.lt x) (hsharp : x.IsSharp)
    (hplan : ∀ c ∈ plan, c.1 = x ∨ s.clock.lt c.1 ∧ c.1.IsSharp ∧ c.1.Before x) :
    Reaches 3 (s.host n stage)
      ({ s.mark m (plan.map Prod.snd) with clock := x, queue := (t :: due).map Timer.signal, timers := later }.host n stage) := by
  cases plan with
  | none => exact ⟨1, by decide, .advance hstage hqueue htimers hdue hlater hx hsharp (.refl _)⟩
  | some c =>
    obtain hc | ⟨hclock, hcsharp, hbefore⟩ := hplan c rfl
    · have hboth : ∀ u ∈ planned m c :: t :: due, u.due = x := List.forall_mem_cons.mpr ⟨hc, hdue⟩
      have hfirst : s.timers = planned m c :: (t :: due) ++ later := htimers
      refine ⟨2, by decide, .advance hstage hqueue hfirst hboth hlater hx hsharp ?_⟩
      exact .cancel (m := m) (r := c.2) hover hstage hdeaf rfl (.refl _)
    · have hfollowing : ∀ u ∈ t :: due ++ later, c.1.Before u.due := by
        intro u hu
        obtain hu | hu := List.mem_append.mp hu
        · exact (hdue u hu).symm ▸ hbefore
        · exact hbefore.trans (hlater u hu).1
      have hfirst : s.timers = planned m c :: [] ++ (t :: due ++ later) := htimers
      refine ⟨3, by decide, .advance hstage hqueue hfirst (List.forall_mem_singleton.mpr rfl) hfollowing hclock hcsharp ?_⟩
      refine .cancel (m := m) (r := c.2) hover hstage hdeaf rfl ?_
      exact .advance hstage rfl rfl hdue hlater hbefore.1 hsharp (.refl _)

end Schedule

end Runbook
