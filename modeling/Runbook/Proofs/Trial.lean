import Runbook.Proofs.Run
import Runbook.Proofs.Timed

/-!
# Trials of guarded work

* `TokenTrial.report_of_dead`, `TokenTrial.report_of_alive`: what a trial of guarded work reports.
* **`TokenTrial.guard_keeps_time`**: when the work is begun, when its value is returned, and when the guard ends.
* **`TokenTrial.guard_passes_failures`**: the failures that a guard passes on.
-/

namespace Runbook

namespace TokenTrial

open Schedule

/-! ## What a trial reports -/

section Trial

variable {s : Schedule setting} {n : Nat} {w : GuardedWork} {plan later : Option (Binary64 × String)} {tok : Token}

/-- Nothing is under way, and nothing is due or will be. -/
structure IsResting (s : Schedule setting) : Prop where
  isOver : s.isOver
  queue : s.queue = []
  timers : s.timers = []

/-- The cancellation that a trial sets for later. -/
def planFor (s : Schedule setting) (later : Option (Binary64 × String)) : Option (Binary64 × String) :=
  later.map fun c => (s.clock.add c.1, c.2)

/-- The schedule in which the run of a guard is begun. -/
def prepared (s : Schedule setting) (n : Nat) (later : Option (Binary64 × String)) : Schedule setting :=
  { s with
    world := false
    queue := [.step s.fibers.length none]
    timers := (planFor s later).toList.map (planned n) }

/-- What a trial reports of a schedule in which the run `i` has ended. -/
def reportOf (i : Nat) (s : Schedule setting) : Report :=
  ⟨match s.result? i with
    | some r => joinInterruption r
    | none => .ok .null, s.world, Clock.microseconds s.clock, s.tokenView i⟩

theorem run_eq {t : TokenTrial} (ht : ∀ reason, t ≠ .cancel reason) (hs : IsResting s) : run n s later t =
    (reportOf s.fibers.length ((prepared s n later).host n (.ready t.routine.run)).finish,
      ((prepared s n later).host n (.ready t.routine.run)).finish) := by
  obtain ⟨world, clock, queue, timers, fibers, tokens, running, awaits⟩ := s
  obtain ⟨-, rfl, rfl⟩ := hs
  cases t with
  | cancel reason => exact absurd rfl (ht reason)
  | _ => cases later <;> rfl

/-- Runs that have ended wait for nothing. -/
theorem release_of_isOver (hover : s.isOver) (i await : Nat) : s.release i await = s := by
  have hended : ∀ stage, s.stage? i = some stage → ∃ r, stage = .ended r := by
    intro stage hstage
    obtain ⟨f, hf, rfl⟩ := Option.map_eq_some_iff.mp hstage
    have hf : f.isOver := List.all_eq_true.mp hover f (List.mem_of_getElem? hf)
    unfold Fiber.isOver at hf
    split at hf
    · next r hr => exact ⟨r, hr⟩
    · cases hf
  unfold release
  split
  · next hstage =>
    obtain ⟨r, hr⟩ := hended _ hstage
    cases hr
  · next hstage =>
    obtain ⟨r, hr⟩ := hended _ hstage
    cases hr
  · rfl

/-- A signal that does nothing to runs that have ended. -/
inductive IsIdle : Signal setting → Prop where
  | cancel (m : Nat) (reason : String) : IsIdle (.cancel m reason)
  | release (i await : Nat) : IsIdle (.release i await)

theorem settleQueue_ended {r : Except String setting.Result} (hover : s.isOver) (hqueue : ∀ x ∈ s.queue, IsIdle x) :
    ∃ s₁ : Schedule setting, settleQueue s.queue.length (s.host n (.ended r)) = s₁.host n (.ended r) ∧
      s₁.fibers = s.fibers ∧ s₁.clock = s.clock ∧ s₁.world = s.world := by
  obtain ⟨world, clock, queue, timers, fibers, tokens, running, awaits⟩ := s
  induction queue generalizing tokens with
  | nil => exact ⟨_, rfl, rfl, rfl, rfl⟩
  | cons x rest ih =>
    obtain ⟨hx, hrest⟩ := List.forall_mem_cons.mp hqueue
    cases hx with
    | cancel m reason =>
      have hdeaf : Stage.IsDeaf (.ended r : Stage setting) := trivial
      have hcancel := cancelToken_host (s := ⟨world, clock, rest, timers, fibers, tokens, running, awaits⟩) (n := n) hover hdeaf m reason
      obtain ⟨s₁, hs₁, hkept⟩ := ih (tokens.modify m fun t => { t with cancelled := some reason }) hover hrest
      exact ⟨s₁, (congrArg (settleQueue rest.length) hcancel).trans hs₁, hkept⟩
    | release i await =>
      have hrelease := release_of_isOver (isOver_host_ended (n := n)
        (s := ⟨world, clock, rest, timers, fibers, tokens, running, awaits⟩) hover r) i await
      obtain ⟨s₁, hs₁, hkept⟩ := ih tokens hover hrest
      exact ⟨s₁, (congrArg (settleQueue rest.length) hrelease).trans hs₁, hkept⟩

theorem result?_host {r : Except String setting.Result} :
    (s.host n (.ended r)).result? s.fibers.length = some r := by
  rw [Schedule.result?, stage_host]

/-- A trial reports what its run ends with. -/
theorem run_of_reaches {t : TokenTrial} {s' s₁ : Schedule setting} {r : Except Failure Value} (ht : ∀ reason, t ≠ .cancel reason)
    (hs : IsResting s)
    (hring : ((prepared s n later).host n (.ready t.routine.run)).ring = s'.host n (.ready t.routine.run))
    (hreaches : Reaches 12 (s'.host n (.ready t.routine.run)) (s₁.host n (.ended (.ok r)))) (hfibers : s₁.fibers = s.fibers)
    (hqueue : ∀ x ∈ s₁.queue, IsIdle x) :
    (run n s later t).1.result = r ∧ (run n s later t).1.begun = s₁.world ∧ (run n s later t).2.clock = s₁.clock := by
  have hover : s₁.isOver := by
    rw [isOver, hfibers]
    exact hs.isOver
  obtain ⟨s₂, hsettled, hfibers₂, hclock, hworld⟩ := settleQueue_ended (r := .ok r) (n := n) hover hqueue
  rw [← hring] at hreaches
  have hfinish := hreaches.finish (isOver_host_ended hover (.ok r)) (by decide)
  rw [show (s₁.host n (.ended (.ok r))).queue = s₁.queue from rfl, hsettled] at hfinish
  have hresult : (s₂.host n (.ended (.ok r))).result? s.fibers.length = some (.ok r) := by
    rw [← hfibers, ← hfibers₂]
    exact result?_host
  rw [run_eq ht hs, hfinish]
  refine ⟨?_, hworld, hclock⟩
  rw [reportOf, hresult]
  rfl

/-- A trial reports what its run comes to. -/
theorem run_of_comes {s' : Schedule setting} {isBegun : Begun} {r : Except Failure Value} {t : Binary64} (hs : IsResting s)
    (hring : ((prepared s n later).host n (.ready (routine (.guard w)).run)).ring =
      s'.host n (.ready (routine (.guard w)).run)) (hfibers : s'.fibers = s.fibers)
    (h : Comes (s'.host n (.ready (routine (.guard w)).run)) s' n isBegun r t) :
    (run n s later (.guard w)).1.result = r ∧ (run n s later (.guard w)).1.begun = isBegun ∧
      (run n s later (.guard w)).2.clock = t := by
  obtain ⟨s₁, hreaches, hf, rfl, rfl, now, hqueue⟩ := h
  refine run_of_reaches (t := .guard w) nofun hs hring hreaches (hf.trans hfibers) fun x hx => ?_
  rw [hqueue, List.mem_map] at hx
  obtain ⟨reason, -, rfl⟩ := hx
  exact .cancel n reason

/-- How the run of a trial is begun: a cancellation that is set for this time comes next. -/
theorem exists_begins (s : Schedule setting) (n : Nat) (later : Option (Binary64 × String)) :
    ∃ due rest : Option (Binary64 × String), ∃ s' : Schedule setting, IsSplit (planFor s later) due rest s.clock ∧
      (∀ stage, ((prepared s n later).host n stage).ring = s'.host n stage) ∧ s'.fibers = s.fibers ∧ s'.clock = s.clock ∧
      s'.tokens = s.tokens ∧ s'.world = false ∧ s'.timers = rest.toList.map (planned n) ∧
      s'.queue = .step s'.fibers.length none :: (due.map Prod.snd).toList.map (Signal.cancel n) := by
  obtain ⟨due, rest, hring, hsplit⟩ := ring_planned (s := prepared s n later) (n := n) rfl
  refine ⟨due, rest, (prepared s n later).ring, hsplit, fun _ => rfl, ?_⟩
  rw [hring]
  exact ⟨rfl, rfl, rfl, rfl, rfl, rfl⟩

theorem report_of_dead {f : Failure} (w : GuardedWork) (later : Option (Binary64 × String)) (hs : IsResting s)
    (htok : s.tokens[n]? = some tok)
    (hdead : TokenView.check ⟨tok, s.clock⟩ = .error f) :
    (run n s later (.guard w)).1.result = .error f ∧ (run n s later (.guard w)).1.begun = false ∧
      (run n s later (.guard w)).2.clock = s.clock := by
  obtain ⟨due, rest, s', -, hring, hfibers, hclock, htokens, hworld, -, hqueue⟩ := exists_begins s n later
  have hcomes := comes_dead (w := w) hqueue (htokens ▸ htok) (hclock ▸ hdead)
  rw [hworld, hclock] at hcomes
  exact run_of_comes hs (hring _) hfibers hcomes

theorem report_of_alive {deadline : Option Binary64} (hs : IsResting s) (htok : s.tokens[n]? = some ⟨none, deadline⟩)
    (halive : deadline.any (·.le s.clock) = false) (hexact : w.IsExact deadline (planFor s later) s.clock) :
    (run n s later (.guard w)).1.result = w.verdict deadline (planFor s later) s.clock ∧
      (run n s later (.guard w)).1.begun = true ∧
      (run n s later (.guard w)).2.clock = w.endsAt deadline s.clock := by
  obtain ⟨due, rest, s', hsplit, hring, hfibers, hclock, htokens, -, htimers, hqueue⟩ := exists_begins s n later
  have hover : s'.isOver := by
    rw [isOver, hfibers]
    exact hs.isOver
  rw [← hclock] at hexact hsplit halive ⊢
  rw [← htokens] at htok
  refine run_of_comes hs (hring _) hfibers ?_
  cases deadline with
  | none => exact comes_unbounded hover hqueue htimers htok hexact hsplit
  | some d => exact comes_bounded hover hqueue htimers htok halive hexact hsplit

theorem any_le_eq_false {deadline : Option Binary64} {t : Binary64} (hexact : w.IsExact deadline plan t) :
    deadline.any (·.le (w.doneAt t)) = false ↔ ∀ d ∈ deadline, (w.doneAt t).lt d := by
  have hnan {x : Binary64} (hx : x.IsSharp) : x.isNaN = false := (Binary64.lt_iff_rank.mp hx).1
  constructor
  · rintro h d rfl
    exact Binary64.lt_of_not_le (hnan hexact.done) (hnan (hexact.limit d rfl).1) h
  · intro h
    cases deadline with
    | none => rfl
    | some d => exact Binary64.not_le_of_lt (h d rfl)

theorem check_dead {v : TokenView} (h : v.token.cancelled.isSome ∨ v.isLate) : ∃ f, v.check = .error f := by
  obtain ⟨⟨cancelled, deadline⟩, now⟩ := v
  cases cancelled with
  | some reason => exact ⟨_, rfl⟩
  | none =>
    obtain h | h := h
    · cases h
    · exact ⟨_, if_pos h⟩

theorem verdict_eq_ok {deadline : Option Binary64} {t : Binary64} {v : Value} (hexact : w.IsExact deadline plan t) :
    w.verdict deadline plan t = .ok v ↔ v = w.value ∧ w.failure = none ∧ (∀ d ∈ deadline, (w.doneAt t).lt d) ∧
      w.reason? deadline.isSome plan t = none := by
  rw [← any_le_eq_false hexact]
  cases hlate : deadline.any (·.le (w.doneAt t)) with
  | true =>
    rw [GuardedWork.verdict, hlate]
    constructor
    · rintro ⟨⟩
    · rintro ⟨-, -, ⟨⟩, -⟩
  | false =>
    rw [GuardedWork.verdict_in_time hlate]
    cases hfailure : w.failure with
    | some f =>
      rw [GuardedWork.result_failed hfailure]
      constructor
      · rintro ⟨⟩
      · rintro ⟨-, ⟨⟩, -⟩
    | none =>
      cases w.reason? deadline.isSome plan t with
      | some reason =>
        rw [GuardedWork.result_cancelled hfailure]
        constructor
        · rintro ⟨⟩
        · rintro ⟨-, -, -, ⟨⟩⟩
      | none =>
        rw [GuardedWork.result_returned hfailure]
        exact ⟨fun h => ⟨(Except.ok.inj h).symm, rfl, rfl, rfl⟩, fun h => congrArg Except.ok h.1.symm⟩

theorem endsAt_le {deadline : Option Binary64} {t : Binary64} (hexact : w.IsExact deadline plan t) :
    ∀ d ∈ deadline, (w.endsAt deadline t).le d := by
  rintro d rfl
  cases hlate : d.le (w.doneAt t) with
  | true =>
    rw [GuardedWork.endsAt_late hlate]
    exact (hexact.limit d rfl).1.le_self
  | false =>
    have hintime : (some d).any (·.le (w.doneAt t)) = false := hlate
    rw [GuardedWork.endsAt_in_time hintime]
    exact Binary64.le_of_lt ((any_le_eq_false hexact).mp hintime d rfl)

/-- **A guard keeps time.** It does not begin work under a token that is cancelled, or at or past the deadline. Otherwise it
returns the value exactly if the work returns before the deadline and no cancellation has come by then. It ends at the
deadline at the latest; and without a deadline the work has all the time it takes, and is then answered with the reason of the
last cancellation. -/
theorem guard_keeps_time (w : GuardedWork) (n : Nat) (s : Schedule setting) (later : Option (Binary64 × String)) (tok : Token)
    (hs : IsResting s) (htok : s.tokens[n]? = some tok) :
    let (report, s') := run n s later (.guard w)
    let done := w.doneAt s.clock
    let reason? := w.reason? tok.deadline.isSome (planFor s later) s.clock
    (tok.cancelled.isSome ∨ tok.deadline.any (·.le s.clock) →
      report.begun = false ∧ s'.clock = s.clock ∧ ∃ f, TokenView.check ⟨tok, s.clock⟩ = .error f ∧ report.result = .error f) ∧
    (tok.cancelled = none → tok.deadline.any (·.le s.clock) = false → w.IsExact tok.deadline (planFor s later) s.clock →
      report.begun = true ∧
      (∀ v, report.result = .ok v ↔ v = w.value ∧ w.failure = none ∧ (∀ d ∈ tok.deadline, done.lt d) ∧ reason? = none) ∧
      (∀ d ∈ tok.deadline, s'.clock.le d) ∧
      (tok.deadline = none → s'.clock = done ∧
        ∀ reason ∈ reason?, w.failure = none → report.result = .error (.cancelled reason))) := by
  dsimp only
  constructor
  · intro hdead
    obtain ⟨f, hf⟩ := check_dead (v := ⟨tok, s.clock⟩) hdead
    obtain ⟨hresult, hbegun, hclock⟩ := report_of_dead w later hs htok hf
    exact ⟨hbegun, hclock, f, hf, hresult⟩
  · intro hcancelled halive hexact
    obtain ⟨cancelled, deadline⟩ := tok
    subst hcancelled
    obtain ⟨hresult, hbegun, hclock⟩ := report_of_alive hs htok halive hexact
    rw [hresult, hbegun, hclock]
    refine ⟨rfl, fun v => verdict_eq_ok hexact, endsAt_le hexact, ?_⟩
    rintro rfl
    refine ⟨rfl, fun reason hreason hfailure => ?_⟩
    rw [GuardedWork.verdict_in_time rfl, Option.mem_def.mp hreason, GuardedWork.result_cancelled hfailure]

/-! ### A schedule at its beginning -/

/-- A schedule with one token, whose deadline is so many seconds ahead. -/
def fresh (timeout : Option Binary64) : Schedule setting := (newToken { world := false } timeout).2

theorem isResting_fresh (timeout : Option Binary64) : IsResting (fresh timeout) := ⟨rfl, rfl, rfl⟩

/-- Work that takes two seconds and returns a page. -/
def fetch : GuardedWork := { seconds := 2, value := .str "page" }

/-- Under a deadline after ten seconds the page is returned, as the cancellation comes only afterwards; without a deadline a
cancellation that comes in between takes its place. -/
theorem fetch_keeps_time :
    (run 0 (fresh (some 10)) (some (3, "stop")) (.guard fetch)).1.result = .ok (.str "page") ∧
    (run 0 (fresh none) (some (1, "stop")) (.guard fetch)).1.result = .error (.cancelled "stop") := by
  have hbounded := guard_keeps_time fetch 0 (fresh (some 10)) (some (3, "stop")) ⟨none, some 10⟩ (isResting_fresh _)
    (by decide +kernel)
  have hunbounded := guard_keeps_time fetch 0 (fresh none) (some (1, "stop")) ⟨none, none⟩ (isResting_fresh _) rfl
  obtain ⟨-, hreturns, -, -⟩ := hbounded.2 rfl (by decide +kernel) (by decide +kernel)
  obtain ⟨-, -, -, hcancelled⟩ := hunbounded.2 rfl rfl (by decide +kernel)
  exact ⟨(hreturns _).mpr ⟨rfl, rfl, by decide +kernel, by decide +kernel⟩,
    (hcancelled rfl).2 "stop" (by decide +kernel) rfl⟩

section Failures

variable {limit : Option Binary64} {e : Failure}

theorem failureUnder_eq (h : limit = none ∨ ∀ m, e ≠ .timedOut m) : Token.failureUnder limit e = e := by
  obtain rfl | h := h
  · rfl
  · cases limit with
    | none => rfl
    | some _ =>
      cases e with
      | timedOut m => exact absurd rfl (h m)
      | _ => rfl

theorem failureUnder_timedOut (h : limit.isSome) (m : String) : Token.failureUnder limit (.timedOut m) = .deadlineExceeded := by
  cases limit with
  | none => cases h
  | some _ => rfl

theorem of_failureUnder_eq (h : Token.failureUnder limit e = .deadlineExceeded) :
    e = .deadlineExceeded ∨ limit.isSome ∧ ∃ m, e = .timedOut m := by
  cases limit with
  | none => exact .inl h
  | some _ =>
    cases e with
    | timedOut m => exact .inr ⟨rfl, m, rfl⟩
    | _ => exact .inl h

theorem verdict_failed {deadline : Option Binary64} {t : Binary64} (hintime : deadline.any (·.le (w.doneAt t)) = false)
    (hfailure : w.failure = some e) : w.verdict deadline plan t = .error (Token.failureUnder deadline e) := by
  rw [GuardedWork.verdict_in_time hintime, GuardedWork.result_failed hfailure]
  cases deadline <;> rfl

/-- A guard comes to the deadline if that is reached, or if its work fails so that it passes for that. -/
theorem of_verdict_eq {deadline : Option Binary64} {t : Binary64}
    (h : w.verdict deadline plan t = .error .deadlineExceeded) :
    deadline.any (·.le (w.doneAt t)) = true ∨ w.failure = some .deadlineExceeded ∨
      deadline.isSome ∧ ∃ m, w.failure = some (.timedOut m) := by
  cases hlate : deadline.any (·.le (w.doneAt t)) with
  | true => exact .inl rfl
  | false =>
    cases hfailure : w.failure with
    | some e =>
      rw [verdict_failed hlate hfailure] at h
      obtain rfl | ⟨hlimit, m, rfl⟩ := of_failureUnder_eq (Except.error.inj h)
      · exact .inr (.inl rfl)
      · exact .inr (.inr ⟨hlimit, m, rfl⟩)
    | none =>
      rw [GuardedWork.verdict_in_time hlate] at h
      cases hreason : w.reason? deadline.isSome plan t with
      | some reason =>
        rw [hreason, GuardedWork.result_cancelled hfailure] at h
        cases h
      | none =>
        rw [hreason, GuardedWork.result_returned hfailure] at h
        cases h

end Failures

/-- **Failures pass through a guard**, whatever is called, as long as the deadline is not reached: with one exception, which
is that under a deadline a time limit of the work's own passes for the deadline. Whatever the work comes to, the guard comes to
the deadline only if that is reached or the work fails by it or in that way. -/
theorem guard_passes_failures (e : Failure) :
    (∀ (c : Call) (v : TokenView) (r : Except Failure c.Answer),
      (Token.guard c).run.Leads [⟨.token, v⟩, ⟨.call c v.remaining, .error e⟩] r →
        (v.remaining = none ∨ (∀ m, e ≠ .timedOut m) → r = .error e) ∧
        (v.remaining.isSome → ∀ m, e = .timedOut m → r = .error .deadlineExceeded)) ∧
    ∀ (w : GuardedWork) (n : Nat) (s : Schedule setting) (later : Option (Binary64 × String)) (deadline : Option Binary64),
      IsResting s → s.tokens[n]? = some ⟨none, deadline⟩ → deadline.any (·.le s.clock) = false →
      w.IsExact deadline (planFor s later) s.clock →
      let (report, s') := run n s later (.guard w)
      (w.failure = some e → (∀ d ∈ deadline, (w.doneAt s.clock).lt d) →
        (deadline = none ∨ (∀ m, e ≠ .timedOut m) → report.result = .error e) ∧
        (deadline.isSome → ∀ m, e = .timedOut m → report.result = .error .deadlineExceeded)) ∧
      (report.result = .error .deadlineExceeded →
        s'.clock ∈ deadline ∨ w.failure = some .deadlineExceeded ∨ deadline.isSome ∧ ∃ m, w.failure = some (.timedOut m)) := by
  constructor
  · intro c v r h
    obtain ⟨v', ⟨f, -, ht, -⟩ | ⟨-, ⟨f, ht, rfl⟩ | ⟨a, v'', ht, -⟩⟩⟩ := Token.leads_guard h
    · cases ht
    · cases ht
      refine ⟨fun h => congrArg Except.error (failureUnder_eq h), ?_⟩
      rintro hlimit m rfl
      exact congrArg Except.error (failureUnder_timedOut hlimit m)
    · cases ht
  · intro w n s later deadline hs htok halive hexact
    obtain ⟨hresult, -, hclock⟩ := report_of_alive hs htok halive hexact
    dsimp only
    rw [hresult, hclock]
    constructor
    · intro hfailure hintime
      rw [verdict_failed ((any_le_eq_false hexact).mpr hintime) hfailure]
      refine ⟨fun h => congrArg Except.error (failureUnder_eq h), ?_⟩
      rintro hlimit m rfl
      exact congrArg Except.error (failureUnder_timedOut hlimit m)
    · intro hdeadline
      obtain hlate | hfailure := of_verdict_eq hdeadline
      · cases deadline with
        | none => cases hlate
        | some d => exact .inl (congrArg some (GuardedWork.endsAt_late hlate).symm)
      · exact .inr hfailure

/-- Work that gives up after two seconds. -/
def slow : GuardedWork := { seconds := 2, failure := some (.timedOut "slow") }

/-- Work that gives up passes on its failure without a deadline; under one that is far off it is answered with the deadline. -/
theorem slow_passes_for_deadline :
    (run 0 (fresh none) none (.guard slow)).1.result = .error (.timedOut "slow") ∧
    (run 0 (fresh (some 10)) none (.guard slow)).1.result = .error .deadlineExceeded := by
  obtain ⟨-, hpasses⟩ := guard_passes_failures (.timedOut "slow")
  have hunbounded := hpasses slow 0 (fresh none) none none (isResting_fresh _) rfl rfl (by decide +kernel)
  have hbounded := hpasses slow 0 (fresh (some 10)) none (some 10) (isResting_fresh _) (by decide +kernel) (by decide +kernel)
    (by decide +kernel)
  exact ⟨(hunbounded.1 rfl nofun).1 (.inl rfl), (hbounded.1 rfl (by decide +kernel)).2 rfl _ rfl⟩

end Trial

end TokenTrial

end Runbook
