import Runbook.Proofs.Trial
import Runbook.Proofs.Watch

/-!
# Sleep, on time

A sleep is a wait for a cancellation with a limit. The limit is the time that is to be slept, or what is left until the deadline if
that is less. Three times race for its end: that of waking up, the deadline, and that of a cancellation.

* `Binary64.AddsTo`: a sum that is exact.
* `TokenTrial.sleep_eq`: a sleep looks at its token, waits, and looks at its token again.
* `TokenTrial.SleepsExactly`: times that are exact and that the clock tells apart.
* `TokenTrial.wakesAt`, `TokenTrial.slept`: when a sleep ends, and what it comes to.
* **`TokenTrial.wakes_alive`**: a sleep that finds its token alive ends then, and comes to this.
* **`TokenTrial.sleep_keeps_time`**: the end of a sleep is the earliest of the three times, and decides what it comes to.
-/

namespace Runbook

namespace Binary64

/-! ## Exact sums -/

/-- A sum of finite numbers that is not rounded. -/
def AddsTo (x y z : Binary64) : Prop := ∃ p ∈ x.toRat?, ∃ q ∈ y.toRat?, z.toRat? = some (p + q)

instance (x y z : Binary64) : Decidable (AddsTo x y z) := inferInstanceAs (Decidable (∃ p ∈ x.toRat?, ∃ q ∈ y.toRat?, _))

variable {t x y z w : Binary64} {p q : Rat}

theorem lt_iff_toRat? (hx : x.toRat? = some p) (hy : y.toRat? = some q) : x.lt y ↔ p < q := by
  cases x with
  | finite s m e =>
    cases y with
    | finite s' m' e' =>
      cases hx
      cases hy
      rw [lt_iff]
      simp only [compare?, Option.some.injEq]
      grind
    | _ => cases hy
  | _ => cases hx

theorem toRat?_of_isZero (h : x.isZero) : x.toRat? = some 0 := by
  unfold isZero at h
  split at h
  · simp [toRat?, value]
  · cases h

theorem not_lt_of_isZero (hx : x.isZero) (hy : y.isZero) : ¬ x.lt y := fun h =>
  Rat.lt_irrefl ((lt_iff_toRat? (toRat?_of_isZero hx) (toRat?_of_isZero hy)).mp h)

theorem le_of_isZero (hx : x.isZero) (hy : y.isZero) : x.le y := by
  cases hle : x.le y with
  | true => rfl
  | false =>
    have hnan {z : Binary64} (hz : z.isZero) : z.isNaN = false := by
      cases z with
      | nan => cases hz
      | inf | finite => rfl
    exact absurd (lt_of_not_le (hnan hy) (hnan hx) hle) (not_lt_of_isZero hy hx)

theorem le_trans (h : x.le y) (h' : y.le z) : x.le z := by
  rw [le_iff_rank] at h h' ⊢
  exact ⟨h.1, h'.2.1, h.2.2.trans h'.2.2⟩

/-- The earliest of some times. -/
def IsEarliest (t : Binary64) (ts : List Binary64) : Prop := t ∈ ts ∧ ∀ x ∈ ts, t.le x

/-- Terms compare as their sums with a third one do. -/
theorem AddsTo.lt_iff (hx : AddsTo t x z) (hy : AddsTo t y w) : x.lt y ↔ z.lt w := by
  obtain ⟨p, hp, q, hq, hz⟩ := hx
  obtain ⟨p', hp', q', hq', hw⟩ := hy
  obtain rfl : p = p' := Option.some.inj (hp.symm.trans hp')
  rw [lt_iff_toRat? hq hq', lt_iff_toRat? hz hw]
  exact (Rat.add_lt_add_left).symm

theorem AddsTo.zero (h : AddsTo t x z) : AddsTo t (zero false) t := by
  obtain ⟨p, hp, -⟩ := h
  exact ⟨p, hp, 0, toRat?_of_isZero rfl, (add_zero p).symm ▸ hp⟩

end Binary64

namespace TokenTrial

open Schedule

/-! ## The program of a sleep -/

/-- The seconds that a sleep waits for a cancellation at most. -/
def waitFor (seconds : Binary64) : Option Binary64 → Binary64
  | some left => seconds.min left
  | none => seconds

/-- How a sleep goes on once its wait is over. -/
def wakeUp (seconds limit : Binary64) : Except Failure Bool → setting.Rest
  | .error f => .done (.error f)
  | .ok isCancelled => if !isCancelled && limit.lt seconds then .done (.error .deadlineExceeded) else lookAgain (.ok .null)

/-- What a sleep does with its token and the clock. -/
def layDown (seconds : Binary64) (v : TokenView) : setting.Rest :=
  match v.check with
  | .error f => .done (.error f)
  | .ok () => .ask (.awaitCancel (waitFor seconds v.remaining)) (wakeUp seconds (waitFor seconds v.remaining))

theorem check_null_eq : (do
    Token.check
    return Value.null : Attempt setting.Call setting.Answer Value).run = lookAgain (.ok .null) := by
  refine congrArg (Program.ask Request.token) (funext fun v => ?_)
  show (ExceptT.run (liftM (TokenView.check v) >>= fun _ => pure Value.null) : setting.Rest) =
    .done ((TokenView.check v).map fun _ => Value.null)
  cases TokenView.check v <;> rfl

theorem sleep_eq (seconds : Binary64) : (routine (.sleep seconds)).run = .ask .token (layDown seconds) := by
  refine congrArg (Program.ask Request.token) (funext fun v => ?_)
  let limit := waitFor seconds (TokenView.remaining v)
  let goOn (isCancelled : Bool) : Attempt setting.Call setting.Answer Unit := do
    if !isCancelled && limit.lt seconds then throw .deadlineExceeded
    Token.check
  show (ExceptT.run ((liftM (TokenView.check v) >>= fun _ => Attempt.awaitCancel limit >>= goOn) >>= fun _ => pure Value.null) :
    setting.Rest) = _
  unfold layDown
  cases TokenView.check v with
  | error f => rfl
  | ok _ =>
    refine congrArg (Program.ask (Request.awaitCancel limit)) (funext fun r => ?_)
    cases r with
    | error f => rfl
    | ok isCancelled =>
      show (ExceptT.run (goOn isCancelled >>= fun _ => pure Value.null) : setting.Rest) =
        if !isCancelled && limit.lt seconds then _ else _
      unfold goOn
      cases !isCancelled && limit.lt seconds with
      | false => exact check_null_eq
      | true => rfl

/-! ## How a sleep ends -/

section Run

variable {s : Schedule setting} {n : Nat} {seconds limit x : Binary64} {tok : Token} {reason? : Option String}
  {deadline : Option Binary64} {due later : Option (Binary64 × String)}

/-- In at most so many turns the run of a sleep comes to a result at a time, and nothing that is due then is for a run. -/
def Wakes (turns : Nat) (s₀ s : Schedule setting) (n : Nat) (r : Except Failure Value) (t : Binary64) : Prop :=
  ∃ s₁ : Schedule setting, Reaches turns s₀ (s₁.host n (.ended (.ok r))) ∧ s₁.fibers = s.fibers ∧ s₁.clock = t ∧
    ∀ x ∈ s₁.queue, IsIdle x

theorem Wakes.since {j k l : Nat} {s₀ s' : Schedule setting} {r : Except Failure Value} {t : Binary64} (h : Reaches j s₀ s')
    (h' : Wakes k s' s n r t) (hl : j + k ≤ l) : Wakes l s₀ s n r t := by
  obtain ⟨s₁, hreaches, hkept⟩ := h'
  exact ⟨s₁, (h.trans hreaches).mono hl, hkept⟩

theorem Wakes.mono {k l : Nat} {s₀ : Schedule setting} {r : Except Failure Value} {t : Binary64} (h : Wakes k s₀ s n r t)
    (hkl : k ≤ l) : Wakes l s₀ s n r t := by
  obtain ⟨s₁, hreaches, hkept⟩ := h
  exact ⟨s₁, hreaches.mono hkl, hkept⟩

/-- What a sleep comes to is what its token says at its end. -/
def saying (reason? : Option String) (deadline : Option Binary64) (t : Binary64) : Except Failure Value :=
  (TokenView.check ⟨⟨reason?, deadline⟩, t⟩).map fun _ => .null

theorem saying_cancelled (reason : String) (deadline : Option Binary64) (t : Binary64) :
    saying (some reason) deadline t = .error (.cancelled reason) := rfl

theorem saying_late {t : Binary64} (h : deadline.any (·.le t)) : saying none deadline t = .error .deadlineExceeded :=
  congrArg (Except.map fun _ => Value.null) (if_pos h)

theorem saying_live {t : Binary64} (h : deadline.any (·.le t) = false) : saying none deadline t = .ok .null :=
  congrArg (Except.map fun _ => Value.null) (if_neg (Bool.eq_false_iff.mp h))

/-- A sleep whose wait is over. One that was cut short by the deadline does not look at its token again. -/
theorem drive_wakeUp (seconds limit : Binary64) (isCancelled : Bool) (htok : s.tokens[n]? = some ⟨reason?, deadline⟩)
    (hlimit : isCancelled = false → limit.lt seconds → reason? = none ∧ deadline.any (·.le s.clock)) :
    drive s.fibers.length (wakeUp seconds limit (.ok isCancelled)) (s.host n .active) =
      s.host n (.ended (.ok (saying reason? deadline s.clock))) := by
  have hlook : drive s.fibers.length (lookAgain (.ok .null)) (s.host n .active) =
      s.host n (.ended (.ok (saying reason? deadline s.clock))) := by
    show drive (S := setting) _ (.done (((s.host n .active).tokenView s.fibers.length).check.map fun _ => Value.null)) _ = _
    rw [tokenView_host, htok]
    exact finishRun_host _
  rw [wakeUp]
  split
  · next hshort =>
    obtain ⟨hnot, hless⟩ := Bool.and_eq_true_iff.mp hshort
    obtain ⟨rfl, hlate⟩ := hlimit (by simpa using hnot) hless
    rw [saying_late hlate]
    exact finishRun_host _
  · exact hlook

/-- A sleep that finds its token cancelled, or past its deadline. -/
theorem wakes_dead {now : Option String} {f : Failure} (seconds : Binary64)
    (hqueue : s.queue = .step s.fibers.length none :: now.toList.map (Signal.cancel n)) (htok : s.tokens[n]? = some tok)
    (hdead : TokenView.check ⟨tok, s.clock⟩ = .error f) :
    Wakes 5 (s.host n (.ready (routine (.sleep seconds)).run)) s n (.error f) s.clock := by
  let s₁ : Schedule setting := { s with queue := now.toList.map (Signal.cancel n) }
  have hdone : drive s.fibers.length (routine (.sleep seconds)).run (s₁.host n .active) = s₁.host n (.ended (.ok (.error f))) := by
    rw [sleep_eq]
    show drive (S := setting) _ (layDown seconds ((s₁.host n .active).tokenView s₁.fibers.length)) _ = _
    rw [tokenView_host, show s₁.tokens[n]? = _ from htok, Option.getD_some, layDown,
      show TokenView.check ⟨tok, s₁.clock⟩ = .error f from hdead]
    exact finishRun_host _
  refine ⟨s₁, (Turns.begin hqueue (.of_eq hdone)).reaches.mono (by decide), rfl, rfl, fun x hx => ?_⟩
  obtain ⟨reason, -, rfl⟩ := List.mem_map.mp hx
  exact .cancel n reason

/-! ## A sleep that finds its token alive -/

/-- The wait of a sleep. -/
theorem drive_sleep (htok : s.tokens[n]? = some ⟨none, deadline⟩) (hlive : deadline.any (·.le s.clock) = false)
    (hlimit : waitFor seconds (TokenView.remaining ⟨⟨none, deadline⟩, s.clock⟩) = limit) :
    drive s.fibers.length (routine (.sleep seconds)).run (s.host n .active) =
      (s.host n .active).beginErrand s.fibers.length limit (.watch (wakeUp seconds limit (.ok true)))
        (watchFailure (wakeUp seconds limit)) := by
  have hcheck : TokenView.check ⟨⟨none, deadline⟩, s.clock⟩ = .ok () := if_neg (Bool.eq_false_iff.mp hlive)
  rw [sleep_eq]
  show drive (S := setting) _ (layDown seconds ((s.host n .active).tokenView s.fibers.length)) _ = _
  rw [tokenView_host, htok, Option.getD_some, layDown, hcheck, ← hlimit]
  rfl

/-- Where a run is that has sent its assistant to watch the token. -/
def drowsy (awaits : Nat) (seconds limit : Binary64) : Stage setting :=
  .limited ⟨awaits, false⟩ (.called (.watch (wakeUp seconds limit (.ok true)))) false (watchFailure (wakeUp seconds limit))

/-- The schedule once the assistant of a sleep watches its token. -/
def watched (s : Schedule setting) (x : Binary64) : Schedule setting := { called s x with queue := [], awaits := s.awaits + 2 }

/-- Where a run is while it sleeps. -/
def asleep (awaits : Nat) (seconds limit : Binary64) : Stage setting :=
  .limited ⟨awaits, false⟩ (.watching ⟨awaits + 1, false⟩ (wakeUp seconds limit (.ok true))) false (watchFailure (wakeUp seconds limit))

theorem asleep_ne_ended (awaits : Nat) (seconds limit : Binary64) (r : Except String setting.Result) :
    asleep awaits seconds limit ≠ .ended r := nofun

section Alive

variable (hover : s.isOver)
  (hqueue : s.queue = .step s.fibers.length none :: (due.map Prod.snd).toList.map (Signal.cancel n))
  (htok : s.tokens[n]? = some ⟨none, deadline⟩) (hlive : deadline.any (·.le s.clock) = false)
  (hlimit : waitFor seconds (TokenView.remaining ⟨⟨none, deadline⟩, s.clock⟩) = limit)

include hover hqueue htok hlive hlimit

/-- A sleep of no time at all. A cancellation that is set for this time comes before its end. -/
theorem wakes_at_once (hnone : limit.le (Binary64.zero false)) (hless : limit.lt seconds = false) :
    Wakes 5 (s.host n (.ready (routine (.sleep seconds)).run)) s n (saying (due.map Prod.snd) deadline s.clock) s.clock := by
  let s₁ : Schedule setting := { s with queue := (due.map Prod.snd).toList.map (Signal.cancel n) }
  let s₂ : Schedule setting := s₁.newAwait.2.signal (.assist s.fibers.length false)
  let s₃ : Schedule setting := { s₂ with queue := [.assist s.fibers.length false] }.mark n (due.map Prod.snd)
  let drained : Stage setting := .draining ⟨s.awaits, false⟩ (.called (.watch (wakeUp seconds limit (.ok true)))) true s.awaits
    (.timedOut "") (watchFailure (wakeUp seconds limit))
  have hbegin : drive s.fibers.length (routine (.sleep seconds)).run (s₁.host n .active) = s₂.host n drained :=
    (drive_sleep (s := s₁) htok hlive hlimit).trans (beginErrand_instant (s := s₁) hnone)
  have hmark : Reaches 1 (s₂.host n drained) (s₃.host n drained) := reaches_mark hover nofun rfl rfl
  have htok₃ : s₃.tokens[n]? = some ⟨due.map Prod.snd, deadline⟩ := by
    rw [tokens_mark (s := { s₂ with queue := [.assist s.fibers.length false] }) htok, Option.or_none]
  let s₄ : Schedule setting := { s₃ with queue := [] }.disarm s.fibers.length s.awaits
  have hdone := drive_wakeUp (s := s₄) seconds limit false htok₃ fun _ h =>
    absurd h (Bool.eq_false_iff.mp hless)
  have hends : Turns 3 (s₃.host n drained) _ := .uncalled rfl rfl (.of_eq hdone)
  exact ⟨s₄, ((Turns.begin hqueue (.of_eq hbegin)).reaches.trans (hmark.trans hends.reaches)).mono (by decide), rfl, rfl, nofun⟩

variable (hpositive : limit.le (Binary64.zero false) = false) (hx : s.clock.add limit = x)

include hpositive hx

/-- A sleep calls its assistant. -/
theorem reaches_drowsy : Reaches 2 (s.host n (.ready (routine (.sleep seconds)).run))
    (((called s x).mark n (due.map Prod.snd)).host n (drowsy s.awaits seconds limit)) := by
  let s₁ : Schedule setting := { s with queue := (due.map Prod.snd).toList.map (Signal.cancel n) }
  let s₂ : Schedule setting :=
    (s₁.newAwait.2.after limit (.release s.fibers.length s.awaits)).signal (.assist s.fibers.length false)
  have hbegin : drive s.fibers.length (routine (.sleep seconds)).run (s₁.host n .active) = s₂.host n (drowsy s.awaits seconds limit) :=
    (drive_sleep (s := s₁) htok hlive hlimit).trans (beginErrand_host (s := s₁) hpositive _ _)
  have hmark : Reaches 1 (s₂.host n (drowsy s.awaits seconds limit))
      (({ s₂ with queue := [.assist s.fibers.length false] }.mark n (due.map Prod.snd)).host n (drowsy s.awaits seconds limit)) :=
    reaches_mark hover nofun rfl rfl
  have hcalled : { s₂ with queue := [.assist s.fibers.length false] } = called s x := by
    rw [called, ← hx]
    rfl
  rw [hcalled] at hmark
  exact (Turns.begin hqueue (.of_eq hbegin)).reaches.trans hmark

/-- A cancellation that is set for the time at which a sleep begins. -/
theorem wakes_forgone {reason : String} (hdue : due.map Prod.snd = some reason) :
    Wakes 5 (s.host n (.ready (routine (.sleep seconds)).run)) s n (saying (some reason) deadline s.clock) s.clock := by
  have hdrowsy := reaches_drowsy hover hqueue htok hlive hlimit hpositive hx
  have htok₁ := tokens_mark (s := called s x) htok (some reason)
  rw [hdue] at hdrowsy
  let s₁ : Schedule setting := (called s x).mark n (some reason)
  let s₂ : Schedule setting := { s₁ with queue := [] }.disarm s.fibers.length s.awaits
  have hdone := drive_wakeUp (s := s₂) seconds limit true htok₁ nofun
  have hends : Turns 3 (s₁.host n (drowsy s.awaits seconds limit)) (s₂.host n (.ended (.ok (saying (some reason) deadline s₂.clock)))) :=
    .forgoWatch htok₁ rfl rfl (.release rfl rfl (.finishAid rfl (.of_eq hdone)))
  exact ⟨s₂, (hdrowsy.trans hends.reaches).mono (by decide), rfl, rfl, nofun⟩

/-- A sleep whose token is watched. -/
theorem reaches_asleep (hdue : due = none) :
    Reaches 3 (s.host n (.ready (routine (.sleep seconds)).run)) ((watched s x).host n (asleep s.awaits seconds limit)) := by
  subst hdue
  have hdrowsy := reaches_drowsy hover hqueue htok hlive hlimit hpositive hx
  have hwatch : Turns 1 ((called s x).host n (drowsy s.awaits seconds limit)) ((watched s x).host n (asleep s.awaits seconds limit)) :=
    .watch htok rfl rfl (.refl _)
  exact hdrowsy.trans hwatch.reaches

end Alive

section Asleep

variable (htimers : s.timers = later.toList.map (planned n)) (htok : s.tokens[n]? = some ⟨none, deadline⟩) (hlt : s.clock.lt x)
  (hsharp : x.IsSharp) (hplan : ∀ c ∈ later, s.clock.lt c.1 ∧ c.1.IsSharp ∧ c.1.Told x)

include htimers htok hlt hsharp hplan

/-- A sleep during which no cancellation comes. -/
theorem wakes_by_itself (hnone : byThen later x = none) (hlimit : limit.lt seconds → deadline.any (·.le x)) :
    Wakes 6 ((watched s x).host n (asleep s.awaits seconds limit)) s n (saying none deadline x) x := by
  obtain ⟨rest, hinsert, -, hrest⟩ := timers_one (n := n) (a := .release s.fibers.length s.awaits) hsharp
    fun c hc => (hplan c hc).2.2
  have htimers' : (watched s x).timers = ⟨x, .release s.fibers.length s.awaits⟩ :: [] ++ rest := by
    rw [hnone] at hinsert
    rw [watched, called, htimers]
    exact hinsert
  let s₁ : Schedule setting :=
    { watched s x with clock := x, queue := [.release s.fibers.length s.awaits], timers := rest }
  let s₂ : Schedule setting :=
    ({ s₁ with queue := [] }.newAwait.2.disarm s.fibers.length (s.awaits + 1)).disarm s.fibers.length s.awaits
  have hdone := drive_wakeUp (s := s₂) seconds limit false htok fun _ h => ⟨rfl, hlimit h⟩
  have hends : Turns 5 (s₁.host n (asleep s.awaits seconds limit)) _ := .unnoticed rfl rfl rfl (.of_eq hdone)
  have hwait : Turns 6 ((watched s x).host n (asleep s.awaits seconds limit)) _ :=
    .advance (asleep_ne_ended _ _ _) rfl htimers' (List.forall_mem_singleton.mpr rfl) hrest hlt hsharp hends
  exact ⟨s₂, hwait.reaches.mono (by decide), rfl, rfl, nofun⟩

/-- A sleep during which a cancellation comes, or at the end of which it does. -/
theorem wakes_noticed {c : Binary64 × String} (hover : s.isOver) (hc : byThen later x = some c) :
    Wakes 6 ((watched s x).host n (asleep s.awaits seconds limit)) s n (saying (some c.2) deadline c.1) c.1 := by
  obtain ⟨rest, hinsert, hbefore, hrest⟩ := timers_one (n := n) (a := .release s.fibers.length s.awaits) hsharp
    fun c hc => (hplan c hc).2.2
  obtain ⟨hclock, hcsharp, -⟩ := hplan c (Option.mem_filter_iff.mp hc).1
  have htimers' : (watched s x).timers = planned n c :: ⟨x, .release s.fibers.length s.awaits⟩ :: rest := by
    rw [hc] at hinsert
    rw [watched, called, htimers]
    exact hinsert
  have htok₁ (s' : Schedule setting) (hs' : s'.tokens = s.tokens) : (s'.mark n (some c.2)).tokens[n]? = some ⟨some c.2, deadline⟩ :=
    tokens_mark (hs' ▸ htok) (some c.2)
  obtain hx | hx := hbefore c hc
  · -- It comes with the limit, whose release wakes the run up; that of the assistant is left over.
    let s₁ : Schedule setting :=
      { watched s x with clock := x, queue := [.cancel n c.2, .release s.fibers.length s.awaits], timers := rest }
    let s₂ : Schedule setting :=
      ({ s₁ with queue := [.release s.fibers.length s.awaits] }.mark n (some c.2)).disarm s.fibers.length s.awaits
    have hdone := drive_wakeUp (s := s₂) seconds limit true (htok₁ _ rfl) nofun
    have hends : Turns 4 (s₁.host n (asleep s.awaits seconds limit)) (s₂.host n (.ended (.ok (saying (some c.2) deadline x)))) :=
      .noticedAtLimit hover rfl rfl rfl (.of_eq hdone)
    have hdue : ∀ u ∈ [planned (S := setting) n c, ⟨x, .release s.fibers.length s.awaits⟩], u.due = x :=
      List.forall_mem_cons.mpr ⟨hx, List.forall_mem_singleton.mpr rfl⟩
    have hwait : Turns 5 ((watched s x).host n (asleep s.awaits seconds limit)) _ :=
      .advance (asleep_ne_ended _ _ _) rfl htimers' hdue hrest hlt hsharp hends
    rw [hx]
    exact ⟨s₂, hwait.reaches.mono (by decide), rfl, rfl, List.forall_mem_singleton.mpr (.release _ _)⟩
  · -- The limit is not reached.
    let s₁ : Schedule setting :=
      { watched s x with clock := c.1, queue := [.cancel n c.2], timers := ⟨x, .release s.fibers.length s.awaits⟩ :: rest }
    let s₂ : Schedule setting := ({ s₁ with queue := [] }.mark n (some c.2)).disarm s.fibers.length s.awaits
    have hdone := drive_wakeUp (s := s₂) seconds limit true (htok₁ _ rfl) nofun
    have hends : Turns 4 (s₁.host n (asleep s.awaits seconds limit)) (s₂.host n (.ended (.ok (saying (some c.2) deadline c.1)))) :=
      .noticed hover rfl rfl rfl (.of_eq hdone)
    have hfollowing : ∀ u ∈ (⟨x, .release s.fibers.length s.awaits⟩ : Timer setting) :: rest, c.1.Before u.due :=
      List.forall_mem_cons.mpr ⟨hx, fun u hu => hx.trans (hrest u hu).1⟩
    have hfirst : (watched s x).timers = planned n c :: [] ++ ⟨x, .release s.fibers.length s.awaits⟩ :: rest := htimers'
    have hwait : Turns 5 ((watched s x).host n (asleep s.awaits seconds limit)) _ :=
      .advance (asleep_ne_ended _ _ _) rfl hfirst (List.forall_mem_singleton.mpr rfl) hfollowing hclock hcsharp hends
    exact ⟨s₂, hwait.reaches.mono (by decide), rfl, rfl, nofun⟩

end Asleep

/-! ## Exact times -/

/-- Work that takes so many seconds and does nothing else. -/
def nap (seconds : Binary64) : GuardedWork := { seconds }

/-- Times are exact for a sleep that begins at a time: the clock tells them apart, and the time of waking up and what is left until
the deadline are not rounded. -/
@[mk_iff]
structure SleepsExactly (seconds : Binary64) (deadline : Option Binary64) (plan : Option (Binary64 × String)) (t : Binary64) :
    Prop where
  told : (nap seconds).IsExact deadline plan t
  wakes : t.AddsTo seconds (t.add seconds)
  left : ∀ d ∈ deadline, d.le t = false → t.AddsTo (d.sub t) d

instance (seconds : Binary64) (deadline : Option Binary64) (plan : Option (Binary64 × String)) (t : Binary64) :
    Decidable (SleepsExactly seconds deadline plan t) :=
  decidable_of_iff _ (sleepsExactly_iff seconds deadline plan t).symm

variable {plan : Option (Binary64 × String)} {t d : Binary64}

/-- A sleep that takes time waits up to its end, and not less than it is to sleep unless the deadline has come then. -/
theorem waitFor_of_exact (hexact : SleepsExactly seconds deadline plan t) (hlive : deadline.any (·.le t) = false)
    (hzero : seconds.isZero = false) (hlimit : waitFor seconds (TokenView.remaining ⟨⟨none, deadline⟩, t⟩) = limit) :
    (Binary64.zero false).lt limit ∧ t.add limit = (nap seconds).endsAt deadline t ∧
      (limit.lt seconds → deadline.any (·.le ((nap seconds).endsAt deadline t))) := by
  have hdone : (nap seconds).doneAt t = t.add seconds := GuardedWork.doneAt_of_not_isZero hzero
  have hpositive : (Binary64.zero false).lt seconds :=
    (hexact.wakes.zero.lt_iff hexact.wakes).mpr (hdone ▸ hexact.told.takes hzero)
  cases deadline with
  | none =>
    obtain rfl : seconds = limit := hlimit
    rw [GuardedWork.endsAt_in_time rfl, hdone]
    exact ⟨hpositive, rfl, fun h => absurd h (Bool.eq_false_iff.mp (Binary64.lt_irrefl seconds))⟩
  | some d =>
    obtain ⟨hleft, hadd⟩ := hexact.told.left d rfl hlive
    obtain ⟨hdsharp, hdtold⟩ := hexact.told.limit d rfl
    have hless : (d.sub t).lt seconds ↔ d.lt (t.add seconds) := (hexact.left d rfl hlive).lt_iff hexact.wakes
    have hmin : limit = if (d.sub t).lt seconds then d.sub t else seconds := by
      rw [← hlimit]
      show seconds.min ((Binary64.zero false).max (d.sub t)) = _
      rw [Binary64.max_of_lt hleft]
      rfl
    rw [hdone] at hdtold
    cases hshort : (d.sub t).lt seconds with
    | true =>
      have hlt := hless.mp hshort
      rw [hshort, if_pos rfl] at hmin
      rw [hmin, GuardedWork.endsAt_late (hdone ▸ Binary64.le_of_lt hlt)]
      exact ⟨hleft, hadd, fun _ => hdsharp.le_self⟩
    | false =>
      rw [hshort, if_neg Bool.false_ne_true] at hmin
      rw [hmin]
      refine ⟨hpositive, ?_, fun h => absurd h (Bool.eq_false_iff.mp (Binary64.lt_irrefl seconds))⟩
      obtain hd | hd | hd := hdtold
      · rw [GuardedWork.endsAt_late (hdone ▸ hd ▸ hdsharp.le_self), hd]
      · exact absurd (hless.mpr hd.1) (Bool.eq_false_iff.mp hshort)
      · rw [GuardedWork.endsAt_in_time (hdone ▸ Binary64.not_le_of_lt hd.1), hdone]

/-- A sleep that takes no time waits for none. -/
theorem waitFor_of_isZero (hexact : SleepsExactly seconds deadline plan t) (hlive : deadline.any (·.le t) = false)
    (hzero : seconds.isZero) : waitFor seconds (TokenView.remaining ⟨⟨none, deadline⟩, t⟩) = seconds := by
  cases deadline with
  | none => rfl
  | some d =>
    obtain ⟨hleft, -⟩ := hexact.told.left d rfl hlive
    have hshort : (d.sub t).lt seconds = false := by
      refine Bool.eq_false_iff.mpr fun hless => ?_
      exact Binary64.not_lt_of_isZero rfl hzero (Binary64.lt_trans hleft hless)
    show seconds.min ((Binary64.zero false).max (d.sub t)) = _
    rw [Binary64.max_of_lt hleft, Binary64.min, hshort]
    rfl

/-- What ends a sleep besides a cancellation is a time that the clock tells apart from cancellations. -/
theorem endsAt_told (hexact : SleepsExactly seconds deadline plan t) (hlive : deadline.any (·.le t) = false) :
    ((nap seconds).endsAt deadline t).IsSharp ∧ (seconds.isZero = false → t.lt ((nap seconds).endsAt deadline t)) ∧
      ∀ c ∈ plan, c.1.Told ((nap seconds).endsAt deadline t) := by
  obtain ⟨⟨htakes, hdone, -, hlimit, hplan⟩, -, -⟩ := hexact
  cases hlate : deadline.any (·.le ((nap seconds).doneAt t)) with
  | false =>
    rw [GuardedWork.endsAt_in_time hlate]
    exact ⟨hdone, htakes, fun c hc => (hplan c hc).2.2.1⟩
  | true =>
    cases deadline with
    | none => cases hlate
    | some d =>
      obtain ⟨hsharp, -⟩ := hlimit d rfl
      rw [GuardedWork.endsAt_late hlate]
      refine ⟨hsharp, fun hzero => ?_, fun c hc => (hplan c hc).2.2.2 d rfl⟩
      exact Binary64.lt_of_not_le (Binary64.lt_iff_rank.mp (htakes hzero)).1 (Binary64.lt_iff_rank.mp hsharp).1 hlive

/-- The cancellation that wakes up a sleep which begins at a time: one that comes by its end. -/
def waking (seconds : Binary64) (deadline : Option Binary64) (plan : Option (Binary64 × String)) (t : Binary64) :
    Option (Binary64 × String) :=
  byThen plan ((nap seconds).endsAt deadline t)

/-- The time at which a sleep wakes up that begins at a time. -/
def wakesAt (seconds : Binary64) (deadline : Option Binary64) (plan : Option (Binary64 × String)) (t : Binary64) : Binary64 :=
  ((waking seconds deadline plan t).map Prod.fst).getD ((nap seconds).endsAt deadline t)

/-- What a sleep comes to that begins at a time. -/
def slept (seconds : Binary64) (deadline : Option Binary64) (plan : Option (Binary64 × String)) (t : Binary64) :
    Except Failure Value :=
  saying ((waking seconds deadline plan t).map Prod.snd) deadline (wakesAt seconds deadline plan t)

theorem endsAt_of_isZero (hlive : deadline.any (·.le t) = false) (hzero : seconds.isZero) :
    (nap seconds).endsAt deadline t = t := by
  have hdone : (nap seconds).doneAt t = t := GuardedWork.doneAt_of_isZero hzero
  rw [GuardedWork.endsAt_in_time (hdone.symm ▸ hlive), hdone]

theorem le_endsAt (hexact : SleepsExactly seconds deadline plan t) (hlive : deadline.any (·.le t) = false) :
    t.le ((nap seconds).endsAt deadline t) := by
  obtain ⟨hsharp, htakes, -⟩ := endsAt_told hexact hlive
  cases hzero : seconds.isZero with
  | true =>
    rw [endsAt_of_isZero hlive hzero] at hsharp ⊢
    exact hsharp.le_self
  | false => exact Binary64.le_of_lt (htakes hzero)

section Begun

variable {c : Binary64 × String} (hover : s.isOver)
  (hqueue : s.queue = .step s.fibers.length none :: (due.map Prod.snd).toList.map (Signal.cancel n))
  (htok : s.tokens[n]? = some ⟨none, deadline⟩) (hlive : deadline.any (·.le s.clock) = false)
  (hexact : SleepsExactly seconds deadline plan s.clock)

include hover hqueue htok hlive hexact

theorem wakes_instant (hzero : seconds.isZero) :
    Wakes 5 (s.host n (.ready (routine (.sleep seconds)).run)) s n (saying (due.map Prod.snd) deadline s.clock) s.clock :=
  wakes_at_once hover hqueue htok hlive (waitFor_of_isZero hexact hlive hzero) (Binary64.le_of_isZero hzero rfl)
    (Binary64.lt_irrefl seconds)

/-- A cancellation that is due as a sleep begins wakes it up at once. -/
theorem wakes_due (hc : c ∈ plan) (hnow : c.1 = s.clock) (hdue : due = plan) :
    Wakes 5 (s.host n (.ready (routine (.sleep seconds)).run)) s n (slept seconds deadline plan s.clock)
      (wakesAt seconds deadline plan s.clock) := by
  have hle : c.1.le ((nap seconds).endsAt deadline s.clock) := by
    rw [hnow]
    exact le_endsAt hexact hlive
  have hwaking : waking seconds deadline plan s.clock = some c := Option.mem_filter_iff.mpr ⟨hc, hle⟩
  have hreason : due.map Prod.snd = some c.2 := by
    rw [hdue, Option.mem_def.mp hc]
    rfl
  rw [slept, wakesAt, hwaking, Option.map_some, Option.map_some, Option.getD_some, hnow]
  cases hzero : seconds.isZero with
  | true => exact hreason ▸ wakes_instant hover hqueue htok hlive hexact hzero
  | false =>
    obtain ⟨hpositive, -⟩ := waitFor_of_exact hexact hlive hzero rfl
    exact wakes_forgone hover hqueue htok hlive rfl (Binary64.not_le_of_lt hpositive) rfl hreason

/-- A sleep with a cancellation that is set for later, if one is. -/
theorem wakes_later (htimers : s.timers = plan.toList.map (planned n)) (hdue : due = none)
    (hplan : ∀ c ∈ plan, s.clock.lt c.1 ∧ c.1.IsSharp) :
    Wakes 9 (s.host n (.ready (routine (.sleep seconds)).run)) s n (slept seconds deadline plan s.clock)
      (wakesAt seconds deadline plan s.clock) := by
  obtain ⟨hsharp, htakes, htold⟩ := endsAt_told hexact hlive
  cases hzero : seconds.isZero with
  | true =>
    have hwaking : waking seconds deadline plan s.clock = none := by
      refine Option.filter_eq_none_iff.mpr fun c hc => ?_
      rw [endsAt_of_isZero hlive hzero, Binary64.not_le_of_lt (hplan c hc).1]
      exact Bool.false_ne_true
    have hwakes := wakes_instant hover hqueue htok hlive hexact hzero
    rw [hdue, Option.map_none] at hwakes
    rw [slept, wakesAt, hwaking, Option.map_none, Option.map_none, Option.getD_none, endsAt_of_isZero hlive hzero]
    exact hwakes.mono (by decide)
  | false =>
    obtain ⟨hpositive, hadd, hshort⟩ := waitFor_of_exact hexact hlive hzero rfl
    have hasleep := reaches_asleep hover hqueue htok hlive rfl (Binary64.not_le_of_lt hpositive) hadd hdue
    have hset : ∀ c ∈ plan, s.clock.lt c.1 ∧ c.1.IsSharp ∧ c.1.Told ((nap seconds).endsAt deadline s.clock) := fun c hc =>
      ⟨(hplan c hc).1, (hplan c hc).2, htold c hc⟩
    rw [slept, wakesAt]
    cases hwaking : waking seconds deadline plan s.clock with
    | none => exact .since hasleep (wakes_by_itself htimers htok (htakes hzero) hsharp hset hwaking hshort) (by decide)
    | some c => exact .since hasleep (wakes_noticed htimers htok (htakes hzero) hsharp hset hover hwaking) (by decide)

/-- **A sleep that finds its token alive** wakes up with the cancellation that comes by its end, or at its end. -/
theorem wakes_alive (htimers : s.timers = later.toList.map (planned n)) (hsplit : IsSplit plan due later s.clock) :
    Wakes 12 (s.host n (.ready (routine (.sleep seconds)).run)) s n (slept seconds deadline plan s.clock)
      (wakesAt seconds deadline plan s.clock) := by
  have hlater := hsplit.isLater hexact.told
  obtain ⟨⟨c, hc, hdue⟩, hplan, -⟩ | ⟨-, hnone, rfl⟩ := hsplit
  · obtain hnow | hbefore := (hexact.told.cancellation c hc).1
    · exact (wakes_due hover hqueue htok hlive hexact hc hnow hplan).mono (by decide)
    · exact absurd hdue (Bool.eq_false_iff.mp hbefore.2)
  · have hset : ∀ c ∈ later, s.clock.lt c.1 ∧ c.1.IsSharp := fun c hc => ⟨(hlater c hc).1, (hlater c hc).2.1⟩
    exact (wakes_later hover hqueue htok hlive hexact htimers hnone hset).mono (by decide)

end Begun

/-! ## What a sleep comes to -/

section Verdict

variable {c : Binary64 × String} (hexact : SleepsExactly seconds deadline plan t) (hlive : deadline.any (·.le t) = false)

include hexact

theorem endsAt_le_doneAt : ((nap seconds).endsAt deadline t).le ((nap seconds).doneAt t) := by
  cases hlate : deadline.any (·.le ((nap seconds).doneAt t)) with
  | false =>
    rw [GuardedWork.endsAt_in_time hlate]
    exact hexact.told.done.le_self
  | true =>
    cases deadline with
    | none => cases hlate
    | some d =>
      rw [GuardedWork.endsAt_late hlate]
      exact hlate

theorem waking_of_lt (hc : c ∈ plan) (hdone : c.1.lt ((nap seconds).doneAt t)) (hd : ∀ d ∈ deadline, c.1.lt d) :
    waking seconds deadline plan t = some c := by
  refine Option.mem_filter_iff.mpr ⟨hc, Binary64.le_of_lt ?_⟩
  cases hlate : deadline.any (·.le ((nap seconds).doneAt t)) with
  | false => rwa [GuardedWork.endsAt_in_time hlate]
  | true =>
    cases deadline with
    | none => cases hlate
    | some d =>
      rw [GuardedWork.endsAt_late hlate]
      exact hd d rfl

/-- A cancellation that comes first wakes up a sleep with its reason. -/
theorem slept_cancelled (hc : c ∈ plan) (hdone : c.1.lt ((nap seconds).doneAt t)) (hd : ∀ d ∈ deadline, c.1.lt d) :
    slept seconds deadline plan t = .error (.cancelled c.2) := by
  rw [slept, waking_of_lt hexact hc hdone hd]
  rfl

include hlive

theorem waking_eq_none : waking seconds deadline plan t = none ↔ ∀ c ∈ plan, ((nap seconds).endsAt deadline t).lt c.1 := by
  have hsharp := (endsAt_told hexact hlive).1
  rw [waking, byThen, Option.filter_eq_none_iff]
  constructor
  · intro hnot c hc
    exact Binary64.lt_of_not_le (Binary64.lt_iff_rank.mp hsharp).1 (Binary64.lt_iff_rank.mp (hexact.told.cancellation c hc).2.1).1
      (Bool.eq_false_iff.mpr (hnot c hc))
  · intro hlt c hc
    exact Bool.eq_false_iff.mp (Binary64.not_le_of_lt (hlt c hc))

/-- A sleep ends at the earliest of the times of waking up, of the deadline and of a cancellation. -/
theorem isEarliest_wakesAt :
    (wakesAt seconds deadline plan t).IsEarliest ((nap seconds).doneAt t :: (deadline.toList ++ plan.toList.map Prod.fst)) := by
  have hdone := endsAt_le_doneAt hexact
  have hdeadline : ∀ d ∈ deadline, ((nap seconds).endsAt deadline t).le d := endsAt_le hexact.told
  cases hwaking : waking seconds deadline plan t with
  | none =>
    have hplan := (waking_eq_none hexact hlive).mp hwaking
    rw [wakesAt, hwaking, Option.map_none, Option.getD_none]
    refine ⟨?_, ?_⟩
    · rw [GuardedWork.endsAt]
      cases hlate : deadline.filter (·.le ((nap seconds).doneAt t)) with
      | none => exact List.mem_cons_self
      | some d =>
        have hd : d ∈ deadline := (Option.mem_filter_iff.mp hlate).1
        exact List.mem_cons_of_mem _ (List.mem_append_left _ (Option.mem_toList.mpr hd))
    · simp only [List.forall_mem_cons, List.forall_mem_append, List.forall_mem_map, Option.mem_toList]
      exact ⟨hdone, hdeadline, fun c hc => Binary64.le_of_lt (hplan c hc)⟩
  | some c =>
    obtain ⟨hc, hle⟩ := Option.mem_filter_iff.mp hwaking
    rw [wakesAt, hwaking, Option.map_some, Option.getD_some]
    refine ⟨List.mem_cons_of_mem _ (List.mem_append_right _ (List.mem_map_of_mem (Option.mem_toList.mpr hc))), ?_⟩
    simp only [List.forall_mem_cons, List.forall_mem_append, List.forall_mem_map, Option.mem_toList]
    refine ⟨Binary64.le_trans hle hdone, fun d hd => Binary64.le_trans hle (hdeadline d hd), fun c' hc' => ?_⟩
    obtain rfl : c = c' := Option.mem_unique hc hc'
    exact (hexact.told.cancellation c hc).2.1.le_self

theorem slept_eq_ok (v : Value) : slept seconds deadline plan t = .ok v ↔
    v = .null ∧ (∀ d ∈ deadline, ((nap seconds).doneAt t).lt d) ∧ ∀ c ∈ plan, ((nap seconds).doneAt t).lt c.1 := by
  rw [← any_le_eq_false hexact.told]
  cases hwaking : waking seconds deadline plan t with
  | some c =>
    obtain ⟨hc, hle⟩ := Option.mem_filter_iff.mp hwaking
    rw [slept, hwaking, Option.map_some, saying_cancelled]
    constructor
    · rintro ⟨⟩
    · rintro ⟨-, hintime, hplan⟩
      rw [GuardedWork.endsAt_in_time hintime] at hle
      exact absurd hle (Bool.eq_false_iff.mp (Binary64.not_le_of_lt (hplan c hc)))
  | none =>
    have hplan := (waking_eq_none hexact hlive).mp hwaking
    rw [slept, wakesAt, hwaking, Option.map_none, Option.map_none, Option.getD_none]
    cases hlate : deadline.any (·.le ((nap seconds).doneAt t)) with
    | false =>
      rw [GuardedWork.endsAt_in_time hlate] at hplan ⊢
      rw [saying_live hlate]
      exact ⟨fun h => ⟨(Except.ok.inj h).symm, rfl, hplan⟩, fun h => congrArg Except.ok h.1.symm⟩
    | true =>
      cases deadline with
      | none => cases hlate
      | some d =>
        have hself : (some d).any (·.le d) := (hexact.told.limit d rfl).1.le_self
        rw [GuardedWork.endsAt_late hlate, saying_late hself]
        constructor
        · rintro ⟨⟩
        · rintro ⟨-, ⟨⟩, -⟩

/-- A deadline that comes first ends a sleep, and one at which it would wake up does. -/
theorem slept_late (hd : d ∈ deadline) (hdone : d.le ((nap seconds).doneAt t)) (hplan : ∀ c ∈ plan, d.lt c.1) :
    slept seconds deadline plan t = .error .deadlineExceeded := by
  subst hd
  have hself : (some d).any (·.le d) := (hexact.told.limit d rfl).1.le_self
  have hwaking := waking_eq_none hexact hlive
  rw [GuardedWork.endsAt_late hdone] at hwaking
  rw [slept, wakesAt, hwaking.mpr hplan, Option.map_none, Option.map_none, Option.getD_none, GuardedWork.endsAt_late hdone]
  exact saying_late hself

end Verdict

/-! ## Trials of a sleep -/

theorem run_of_wakes {s' : Schedule setting} {r : Except Failure Value} (hs : IsResting s)
    (hring : ∀ stage, ((prepared s n later).host n stage).ring = s'.host n stage) (hfibers : s'.fibers = s.fibers)
    (h : Wakes 12 (s'.host n (.ready (routine (.sleep seconds)).run)) s' n r t) :
    (run n s later (.sleep seconds)).1.result = r ∧ (run n s later (.sleep seconds)).2.clock = t := by
  obtain ⟨s₁, hreaches, hf, hclock, hidle⟩ := h
  obtain ⟨hresult, -, hends⟩ := run_of_reaches (t := .sleep seconds) nofun hs (hring _) hreaches (hf.trans hfibers) hidle
  exact ⟨hresult, hends.trans hclock⟩

theorem sleep_of_dead {f : Failure} (seconds : Binary64) (later : Option (Binary64 × String)) (hs : IsResting s)
    (htok : s.tokens[n]? = some tok) (hdead : TokenView.check ⟨tok, s.clock⟩ = .error f) :
    (run n s later (.sleep seconds)).1.result = .error f ∧ (run n s later (.sleep seconds)).2.clock = s.clock := by
  obtain ⟨due, rest, s', -, hring, hfibers, hclock, htokens, -, -, hqueue⟩ := exists_begins s n later
  have hwakes := wakes_dead seconds hqueue (htokens ▸ htok) (hclock ▸ hdead)
  rw [hclock] at hwakes
  exact run_of_wakes hs hring hfibers (hwakes.mono (by decide))

theorem sleep_of_alive (hs : IsResting s) (htok : s.tokens[n]? = some ⟨none, deadline⟩)
    (hlive : deadline.any (·.le s.clock) = false) (hexact : SleepsExactly seconds deadline (planFor s later) s.clock) :
    (run n s later (.sleep seconds)).1.result = slept seconds deadline (planFor s later) s.clock ∧
      (run n s later (.sleep seconds)).2.clock = wakesAt seconds deadline (planFor s later) s.clock := by
  obtain ⟨due, rest, s', hsplit, hring, hfibers, hclock, htokens, -, htimers, hqueue⟩ := exists_begins s n later
  have hover : s'.isOver := by
    rw [isOver, hfibers]
    exact hs.isOver
  rw [← hclock] at hexact hsplit hlive ⊢
  rw [← htokens] at htok
  exact run_of_wakes hs hring hfibers (wakes_alive hover hqueue htok hlive hexact htimers hsplit)

/-- **A sleep keeps time.** It fails at once under a token that is cancelled, or at or past the deadline. Otherwise it ends at the
earliest of the time of waking up, the deadline and a cancellation, and returns exactly if it wakes up before both of the others; a
cancellation that comes first fails it with its reason, and a deadline that does, or that comes as it wakes up, with the deadline. -/
theorem sleep_keeps_time (seconds : Binary64) (n : Nat) (s : Schedule setting) (later : Option (Binary64 × String)) (tok : Token)
    (hs : IsResting s) (htok : s.tokens[n]? = some tok) :
    let report := (run n s later (.sleep seconds)).1
    let s' := (run n s later (.sleep seconds)).2
    let plan := planFor s later
    let wakes := (nap seconds).doneAt s.clock
    (tok.cancelled.isSome ∨ tok.deadline.any (·.le s.clock) →
      s'.clock = s.clock ∧ ∃ f, TokenView.check ⟨tok, s.clock⟩ = .error f ∧ report.result = .error f) ∧
    (tok.cancelled = none → tok.deadline.any (·.le s.clock) = false → SleepsExactly seconds tok.deadline plan s.clock →
      s'.clock.IsEarliest (wakes :: (tok.deadline.toList ++ plan.toList.map Prod.fst)) ∧
      (∀ v, report.result = .ok v ↔ v = .null ∧ (∀ d ∈ tok.deadline, wakes.lt d) ∧ ∀ c ∈ plan, wakes.lt c.1) ∧
      (∀ c ∈ plan, c.1.lt wakes → (∀ d ∈ tok.deadline, c.1.lt d) → report.result = .error (.cancelled c.2)) ∧
      ∀ d ∈ tok.deadline, d.le wakes → (∀ c ∈ plan, d.lt c.1) → report.result = .error .deadlineExceeded) := by
  dsimp only
  constructor
  · intro hdead
    obtain ⟨f, hf⟩ := check_dead (v := ⟨tok, s.clock⟩) hdead
    obtain ⟨hresult, hclock⟩ := sleep_of_dead seconds later hs htok hf
    exact ⟨hclock, f, hf, hresult⟩
  · intro hcancelled hlive hexact
    obtain ⟨cancelled, deadline⟩ := tok
    subst hcancelled
    obtain ⟨hresult, hclock⟩ := sleep_of_alive hs htok hlive hexact
    rw [hresult, hclock]
    exact ⟨isEarliest_wakesAt hexact hlive, slept_eq_ok hexact hlive, fun c hc => slept_cancelled hexact hc,
      fun d hd => slept_late hexact hlive hd⟩

/-- A sleep of two seconds that is undisturbed, one that is cancelled halfway, and one whose deadline comes as it wakes up. Under a
deadline that has come not even a sleep of no time returns. -/
theorem sleep_keeps_time_of_two :
    (run 0 (fresh (some 10)) (some (3, "stop")) (.sleep 2)).1.result = .ok .null ∧
    (run 0 (fresh none) (some (1, "stop")) (.sleep 2)).1.result = .error (.cancelled "stop") ∧
    (run 0 (fresh (some 2)) none (.sleep 2)).1.result = .error .deadlineExceeded ∧
    ∃ f, (run 0 (fresh (some 0)) none (.sleep 0)).1.result = .error f := by
  have hundisturbed := sleep_keeps_time 2 0 (fresh (some 10)) (some (3, "stop")) ⟨none, some 10⟩ (isResting_fresh _)
    (by decide +kernel)
  have hcancelled := sleep_keeps_time 2 0 (fresh none) (some (1, "stop")) ⟨none, none⟩ (isResting_fresh _) rfl
  have htied := sleep_keeps_time 2 0 (fresh (some 2)) none ⟨none, some 2⟩ (isResting_fresh _) (by decide +kernel)
  have hdead := sleep_keeps_time 0 0 (fresh (some 0)) none ⟨none, some 0⟩ (isResting_fresh _) (by decide +kernel)
  obtain ⟨-, hreturns, -, -⟩ := hundisturbed.2 rfl (by decide +kernel) (by decide +kernel)
  obtain ⟨-, -, hfails, -⟩ := hcancelled.2 rfl rfl (by decide +kernel)
  obtain ⟨-, -, -, hexceeds⟩ := htied.2 rfl (by decide +kernel) (by decide +kernel)
  obtain ⟨-, f, -, hf⟩ := hdead.1 (.inr (by decide +kernel))
  exact ⟨(hreturns _).mpr ⟨rfl, by decide +kernel, by decide +kernel⟩,
    hfails (1, "stop") (by decide +kernel) (by decide +kernel) nofun,
    hexceeds 2 (Option.mem_some_self 2) (by decide +kernel) nofun, f, hf⟩

end Run

end TokenTrial

end Runbook
