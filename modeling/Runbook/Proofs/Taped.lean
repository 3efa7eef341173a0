import Mathlib.Data.List.Nodup
import Mathlib.Data.Multiset.Filter
import Mathlib.Data.Stream.Init
import Runbook.Proofs.Others

/-!
# A run in front of a tape

The work for a run finds things in the world, where other runs leave theirs. Written down, what it has found is a tape, and in front
of the tape the run can do without the world and without the others. It is then the only run of a schedule of its own, where its
number is `0` and its waits are numbered from `0`.

* `Work.taped`, `Setting.taped`: work that finds what stands on a tape.
* `Schedule.Mirrors`: a run is among others where it is alone: at the same stage, with the same token, and with the same signals and
  timers due, up to the numbers.
* `Schedule.Mirrors.suspend`, `Schedule.Mirrors.settle`, ...: what is done for the run keeps it so, if it is done in both;
  `Schedule.Mirrors.spare`: what spares the run keeps it so, if it is done among the others only.
* `Moment.Mirrors`, **`Schedule.Mirrors.respond`**, **`Schedule.Mirrors.take`**: the same for what is being done.
-/

namespace Runbook

/-! ## Answers from a tape -/

/-- What the work for a run may find: the world, the running executions, whether the execution that it cancels is running, and
whether that one runs under the token of the run. -/
structure Reading (World : Type) where
  world : World
  running : List Running
  found : Bool
  own : Bool

/-- What the work for a run finds, reading by reading. -/
abbrev Tape (World : Type) := Stream' (Reading World)

/-- Work that finds what stands on a tape. It takes the same time, and does the same to its own run; the rest of the world is not
there. -/
def Work.taped {World α : Type} : Work World α → Work (Tape World) α
  | .done a => .done a
  | .ask (.change _) next => .ask (.change Stream'.tail) fun tape => taped (next (Stream'.head tape).world)
  | .ask .clock next => .ask .clock fun now => taped (next now)
  | .ask (.pause seconds) next => .ask (.pause seconds) fun u => taped (next u)
  | .ask .running next => .ask (.change Stream'.tail) fun tape => taped (next (Stream'.head tape).running)
  | .ask (.cancel _ reason) next => .ask (.change Stream'.tail) fun tape =>
    if (Stream'.head tape).own then .ask (.cancelOwn reason) fun _ => taped (next (Stream'.head tape).found)
    else taped (next (Stream'.head tape).found)
  | .ask (.cancelOwn reason) next => .ask (.cancelOwn reason) fun u => taped (next u)
  | .ask (.interrupt message) next => .ask (.interrupt message) fun u => taped (next u)

/-- The setting in which every call is answered from a tape. -/
abbrev Setting.taped (S : Setting) : Setting where
  World := Tape S.World
  Call := S.Call
  Answer := S.Answer
  perform c := (S.perform c).taped
  Result := S.Result

theorem Work.taped_map {World α β : Type} (f : α → β) (w : Work World α) : Work.taped (f <$> w) = f <$> Work.taped w := by
  induction w with
  | done a => rfl
  | ask e next ih =>
    cases e with
    | cancel execution reason =>
      refine congrArg (Program.ask (Effect.change Stream'.tail)) (funext fun tape => ?_)
      show (if tape.head.own then _ else _) = f <$> (if tape.head.own then _ else _)
      split
      · exact congrArg (Program.ask (Effect.cancelOwn reason)) (funext fun _ => ih _)
      · exact ih _
    | _ => exact congrArg (Program.ask _) (funext fun _ => ih _)

/-! ## The same state of a run -/

section Alike

variable {S : Setting} {i : Nat} {L L' : List Nat}

/-- A wait and the same wait of the run alone, which is the `id`-th in the list of the numbers of its waits. -/
def Await.Alike (L : List Nat) (a a' : Await) : Prop := L[a'.id]? = some a.id ∧ a'.settled = a.settled

inductive Errand.Alike : Errand S → Errand S.taped → Prop where
  | work (task : S.Task) : Alike (.work task) (.work task.taped)
  | watch (cancelled : S.Rest) : Alike (.watch cancelled) (.watch cancelled)

inductive Assistant.Alike (L : List Nat) : Assistant S → Assistant S.taped → Prop where
  | called {errand : Errand S} {errand' : Errand S.taped} : errand.Alike errand' → Alike L (.called errand) (.called errand')
  | pausing {a a' : Await} (task : S.Task) : a.Alike L a' → Alike L (.pausing a task) (.pausing a' task.taped)
  | watching {a a' : Await} (cancelled : S.Rest) : a.Alike L a' → Alike L (.watching a cancelled) (.watching a' cancelled)
  | ended (rest : Option S.Rest) : Alike L (.ended rest) (.ended rest)

inductive Stage.Alike (L : List Nat) : Stage S → Stage S.taped → Prop where
  | ready (rest : S.Rest) : Alike L (.ready rest) (.ready rest)
  | active : Alike L .active .active
  | pausing {a a' : Await} (task : S.Task) (onFailure : Failure → S.Rest) : a.Alike L a' →
    Alike L (.pausing a task onFailure) (.pausing a' task.taped onFailure)
  | limited {a a' : Await} {x : Assistant S} {x' : Assistant S.taped} (withdrawn : Bool) (onFailure : Failure → S.Rest) :
    a.Alike L a' → x.Alike L x' → Alike L (.limited a x withdrawn onFailure) (.limited a' x' withdrawn onFailure)
  | draining {a a' : Await} {x : Assistant S} {x' : Assistant S.taped} (withdrawn : Bool) {limit limit' : Nat} (cause : Failure)
      (onFailure : Failure → S.Rest) : a.Alike L a' → x.Alike L x' → L[limit']? = some limit →
    Alike L (.draining a x withdrawn limit cause onFailure) (.draining a' x' withdrawn limit' cause onFailure)
  | ended (result : Except String S.Result) : Alike L (.ended result) (.ended result)

structure Fiber.Alike (L : List Nat) (x : Fiber S) (x' : Fiber S.taped) : Prop where
  stage : x.stage.Alike L x'.stage
  interruption : x'.interruption = x.interruption

inductive Signal.Alike (i : Nat) (L : List Nat) : Signal S → Signal S.taped → Prop where
  | step (interruption : Option String) : Alike i L (.step i interruption) (.step 0 interruption)
  | assist (withdraw : Bool) : Alike i L (.assist i withdraw) (.assist 0 withdraw)
  | release {a a' : Nat} : L[a']? = some a → Alike i L (.release i a) (.release 0 a')
  | settle {a a' : Nat} : L[a']? = some a → Alike i L (.settle i a) (.settle 0 a')

structure Timer.Alike (i : Nat) (L : List Nat) (t : Timer S) (t' : Timer S.taped) : Prop where
  due : t'.due = t.due
  signal : t.signal.Alike i L t'.signal

/-- The tokens of a run and of the run alone: both none, or tokens in the same state. -/
inductive TokenAlike (tokens tokens' : List Token) : Option Nat → Option Nat → Prop where
  | none : TokenAlike tokens tokens' none none
  | some {n n' : Nat} {t : Token} : tokens[n]? = some t → tokens'[n']? = some t →
    TokenAlike tokens tokens' (some n) (some n')

/-- A schedule and the schedule of one of its runs alone, which finds what stands on a tape. The list `L` has the numbers of the
waits of the run in the order in which they were made. Timers of the same time may ring in any order, so the order of the timers is
left open; that of the signals is not. -/
structure Schedule.Mirrors (i : Nat) (L : List Nat) (tape : Tape S.World) (s : Schedule S) (s' : Schedule S.taped) : Prop where
  world : s'.world = tape
  clock : s'.clock = s.clock
  fiber : ∃ x x', s.fibers[i]? = some x ∧ s'.fibers = [x'] ∧ x.Alike L x'
  token : TokenAlike s.tokens s'.tokens (s.tokenOf? i) (s'.tokenOf? 0)
  signals : List.Forall₂ (Signal.Alike i L) (s.signalsOf i) s'.queue
  timers : Multiset.Rel (Timer.Alike i L) (s.timersOf i : Multiset (Timer S)) (s'.timers : Multiset (Timer S.taped))
  count : L.length = s'.awaits
  nodup : L.Nodup
  bound : ∀ a ∈ L, a < s.awaits

theorem getElem?_mono {α : Type} {l l' : List α} (h : l <+: l') {n : Nat} {a : α} (ha : l[n]? = some a) :
    l'[n]? = some a := by
  obtain ⟨t, rfl⟩ := h
  rw [List.getElem?_append_left (List.getElem?_eq_some_iff.mp ha).1, ha]

theorem Await.Alike.mono {a a' : Await} (h : a.Alike L a') (hL : L <+: L') : a.Alike L' a' :=
  ⟨getElem?_mono hL h.1, h.2⟩

theorem Await.Alike.settle {a a' : Await} (h : a.Alike L a') :
    Await.Alike L { a with settled := true } { a' with settled := true } := ⟨h.1, rfl⟩

theorem Assistant.Alike.mono {x : Assistant S} {x' : Assistant S.taped} (h : x.Alike L x') (hL : L <+: L') : x.Alike L' x' := by
  cases h with
  | called herrand => exact .called herrand
  | pausing task ha => exact .pausing task (ha.mono hL)
  | watching cancelled ha => exact .watching cancelled (ha.mono hL)
  | ended rest => exact .ended rest

theorem Stage.Alike.mono {x : Stage S} {x' : Stage S.taped} (h : x.Alike L x') (hL : L <+: L') : x.Alike L' x' := by
  cases h with
  | ready rest => exact .ready rest
  | active => exact .active
  | pausing task onFailure ha => exact .pausing task onFailure (ha.mono hL)
  | limited withdrawn onFailure ha hx => exact .limited withdrawn onFailure (ha.mono hL) (hx.mono hL)
  | draining withdrawn cause onFailure ha hx hlimit =>
    exact .draining withdrawn cause onFailure (ha.mono hL) (hx.mono hL) (getElem?_mono hL hlimit)
  | ended result => exact .ended result

theorem Signal.Alike.mono {x : Signal S} {x' : Signal S.taped} (h : x.Alike i L x') (hL : L <+: L') : x.Alike i L' x' := by
  cases h with
  | step interruption => exact .step interruption
  | assist withdraw => exact .assist withdraw
  | release ha => exact .release (getElem?_mono hL ha)
  | settle ha => exact .settle (getElem?_mono hL ha)

theorem Signal.Alike.fiber? {x : Signal S} {x' : Signal S.taped} (h : x.Alike i L x') : x.fiber? = some i := by
  cases h <;> rfl

/-- Waits that are alike are the same if they are the same for the run alone. -/
theorem eq_iff_of_nodup (h : L.Nodup) {a b a' b' : Nat} (ha : L[a']? = some a) (hb : L[b']? = some b) : a = b ↔ a' = b' := by
  obtain ⟨ha', rfl⟩ := List.getElem?_eq_some_iff.mp ha
  obtain ⟨hb', rfl⟩ := List.getElem?_eq_some_iff.mp hb
  exact List.Nodup.getElem_inj_iff h

theorem Signal.Alike.isFor {x : Signal S} {x' : Signal S.taped} (h : x.Alike i L x') (hL : L.Nodup) {a a' : Nat}
    (ha : L[a']? = some a) : Signal.isFor i a x = Signal.isFor 0 a' x' := by
  cases h with
  | step | assist => rfl
  | release hb | settle hb =>
    have heq := eq_iff_of_nodup hL hb ha
    simp [Signal.isFor, heq]

theorem Await.Alike.isNow {a a' : Await} (h : a.Alike L a') (hL : L.Nodup) {b b' : Nat} (hb : L[b']? = some b) :
    (a'.id == b' && !a'.settled) = (a.id == b && !a.settled) := by
  have heq := eq_iff_of_nodup hL h.1 hb
  rw [h.2]
  by_cases hab : a.id = b
  · rw [beq_iff_eq.mpr hab, beq_iff_eq.mpr (heq.mp hab)]
  · rw [beq_eq_false_iff_ne.mpr hab, beq_eq_false_iff_ne.mpr (mt heq.mpr hab)]

/-- Both assistants notice a cancellation, or neither does. -/
theorem Assistant.Alike.noticed {x : Assistant S} {x' : Assistant S.taped} (h : x.Alike L x') :
    (x.noticed = none ∧ x'.noticed = none) ∨ ∃ y y', x.noticed = some y ∧ x'.noticed = some y' ∧ y.Alike L y' := by
  cases h with
  | watching cancelled ha =>
    unfold Assistant.noticed
    dsimp only
    rw [ha.2]
    split
    · exact .inl ⟨rfl, rfl⟩
    · exact .inr ⟨_, _, rfl, rfl, .watching cancelled ha.settle⟩
  | _ => exact .inl ⟨rfl, rfl⟩

theorem rel_filter {α β : Type} {R : α → β → Prop} {p : α → Bool} {q : β → Bool} {l : List α} {l' : List β}
    (h : Multiset.Rel R (l : Multiset α) (l' : Multiset β)) (hpq : ∀ a b, R a b → p a = q b) :
    Multiset.Rel R (l.filter p : Multiset α) (l'.filter q : Multiset β) := by
  have hfilter : ∀ (l : Multiset α) (l' : Multiset β), Multiset.Rel R l l' →
      Multiset.Rel R (l.filter (p ·)) (l'.filter (q ·)) := by
    intro l l' h
    induction h with
    | zero => exact .zero
    | @cons a b l l' hab _ ih =>
      have hq : p a = true ↔ q b = true := by rw [hpq a b hab]
      by_cases hp : p a = true
      · rw [Multiset.filter_cons_of_pos (p := (p · = true)) _ hp, Multiset.filter_cons_of_pos (p := (q · = true)) _ (hq.mp hp)]
        exact .cons hab ih
      · rw [Multiset.filter_cons_of_neg (p := (p · = true)) _ hp,
          Multiset.filter_cons_of_neg (p := (q · = true)) _ (mt hq.mpr hp)]
        exact ih
  have hlist := hfilter _ _ h
  rw [Multiset.filter_coe, Multiset.filter_coe] at hlist
  simpa only [Bool.decide_eq_true] using hlist

namespace Schedule

theorem tokenOf?_modifyFiber {s : Schedule S} {x : Fiber S} (hx : s.fibers[i]? = some x) (f : Fiber S → Fiber S) :
    (s.modifyFiber i f).tokenOf? i = (f x).token := by
  unfold tokenOf? modifyFiber
  rw [List.getElem?_modify_eq, hx]
  rfl

namespace Mirrors

variable {tape : Tape S.World} {s : Schedule S} {s' : Schedule S.taped}

theorem stage (h : s.Mirrors i L tape s') : ∃ x x', s.stage? i = some x ∧ s'.stage? 0 = some x' ∧ x.Alike L x' := by
  obtain ⟨x, x', hx, hx', halike⟩ := h.fiber
  unfold stage?
  rw [hx, hx']
  exact ⟨_, _, rfl, rfl, halike.stage⟩

theorem interruption (h : s.Mirrors i L tape s') :
    s'.fibers[0]?.bind (·.interruption) = s.fibers[i]?.bind (·.interruption) := by
  obtain ⟨x, x', hx, hx', halike⟩ := h.fiber
  rw [hx, hx']
  exact halike.interruption

theorem tokenView (h : s.Mirrors i L tape s') : s'.tokenView 0 = s.tokenView i := by
  have htoken := h.token
  unfold Schedule.tokenView
  generalize s.tokenOf? i = n at htoken ⊢
  generalize s'.tokenOf? 0 = n' at htoken ⊢
  rw [h.clock]
  cases htoken with
  | none => rfl
  | some ht ht' =>
    rw [Option.bind_some, Option.bind_some, ht, ht']

theorem exists_tokenOf? {n : Nat} (h : s.Mirrors i L tape s') (hn : s.tokenOf? i = some n) :
    ∃ n', s'.tokenOf? 0 = some n' := by
  have htoken := h.token
  rw [hn] at htoken
  generalize s'.tokenOf? 0 = n' at htoken ⊢
  cases htoken with
  | some => exact ⟨_, rfl⟩

theorem tokenOf?_eq_none (h : s.Mirrors i L tape s') (hn : s.tokenOf? i = none) : s'.tokenOf? 0 = none := by
  have htoken := h.token
  rw [hn] at htoken
  generalize s'.tokenOf? 0 = n' at htoken ⊢
  cases htoken
  rfl

theorem signal (h : s.Mirrors i L tape s') {x : Signal S} {x' : Signal S.taped} (hx : x.Alike i L x') :
    (s.signal x).Mirrors i L tape (s'.signal x') :=
  { h with
    signals := by
      unfold signalsOf Schedule.signal
      rw [List.filter_append, List.filter_cons_of_pos (by rw [hx.fiber?, beq_self_eq_true]), List.filter_nil]
      exact List.rel_append h.signals (.cons hx .nil) }

theorem after (h : s.Mirrors i L tape s') (seconds : Binary64) {x : Signal S} {x' : Signal S.taped} (hx : x.Alike i L x') :
    (s.after seconds x).Mirrors i L tape (s'.after seconds x') :=
  { h with
    timers := by
      have hperm := (insertTimer_perm ⟨s.clock.add seconds, x⟩ s.timers).filter (·.signal.fiber? == some i)
      rw [List.filter_cons_of_pos (by rw [hx.fiber?, beq_self_eq_true])] at hperm
      have hperm' := insertTimer_perm ⟨s'.clock.add seconds, x'⟩ s'.timers
      show Multiset.Rel _ (((insertTimer _ s.timers).filter _ : List (Timer S)) : Multiset (Timer S))
        ((insertTimer _ s'.timers : List (Timer S.taped)) : Multiset (Timer S.taped))
      rw [Multiset.coe_eq_coe.mpr hperm, Multiset.coe_eq_coe.mpr hperm']
      exact .cons ⟨by rw [h.clock], hx⟩ h.timers }

theorem disarm (h : s.Mirrors i L tape s') {a a' : Nat} (ha : L[a']? = some a) :
    (s.disarm i a).Mirrors i L tape (s'.disarm 0 a') :=
  { h with
    timers := by
      unfold timersOf Schedule.disarm
      dsimp only
      rw [List.filter_comm]
      exact rel_filter h.timers fun t t' ht => by rw [ht.signal.isFor h.nodup ha] }

theorem newAwait (h : s.Mirrors i L tape s') : s.newAwait.2.Mirrors i (L ++ [s.awaits]) tape s'.newAwait.2 where
  world := h.world
  clock := h.clock
  fiber := by
    obtain ⟨x, x', hx, hx', halike⟩ := h.fiber
    exact ⟨x, x', hx, hx', halike.stage.mono (List.prefix_append _ _), halike.interruption⟩
  token := h.token
  signals := h.signals.imp fun _ _ hx => hx.mono (List.prefix_append _ _)
  timers := Multiset.Rel.mono h.timers fun _ _ _ _ ht => ⟨ht.due, ht.signal.mono (List.prefix_append _ _)⟩
  count := by
    rw [List.length_append, h.count]
    rfl
  nodup := by
    rw [List.nodup_append]
    refine ⟨h.nodup, List.nodup_singleton _, fun a ha b hb => ?_⟩
    rw [List.mem_singleton.mp hb]
    exact Nat.ne_of_lt (h.bound a ha)
  bound a ha := by
    rcases List.mem_append.mp ha with ha | ha
    · exact Nat.lt_succ_of_lt (h.bound a ha)
    · rw [List.mem_singleton.mp ha]
      exact Nat.lt_succ_self _

/-- The new wait is the next one in the list. -/
theorem newest (h : s.Mirrors i L tape s') : (L ++ [s.awaits])[s'.awaits]? = some s.awaits := by
  rw [← h.count]
  exact List.getElem?_concat_length

theorem fiber_modifyFiber (h : s.Mirrors i L tape s') {f : Fiber S → Fiber S} {f' : Fiber S.taped → Fiber S.taped}
    (hf : ∀ x x', x.Alike L x' → (f x).Alike L (f' x')) :
    ∃ x x', (s.modifyFiber i f).fibers[i]? = some x ∧ (s'.modifyFiber 0 f').fibers = [x'] ∧ x.Alike L x' := by
  obtain ⟨x, x', hx, hx', halike⟩ := h.fiber
  refine ⟨f x, f' x', ?_, ?_, hf x x' halike⟩
  · unfold Schedule.modifyFiber
    rw [List.getElem?_modify_eq, hx]
    rfl
  · unfold Schedule.modifyFiber
    rw [hx']
    rfl

theorem modifyFiber (h : s.Mirrors i L tape s') {f : Fiber S → Fiber S} {f' : Fiber S.taped → Fiber S.taped}
    (hf : ∀ x x', x.Alike L x' → (f x).Alike L (f' x')) (htoken : ∀ x, (f x).token = x.token)
    (htoken' : ∀ x, (f' x).token = x.token) : (s.modifyFiber i f).Mirrors i L tape (s'.modifyFiber 0 f') :=
  { h with
    fiber := h.fiber_modifyFiber hf
    token := by
      have howner := ((Apart.refl i s).modifyFiber htoken).owner
      have howner' := ((Apart.refl 0 s').modifyFiber htoken').owner
      rw [howner, howner']
      exact h.token }

theorem setStage (h : s.Mirrors i L tape s') {x : Stage S} {x' : Stage S.taped} (hx : x.Alike L x') :
    (s.setStage i x).Mirrors i L tape (s'.setStage 0 x') :=
  h.modifyFiber (fun _ _ halike => ⟨hx, halike.interruption⟩) (fun _ => rfl) fun _ => rfl

theorem interrupt (h : s.Mirrors i L tape s') (message : String) :
    (s.interrupt i message).Mirrors i L tape (s'.interrupt 0 message) := by
  obtain ⟨x, x', hx, hx', halike⟩ := h.stage
  have hlater : Mirrors i L tape (s.modifyFiber i fun f => { f with interruption := some message })
      (s'.modifyFiber 0 fun f => { f with interruption := some message }) :=
    h.modifyFiber (fun _ _ halike => ⟨halike.stage, rfl⟩) (fun _ => rfl) fun _ => rfl
  unfold Schedule.interrupt
  rw [hx, hx']
  cases halike with
  | ready rest => exact hlater
  | active => exact hlater
  | pausing task onFailure ha =>
    dsimp only
    rw [ha.2]
    split
    · exact hlater
    · exact ((h.setStage (.pausing task onFailure ha.settle)).signal (.step _)).disarm ha.1
  | limited withdrawn onFailure ha hassistant =>
    dsimp only
    rw [ha.2]
    split
    · exact hlater
    · exact (h.setStage (.limited withdrawn onFailure ha.settle hassistant)).signal (.step _)
  | draining withdrawn cause onFailure ha hassistant hlimit =>
    dsimp only
    rw [ha.2]
    split
    · exact hlater
    · exact (h.setStage (.draining withdrawn cause onFailure ha.settle hassistant hlimit)).signal (.step _)
  | ended result => exact h

theorem suspend (h : s.Mirrors i L tape s') {x : Stage S} {x' : Stage S.taped} (hx : x.Alike L x') :
    (s.suspend i x).Mirrors i L tape (s'.suspend 0 x') := by
  have hset := h.setStage hx
  unfold Schedule.suspend
  dsimp only
  rw [hset.interruption]
  split
  · refine Mirrors.interrupt ?_ _
    exact hset.modifyFiber (fun _ _ halike => ⟨halike.stage, rfl⟩) (fun _ => rfl) fun _ => rfl
  · exact hset

theorem finishRun (h : s.Mirrors i L tape s') (result : S.Result) :
    (s.finishRun i result).Mirrors i L tape (s'.finishRun 0 result) := by
  unfold Schedule.finishRun
  rw [h.interruption]
  split
  · exact h.modifyFiber (fun _ _ _ => ⟨.ended _, rfl⟩) (fun _ => rfl) fun _ => rfl
  · exact h.setStage (.ended _)

theorem beginPause (h : s.Mirrors i L tape s') (seconds : Binary64) (task : S.Task) (onFailure : Failure → S.Rest) :
    (s.beginPause i seconds task onFailure).Mirrors i (L ++ [s.awaits]) tape
      (s'.beginPause 0 seconds task.taped onFailure) :=
  (h.newAwait.after seconds (.settle h.newest)).suspend (.pausing task onFailure ⟨h.newest, rfl⟩)

theorem beginErrand (h : s.Mirrors i L tape s') (limit : Binary64) {errand : Errand S} {errand' : Errand S.taped}
    (herrand : errand.Alike errand') (onFailure : Failure → S.Rest) :
    (s.beginErrand i limit errand onFailure).Mirrors i (L ++ [s.awaits]) tape
      (s'.beginErrand 0 limit errand' onFailure) := by
  unfold Schedule.beginErrand
  dsimp only
  split
  · exact (h.newAwait.signal (.assist _)).suspend (.draining _ _ _ ⟨h.newest, rfl⟩ (.called herrand) h.newest)
  · exact ((h.newAwait.after _ (.release h.newest)).signal (.assist _)).suspend
      (.limited _ _ ⟨h.newest, rfl⟩ (.called herrand))

theorem setAssistant (h : s.Mirrors i L tape s') {x : Assistant S} {x' : Assistant S.taped} (hx : x.Alike L x') :
    (s.setAssistant i x).Mirrors i L tape (s'.setAssistant 0 x') := by
  refine h.modifyFiber (fun y y' halike => ⟨?_, halike.interruption⟩) (fun _ => rfl) fun _ => rfl
  obtain ⟨stage, token, interruption⟩ := y
  obtain ⟨stage', token', interruption'⟩ := y'
  have hstage : stage.Alike L stage' := halike.stage
  cases hstage with
  | limited withdrawn onFailure ha => exact .limited withdrawn onFailure ha hx
  | draining withdrawn cause onFailure ha _ hlimit => exact .draining withdrawn cause onFailure ha hx hlimit
  | ready rest => exact .ready rest
  | active => exact .active
  | pausing task onFailure ha => exact .pausing task onFailure ha
  | ended result => exact .ended result

/-- Both wait for something while the assistant is busy, or neither does. -/
theorem awaitOf? (h : s.Mirrors i L tape s') : (s.awaitOf? i = none ∧ s'.awaitOf? 0 = none) ∨
    ∃ a a', s.awaitOf? i = some a ∧ s'.awaitOf? 0 = some a' ∧ L[a']? = some a := by
  obtain ⟨x, x', hx, hx', halike⟩ := h.stage
  unfold Schedule.awaitOf?
  rw [hx, hx']
  cases halike with
  | limited withdrawn onFailure ha => exact .inr ⟨_, _, rfl, rfl, ha.1⟩
  | draining withdrawn cause onFailure ha => exact .inr ⟨_, _, rfl, rfl, ha.1⟩
  | _ => exact .inl ⟨rfl, rfl⟩

theorem endAssistant (h : s.Mirrors i L tape s') (rest : Option S.Rest) :
    (s.endAssistant i rest).Mirrors i L tape (s'.endAssistant 0 rest) := by
  have hset := h.setAssistant (.ended rest)
  unfold Schedule.endAssistant
  dsimp only
  obtain ⟨ha, ha'⟩ | ⟨a, a', ha, ha', halike⟩ := hset.awaitOf?
  · rw [ha, ha']
    exact hset
  · rw [ha, ha']
    exact hset.signal (.release halike)

theorem pauseAssistant (h : s.Mirrors i L tape s') (seconds : Binary64) (task : S.Task) :
    (s.pauseAssistant i seconds task).Mirrors i (L ++ [s.awaits]) tape (s'.pauseAssistant 0 seconds task.taped) :=
  (h.newAwait.after seconds (.settle h.newest)).setAssistant (.pausing task ⟨h.newest, rfl⟩)

/-- Both have an assistant, or neither has. -/
theorem assistantOf? (h : s.Mirrors i L tape s') : (s.assistantOf? i = none ∧ s'.assistantOf? 0 = none) ∨
    ∃ x x' withdrawn, s.assistantOf? i = some (x, withdrawn) ∧ s'.assistantOf? 0 = some (x', withdrawn) ∧ x.Alike L x' := by
  obtain ⟨x, x', hx, hx', halike⟩ := h.stage
  unfold Schedule.assistantOf?
  rw [hx, hx']
  cases halike with
  | limited withdrawn onFailure ha hassistant => exact .inr ⟨_, _, _, rfl, rfl, hassistant⟩
  | draining withdrawn cause onFailure ha hassistant => exact .inr ⟨_, _, _, rfl, rfl, hassistant⟩
  | _ => exact .inl ⟨rfl, rfl⟩

theorem drain (h : s.Mirrors i L tape s') {x : Assistant S} {x' : Assistant S.taped} (hx : x.Alike L x') {limit limit' : Nat}
    (hlimit : L[limit']? = some limit) (cause : Failure) (onFailure : Failure → S.Rest) :
    (s.drain i x limit cause onFailure).Mirrors i (L ++ [s.awaits]) tape (s'.drain 0 x' limit' cause onFailure) := by
  have hL : L <+: L ++ [s.awaits] := List.prefix_append _ _
  have hlimit := getElem?_mono hL hlimit
  have hnew : Await.Alike (L ++ [s.awaits]) ⟨s.awaits, false⟩ ⟨s'.awaits, false⟩ := ⟨h.newest, rfl⟩
  unfold Schedule.drain
  dsimp only
  cases hx with
  | called herrand => exact h.newAwait.suspend (.draining _ _ _ hnew (.called herrand) hlimit)
  | pausing task ha =>
    have ha := ha.mono hL
    dsimp only
    rw [ha.2]
    split
    · exact h.newAwait.suspend (.draining _ _ _ hnew (.pausing task ha.settle) hlimit)
    · exact ((h.newAwait.disarm ha.1).signal (.assist _)).suspend (.draining _ _ _ hnew (.pausing task ha.settle) hlimit)
  | watching cancelled ha =>
    have ha := ha.mono hL
    dsimp only
    rw [ha.2]
    split
    · exact h.newAwait.suspend (.draining _ _ _ hnew (.watching cancelled ha.settle) hlimit)
    · exact ((h.newAwait.disarm ha.1).signal (.assist _)).suspend
        (.draining _ _ _ hnew (.watching cancelled ha.settle) hlimit)
  | ended rest => exact h.newAwait.suspend (.draining _ _ _ hnew (.ended rest) hlimit)

theorem notice (h : s.Mirrors i L tape s') : (s.notice i).Mirrors i L tape (s'.notice 0) := by
  obtain ⟨x, x', hx, hx', halike⟩ := h.stage
  unfold Schedule.notice
  rw [hx, hx']
  cases halike with
  | limited withdrawn onFailure ha hassistant =>
    dsimp only
    obtain ⟨hnone, hnone'⟩ | ⟨y, y', hy, hy', hyy'⟩ := hassistant.noticed
    · rw [hnone, hnone']
      exact h
    · rw [hy, hy']
      exact (h.setStage (.limited withdrawn onFailure ha hyy')).signal (.assist _)
  | draining withdrawn cause onFailure ha hassistant hlimit =>
    dsimp only
    obtain ⟨hnone, hnone'⟩ | ⟨y, y', hy, hy', hyy'⟩ := hassistant.noticed
    · rw [hnone, hnone']
      exact h
    · rw [hy, hy']
      exact (h.setStage (.draining withdrawn cause onFailure ha hyy' hlimit)).signal (.assist _)
  | _ => exact h

theorem release (h : s.Mirrors i L tape s') {b b' : Nat} (hb : L[b']? = some b) :
    (s.release i b).Mirrors i L tape (s'.release 0 b') := by
  obtain ⟨x, x', hx, hx', halike⟩ := h.stage
  unfold Schedule.release
  dsimp only
  rw [hx, hx']
  cases halike with
  | limited withdrawn onFailure ha hassistant =>
    simp only [ha.isNow h.nodup hb]
    split
    · exact (h.setStage (.limited withdrawn onFailure ha.settle hassistant)).signal (.step _)
    · exact h
  | draining withdrawn cause onFailure ha hassistant hlimit =>
    simp only [ha.isNow h.nodup hb]
    split
    · exact (h.setStage (.draining withdrawn cause onFailure ha.settle hassistant hlimit)).signal (.step _)
    · exact h
  | _ => exact h

theorem settle (h : s.Mirrors i L tape s') {b b' : Nat} (hb : L[b']? = some b) :
    (s.settle i b).Mirrors i L tape (s'.settle 0 b') := by
  obtain ⟨x, x', hx, hx', halike⟩ := h.stage
  have hassistant := h.assistantOf?
  unfold Schedule.settle
  dsimp only
  rw [hx, hx']
  cases halike with
  | pausing task onFailure ha =>
    simp only [ha.isNow h.nodup hb]
    split
    · exact (h.setStage (.pausing task onFailure ha.settle)).signal (.step _)
    · exact h
  | _ =>
    dsimp only
    obtain ⟨hnone, hnone'⟩ | ⟨y, y', withdrawn, hy, hy', hyy'⟩ := hassistant
    · rw [hnone, hnone']
      exact h
    · rw [hy, hy']
      cases hyy' with
      | pausing task ha =>
        simp only [ha.isNow h.nodup hb]
        split
        · exact (h.setAssistant (.pausing task ha.settle)).signal (.assist _)
        · exact h
      | _ => exact h

theorem openToken (h : s.Mirrors i L tape s') (timeout : Option Binary64) :
    (s.openToken i timeout).Mirrors i L tape (s'.openToken 0 timeout) := by
  unfold Schedule.openToken
  cases hn : s.tokenOf? i with
  | some n =>
    obtain ⟨n', hn'⟩ := h.exists_tokenOf? hn
    rw [hn']
    exact h
  | none =>
    rw [h.tokenOf?_eq_none hn]
    obtain ⟨x, x', hx, hx', -⟩ := h.fiber
    have hx'' : s'.fibers[0]? = some x' := hx' ▸ rfl
    have howner := tokenOf?_modifyFiber hx fun f => { f with token := some s.tokens.length }
    have howner' := tokenOf?_modifyFiber hx'' fun f => { f with token := some s'.tokens.length }
    refine { h with fiber := h.fiber_modifyFiber fun _ _ halike => ⟨halike.stage, halike.interruption⟩, token := ?_ }
    show TokenAlike (s.tokens ++ [{ deadline := timeout.map s.clock.add }]) (s'.tokens ++ [{ deadline := timeout.map s'.clock.add }])
      ((s.modifyFiber i fun f => { f with token := some s.tokens.length }).tokenOf? i)
      ((s'.modifyFiber 0 fun f => { f with token := some s'.tokens.length }).tokenOf? 0)
    rw [howner, howner', h.clock]
    exact .some List.getElem?_concat_length List.getElem?_concat_length

/-! ### What befalls the run -/

/-- A run alone does not see what leaves the run alone. -/
theorem spare {s₁ : Schedule S} (h : s.Mirrors i L tape s') (hs : s.Spares i s₁) : s₁.Mirrors i L tape s' := by
  have htoken : TokenAlike s₁.tokens s'.tokens (s₁.tokenOf? i) (s'.tokenOf? 0) := by
    rw [hs.tokenOf?]
    have htoken := h.token
    have hkeep := hs.token
    generalize s.tokenOf? i = n at htoken hkeep ⊢
    generalize s'.tokenOf? 0 = n' at htoken ⊢
    cases htoken with
    | none => exact .none
    | some ht ht' => exact .some (hkeep _ _ rfl ht) ht'
  exact { h with
    clock := h.clock.trans hs.clock.symm
    fiber := hs.fiber ▸ h.fiber
    token := htoken
    signals := hs.signals ▸ h.signals
    timers := hs.timers ▸ h.timers
    bound := fun a ha => Nat.lt_of_lt_of_le (h.bound a ha) hs.awaits }

theorem foldl_notice (h : s.Mirrors i L tape s') {l : List Nat} (hl : l.Nodup) (hi : i ∈ l) :
    (l.foldl Schedule.notice s).Mirrors i L tape (s'.notice 0) := by
  induction l generalizing s with
  | nil => cases hi
  | cons j l ih =>
    obtain ⟨hj, hl⟩ := List.nodup_cons.mp hl
    by_cases hij : i = j
    · subst hij
      exact h.notice.spare (.foldl_notice hj _)
    · exact ih (h.spare (.of_apart (Apart.refl j s).notice hij)) hl ((List.mem_cons.mp hi).resolve_left hij)

/-- The token of the run is cancelled in both. -/
theorem cancelToken (h : s.Mirrors i L tape s') {n n' : Nat} (hn : s.tokenOf? i = some n) (hn' : s'.tokenOf? 0 = some n')
    (reason : String) : (s.cancelToken n reason).Mirrors i L tape (s'.cancelToken n' reason) := by
  obtain ⟨x, x', hx, hx', -⟩ := h.fiber
  have hmodify : Mirrors i L tape { s with tokens := s.tokens.modify n fun t => { t with cancelled := some reason } }
      { s' with tokens := s'.tokens.modify n' fun t => { t with cancelled := some reason } } := by
    refine { h with token := ?_ }
    have htoken := h.token
    rw [hn, hn'] at htoken
    show TokenAlike _ _ (s.tokenOf? i) (s'.tokenOf? 0)
    rw [hn, hn']
    cases htoken with
    | some ht ht' =>
      refine .some (by rw [List.getElem?_modify_eq, ht]; rfl) ?_
      rw [List.getElem?_modify_eq, ht']
      rfl
  have hnotices : (List.range s'.fibers.length).filter (fun j => s'.tokenOf? j == some n') = [0] := by
    rw [hx']
    show List.filter (fun j => s'.tokenOf? j == some n') [0] = [0]
    exact List.filter_cons_of_pos (beq_iff_eq.mpr hn')
  show Mirrors i L tape _ (((List.range s'.fibers.length).filter fun j => s'.tokenOf? j == some n').foldl Schedule.notice _)
  rw [hnotices]
  refine hmodify.foldl_notice (List.nodup_range.filter _) ?_
  exact List.mem_filter.mpr ⟨List.mem_range.mpr (List.getElem?_eq_some_iff.mp hx).1, beq_iff_eq.mpr hn⟩

end Mirrors

end Schedule

/-! ## The same moment of a run -/

/-- What is being done, and what is being done for the run alone: the same if the run does it, nothing otherwise. -/
inductive Activity.Alike (i : Nat) : Activity S → Activity S.taped → Prop where
  | elsewhere {a : Activity S} : ¬ a.IsOf i → Alike i a .idle
  | run (rest : S.Rest) : Alike i (.run i rest) (.run 0 rest)
  | task (task : S.Task) (onFailure : Failure → S.Rest) : Alike i (.task i task onFailure) (.task 0 task.taped onFailure)
  | aid (task : S.Task) : Alike i (.aid i task) (.aid 0 task.taped)

/-- A moment and the moment of one of its runs alone. -/
structure Moment.Mirrors (i : Nat) (tape : Tape S.World) (m : Moment S) (m' : Moment S.taped) : Prop where
  activity : m.activity.Alike i m'.activity
  schedule : ∃ L, m.schedule.Mirrors i L tape m'.schedule

namespace Schedule.Mirrors

variable {tape : Tape S.World} {s : Schedule S} {s' : Schedule S.taped}

theorem idle (h : s.Mirrors i L tape s') : Moment.Mirrors i tape ⟨.idle, s⟩ ⟨.idle, s'⟩ := ⟨.elsewhere id, L, h⟩

theorem run (h : s.Mirrors i L tape s') (rest : S.Rest) : Moment.Mirrors i tape ⟨.run i rest, s⟩ ⟨.run 0 rest, s'⟩ :=
  ⟨.run rest, L, h⟩

theorem enlist (h : s.Mirrors i L tape s') (execution workflow tenant : String) :
    (s.enlist i execution workflow tenant).Mirrors i L tape (s'.enlist 0 execution workflow tenant) := by
  unfold Schedule.enlist
  split <;> split <;> exact { h with }

theorem respond (h : s.Mirrors i L tape s') (q : Request S.Call) (next : q.Reply S.Answer → S.Rest) :
    (s.respond i q next).Mirrors i tape (s'.respond 0 q next) := by
  cases q with
  | now =>
    show Moment.Mirrors i tape ⟨.run i (next s.clock), s⟩ ⟨.run 0 (next s'.clock), s'⟩
    rw [h.clock]
    exact h.run _
  | token =>
    show Moment.Mirrors i tape ⟨.run i (next (s.tokenView i)), s⟩ ⟨.run 0 (next (s'.tokenView 0)), s'⟩
    rw [h.tokenView]
    exact h.run _
  | openToken timeout => exact (h.openToken timeout).run _
  | enlist execution workflow tenant => exact (h.enlist execution workflow tenant).run _
  | delist execution => exact ⟨.run _, L, { h with }⟩
  | awaitCancel limit => exact (h.beginErrand limit (.watch _) _).idle
  | call c limit =>
    have hwork : Work.taped (next <$> S.perform c) = next <$> S.taped.perform c := Work.taped_map _ _
    cases limit with
    | none =>
      have htask := Activity.Alike.task (i := i) (next <$> S.perform c) fun f => next (.error f)
      rw [hwork] at htask
      exact ⟨htask, L, h⟩
    | some limit => exact (h.beginErrand limit (hwork ▸ .work (next <$> S.perform c)) _).idle

theorem step (h : s.Mirrors i L tape s') (interruption : Option String) :
    (s.step i interruption).Mirrors i tape (s'.step 0 interruption) := by
  obtain ⟨x, x', hx, hx', halike⟩ := h.fiber
  have hactive : Mirrors i L tape (s.modifyFiber i fun f => { f with stage := .active, interruption := none })
      (s'.modifyFiber 0 fun f => { f with stage := .active, interruption := none }) :=
    h.modifyFiber (fun _ _ _ => ⟨.active, rfl⟩) (fun _ => rfl) fun _ => rfl
  obtain ⟨stage, token, due⟩ := x
  obtain ⟨stage', token', due'⟩ := x'
  have hstage : stage.Alike L stage' := halike.stage
  obtain rfl : due' = due := halike.interruption
  have hx'' : s'.fibers[0]? = some ⟨stage', token', due'⟩ := by
    rw [hx']
    rfl
  unfold Schedule.step
  rw [hx, hx'']
  dsimp only
  generalize interruption.or due' = interruption
  cases hstage with
  | ready rest =>
    cases interruption with
    | none => exact hactive.run rest
    | some message => exact (hactive.setStage (.ended _)).idle
  | active => exact hactive.idle
  | pausing task onFailure ha =>
    cases interruption with
    | none => exact ⟨.task task onFailure, L, hactive⟩
    | some message => exact hactive.run _
  | limited withdrawn onFailure ha hassistant =>
    have hdrain : ∀ cause, Moment.Mirrors i tape _ _ := fun cause => (hactive.drain hassistant ha.1 cause onFailure).idle
    cases hassistant with
    | ended rest =>
      cases rest with
      | none => cases interruption <;> exact hdrain _
      | some rest => exact (hactive.disarm ha.1).run rest
    | _ => cases interruption <;> exact hdrain _
  | draining withdrawn cause onFailure ha hassistant hlimit =>
    have hgo : ∀ rest, Moment.Mirrors i tape _ _ := fun rest => (hactive.disarm hlimit).run rest
    cases interruption with
    | some message => exact hgo _
    | none =>
      cases hassistant with
      | ended rest =>
        cases rest with
        | none => exact hgo _
        | some rest => cases cause <;> exact hgo _
      | _ => exact hgo _
  | ended result => exact (hactive.setStage (.ended result)).idle

theorem beginAssist (h : s.Mirrors i L tape s') {errand : Errand S} {errand' : Errand S.taped} (herrand : errand.Alike errand') :
    (s.beginAssist i errand).Mirrors i tape (s'.beginAssist 0 errand') := by
  unfold Schedule.beginAssist
  cases herrand with
  | work task => exact ⟨.aid task, L, h⟩
  | watch cancelled =>
    have hnew : Await.Alike (L ++ [s.awaits]) ⟨s.awaits, false⟩ ⟨s'.awaits, false⟩ := ⟨h.newest, rfl⟩
    dsimp only
    rw [h.tokenView]
    split
    · exact (h.endAssistant _).idle
    · exact (h.newAwait.setAssistant (.watching cancelled hnew)).idle

theorem assist (h : s.Mirrors i L tape s') (withdraw : Bool) :
    (s.assist i withdraw).Mirrors i tape (s'.assist 0 withdraw) := by
  unfold Schedule.assist
  obtain ⟨hnone, hnone'⟩ | ⟨x, x', withdrawn, hx, hx', halike⟩ := h.assistantOf?
  · rw [hnone, hnone']
    exact h.idle
  · rw [hx, hx']
    have hend : ∀ rest, Moment.Mirrors i tape _ _ := fun rest => (h.endAssistant rest).idle
    cases halike with
    | called herrand =>
      dsimp only
      split
      · exact hend _
      · exact h.beginAssist herrand
    | pausing task ha =>
      dsimp only
      split
      · exact hend _
      · exact ⟨.aid task, L, h⟩
    | watching cancelled ha =>
      dsimp only
      split <;> exact hend _
    | ended rest => exact h.idle

/-- A signal for the run is taken in both. -/
theorem take (h : s.Mirrors i L tape s') {x : Signal S} {x' : Signal S.taped} (hx : x.Alike i L x') :
    (s.take x).Mirrors i tape (s'.take x') := by
  cases hx with
  | step interruption => exact h.step interruption
  | assist withdraw => exact h.assist withdraw
  | release ha => exact (h.release ha).idle
  | settle ha => exact (h.settle ha).idle

end Schedule.Mirrors

end Alike

end Runbook
