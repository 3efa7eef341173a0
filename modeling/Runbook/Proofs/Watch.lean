import Runbook.Proofs.Lone

/-!
# A run that watches its token

A run that waits for a cancellation has an assistant that watches its token. The cancellation is noticed by the assistant, which
ends, and its end reaches the run by way of a release. If the limit of the wait comes first, the watch is withdrawn.

* `Schedule.cancelToken_watching`: a cancellation of a token that is watched.
* `Schedule.Turns.watch`, `Schedule.Turns.forgoWatch`: a watch is begun, or the token is cancelled already.
* **`Schedule.Turns.noticed`**, **`Schedule.Turns.noticedAtLimit`**: a cancellation that comes before the limit, or at it.
* **`Schedule.Turns.unnoticed`**: the limit without one.
-/

namespace Runbook

namespace Schedule

variable {S : Setting} {s s' s'' : Schedule S} {n k limit : Nat} {stage : Stage S} {a b : Await} {assistant : Assistant S}
  {follow : S.Rest} {withdrawn : Bool} {cause : Failure} {onFailure : Failure → S.Rest} {rest : List (Signal S)} {errand : Errand S}

/-! ## A watch -/

/-- With no time at all an errand is withdrawn before it is begun. -/
theorem beginErrand_instant {limit : Binary64} (h : limit.le (Binary64.zero false)) :
    (s.host n stage).beginErrand s.fibers.length limit errand onFailure =
      (s.newAwait.2.signal (.assist s.fibers.length false)).host n
        (.draining s.newAwait.1 (.called errand) true s.awaits (.timedOut "") onFailure) := by
  rw [beginErrand]
  simp only [h, if_true]
  exact suspend_host (s := s.newAwait.2.signal (.assist s.fibers.length false)) _

/-- A token that is not cancelled is watched. -/
theorem assist_watch {t : Token} (htok : s.tokens[n]? = some t) (h : t.cancelled = none) :
    (s.host n (.limited a (.called (.watch follow)) false onFailure)).assist s.fibers.length false =
      ⟨.idle, s.newAwait.2.host n (.limited a (.watching s.newAwait.1 follow) false onFailure)⟩ := by
  rw [assist, assistantOf?, stage_host]
  show beginAssist _ _ (.watch follow) = _
  rw [beginAssist, tokenView_host, htok]
  simp only [Option.getD_some, h, Option.isSome_none, Bool.false_eq_true, if_false]
  exact congrArg (Moment.mk .idle) (setAssistant_limited (s := s.newAwait.2) _)

/-- A token that is cancelled already need not be watched. -/
theorem assist_forgone {t : Token} (htok : s.tokens[n]? = some t) (h : t.cancelled.isSome) :
    (s.host n (.limited a (.called (.watch follow)) false onFailure)).assist s.fibers.length false =
      ⟨.idle, (s.signal (.release s.fibers.length a.id)).host n (.limited a (.ended (some follow)) false onFailure)⟩ := by
  rw [assist, assistantOf?, stage_host]
  show beginAssist _ _ (.watch follow) = _
  rw [beginAssist, tokenView_host, htok]
  simp only [Option.getD_some, h, if_true]
  rw [endAssistant_limited]

theorem assist_watching : (s.host n (.limited a (.watching b follow) false onFailure)).assist s.fibers.length false =
    ⟨.idle, (s.signal (.release s.fibers.length a.id)).host n (.limited a (.ended (some follow)) false onFailure)⟩ := by
  rw [assist, assistantOf?, stage_host]
  show Moment.mk _ (endAssistant _ _ (some follow)) = _
  rw [endAssistant_limited]

/-- A run that withdraws a watch. -/
theorem drain_watching (hb : b.settled = false) :
    (s.host n stage).drain s.fibers.length (.watching b follow) limit cause onFailure =
      ((s.newAwait.2.disarm s.fibers.length b.id).signal (.assist s.fibers.length true)).host n
        (.draining s.newAwait.1 (.watching { b with settled := true } follow) false limit cause onFailure) := by
  rw [drain]
  simp only [hb, Bool.false_eq_true, if_false]
  exact suspend_host (s := (s.newAwait.2.disarm s.fibers.length b.id).signal (.assist s.fibers.length true)) _

/-- **A cancellation of a token that is watched** is noticed by the assistant. -/
theorem cancelToken_watching (hover : s.isOver) (hb : b.settled = false) (reason : String) :
    (s.host n (.limited a (.watching b follow) withdrawn onFailure)).cancelToken n reason =
      ((s.mark n (some reason)).signal (.assist s.fibers.length false)).host n
        (.limited a (.watching { b with settled := true } follow) withdrawn onFailure) := by
  let marked := (s.mark n (some reason)).host n (.limited a (.watching b follow) withdrawn onFailure)
  have hlength : marked.fibers.length = s.fibers.length + 1 := List.length_append
  -- The runs before the last one have ended and notice nothing.
  have hbefore (is : List Nat) (his : ∀ i ∈ is, i < s.fibers.length) : is.foldl notice marked = marked := by
    induction is with
    | nil => rfl
    | cons i is ih =>
      obtain ⟨hi, his⟩ := List.forall_mem_cons.mp his
      have hdeaf : ∀ x, marked.stage? i = some x → x.IsDeaf := by
        intro x hx
        obtain ⟨f, hf, rfl⟩ := Option.map_eq_some_iff.mp hx
        have hf : s.fibers[i]? = some f := (List.getElem?_append_left hi).symm.trans hf
        have hf : f.isOver := List.all_eq_true.mp hover f (List.mem_of_getElem? hf)
        unfold Fiber.isOver at hf
        split at hf
        · next hended =>
          rw [hended]
          trivial
        · cases hf
      rw [List.foldl_cons, notice_of_isDeaf hdeaf, ih his]
  show ((List.range marked.fibers.length).filter fun i => marked.tokenOf? i == some n).foldl notice marked = _
  have hlast : marked.tokenOf? s.fibers.length = some n := tokenOf_host (s := s.mark n (some reason))
  rw [hlength, List.range_succ, List.filter_append, List.foldl_append,
    hbefore _ fun i hi => List.mem_range.mp (List.mem_filter.mp hi).1]
  simp only [List.filter_cons, hlast, beq_self_eq_true, if_true, List.filter_nil, List.foldl_cons, List.foldl_nil]
  rw [notice, show marked.stage? s.fibers.length = _ from stage_host (s := s.mark n (some reason))]
  simp only [Assistant.noticed, hb, Bool.false_eq_true, if_false]
  rw [show marked.setStage s.fibers.length _ = _ from setStage_host (s := s.mark n (some reason)) _]
  rfl

/-! ## Turns of a watch -/

theorem Turns.watch {t : Token} (htok : s.tokens[n]? = some t) (hlive : t.cancelled = none)
    (hqueue : s.queue = .assist s.fibers.length false :: rest)
    (h : Turns k ({ s with queue := rest }.newAwait.2.host n (.limited a (.watching ⟨s.awaits, false⟩ follow) false onFailure)) s'') :
    Turns (k + 1) (s.host n (.limited a (.called (.watch follow)) false onFailure)) s'' := by
  refine .take nofun hqueue ?_
  rw [handle, Schedule.take, assist_watch (s := { s with queue := rest }) htok hlive]
  exact h

theorem Turns.forgoWatch {t : Token} (htok : s.tokens[n]? = some t) (hdead : t.cancelled.isSome)
    (hqueue : s.queue = .assist s.fibers.length false :: rest)
    (h : Turns k (({ s with queue := rest }.signal (.release s.fibers.length a.id)).host n
      (.limited a (.ended (some follow)) false onFailure)) s'') :
    Turns (k + 1) (s.host n (.limited a (.called (.watch follow)) false onFailure)) s'' := by
  refine .take nofun hqueue ?_
  rw [handle, Schedule.take, assist_forgone (s := { s with queue := rest }) htok hdead]
  exact h

theorem Turns.endWatch (hqueue : s.queue = .assist s.fibers.length false :: rest)
    (h : Turns k (({ s with queue := rest }.signal (.release s.fibers.length a.id)).host n
      (.limited a (.ended (some follow)) false onFailure)) s'') :
    Turns (k + 1) (s.host n (.limited a (.watching b follow) false onFailure)) s'' := by
  refine .take nofun hqueue ?_
  rw [handle, Schedule.take, assist_watching (s := { s with queue := rest })]
  exact h

theorem Turns.cancelWatched {r : String} (hover : s.isOver) (hb : b.settled = false) (hqueue : s.queue = .cancel n r :: rest)
    (h : Turns k ((({ s with queue := rest }.mark n (some r)).signal (.assist s.fibers.length false)).host n
      (.limited a (.watching { b with settled := true } follow) withdrawn onFailure)) s'') :
    Turns (k + 1) (s.host n (.limited a (.watching b follow) withdrawn onFailure)) s'' := by
  refine .take nofun hqueue ?_
  rw [handle, Schedule.take, cancelToken_watching (s := { s with queue := rest }) hover hb]
  exact h

/-- **A cancellation that comes before the limit** of a watch ends it: the run goes on as after a cancellation. -/
theorem Turns.noticed {r : String} (hover : s.isOver) (ha : a.settled = false) (hb : b.settled = false)
    (hqueue : s.queue = [.cancel n r])
    (h : Turns k (drive s.fibers.length follow
      ((({ s with queue := [] }.mark n (some r)).disarm s.fibers.length a.id).host n .active)) s'') :
    Turns (k + 4) (s.host n (.limited a (.watching b follow) false onFailure)) s'' :=
  .cancelWatched hover hb hqueue (.endWatch rfl (.release rfl ha (.finishAid rfl h)))

/-- **A cancellation at the limit** of a watch ends it too. The release that the assistant sends comes when the run has gone on. -/
theorem Turns.noticedAtLimit {r : String} (hover : s.isOver) (ha : a.settled = false) (hb : b.settled = false)
    (hqueue : s.queue = [.cancel n r, .release s.fibers.length a.id])
    (h : Turns k (drive s.fibers.length follow
      ((({ s with queue := [.release s.fibers.length a.id] }.mark n (some r)).disarm s.fibers.length a.id).host n .active)) s'') :
    Turns (k + 4) (s.host n (.limited a (.watching b follow) false onFailure)) s'' :=
  .cancelWatched hover hb hqueue (.release rfl ha (.endWatch rfl (.finishAid rfl h)))

/-- **At the limit without a cancellation** the watch is withdrawn, and the run goes on as after a limit. -/
theorem Turns.unnoticed (ha : a.settled = false) (hb : b.settled = false) (hqueue : s.queue = [.release s.fibers.length a.id])
    (h : Turns k (drive s.fibers.length (onFailure (.timedOut ""))
      ((({ s with queue := [] }.newAwait.2.disarm s.fibers.length b.id).disarm s.fibers.length a.id).host n .active)) s'') :
    Turns (k + 5) (s.host n (.limited a (.watching b follow) false onFailure)) s'' :=
  .release hqueue ha (.reachLimit nofun rfl (.since (drain_watching (s := { s with queue := [] }) hb) (.withdraw nofun rfl rfl rfl h)))

/-- An errand that is withdrawn before it is begun. -/
theorem Turns.uncalled (ha : a.settled = false) (hqueue : s.queue = [.assist s.fibers.length false])
    (h : Turns k (drive s.fibers.length (onFailure cause) (({ s with queue := [] }.disarm s.fibers.length limit).host n .active)) s'') :
    Turns (k + 3) (s.host n (.draining a (.called errand) true limit cause onFailure)) s'' :=
  .withdraw nofun rfl ha hqueue h

end Schedule

end Runbook
