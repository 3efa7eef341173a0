import Runbook.Proofs.Close

/-!
# Step runs as brackets

A step run is opened before its step is done and closed afterwards, and whatever is opened in between is closed in between. So
the step runs that are open at any moment are a nest: each of them belongs to a step in the body of the one around it.

* `openRuns`: the step runs that are open after some calls; `Nested`: nests of open step runs.
* `Brackets`: calls that close what they open, the last opened first; **`Walk.brackets`**: those of a walk do.
* `Audited`: a course in which each step run is closed with the result of its handler; **`Walk.audited`**.
* **`Engine.step_runs_are_brackets`**: all this for whole runs.
-/

namespace Runbook

/-- A step run that is open. -/
structure OpenRun where
  id : String
  path : StepPath
  deriving DecidableEq, Repr

namespace Made

/-- The open step runs after one more call, innermost first. There are none to speak of if it closes another one than the
innermost. -/
def follow (opened : List OpenRun) : Made → Option (List OpenRun)
  | ⟨.createStepRun start, r⟩ => match (r : Except Failure String) with
    | .ok id => some (⟨id, start.path⟩ :: opened)
    | .error _ => some opened
  | ⟨.updateStepRun _ id _, _⟩ => match opened with
    | x :: rest => if x.id = id then some rest else none
    | [] => none
  | _ => some opened

/-- The id of the step run that a call opens. -/
def opened? : Made → Option String
  | ⟨.createStepRun _, r⟩ => match (r : Except Failure String) with
    | .ok id => some id
    | .error _ => none
  | _ => none

/-- The id of the step run that a call closes. -/
def closed? : Made → Option String
  | ⟨.updateStepRun _ id _, _⟩ => some id
  | _ => none

/-- If the call closes a step run as failed, it gives a message. -/
def HasMessage (m : Made) : Prop :=
  ∀ tenant id last, m.call = .updateStepRun tenant id last → ∀ message, last.outcome = .failed message → message ≠ ""

theorem hasMessage_of_isStepRun {m : Made} (h : m.call.isStepRun = false) : m.HasMessage := by
  intro tenant id last hm
  rw [hm] at h
  cases h

/-- A call that does not open or close a step run. -/
def IsQuiet (m : Made) : Prop := ∀ opened, m.follow opened = some opened

theorem isQuiet_of_isStepRun {m : Made} (h : m.call.isStepRun = false) : m.IsQuiet := by
  obtain ⟨c, r⟩ := m
  intro opened
  cases c <;> first | rfl | cases h

theorem isQuiet_of_isErrand {m : Made} (h : m.call.isErrand) : m.IsQuiet :=
  isQuiet_of_isStepRun (Call.isStepRun_of_isErrand h)

end Made

/-- The step runs that are open after some calls, innermost first. -/
def openRuns (calls : List Made) : Option (List OpenRun) := calls.foldlM Made.follow []

theorem foldlM_quiet {calls : List Made} (h : ∀ m ∈ calls, m.IsQuiet) (opened : List OpenRun) :
    calls.foldlM Made.follow opened = some opened := by
  induction calls with
  | nil => rfl
  | cons m calls ih =>
    obtain ⟨hm, hcalls⟩ := List.forall_mem_cons.mp h
    rw [List.foldlM_cons, hm opened]
    exact ih hcalls

theorem foldlM_close {tenant id : String} {last : StepRunEnd} {a : Except Failure Unit} {path : StepPath}
    {around : List OpenRun} :
    [Made.mk (.updateStepRun tenant id last) a].foldlM Made.follow (⟨id, path⟩ :: around) = some around := by
  show Option.bind (if id = id then some around else none) some = some around
  rw [if_pos rfl]
  rfl

theorem perm_of_follow {m : Made} {opened opened' : List OpenRun} (h : m.follow opened = some opened') :
    (opened.map OpenRun.id ++ m.opened?.toList).Perm (opened'.map OpenRun.id ++ m.closed?.toList) := by
  obtain ⟨c, r⟩ := m
  cases c with
  | createStepRun start =>
    cases r with
    | error f =>
      cases h
      exact .rfl
    | ok name =>
      cases h
      let id : String := name
      show List.Perm (opened.map OpenRun.id ++ [id]) (id :: (opened.map OpenRun.id ++ []))
      rw [List.append_nil]
      exact List.perm_append_singleton _ _
  | updateStepRun tenant id last =>
    cases opened with
    | nil => cases h
    | cons x rest =>
      change (if x.id = id then some rest else none) = some opened' at h
      split at h
      · next hid =>
        cases h
        show List.Perm (x.id :: (opened'.map OpenRun.id ++ [])) (opened'.map OpenRun.id ++ [id])
        rw [List.append_nil, ← hid]
        exact (List.perm_append_singleton _ _).symm
      · cases h
  | _ =>
    cases h
    exact .rfl

theorem filterMap_cons_toList {α β : Type} (f : α → Option β) (a : α) (l : List α) :
    (a :: l).filterMap f = (f a).toList ++ l.filterMap f := by
  rw [List.filterMap_cons]
  cases f a <;> rfl

/-- What is open before and what is opened is, in some order, what is open afterwards and what is closed. -/
theorem perm_of_foldlM {calls : List Made} {opened opened' : List OpenRun}
    (h : calls.foldlM Made.follow opened = some opened') :
    (opened.map OpenRun.id ++ calls.filterMap Made.opened?).Perm (opened'.map OpenRun.id ++ calls.filterMap Made.closed?) := by
  induction calls generalizing opened with
  | nil =>
    cases h
    exact .rfl
  | cons m calls ih =>
    rw [List.foldlM_cons] at h
    obtain ⟨mid, hm, h⟩ := Option.bind_eq_some_iff.mp h
    rw [filterMap_cons_toList, filterMap_cons_toList]
    calc
      List.Perm (opened.map OpenRun.id ++ (m.opened?.toList ++ calls.filterMap Made.opened?))
          (opened.map OpenRun.id ++ m.opened?.toList ++ calls.filterMap Made.opened?) := by rw [List.append_assoc]
      List.Perm _ (mid.map OpenRun.id ++ m.closed?.toList ++ calls.filterMap Made.opened?) := (perm_of_follow hm).append_right _
      List.Perm _ (m.closed?.toList ++ mid.map OpenRun.id ++ calls.filterMap Made.opened?) :=
        List.perm_append_comm.append_right _
      List.Perm _ (m.closed?.toList ++ (opened'.map OpenRun.id ++ calls.filterMap Made.closed?)) := by
        rw [List.append_assoc]
        exact (ih h).append_left _
      List.Perm _ (opened'.map OpenRun.id ++ (m.closed?.toList ++ calls.filterMap Made.closed?)) := by
        rw [← List.append_assoc, ← List.append_assoc]
        exact List.perm_append_comm.append_right _

/-! ## Brackets -/

theorem prefix_append_iff {α : Type} {p l l' : List α} : p <+: l ++ l' ↔ p <+: l ∨ ∃ q, p = l ++ q ∧ q <+: l' := by
  constructor
  · intro h
    rcases List.prefix_or_prefix_of_prefix h (List.prefix_append l l') with hp | ⟨q, rfl⟩
    · exact .inl hp
    · exact .inr ⟨q, rfl, (List.prefix_append_right_inj l).mp h⟩
  · rintro (hp | ⟨q, rfl, hq⟩)
    · exact List.prefix_append_of_prefix hp
    · exact (List.prefix_append_right_inj l).mpr hq

/-- Calls that go through nests of open step runs of this form, whatever is open around them, and close all of them. -/
structure Brackets (N : List OpenRun → Prop) (calls : List Made) : Prop where
  along {p : List Made} : p <+: calls → ∀ around,
    ∃ opened, p.foldlM Made.follow around = some (opened ++ around) ∧ N opened
  closed (around : List OpenRun) : calls.foldlM Made.follow around = some around

namespace Brackets

variable {N N' : List OpenRun → Prop} {calls calls' : List Made}

theorem mono (hN : ∀ opened, N opened → N' opened) (h : Brackets N calls) : Brackets N' calls where
  along hp around := by
    obtain ⟨opened, hfold, hopened⟩ := h.along hp around
    exact ⟨opened, hfold, hN opened hopened⟩
  closed := h.closed

theorem quiet (hN : N []) (h : ∀ m ∈ calls, m.IsQuiet) : Brackets N calls where
  along hp around := ⟨[], foldlM_quiet (fun m hm => h m (hp.subset hm)) around, hN⟩
  closed := foldlM_quiet h

theorem append (h : Brackets N calls) (h' : Brackets N calls') : Brackets N (calls ++ calls') where
  along hp around := by
    rcases prefix_append_iff.mp hp with hp | ⟨q, rfl, hq⟩
    · exact h.along hp around
    · rw [List.foldlM_append, h.closed around]
      exact h'.along hq around
  closed around := by
    rw [List.foldlM_append, h.closed around]
    exact h'.closed around

/-- The calls between the opening and the closing of a step run go through nests inside it. -/
theorem wrap {start : StepRunStart} {tenant id : String} {last : StepRunEnd} {a : Except Failure Unit}
    (h : Brackets N calls) :
    Brackets (fun opened => opened = [] ∨ ∃ inner, opened = inner ++ [⟨id, start.path⟩] ∧ N inner)
      (⟨.createStepRun start, .ok id⟩ :: calls ++ [⟨.updateStepRun tenant id last, a⟩]) where
  along := by
    intro p hp around
    rcases List.prefix_cons_iff.mp hp with rfl | ⟨q, rfl, hq⟩
    · exact ⟨[], rfl, .inl rfl⟩
    rcases List.prefix_concat_iff.mp hq with rfl | hq
    · exact ⟨[], closing around, .inl rfl⟩
    · obtain ⟨inner, hfold, hinner⟩ := h.along hq (⟨id, start.path⟩ :: around)
      refine ⟨inner ++ [⟨id, start.path⟩], ?_, .inr ⟨inner, rfl, hinner⟩⟩
      rw [List.append_assoc]
      exact hfold
  closed := closing
where
  closing (around : List OpenRun) :
      (Made.mk (.createStepRun start) (.ok id) :: calls ++ [Made.mk (.updateStepRun tenant id last) a]).foldlM Made.follow
        around = some around := by
    show (calls ++ [_]).foldlM Made.follow (⟨id, start.path⟩ :: around) = some around
    rw [List.foldlM_append, h.closed]
    exact foldlM_close

end Brackets

/-! ## Nests -/

/-- The steps that a task runs as its body. -/
def Task.body : Task → List Step
  | .loop _ _ body => body
  | _ => []

namespace Engine

/-- Open step runs, innermost first, of which the outermost belongs to one of the steps at a place and each other one to a step
in the body of the one around it. -/
inductive Nested : (String → StepPath) → List Step → List OpenRun → Prop where
  | empty {place : String → StepPath} {steps : List Step} : Nested place steps []
  | inside {place : String → StepPath} {steps : List Step} {s : Step} {i : Nat} {id : String} {inner : List OpenRun} :
    s ∈ steps → Nested (passPlace (place s.id) i) s.task.body inner → Nested place steps (inner ++ [⟨id, place s.id⟩])

theorem Nested.mono {place : String → StepPath} {steps steps' : List Step} {opened : List OpenRun} (hs : steps ⊆ steps')
    (h : Nested place steps opened) : Nested place steps' opened := by
  cases h with
  | empty => exact .empty
  | inside hmem hinner => exact .inside (hs hmem) hinner

/-- The nests of open step runs that a part of a walk goes through. -/
def Part.Nests : Part → List OpenRun → Prop
  | .steps place list, opened => Nested place list opened
  | .step path task, opened =>
    opened = [] ∨ ∃ id inner i, opened = inner ++ [⟨id, path⟩] ∧ Nested (passPlace path i) task.body inner
  | .handler path task, opened => ∃ i, Nested (passPlace path i) task.body opened
  | .passes path body _ _, opened => ∃ i, Nested (passPlace path i) body opened

variable {g : Engine} {e : Opened} {part : Part} {vs vs' : Variables} {t t' : Course} {r : Except Failure Unit}

theorem Part.Nests.of_step {place : String → StepPath} {s : Step} {steps : List Step} {opened : List OpenRun} (hs : s ∈ steps)
    (h : (Part.step (place s.id) s.task).Nests opened) : Nested place steps opened := by
  rcases h with rfl | ⟨id, inner, i, rfl, h⟩
  · exact .empty
  · exact .inside hs h

/-- **A walk closes the step runs that it opens**, the last opened first, and those that are open at a moment are a nest. -/
theorem Walk.brackets (h : Walk g e part vs t r vs') : Brackets part.Nests t.calls := by
  induction h with
  | finished => exact .quiet .empty (List.forall_mem_nil _)
  | stopped => exact .quiet .empty (List.forall_mem_nil _)
  | fails _ _ ih => exact ih.mono fun _ => .of_step List.mem_cons_self
  | goesOn _ _ _ ih ih' =>
    rw [Course.calls_append]
    exact (ih.mono fun _ => .of_step List.mem_cons_self).append (ih'.mono fun _ => .mono (List.subset_cons_self _ _))
  | refused => exact .quiet (.inl rfl) (List.forall_mem_singleton.mpr fun _ => rfl)
  | recorded _ _ ih =>
    rw [Course.calls_append]
    refine ih.wrap.mono fun opened h => ?_
    rcases h with rfl | ⟨inner, rfl, i, h⟩
    · exact .inl rfl
    · exact .inr ⟨_, inner, i, rfl, h⟩
  | unknown => exact .quiet ⟨0, .empty⟩ (List.forall_mem_nil _)
  | plain hp h => exact .quiet ⟨0, .empty⟩ fun m hm => Made.isQuiet_of_isErrand (calls_of_plain hp h m hm)
  | unlisted => exact .quiet ⟨0, .empty⟩ (List.forall_mem_nil _)
  | looped _ _ ih => exact ih.mono fun _ h => h
  | ended => exact .quiet ⟨0, .empty⟩ (List.forall_mem_nil _)
  | broken _ ih => exact ih.mono fun _ h => ⟨_, h⟩
  | again _ _ ih ih' =>
    rw [Course.calls_append]
    exact (ih.mono fun _ h => ⟨_, h⟩).append ih'

/-! ## Outcomes -/

/-- In this course each step run that is opened is closed with the result of its handler. -/
inductive Audited (g : Engine) (e : Opened) : Course → Prop where
  | nil : Audited g e []
  | other {x : Exchange (Request Call) (Request.Reply Call.Answer)} {t : Course} :
    (∀ m, x.made? = some m → m.call.isStepRun = false) → Audited g e t → Audited g e (x :: t)
  | refused {start : StepRunStart} {f : Failure} {t : Course} :
    Audited g e t → Audited g e (⟨.call (.createStepRun start) none, (.error f : Except Failure String)⟩ :: t)
  | closed {path : StepPath} {task : Task} {vs vs' : Variables} {n n' : Binary64} {id : String} {inner t : Course}
      {r a : Except Failure Unit} :
    (g.handle e path task).Leads vs inner r vs' → Audited g e inner → Audited g e t →
      Audited g e (⟨.call (.createStepRun (e.startOf path task.kind n)) none, (.ok id : Except Failure String)⟩ :: inner ++
        ⟨.now, n'⟩ :: ⟨.call (.updateStepRun e.actor.tenant id (.ofResult r n n')) none, a⟩ :: t)

theorem Audited.of_calls (h : ∀ m ∈ t.calls, m.call.isStepRun = false) : Audited g e t := by
  induction t with
  | nil => exact .nil
  | cons x t ih =>
    refine .other (fun m hm => h m ?_) (ih fun m hm => h m ?_)
    · exact List.mem_filterMap.mpr ⟨x, List.mem_cons_self, hm⟩
    · rw [← List.singleton_append, Course.calls_append]
      exact List.mem_append_right _ hm

theorem Audited.token {v : TokenView} (h : Audited g e t) : Audited g e (⟨.token, v⟩ :: t) := by
  refine .other (fun m hm => ?_) h
  cases hm

theorem Audited.now {n : Binary64} (h : Audited g e t) : Audited g e (⟨.now, n⟩ :: t) := by
  refine .other (fun m hm => ?_) h
  cases hm

theorem Audited.append (h : Audited g e t) (h' : Audited g e t') : Audited g e (t ++ t') := by
  induction h with
  | nil => exact h'
  | other hx _ ih => exact .other hx ih
  | refused _ ih => exact .refused ih
  | closed hleads hinner _ _ ih =>
    rw [List.append_assoc]
    exact .closed hleads hinner ih

/-- **A walk closes each step run with the result of its handler.** -/
theorem Walk.audited (h : Walk g e part vs t r vs') : Audited g e t := by
  induction h with
  | finished => exact .nil
  | stopped => exact .token .nil
  | fails _ _ ih => exact .token ih
  | goesOn _ _ _ ih ih' => exact .token (ih.append ih')
  | refused => exact .now (.refused .nil)
  | recorded hleads _ ih => exact .now (.closed hleads ih .nil)
  | unknown => exact .nil
  | plain hp h => exact .of_calls fun m hm => Call.isStepRun_of_isErrand (calls_of_plain hp h m hm)
  | unlisted => exact .nil
  | looped _ _ ih => exact ih
  | ended => exact .nil
  | broken _ ih => exact ih
  | again _ _ ih ih' => exact ih.append ih'

/-! ## Messages -/

/-- The failures of the engine itself have names. -/
theorem covers_isNamed (registry : Registry) : registry.Covers Failure.IsNamed :=
  .of_causes (fun _ _ => trivial) fun _ => trivial

/-- In a walk that is answered with named failures only each failed closing of a step run has a message. -/
theorem Walk.hasMessage (h : Walk g e part vs t r vs') (ht : t.Meets Failure.IsNamed) : ∀ m ∈ t.calls, m.HasMessage := by
  induction h with
  | finished => exact List.forall_mem_nil _
  | stopped => exact List.forall_mem_nil _
  | fails _ _ ih => exact ih (Course.meets_cons.mp ht).2
  | goesOn _ _ _ ih ih' =>
    obtain ⟨ht₁, ht₂⟩ := Course.meets_append.mp (Course.meets_cons.mp ht).2
    rw [Course.calls_append]
    exact List.forall_mem_append.mpr ⟨ih ht₁, ih' ht₂⟩
  | refused => exact List.forall_mem_singleton.mpr nofun
  | @recorded path task vs vs' n n' id t r a _ hwalk ih =>
    obtain ⟨ht₁, ht₂⟩ := Course.meets_append.mp (Course.meets_cons.mp (Course.meets_cons.mp ht).2).2
    rw [Course.calls_append]
    refine List.forall_mem_append.mpr ⟨List.forall_mem_cons.mpr ⟨nofun, ih ht₁⟩, List.forall_mem_singleton.mpr ?_⟩
    rintro tenant id last ⟨⟩ message hmessage
    cases r with
    | error f =>
      cases hmessage
      exact Failure.summary_ne_empty (hwalk.failsBy (covers_isNamed _) rfl ht₁)
    | ok _ => cases hmessage
  | unknown => exact List.forall_mem_nil _
  | plain hp h => exact fun m hm => Made.hasMessage_of_isStepRun (Call.isStepRun_of_isErrand (calls_of_plain hp h m hm))
  | unlisted => exact List.forall_mem_nil _
  | looped _ _ ih => exact ih ht
  | ended => exact List.forall_mem_nil _
  | broken _ ih => exact ih ht
  | again _ _ ih ih' =>
    obtain ⟨ht₁, ht₂⟩ := Course.meets_append.mp ht
    rw [Course.calls_append]
    exact List.forall_mem_append.mpr ⟨ih ht₁, ih' ht₂⟩

/-! ## Whole runs -/

theorem quiet_of_isStepRun {N : List OpenRun → Prop} (hN : N []) (h : ∀ m ∈ t.calls, m.call.isStepRun = false) :
    Brackets N t.calls :=
  .quiet hN fun m hm => Made.isQuiet_of_isStepRun (h m hm)

/-- The open step runs at a moment of a run: none, or a nest of steps of the workflow that was found. -/
def NestedRuns (g : Engine) (o : Order) (calls : List Made) (opened : List OpenRun) : Prop :=
  opened = [] ∨ ∃ stored w, ⟨.getWorkflow o.actor.tenant o.workflow, .ok (some stored)⟩ ∈ calls ∧
    Workflow.load g.loopLimit stored = .ok w ∧ Nested .top w.steps opened

theorem Journey.brackets {o : Order} {result : Except Failure Execution} (h : Journey g o t result) :
    Brackets (NestedRuns g o t.calls) t.calls := by
  cases h with
  | unopened hvain => exact quiet_of_isStepRun (.inl rfl) fun m hm => isStepRun_of_isVain (hvain m hm)
  | @opened stored vs final n start id body closing r r' hvs hbody hclosing =>
    generalize hN : NestedRuns g o _ = N
    have hempty : N [] := hN ▸ .inl rfl
    have hin : Brackets N body.calls := by
      obtain ⟨f, -, rfl, -, -⟩ | ⟨w, hw, hwalk⟩ := leads_body hbody
      · exact quiet_of_isStepRun hempty (List.forall_mem_nil _)
      · refine (walk_of_leads _ _ _ _ hwalk).brackets.mono fun opened hopened => ?_
        rw [← hN]
        exact .inr ⟨stored, w, List.mem_cons_self, hw, hopened⟩
    rw [Course.calls_append, Course.calls_append, Course.calls_append]
    exact ((quiet_of_isStepRun hempty opening_isStepRun).append
      (hin.append (quiet_of_isStepRun hempty hclosing.isStepRun))).append
        (quiet_of_isStepRun hempty (List.forall_mem_nil _))

theorem Journey.audited {o : Order} {result : Except Failure Execution} (h : Journey g o t result) :
    ∃ e : Opened, e.actor = o.actor ∧ (∀ start id, ⟨.createExecution start, .ok id⟩ ∈ Course.calls t → e.id = id) ∧
      Audited g e t := by
  cases h with
  | unopened hvain =>
    refine ⟨⟨"", o.actor, Clock.stamp 0⟩, rfl, fun start id hm => (nomatch hvain _ hm), .of_calls fun m hm => ?_⟩
    exact isStepRun_of_isVain (hvain m hm)
  | @opened stored vs final n start id body closing r r' hvs hbody hclosing =>
    refine ⟨⟨id, o.actor, Clock.stamp n⟩, rfl, fun start' id' hm => ?_, ?_⟩
    · exact ((created_iff (inner_ne_createExecution hbody hclosing)).mp hm).2.symm
    · have hin : Audited g ⟨id, o.actor, Clock.stamp n⟩ body := by
        obtain ⟨f, -, rfl, -, -⟩ | ⟨w, hw, hwalk⟩ := leads_body hbody
        · exact .nil
        · exact (walk_of_leads _ _ _ _ hwalk).audited
      exact ((Audited.of_calls opening_isStepRun).append (hin.append (.of_calls hclosing.isStepRun))).append
        (.of_calls (List.forall_mem_nil _))

theorem Journey.hasMessage {o : Order} {result : Except Failure Execution} (h : Journey g o t result)
    (ht : t.Meets Failure.IsNamed) : ∀ m ∈ t.calls, m.HasMessage := by
  cases h with
  | unopened hvain => exact fun m hm => Made.hasMessage_of_isStepRun (isStepRun_of_isVain (hvain m hm))
  | @opened stored vs final n start id body closing r r' hvs hbody hclosing =>
    have hin : ∀ m ∈ body.calls, m.HasMessage := by
      obtain ⟨f, -, rfl, -, -⟩ | ⟨w, hw, hwalk⟩ := leads_body hbody
      · exact List.forall_mem_nil _
      · have hbodyMeets := (Course.meets_append.mp (Course.meets_append.mp (Course.meets_append.mp ht).1).2).1
        exact (walk_of_leads _ _ _ _ hwalk).hasMessage hbodyMeets
    rw [Course.calls_append, Course.calls_append, Course.calls_append]
    refine List.forall_mem_append.mpr ⟨List.forall_mem_append.mpr ⟨?_, List.forall_mem_append.mpr ⟨hin, ?_⟩⟩,
      List.forall_mem_nil _⟩
    · exact fun m hm => Made.hasMessage_of_isStepRun (opening_isStepRun m hm)
    · exact fun m hm => Made.hasMessage_of_isStepRun (hclosing.isStepRun m hm)

/-- **Step runs are brackets**, in all surroundings. At the end each step run that was opened has been closed, once; at any
moment those that are open are a nest of steps, and only the innermost one is closed. It is closed as completed if its handler
returns, and as failed if it does not, with a message as long as whoever fails has a name. -/
theorem step_runs_are_brackets (g : Engine) (o : Order) (s : Surroundings (Request Call) (Request.Reply Call.Answer)) :
    let t := ((g.run o).run.under s).1
    openRuns (Course.calls t) = some [] ∧
    ((Course.calls t).filterMap Made.opened?).Perm ((Course.calls t).filterMap Made.closed?) ∧
    (∀ p, p <+: t → ∃ opened, openRuns (Course.calls p) = some opened ∧ NestedRuns g o (Course.calls t) opened) ∧
    (∃ e : Opened, e.actor = o.actor ∧ (∀ start id, ⟨.createExecution start, .ok id⟩ ∈ Course.calls t → e.id = id) ∧
      Audited g e t) ∧
    ((∀ past op f, Exchange.failure? ⟨op, s past op⟩ = some f → f.IsNamed) → ∀ m ∈ Course.calls t, m.HasMessage) := by
  have hanswer := fun x => Program.exists_reply_of_mem_under (s := s) (p := (g.run o).run) (x := x)
  have hj := journey_of_leads (Program.leads_under s (g.run o).run)
  generalize (g.run o).run.under s = p at hanswer hj ⊢
  obtain ⟨t, result⟩ := p
  dsimp only at hanswer hj ⊢
  have hbrackets := hj.brackets
  have hclosed : openRuns (Course.calls t) = some [] := hbrackets.closed []
  refine ⟨hclosed, perm_of_foldlM hclosed, fun p hp => ?_, hj.audited, fun hnamed => ?_⟩
  · obtain ⟨opened, hfold, hopened⟩ := hbrackets.along (hp.filterMap Exchange.made?) []
    rw [List.append_nil] at hfold
    exact ⟨opened, hfold, hopened⟩
  · refine hj.hasMessage fun x hx f hf => ?_
    obtain ⟨v, -, hv⟩ | hf := Exchange.met?_eq_some hf
    · obtain ⟨reason, rfl⟩ | rfl := TokenView.check_eq_error hv <;> trivial
    · obtain ⟨past, hpast⟩ := hanswer x hx
      exact hnamed past x.op f (hpast ▸ hf)

end Engine

namespace Posting

/-- The outcomes with which step runs are closed in a course. -/
def stepOutcomes (t : Course) : List Outcome :=
  t.calls.filterMap fun m => match m.call with
    | .updateStepRun _ _ last => some last.outcome
    | _ => none

theorem stepOutcomes_posted :
    stepOutcomes posted.1 = [.failed "SMTPServerDisconnected", .failed "SMTPServerDisconnected"] := by
  rw [posted_eq]
  decide +kernel

/-- The step run of the email and that of the loop around it are both closed, as failed, and with a message. -/
theorem posted_closes_both :
    stepOutcomes posted.1 = [.failed "SMTPServerDisconnected", .failed "SMTPServerDisconnected"] ∧
      openRuns (Course.calls posted.1) = some [] ∧ ∀ m ∈ Course.calls posted.1, m.HasMessage := by
  have hnamed : ∀ (past : Course) (q : Request Call) (f : Failure), Exchange.failure? ⟨q, lost past q⟩ = some f → f.IsNamed := by
    intro past q f hf
    rw [failure?_lost hf]
    show "SMTPServerDisconnected" ≠ ""
    decide
  obtain ⟨hclosed, -, -, -, hmessage⟩ := Engine.step_runs_are_brackets {} Mailing.order lost
  exact ⟨stepOutcomes_posted, hclosed, hmessage hnamed⟩

end Posting

end Runbook
