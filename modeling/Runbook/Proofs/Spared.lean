import Runbook.Proofs.Dispatch
import Runbook.Proofs.Faults

/-!
# Runs that never find their token dead

A cancellation reaches a run only by a look at its token. A run all of whose looks have found the token alive is where its
program comes to on a course without a dead look, whatever has become of the token in the meantime. So it does not come to a
cancellation of its own: if it fails by one, a call of it was answered with that.

* `Phase.Left`: what is left of a program in a phase.
* `Moment.GoesFinding`: the moments of a run that looks at its token in some states only; `Moment.GoesAlive`,
  `Moment.GoesBlind`: those of a run that does not find it dead, and of one that does not look at all.
* **`Engine.leads_of_goesAlive`**: a run that has not found its token dead ends by a course without a dead look.
* **`Engine.answered_of_cancelled`**: on such a course only a call brings a cancellation.
-/

namespace Runbook

/-! ## Where a program is -/

/-- What is left of a program in a phase, after a course. -/
def Phase.Left {S : Setting} (p : S.Rest) (t : List (Exchange (Request S.Call) (Request.Reply S.Answer))) : Phase S → Prop
  | .ready rest => t = [] ∧ rest = p
  | .going rest => p.Leaves t rest
  | .called q next | .waiting q next => p.Leaves t (.ask q next)
  | .ended (.ok result) => p.Leaves t (.done result)
  | .ended (.error _) => (t = [] ∨ ∃ result, p.Leaves t (.done result))

theorem Phase.Left.leaves {S : Setting} {p : S.Rest} {t : List (Exchange (Request S.Call) (Request.Reply S.Answer))} {φ : Phase S}
    (h : φ.Left p t) : ∃ rest, p.Leaves t rest := by
  cases φ with
  | ready rest =>
    obtain ⟨rfl, rfl⟩ := h
    exact ⟨rest, .here rest⟩
  | going rest => exact ⟨rest, h⟩
  | called q next | waiting q next => exact ⟨_, h⟩
  | ended result =>
    cases result with
    | ok result => exact ⟨_, h⟩
    | error message =>
      obtain rfl | ⟨result, h⟩ := h
      · exact ⟨p, .here p⟩
      · exact ⟨_, h⟩

/-- A run in this phase does not wait for a look at its token. -/
def Phase.AwaitsNoLook {S : Setting} : Phase S → Prop
  | .called q _ | .waiting q _ => q ≠ .token
  | _ => True

/-! ## Moments without a dead look -/

section Goes

variable {S : Setting} {i : Nat} {m m' m'' : Moment S}

/-- The moments that may follow as long as a run looks at its token in such states only. -/
def Moment.GoesFinding (i : Nat) (P : Schedule S → Prop) : Moment S → Moment S → Prop :=
  Relation.ReflTransGen fun m m' => Move m m' ∧ (m.Makes i .token → P m.schedule)

/-- The moments that may follow as long as a run does not find its token dead. -/
abbrev Moment.GoesAlive (i : Nat) : Moment S → Moment S → Prop := GoesFinding i fun s => ¬ s.IsDead i

/-- The moments that may follow as long as a run does not look at its token. -/
abbrev Moment.GoesBlind (i : Nat) : Moment S → Moment S → Prop := GoesFinding i fun _ => False

namespace Moment.GoesFinding

variable {P Q : Schedule S → Prop}

theorem trans (h : m.GoesFinding i P m') (h' : m'.GoesFinding i P m'') : m.GoesFinding i P m'' := Relation.ReflTransGen.trans h h'

theorem mono (h : m.GoesFinding i P m') (hPQ : ∀ s, P s → Q s) : m.GoesFinding i Q m' :=
  Relation.ReflTransGen.mono (fun _ _ ⟨hmove, hlook⟩ => ⟨hmove, fun hq => hPQ _ (hlook hq)⟩) _ _ h

/-- A move in which the run does not look. -/
theorem of_blind (h : Move m m') (hblind : ¬ m.Makes i .token) : m.GoesFinding i P m' :=
  Relation.ReflTransGen.single ⟨h, fun hq => absurd hq hblind⟩

/-- What is true of the phases of a run stays true of them if it does so in every such move. -/
theorem phase {φ : Phase S} {J : Phase S → Prop} (h : m.GoesFinding i P m')
    (hstep : ∀ m φ φ', m.In i φ → (m.Makes i .token → P m.schedule) → φ.Step i m φ' → J φ → J φ') (hφ : m.In i φ) (hJ : J φ) :
    ∃ φ', m'.In i φ' ∧ J φ' := by
  induction h with
  | refl => exact ⟨φ, hφ, hJ⟩
  | tail _ hmove ih =>
    obtain ⟨φ₁, hφ₁, hJ₁⟩ := ih
    obtain ⟨φ₂, hφ₂, hφstep⟩ := hmove.1.phase hφ₁
    exact ⟨φ₂, hφ₂, hstep _ _ _ hφ₁ hmove.2 hφstep hJ₁⟩

end Moment.GoesFinding

theorem Moment.Goes.goesFinding {P : Schedule S → Prop} (h : m.Goes m') (hP : ∀ m₁, m.Goes m₁ → P m₁.schedule) :
    m.GoesFinding i P m' := by
  induction h with
  | refl => exact .refl
  | tail hgoes hmove ih => exact ih.tail ⟨hmove, fun _ => hP _ hgoes⟩

/-- A token that is alive has never been found dead. -/
theorem Moment.Goes.goesAlive (h : m.Goes m') (hlive : ¬ m'.schedule.IsDead i) : m.GoesAlive i m' := by
  induction h with
  | refl => exact .refl
  | tail _ hmove ih =>
    have hbefore := mt (Moment.Goes.of_move hmove).dead hlive
    exact (ih hbefore).tail ⟨hmove, fun _ => hbefore⟩

/-- On the way from one moment to another a run looks at its token, or it does not. -/
theorem Moment.Goes.blind_or_looks (h : m.Goes m') :
    m.GoesBlind i m' ∨ ∃ m₁, m.Goes m₁ ∧ m₁.Makes i .token ∧ m₁.next.Goes m' := by
  induction h with
  | refl => exact .inl .refl
  | @tail m₁ m₂ hgoes hmove ih =>
    obtain hblind | ⟨m₀, h₀, hlook, h₁⟩ := ih
    · by_cases hlook : m₁.Makes i .token
      · obtain ⟨next, hnext⟩ := id hlook
        have hof : m₁.activity.IsOf i := by
          rw [hnext]
          rfl
        obtain rfl := hmove.eq_next_of_isOf hof
        exact .inr ⟨m₁, hgoes, hlook, .refl _⟩
      · exact .inl (hblind.trans (.of_blind hmove hlook))
    · exact .inr ⟨m₀, h₀, hlook, h₁.move hmove⟩

end Goes

/-! ## Courses without a dead look -/

/-- A course in which all looks at the token find it alive. -/
def Course.FindsAlive (t : Course) : Prop := ∀ v : TokenView, ⟨.token, v⟩ ∈ t → v.check = .ok ()

namespace Course

variable {t : Course} {q : Request Call} {r : q.Reply Call.Answer}

theorem FindsAlive.told (h : t.FindsAlive) (hq : q ≠ .token) : FindsAlive (t ++ [⟨q, r⟩]) := by
  intro v hv
  rcases List.mem_append.mp hv with hv | hv
  · exact h v hv
  · exact absurd (congrArg Exchange.op (List.mem_singleton.mp hv)).symm hq

theorem FindsAlive.looked (h : t.FindsAlive) {v : TokenView} (hv : v.check = .ok ()) : FindsAlive (t ++ [⟨.token, v⟩]) := by
  intro v' hv'
  rcases List.mem_append.mp hv' with hv' | hv'
  · exact h v' hv'
  · cases List.mem_singleton.mp hv'
    exact hv

end Course

namespace Engine

variable {World : Type} {perform : (c : Call) → Work World (Except Failure c.Answer)} {g : Engine} {o : Order} {i : Nat}
  {m m' : Moment (setting World perform)} {φ φ' : Phase (setting World perform)}

/-- A run that has not found its token dead is where its program is after a course without a dead look. -/
def Spared (p : (setting World perform).Rest) (φ : Phase (setting World perform)) : Prop :=
  ∃ t : Course, φ.Left p t ∧ t.FindsAlive ∧ φ.AwaitsNoLook

theorem Spared.step {p : (setting World perform).Rest} (hin : m.In i φ) (hlook : m.Makes i .token → ¬ m.schedule.IsDead i)
    (hstep : φ.Step i m φ') (h : Spared p φ) : Spared p φ' := by
  obtain ⟨t, hleft, halive, hwaits⟩ := h
  cases hstep with
  | stay => exact ⟨t, hleft, halive, hwaits⟩
  | begin =>
    obtain ⟨rfl, rfl⟩ := hleft
    exact ⟨[], .here _, halive, trivial⟩
  | drop => exact ⟨t, .inl hleft.1, halive, trivial⟩
  | @reply q next r hreply =>
    refine ⟨_, Program.Leaves.told hleft r, ?_, trivial⟩
    cases q with
    | token =>
      cases hreply
      exact halive.looked (Classical.not_not.mp (hlook hin.makes))
    | _ => exact halive.told nofun
  | call herrand =>
    refine ⟨t, hleft, halive, ?_⟩
    rintro rfl
    cases herrand
  | wait hreply =>
    refine ⟨t, hleft, halive, ?_⟩
    rintro rfl
    cases hreply
  | start => exact ⟨t, hleft, halive, hwaits⟩
  | answer r => exact ⟨_, Program.Leaves.told hleft r, halive.told hwaits, trivial⟩
  | finish => exact ⟨t, hleft, halive, trivial⟩
  | cut => exact ⟨t, .inr ⟨_, hleft⟩, halive, trivial⟩

/-- **A run that has not found its token dead** ends by a course without a dead look. -/
theorem leads_of_goesAlive {s : Schedule (setting World perform)} {token : Option Nat} {result : Except Failure Execution}
    (h : (launched g o s token).GoesAlive s.fibers.length m)
    (hresult : m.schedule.result? s.fibers.length = some (.ok result)) :
    ∃ t : Course, (g.run o).run.Leads t result ∧ t.FindsAlive := by
  obtain ⟨φ, hin, t, hleft, halive, -⟩ := h.phase (fun _ _ _ hin hlook hstep hJ => Spared.step hin hlook hstep hJ)
    (s.in_launch (g.run o).run token) ⟨[], ⟨rfl, rfl⟩, nofun, trivial⟩
  obtain rfl := hin.eq_ended hresult
  exact ⟨t, Program.Leaves.leads hleft, halive⟩

/-! ## Cancellations that are answers -/

theorem load_ne_cancelled {limit : Value} {stored : StoredWorkflow} {reason : String} :
    Workflow.load limit stored ≠ .error (.cancelled reason) := by
  intro h
  unfold Workflow.load at h
  obtain h | ⟨initial, -, h⟩ := bind_eq_error h
  · obtain ⟨_, ⟨⟩⟩ := mapError_eq_error h
  obtain h | ⟨raws, -, h⟩ := bind_eq_error h
  · obtain ⟨_, ⟨⟩⟩ := mapError_eq_error h
  obtain h | ⟨steps, -, h⟩ := bind_eq_error h
  · obtain hdocumented | ⟨⟨_, ⟨⟩⟩, -⟩ := Step.isFaultIn_of_readAll h
    exact hdocumented
  · obtain ⟨_, ⟨⟩⟩ := Step.forObject_eq_error h

/-- **A cancellation is an answer** on a course without a dead look: a run that fails by one has made a call that was answered
with it. -/
theorem answered_of_cancelled {t : Course} {reason : String} (h : (g.run o).run.Leads t (.error (.cancelled reason)))
    (ht : t.FindsAlive) : ∃ x ∈ t, Exchange.failure? x = some (.cancelled reason) := by
  let Q (f : Failure) : Prop := (∀ reason, f ≠ .cancelled reason) ∨ ∃ x ∈ t, Exchange.failure? x = some f
  have hcovers : g.registry.Covers Q := .of_causes (fun cause hcause => .inl fun reason hf => hcause reason (by cases hf; rfl))
    fun _ => .inl nofun
  have hmeets : t.Meets Q := by
    intro x hx f hf
    obtain ⟨v, rfl, hv⟩ | hf := Exchange.met?_eq_some hf
    · cases (ht v hx).symm.trans hv
    · exact .inr ⟨x, hx, hf⟩
  obtain (hne | hanswer) | ⟨stored, -, hload⟩ := run_failure hcovers (fun _ => .inl nofun) h hmeets
  · exact absurd rfl (hne reason)
  · exact hanswer
  · exact absurd hload load_ne_cancelled

end Engine

end Runbook
