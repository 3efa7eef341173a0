import Mathlib.Data.List.Forall2
import Runbook.Notification.Dispatch
import Runbook.Proofs.Course

/-!
# Deliveries

A dispatch asks its collaborators one errand after the other. What it would ask of them if none failed is its plan: for each
recipient in order an entry in the inbox, if there is one, and then what each of the channels asks for. The events of a dispatch are
its plan, cut off after the first errand that fails.

* `Dispatcher.Errand`, `Dispatcher.Event`: what a collaborator is asked to do, and what came of it.
* `Dispatcher.ByChannel`, `Dispatcher.ToRecipient`, `Dispatcher.Plans`: the plans, from those of a channel on.
* `Dispatcher.cut`: the events of a plan, and how they end; `Dispatcher.Conducts`: a course that is made up of events.
* `Dispatcher.Follows`, `Dispatcher.dispatch_follows`: a job whose courses are the plans of a kind, cut off.
* **`Dispatcher.dispatch_is_its_plan`**: what a dispatch does, in all courses that it can take.
-/

namespace Runbook

namespace Dispatcher

/-! ## Errands -/

/-- What a collaborator is asked to do for a recipient. -/
inductive Errand where
  | record (recipient : Recipient)
  | publish (recipient : Recipient)
  | lookUp (recipient : Recipient)
  | send (recipient : Recipient) (address : String)

namespace Errand

/-- The recipient for whom it is. -/
def recipient : Errand → Recipient
  | record r | publish r | lookUp r | send r _ => r

/-- What it comes to: who looks up an address may find none. -/
def Answer : Errand → Type
  | lookUp _ => Option String
  | record _ | publish _ | send .. => Unit

/-- Whether it is part of a delivery. -/
def isDelivery : Errand → Bool
  | record _ => false
  | publish _ | lookUp _ | send .. => true

end Errand

/-- An errand, what came of it, and the course that it took. -/
structure Event (World : Type) where
  errand : Errand
  outcome : Except Failure errand.Answer
  course : List (Exchange (Effect World) Effect.Reply)

/-- The failure that an event ends with. -/
def Event.failure? {World : Type} (e : Event World) : Option Failure :=
  match e.outcome with
  | .ok _ => none
  | .error f => some f

variable {World : Type}

/-- The events up to the first that fails, and how they end. -/
def cut : List (Event World) → List (Event World) × Except Failure Unit
  | [] => ([], .ok ())
  | e :: rest => match e.failure? with
    | some f => ([e], .error f)
    | none => (e :: (cut rest).1, (cut rest).2)

/-- The address that a lookup finds. One that is empty is none. -/
def found? : Except Failure (Option String) → Option String
  | .ok (some address) => if address.isEmpty then none else some address
  | _ => none

variable (d : Dispatcher World)

/-- What the collaborator does that an errand is for, if there is one. -/
def perform (payload : Payload) : (e : Errand) → Option (Job World e.Answer)
  | .record r => d.inbox.map (· r payload)
  | .publish r => d.publisher.map (· r payload)
  | .lookUp r => d.addresses.map (· r)
  | .send _ address => d.transport.map (· (d.emailTo address payload))

/-- The events make up this course: each is an errand that a collaborator was asked for, and came to what it came to. -/
structure Conducts (payload : Payload) (events : List (Event World)) (course : List (Exchange (Effect World) Effect.Reply)) :
    Prop where
  performed : ∀ e ∈ events, ∃ job ∈ d.perform payload e.errand, job.run.Leads e.course e.outcome
  course_eq : course = events.flatMap Event.course

/-! ## Plans -/

/-- What a channel asks for, to deliver to a recipient. A channel that cannot be used asks for nothing. An email is sent exactly if
the lookup before it finds an address. -/
inductive ByChannel (recipient : Recipient) : Channel → List (Event World) → Prop where
  | skipped {channel : Channel} : channel ∉ d.channels → ByChannel recipient channel []
  | published {e : Event World} : .inApp ∈ d.channels → e.errand = .publish recipient → ByChannel recipient .inApp [e]
  | unaddressed {outcome : Except Failure (Option String)} {course : List (Exchange (Effect World) Effect.Reply)} :
    .email ∈ d.channels → found? outcome = none → ByChannel recipient .email [⟨.lookUp recipient, outcome, course⟩]
  | sent {outcome : Except Failure (Option String)} {course : List (Exchange (Effect World) Effect.Reply)} {address : String}
    {e : Event World} : .email ∈ d.channels → found? outcome = some address → e.errand = .send recipient address →
      ByChannel recipient .email [⟨.lookUp recipient, outcome, course⟩, e]

/-- The entry into the inbox of a recipient, if there is an inbox. -/
inductive IntoInbox (recipient : Recipient) : List (Event World) → Prop where
  | recorded {e : Event World} : d.inbox.isSome → e.errand = .record recipient → IntoInbox recipient [e]
  | absent : d.inbox = none → IntoInbox recipient []

/-- What is planned for several channels: what is planned for each, in their order. -/
def ByChannels (recipient : Recipient) (channels : List Channel) (plan : List (Event World)) : Prop :=
  ∃ parts, List.Forall₂ (d.ByChannel recipient) channels parts ∧ plan = parts.flatten

/-- What is planned for a recipient: first the inbox, then the channels. -/
def ToRecipient (recipient : Recipient) (plan : List (Event World)) : Prop :=
  ∃ entry deliveries, d.IntoInbox recipient entry ∧ d.ByChannels recipient recipient.channels deliveries ∧
    plan = entry ++ deliveries

/-- What is planned for several recipients: what is planned for each, in their order. -/
def Plans (recipients : List Recipient) (plan : List (Event World)) : Prop :=
  ∃ parts, List.Forall₂ d.ToRecipient recipients parts ∧ plan = parts.flatten

/-! ## Where plans are cut off -/

section Cut

variable {events later : List (Event World)} {f : Failure}

theorem cut_of_ok (h : (cut events).2 = .ok ()) : (cut events).1 = events ∧ ∀ e ∈ events, e.failure? = none := by
  induction events with
  | nil => exact ⟨rfl, List.forall_mem_nil _⟩
  | cons e rest ih =>
    rw [cut] at h ⊢
    split at h
    · cases h
    · next hnone =>
      obtain ⟨heq, hrest⟩ := ih h
      exact ⟨congrArg (e :: ·) heq, List.forall_mem_cons.mpr ⟨hnone, hrest⟩⟩

theorem cut_of_error (h : (cut events).2 = .error f) : ∃ before e after, events = before ++ e :: after ∧
    (cut events).1 = before ++ [e] ∧ (∀ x ∈ before, x.failure? = none) ∧ e.failure? = some f := by
  induction events with
  | nil => cases h
  | cons e rest ih =>
    rw [cut] at h ⊢
    split at h
    · next hsome =>
      cases h
      exact ⟨[], e, rest, rfl, rfl, List.forall_mem_nil _, hsome⟩
    · next hnone =>
      obtain ⟨before, x, after, heq, hcut, hbefore, hx⟩ := ih h
      exact ⟨e :: before, x, after, congrArg (e :: ·) heq, congrArg (e :: ·) hcut,
        List.forall_mem_cons.mpr ⟨hnone, hbefore⟩, hx⟩

/-- What is cut off stands at the end. -/
theorem exists_eq_cut_append (events : List (Event World)) : ∃ rest, events = (cut events).1 ++ rest := by
  cases h : (cut events).2 with
  | ok _ => exact ⟨[], by rw [(cut_of_ok h).1, List.append_nil]⟩
  | error f =>
    obtain ⟨before, e, after, heq, hcut, -⟩ := cut_of_error h
    exact ⟨after, by rw [hcut, List.append_assoc]; exact heq⟩

/-- Nothing fails before the last event. -/
theorem failure?_of_cut {before after : List (Event World)} {e : Event World} (h : (cut events).1 = before ++ e :: after) :
    ∀ x ∈ before, x.failure? = none := by
  cases hend : (cut events).2 with
  | ok _ =>
    obtain ⟨heq, hall⟩ := cut_of_ok hend
    intro x hx
    exact hall x (by rw [← heq, h]; exact List.mem_append_left _ hx)
  | error f =>
    obtain ⟨front, last, -, -, hcut, hfront, -⟩ := cut_of_error hend
    have hbefore : before <+: front := by
      have hlength := congrArg List.length (hcut.symm.trans h)
      rw [List.length_append, List.length_append, List.length_singleton, List.length_cons] at hlength
      refine List.prefix_of_prefix_length_le ⟨e :: after, h.symm⟩ ⟨[last], hcut.symm⟩ ?_
      omega
    intro x hx
    exact hfront x (hbefore.subset hx)

theorem cut_append_of_ok (h : (cut events).2 = .ok ()) :
    cut (events ++ later) = (events ++ (cut later).1, (cut later).2) := by
  induction events with
  | nil => rfl
  | cons e rest ih =>
    rw [cut] at h
    rw [List.cons_append, cut]
    split at h
    · cases h
    · simp only [ih h]
      rfl

theorem cut_append_of_error (h : (cut events).2 = .error f) : cut (events ++ later) = cut events := by
  induction events with
  | nil => cases h
  | cons e rest ih =>
    rw [cut] at h
    rw [List.cons_append, cut, cut]
    split at h
    · rfl
    · simp only [ih h]

end Cut

/-! ## Jobs that follow plans -/

variable {d} {payload : Payload} {recipient : Recipient}

/-- The courses of the job are the plans of this kind, cut off, and there are such plans. -/
structure Follows (d : Dispatcher World) (payload : Payload) (job : Job World Unit) (P : List (Event World) → Prop) : Prop where
  planned : ∃ plan, P plan
  leads_iff : ∀ course result, job.run.Leads course result ↔
    ∃ plan, P plan ∧ d.Conducts payload (cut plan).1 course ∧ result = (cut plan).2

theorem conducts_nil {course : List (Exchange (Effect World) Effect.Reply)} : d.Conducts payload [] course ↔ course = [] :=
  ⟨fun h => h.course_eq, fun h => ⟨List.forall_mem_nil _, h⟩⟩

theorem conducts_append {first second : List (Event World)} {course : List (Exchange (Effect World) Effect.Reply)} :
    d.Conducts payload (first ++ second) course ↔
      ∃ t₁ t₂, d.Conducts payload first t₁ ∧ d.Conducts payload second t₂ ∧ course = t₁ ++ t₂ := by
  constructor
  · rintro ⟨hperformed, rfl⟩
    obtain ⟨hfirst, hsecond⟩ := List.forall_mem_append.mp hperformed
    exact ⟨_, _, ⟨hfirst, rfl⟩, ⟨hsecond, rfl⟩, List.flatMap_append⟩
  · rintro ⟨t₁, t₂, ⟨hfirst, rfl⟩, ⟨hsecond, rfl⟩, rfl⟩
    exact ⟨List.forall_mem_append.mpr ⟨hfirst, hsecond⟩, List.flatMap_append.symm⟩

theorem conducts_singleton {e : Event World} {job : Job World e.errand.Answer}
    {course : List (Exchange (Effect World) Effect.Reply)} (hjob : d.perform payload e.errand = some job) :
    d.Conducts payload [e] course ↔ course = e.course ∧ job.run.Leads e.course e.outcome := by
  constructor
  · rintro ⟨hperformed, rfl⟩
    obtain ⟨job', hjob', hleads⟩ := hperformed e (List.mem_singleton_self e)
    obtain rfl := Option.some.inj (hjob.symm.trans hjob')
    exact ⟨List.append_nil _, hleads⟩
  · rintro ⟨rfl, hleads⟩
    refine ⟨fun x hx => ?_, (List.append_nil _).symm⟩
    obtain rfl := List.mem_singleton.mp hx
    exact ⟨job, hjob, hleads⟩

namespace Follows

variable {job job' : Job World Unit} {P P' : List (Event World) → Prop}

theorem congr (h : d.Follows payload job P) (hiff : ∀ plan, P plan ↔ P' plan) : d.Follows payload job P' := by
  obtain rfl : P = P' := funext fun plan => propext (hiff plan)
  exact h

/-- Nothing is planned where nothing is done. -/
theorem pure : d.Follows payload (Pure.pure ()) fun plan => plan = [] where
  planned := ⟨[], rfl⟩
  leads_iff course result := by
    refine Program.leads_done.trans ?_
    constructor
    · rintro ⟨rfl, rfl⟩
      exact ⟨[], rfl, conducts_nil.mpr rfl, rfl⟩
    · rintro ⟨-, rfl, hcourse, rfl⟩
      exact ⟨conducts_nil.mp hcourse, rfl⟩

/-- One job after the other follows one plan after the other. -/
theorem bind (h : d.Follows payload job P) (h' : d.Follows payload job' P') :
    d.Follows payload (job >>= fun _ => job') fun plan => ∃ first second, P first ∧ P' second ∧ plan = first ++ second where
  planned := by
    obtain ⟨first, hfirst⟩ := h.planned
    obtain ⟨second, hsecond⟩ := h'.planned
    exact ⟨first ++ second, first, second, hfirst, hsecond, rfl⟩
  leads_iff course result := by
    rw [Program.leads_run_bind]
    constructor
    · rintro (⟨f, hleads, rfl⟩ | ⟨⟨⟩, t₁, t₂, hleads, hleads', rfl⟩)
      · obtain ⟨first, hfirst, hconducts, hend⟩ := (h.leads_iff course _).mp hleads
        obtain ⟨second, hsecond⟩ := h'.planned
        refine ⟨first ++ second, ⟨first, second, hfirst, hsecond, rfl⟩, ?_⟩
        rw [cut_append_of_error hend.symm]
        exact ⟨hconducts, hend⟩
      · obtain ⟨first, hfirst, hconducts, hend⟩ := (h.leads_iff t₁ _).mp hleads
        obtain ⟨second, hsecond, hconducts', rfl⟩ := (h'.leads_iff t₂ result).mp hleads'
        rw [(cut_of_ok hend.symm).1] at hconducts
        refine ⟨first ++ second, ⟨first, second, hfirst, hsecond, rfl⟩, ?_⟩
        rw [cut_append_of_ok hend.symm]
        exact ⟨conducts_append.mpr ⟨t₁, t₂, hconducts, hconducts', rfl⟩, rfl⟩
    · rintro ⟨plan, ⟨first, second, hfirst, hsecond, rfl⟩, hconducts, rfl⟩
      cases hend : (cut first).2 with
      | error f =>
        rw [cut_append_of_error hend] at hconducts ⊢
        exact .inl ⟨f, (h.leads_iff course _).mpr ⟨first, hfirst, hconducts, hend.symm⟩, hend⟩
      | ok _ =>
        rw [cut_append_of_ok hend] at hconducts ⊢
        obtain ⟨t₁, t₂, hconducts₁, hconducts₂, rfl⟩ := conducts_append.mp hconducts
        rw [← (cut_of_ok hend).1] at hconducts₁
        exact .inr ⟨(), t₁, t₂, (h.leads_iff t₁ _).mpr ⟨first, hfirst, hconducts₁, hend.symm⟩,
          (h'.leads_iff t₂ _).mpr ⟨second, hsecond, hconducts₂, rfl⟩, rfl⟩

end Follows

theorem cut_singleton (e : Event World) : cut [e] = ([e], e.outcome.map fun _ => ()) := by
  obtain ⟨errand, outcome, course⟩ := e
  cases outcome <;> rfl

/-- There is nothing to be done after a job without an answer. -/
theorem bind_unit (job : Job World Unit) : (job >>= fun _ => pure ()) = job := bind_pure job

/-- A single errand follows the plan to ask for it. -/
theorem follows_errand {x : Errand} {job : Job World x.Answer} (hjob : d.perform payload x = some job) :
    d.Follows payload (job >>= fun _ => pure ()) fun plan => ∃ e : Event World, e.errand = x ∧ plan = [e] where
  planned := ⟨[⟨x, .error (.fault .deadlineExceeded), []⟩], _, rfl, rfl⟩
  leads_iff course result := by
    rw [Program.leads_run_bind]
    constructor
    · rintro (⟨f, hleads, rfl⟩ | ⟨a, t₁, t₂, hleads, hdone, rfl⟩)
      · exact ⟨_, ⟨⟨x, .error f, course⟩, rfl, rfl⟩, (conducts_singleton hjob).mpr ⟨rfl, hleads⟩, rfl⟩
      · obtain ⟨rfl, rfl⟩ := Program.leads_done.mp hdone
        rw [List.append_nil]
        exact ⟨_, ⟨⟨x, .ok a, t₁⟩, rfl, rfl⟩, (conducts_singleton hjob).mpr ⟨rfl, hleads⟩, rfl⟩
    · rintro ⟨-, ⟨⟨x, outcome, t⟩, rfl, rfl⟩, hconducts, rfl⟩
      rw [cut_singleton] at hconducts ⊢
      obtain ⟨rfl, hleads⟩ := (conducts_singleton hjob).mp hconducts
      cases outcome with
      | error f => exact .inl ⟨f, hleads, rfl⟩
      | ok a => exact .inr ⟨a, _, [], hleads, .done _, (List.append_nil _).symm⟩

/-- A lookup, and what is planned for the address that it finds. -/
theorem follows_lookUp {job : Job World (Option String)} {next : Option String → Job World Unit}
    {P : Option String → List (Event World) → Prop} (hjob : d.perform payload (.lookUp recipient) = some job)
    (hnext : ∀ address?, d.Follows payload (next address?) (P address?)) :
    d.Follows payload (job >>= fun answer => next (found? (.ok answer))) fun plan => ∃ outcome course rest,
      P (found? outcome) rest ∧ plan = ⟨.lookUp recipient, outcome, course⟩ :: rest where
  planned := by
    obtain ⟨rest, hrest⟩ := (hnext none).planned
    exact ⟨_, .ok none, [], rest, hrest, rfl⟩
  leads_iff course result := by
    rw [Program.leads_run_bind]
    constructor
    · rintro (⟨f, hleads, rfl⟩ | ⟨answer, t₁, t₂, hleads, hleads', rfl⟩)
      · obtain ⟨rest, hrest⟩ := (hnext none).planned
        exact ⟨_, ⟨.error f, course, rest, hrest, rfl⟩, (conducts_singleton hjob).mpr ⟨rfl, hleads⟩, rfl⟩
      · obtain ⟨rest, hrest, hconducts, rfl⟩ := ((hnext _).leads_iff t₂ result).mp hleads'
        have hevent : d.Conducts payload [⟨.lookUp recipient, .ok answer, t₁⟩] t₁ := (conducts_singleton hjob).mpr ⟨rfl, hleads⟩
        exact ⟨_, ⟨.ok answer, t₁, rest, hrest, rfl⟩, conducts_append.mpr ⟨t₁, t₂, hevent, hconducts, rfl⟩, rfl⟩
    · rintro ⟨-, ⟨outcome, t, rest, hrest, rfl⟩, hconducts, rfl⟩
      cases outcome with
      | error f =>
        obtain ⟨rfl, hleads⟩ := (conducts_singleton hjob).mp hconducts
        exact .inl ⟨f, hleads, rfl⟩
      | ok answer =>
        have hparts := (conducts_append (d := d)).mp (show d.Conducts payload ([_] ++ (cut rest).1) course from hconducts)
        obtain ⟨t₁, t₂, hevent, hconducts', rfl⟩ := hparts
        obtain ⟨rfl, hleads⟩ := (conducts_singleton hjob).mp hevent
        exact .inr ⟨answer, t₁, t₂, hleads, ((hnext _).leads_iff t₂ _).mpr ⟨rest, hrest, hconducts', rfl⟩, rfl⟩

/-! ## Channels -/

theorem inApp_mem_channels : .inApp ∈ d.channels ↔ d.publisher.isSome := by
  cases h : d.publisher <;> simp [channels, h]

theorem email_mem_channels : .email ∈ d.channels ↔ d.transport.isSome ∧ d.addresses.isSome := by
  cases h : d.publisher <;> simp [channels, h]

theorem push_notMem_channels : .push ∉ d.channels := by
  cases h : d.publisher <;> simp [channels, h]

/-- An email to the address that was found, if one was. -/
def sendTo (d : Dispatcher World) (send : Email → Job World Unit) (payload : Payload) (address? : Option String) : Job World Unit :=
  address?.elim (pure ()) fun address => send (d.emailTo address payload) >>= fun _ => pure ()

/-- What is planned once an address was looked up: one email to it, if one was found. -/
def SendsTo (recipient : Recipient) (address? : Option String) (plan : List (Event World)) : Prop :=
  address?.elim (plan = []) fun address => ∃ e : Event World, e.errand = .send recipient address ∧ plan = [e]

theorem follows_sendTo {send : Email → Job World Unit} (hsend : d.transport = some send) (recipient : Recipient)
    (address? : Option String) :
    d.Follows payload (d.sendTo send payload address?) (SendsTo recipient address?) := by
  cases address? with
  | none => exact .pure
  | some address =>
    refine follows_errand (x := .send recipient address) ?_
    rw [perform, hsend]
    rfl

/-- To deliver by email is to look the address up and to send to it. -/
theorem deliver_email {send : Email → Job World Unit} {addressOf : Recipient → Job World (Option String)}
    (hsend : d.transport = some send) (haddress : d.addresses = some addressOf) : d.deliver recipient payload .email =
      addressOf recipient >>= fun answer => d.sendTo send payload (found? (.ok answer)) := by
  unfold deliver
  rw [hsend, haddress]
  refine congrArg (addressOf recipient >>= ·) (funext fun answer => ?_)
  cases answer with
  | none => rfl
  | some address =>
    simp only [found?]
    split
    · rfl
    · exact (bind_unit _).symm

/-- Email: a lookup, and one email to the address that it finds. -/
theorem follows_email {send : Email → Job World Unit} {addressOf : Recipient → Job World (Option String)}
    (hsend : d.transport = some send) (haddress : d.addresses = some addressOf) :
    d.Follows payload (d.deliver recipient payload .email) (d.ByChannel recipient .email) := by
  have hmem : .email ∈ d.channels := email_mem_channels.mpr (by rw [hsend, haddress]; exact ⟨rfl, rfl⟩)
  have hlookUp : d.perform payload (.lookUp recipient) = some (addressOf recipient) := by rw [perform, haddress]; rfl
  rw [deliver_email hsend haddress]
  refine (follows_lookUp hlookUp (follows_sendTo hsend recipient)).congr fun plan => ?_
  constructor
  · rintro ⟨outcome, course, rest, hrest, rfl⟩
    cases hfound : found? outcome with
    | none =>
      obtain rfl : rest = [] := by rw [hfound] at hrest; exact hrest
      exact .unaddressed hmem hfound
    | some address =>
      obtain ⟨e, he, rfl⟩ : SendsTo recipient (some address) rest := by rw [← hfound]; exact hrest
      exact .sent hmem hfound he
  · intro h
    cases h with
    | skipped h => exact absurd hmem h
    | @unaddressed outcome course _ hfound => exact ⟨outcome, course, [], by rw [hfound]; exact rfl, rfl⟩
    | @sent outcome course address e _ hfound he => exact ⟨outcome, course, [e], by rw [hfound]; exact ⟨e, he, rfl⟩, rfl⟩

/-- Publishing is one errand. -/
theorem follows_inApp {publish : Recipient → Payload → Job World Unit} (hpublish : d.publisher = some publish) :
    d.Follows payload (d.deliver recipient payload .inApp) (d.ByChannel recipient .inApp) := by
  have hmem : .inApp ∈ d.channels := inApp_mem_channels.mpr (by rw [hpublish]; rfl)
  have hdeliver : d.deliver recipient payload .inApp = publish recipient payload >>= fun _ => pure () := by
    unfold deliver
    rw [hpublish]
    exact (bind_unit _).symm
  have hjob : d.perform payload (.publish recipient) = some (publish recipient payload) := by rw [perform, hpublish]; rfl
  rw [hdeliver]
  refine (follows_errand hjob).congr fun plan => ?_
  constructor
  · rintro ⟨e, he, rfl⟩
    exact .published hmem he
  · intro h
    cases h with
    | skipped h => exact absurd hmem h
    | published _ he => exact ⟨_, he, rfl⟩

/-- A channel that cannot be used delivers nothing. -/
theorem follows_of_notMem {channel : Channel} (h : channel ∉ d.channels) :
    d.Follows payload (d.deliver recipient payload channel) (d.ByChannel recipient channel) := by
  have hdeliver : d.deliver recipient payload channel = pure () := by
    unfold deliver
    split
    · next hpublish => exact absurd (inApp_mem_channels.mpr (by rw [hpublish]; rfl)) h
    · next hsend haddress => exact absurd (email_mem_channels.mpr (by rw [hsend, haddress]; exact ⟨rfl, rfl⟩)) h
    · rfl
  rw [hdeliver]
  refine Follows.pure.congr fun plan => ?_
  constructor
  · rintro rfl
    exact .skipped h
  · intro hplan
    cases hplan with
    | skipped _ => rfl
    | published hmem | unaddressed hmem | sent hmem => exact absurd hmem h

/-- **A delivery** follows the plan of its channel. -/
theorem deliver_follows (channel : Channel) :
    d.Follows payload (d.deliver recipient payload channel) (d.ByChannel recipient channel) := by
  by_cases h : channel ∈ d.channels
  · cases channel with
    | inApp =>
      obtain ⟨publish, hpublish⟩ := Option.isSome_iff_exists.mp (inApp_mem_channels.mp h)
      exact follows_inApp hpublish
    | email =>
      obtain ⟨htransport, haddresses⟩ := email_mem_channels.mp h
      obtain ⟨send, hsend⟩ := Option.isSome_iff_exists.mp htransport
      obtain ⟨addressOf, haddress⟩ := Option.isSome_iff_exists.mp haddresses
      exact follows_email hsend haddress
    | push => exact absurd h push_notMem_channels
  · exact follows_of_notMem h

/-! ## Recipients -/

theorem forall₂_flatten_nil {α : Type} {R : α → List (Event World) → Prop} {plan : List (Event World)} :
    plan = [] ↔ ∃ parts, List.Forall₂ R [] parts ∧ plan = parts.flatten := by
  constructor
  · rintro rfl
    exact ⟨[], .nil, rfl⟩
  · rintro ⟨parts, hparts, rfl⟩
    cases hparts
    rfl

theorem forall₂_flatten_cons {α : Type} {R : α → List (Event World) → Prop} {a : α} {as : List α} {plan : List (Event World)} :
    (∃ first second, R a first ∧ (∃ parts, List.Forall₂ R as parts ∧ second = parts.flatten) ∧ plan = first ++ second) ↔
      ∃ parts, List.Forall₂ R (a :: as) parts ∧ plan = parts.flatten := by
  constructor
  · rintro ⟨first, -, hfirst, ⟨parts, hparts, rfl⟩, rfl⟩
    exact ⟨first :: parts, .cons hfirst hparts, rfl⟩
  · rintro ⟨_, hparts, rfl⟩
    cases hparts with
    | cons hfirst hparts => exact ⟨_, _, hfirst, ⟨_, hparts, rfl⟩, rfl⟩

theorem deliverAll_follows (channels : List Channel) :
    d.Follows payload (d.deliverAll recipient payload channels) (d.ByChannels recipient channels) := by
  induction channels with
  | nil => exact Follows.pure.congr fun _ => forall₂_flatten_nil
  | cons channel rest ih => exact ((deliver_follows channel).bind ih).congr fun _ => forall₂_flatten_cons

theorem inbox_follows : d.Follows payload
    (match d.inbox with
      | some record => record recipient payload
      | none => pure ())
    (d.IntoInbox recipient) := by
  cases hinbox : d.inbox with
  | none =>
    refine Follows.pure.congr fun plan => ?_
    constructor
    · rintro rfl
      exact .absent hinbox
    · intro h
      cases h with
      | recorded hsome => rw [hinbox] at hsome; cases hsome
      | absent => rfl
  | some record =>
    have hjob : d.perform payload (.record recipient) = some (record recipient payload) := by rw [perform, hinbox]; rfl
    have hrecord : (record recipient payload >>= fun _ => pure ()) = record recipient payload := bind_unit _
    dsimp only
    rw [← hrecord]
    refine (follows_errand hjob).congr fun plan => ?_
    constructor
    · rintro ⟨e, he, rfl⟩
      exact .recorded (by rw [hinbox]; rfl) he
    · intro h
      cases h with
      | recorded _ he => exact ⟨_, he, rfl⟩
      | absent hnone => rw [hinbox] at hnone; cases hnone

theorem notify_follows : d.Follows payload (d.notify recipient payload) (d.ToRecipient recipient) := by
  have hnotify : d.notify recipient payload =
      (match d.inbox with
        | some record => record recipient payload
        | none => pure ()) >>= fun _ => d.deliverAll recipient payload recipient.channels := by
    unfold notify
    cases d.inbox <;> rfl
  rw [hnotify]
  exact inbox_follows.bind (deliverAll_follows recipient.channels)

/-- **A dispatch** follows the plan for its recipients. -/
theorem dispatch_follows (recipients : List Recipient) :
    d.Follows payload (d.dispatch recipients payload) (d.Plans recipients) := by
  induction recipients with
  | nil => exact Follows.pure.congr fun _ => forall₂_flatten_nil
  | cons recipient rest ih => exact (notify_follows.bind ih).congr fun _ => forall₂_flatten_cons

/-! ## What plans say -/

section Plans

variable {plan : List (Event World)} {recipients : List Recipient}

theorem ByChannel.recipient_eq {channel : Channel} (h : d.ByChannel recipient channel plan) :
    ∀ e ∈ plan, e.errand.recipient = recipient := by
  cases h with
  | skipped => exact List.forall_mem_nil _
  | published _ he => exact List.forall_mem_singleton.mpr (by rw [he]; rfl)
  | unaddressed => exact List.forall_mem_singleton.mpr rfl
  | sent _ _ he => exact List.forall_mem_cons.mpr ⟨rfl, List.forall_mem_singleton.mpr (by rw [he]; rfl)⟩

theorem ByChannels.recipient_eq {channels : List Channel} (h : d.ByChannels recipient channels plan) :
    ∀ e ∈ plan, e.errand.recipient = recipient := by
  obtain ⟨parts, hparts, rfl⟩ := h
  induction hparts with
  | nil => exact List.forall_mem_nil _
  | cons hchannel _ ih => exact List.forall_mem_append.mpr ⟨hchannel.recipient_eq, ih⟩

/-- What is planned for a recipient is for that recipient. -/
theorem ToRecipient.recipient_eq (h : d.ToRecipient recipient plan) : ∀ e ∈ plan, e.errand.recipient = recipient := by
  obtain ⟨entry, deliveries, hentry, hdeliveries, rfl⟩ := h
  refine List.forall_mem_append.mpr ⟨?_, hdeliveries.recipient_eq⟩
  cases hentry with
  | recorded _ he => exact List.forall_mem_singleton.mpr (by rw [he]; rfl)
  | absent => exact List.forall_mem_nil _

/-- The inbox comes before the deliveries to a recipient. -/
theorem ToRecipient.exists_record (h : d.ToRecipient recipient plan) (hinbox : d.inbox.isSome) {before after : List (Event World)}
    {e : Event World} (heq : plan = before ++ e :: after) (he : e.errand.isDelivery) :
    ∃ x ∈ before, x.errand = .record recipient := by
  obtain ⟨entry, deliveries, hentry, -, rfl⟩ := h
  cases hentry with
  | absent hnone => rw [hnone] at hinbox; cases hinbox
  | @recorded x _ hx =>
    cases before with
    | nil =>
      obtain rfl : x = e := (List.cons.inj heq).1
      rw [hx] at he
      cases he
    | cons y before =>
      obtain rfl : x = y := (List.cons.inj heq).1
      exact ⟨x, List.mem_cons_self, hx⟩

/-- So it does in the plan for several recipients. -/
theorem Plans.exists_record (h : d.Plans recipients plan) (hinbox : d.inbox.isSome) {before after : List (Event World)}
    {e : Event World} (heq : plan = before ++ e :: after) (he : e.errand.isDelivery) :
    ∃ x ∈ before, x.errand = .record e.errand.recipient := by
  obtain ⟨parts, hparts, rfl⟩ := h
  induction hparts generalizing before with
  | nil => exact absurd heq (by simp)
  | @cons recipient part _ parts hpart _ ih =>
    rw [List.flatten_cons] at heq
    obtain ⟨front, rfl, heq'⟩ | ⟨tail, hpart', heq'⟩ := List.append_eq_append_iff.mp heq
    · obtain ⟨x, hx, hrecord⟩ := ih heq'
      exact ⟨x, List.mem_append_right _ hx, hrecord⟩
    · cases tail with
      | nil =>
        obtain ⟨x, hx, -⟩ := @ih [] heq'.symm
        cases hx
      | cons y tail =>
        obtain rfl : e = y := (List.cons.inj heq').1
        have hrecipient : e.errand.recipient = recipient :=
          hpart.recipient_eq e (by rw [hpart']; exact List.mem_append_right _ List.mem_cons_self)
        rw [hrecipient]
        exact hpart.exists_record hinbox hpart' he

/-- A plan that is cut off was carried out for some recipients, and begun for the one after them. -/
theorem Plans.exists_recipient (h : d.Plans recipients plan) {f : Failure} (hend : (cut plan).2 = .error f) :
    ∃ earlier recipient later before begun e, recipients = earlier ++ recipient :: later ∧
      (cut plan).1 = before ++ begun ++ [e] ∧ d.Plans earlier before ∧ (∀ x ∈ begun ++ [e], x.errand.recipient = recipient) ∧
      (∀ x ∈ before ++ begun, x.failure? = none) ∧ e.failure? = some f := by
  obtain ⟨parts, hparts, rfl⟩ := h
  induction hparts with
  | nil => cases hend
  | @cons recipient part recipients parts hpart _ ih =>
    rw [List.flatten_cons] at hend ⊢
    cases hpartEnd : (cut part).2 with
    | error f' =>
      rw [cut_append_of_error hpartEnd] at hend ⊢
      obtain ⟨begun, e, after, hsplit, hcut, hbegun, he⟩ := cut_of_error hend
      refine ⟨[], recipient, recipients, [], begun, e, rfl, hcut, ⟨[], .nil, rfl⟩, fun x hx => ?_, hbegun, he⟩
      exact hpart.recipient_eq x (by rw [hsplit, List.append_cons]; exact List.mem_append_left _ hx)
    | ok _ =>
      rw [cut_append_of_ok hpartEnd] at hend ⊢
      obtain ⟨earlier, r, later, before, begun, e, rfl, hcut, ⟨parts', hparts', rfl⟩, hbegun, hok, he⟩ := ih hend
      refine ⟨recipient :: earlier, r, later, part ++ parts'.flatten, begun, e, rfl, ?_, ⟨part :: parts', .cons hpart hparts', rfl⟩,
        hbegun, ?_, he⟩
      · dsimp only
        rw [hcut, List.append_assoc, List.append_assoc, List.append_assoc]
      · rw [List.append_assoc]
        exact List.forall_mem_append.mpr ⟨(cut_of_ok hpartEnd).2, hok⟩

end Plans

variable (d) in
/-- **What a dispatch does.** Its courses are made up of the events of a plan for its recipients, cut off after the first that
fails, and it ends as they do; whatever the collaborators do, it is such a plan. With an inbox nobody is delivered to before the
entry in it, and after a failure nobody is asked anything for the recipients that come later. -/
theorem dispatch_is_its_plan (recipients : List Recipient) (payload : Payload) :
    (∀ course result, (d.dispatch recipients payload).run.Leads course result ↔
      ∃ plan, d.Plans recipients plan ∧ d.Conducts payload (cut plan).1 course ∧ result = (cut plan).2) ∧
    (∀ s : Surroundings (Effect World) Effect.Reply, ∃ plan, d.Plans recipients plan ∧
      d.Conducts payload (cut plan).1 ((d.dispatch recipients payload).run.under s).1 ∧
      ((d.dispatch recipients payload).run.under s).2 = (cut plan).2) ∧
    ∀ plan, d.Plans recipients plan →
      (d.inbox.isSome → ∀ before e after, (cut plan).1 = before ++ e :: after → e.errand.isDelivery →
        ∃ x ∈ before, x.errand = .record e.errand.recipient ∧ x.failure? = none) ∧
      ((cut plan).2 = .ok () → (cut plan).1 = plan ∧ ∀ e ∈ plan, e.failure? = none) ∧
      ∀ f, (cut plan).2 = .error f → ∃ earlier recipient later before begun e, recipients = earlier ++ recipient :: later ∧
        (cut plan).1 = before ++ begun ++ [e] ∧ d.Plans earlier before ∧ (∀ x ∈ begun ++ [e], x.errand.recipient = recipient) ∧
        (∀ x ∈ before ++ begun, x.failure? = none) ∧ e.failure? = some f := by
  have hfollows : d.Follows payload (d.dispatch recipients payload) (d.Plans recipients) := dispatch_follows recipients
  refine ⟨hfollows.leads_iff, fun s => ?_, fun plan hplan => ⟨fun hinbox before e after heq he => ?_, cut_of_ok, fun f hend => ?_⟩⟩
  · obtain ⟨plan, hplan, hconducts, hend⟩ := (hfollows.leads_iff _ _).mp (Program.leads_under s _)
    exact ⟨plan, hplan, hconducts, hend⟩
  · obtain ⟨rest, hrest⟩ := exists_eq_cut_append plan
    have hsplit : plan = before ++ e :: (after ++ rest) := by
      rw [hrest, heq, List.append_assoc]
      rfl
    obtain ⟨x, hx, hrecord⟩ := hplan.exists_record hinbox hsplit he
    exact ⟨x, hx, hrecord, failure?_of_cut heq x hx⟩
  · exact hplan.exists_recipient hend

/-! ## A bulletin -/

/-- A collaborator that takes note of what it did. -/
def noting (note : String) : Job (List String) Unit := Job.lift (Work.change (note :: ·))

theorem leads_noting (note : String) : (noting note).run.Leads [⟨.change (note :: ·), []⟩] (.ok ()) :=
  Program.leads_ask.mpr ⟨[], [], rfl, .done _⟩

/-- What comes of taking note when nothing has been noted. -/
def noted (errand : Errand) (note : String) (answer : errand.Answer) : Event (List String) :=
  ⟨errand, .ok answer, [⟨.change (note :: ·), []⟩]⟩

/-- A dispatcher whose publisher does not reach `u2`. -/
def bulletin : Dispatcher (List String) where
  inbox := some fun r _ => noting ("inbox of " ++ r.user)
  publisher := some fun r _ => if r.user = "u2" then throw (.timedOut "publish") else noting ("publish to " ++ r.user)
  transport := some fun email => noting ("mail " ++ email.subject)
  addresses := some fun r => do
    noting ("address of " ++ r.user)
    return some "a@x.com"

/-- The first recipient gets the bulletin by the channels that can be used, the second is only entered into the inbox, and the
third is passed over. -/
theorem bulletin_is_its_plan :
    let payload : Payload := ⟨"News", "", .info, "", .low, [], none⟩
    let u1 : Recipient := ⟨"u1", "t1", [.push, .inApp, .email]⟩
    let u2 : Recipient := ⟨"u2", "t1", [.inApp, .email]⟩
    let u3 : Recipient := ⟨"u3", "t1", []⟩
    let done := [noted (.record u1) "inbox of u1" (), noted (.publish u1) "publish to u1" (),
      noted (.lookUp u1) "address of u1" (some "a@x.com"), noted (.send u1 "a@x.com") "mail News" (),
      noted (.record u2) "inbox of u2" ()]
    let failed : Event (List String) := ⟨.publish u2, .error (.timedOut "publish"), []⟩
    ∃ plan, bulletin.Plans [u1, u2, u3] plan ∧ (cut plan).1 = done ++ [failed] ∧
      (bulletin.dispatch [u1, u2, u3] payload).run.Leads (done.flatMap Event.course) (.error (.timedOut "publish")) := by
  intro payload u1 u2 u3 done failed
  have hinApp : .inApp ∈ bulletin.channels := by decide
  have hemail : .email ∈ bulletin.channels := by decide
  have hfirst : bulletin.ToRecipient u1 (done.take 4) :=
    ⟨[noted (.record u1) "inbox of u1" ()], _, .recorded rfl rfl,
      ⟨[[], [_], [_, _]], .cons (.skipped (by decide)) (.cons (.published hinApp rfl) (.cons (.sent hemail rfl rfl) .nil)), rfl⟩, rfl⟩
  have hsecond : bulletin.ToRecipient u2 [noted (.record u2) "inbox of u2" (), failed, ⟨.lookUp u2, .ok none, []⟩] :=
    ⟨[noted (.record u2) "inbox of u2" ()], _, .recorded rfl rfl,
      ⟨[[_], [_]], .cons (.published hinApp rfl) (.cons (.unaddressed hemail rfl) .nil), rfl⟩, rfl⟩
  have hthird : bulletin.ToRecipient u3 [⟨.record u3, .ok (), []⟩] :=
    ⟨[_], [], .recorded rfl rfl, ⟨[], .nil, rfl⟩, rfl⟩
  have hplan : bulletin.Plans [u1, u2, u3] _ := ⟨_, .cons hfirst (.cons hsecond (.cons hthird .nil)), rfl⟩
  have hdone : ∀ e ∈ done, ∃ job ∈ bulletin.perform payload e.errand, job.run.Leads e.course e.outcome := by
    have haddress : (do noting "address of u1"; return some "a@x.com" : Job (List String) (Option String)).run.Leads
        [⟨.change ("address of u1" :: ·), []⟩] (.ok (some "a@x.com")) :=
      Program.leads_run_bind.mpr (.inr ⟨(), _, [], leads_noting _, .done _, rfl⟩)
    refine List.forall_mem_cons.mpr ⟨⟨_, rfl, leads_noting "inbox of u1"⟩, ?_⟩
    refine List.forall_mem_cons.mpr ⟨⟨_, rfl, leads_noting "publish to u1"⟩, ?_⟩
    refine List.forall_mem_cons.mpr ⟨⟨_, rfl, haddress⟩, ?_⟩
    refine List.forall_mem_cons.mpr ⟨⟨_, rfl, leads_noting "mail News"⟩, ?_⟩
    exact List.forall_mem_singleton.mpr ⟨_, rfl, leads_noting "inbox of u2"⟩
  have hfailed : ∃ job ∈ bulletin.perform payload failed.errand, job.run.Leads failed.course failed.outcome :=
    ⟨_, rfl, .done _⟩
  have hconducts : bulletin.Conducts payload (done ++ [failed]) (done.flatMap Event.course) :=
    ⟨List.forall_mem_append.mpr ⟨hdone, List.forall_mem_singleton.mpr hfailed⟩, rfl⟩
  exact ⟨_, hplan, rfl, ((bulletin.dispatch_is_its_plan [u1, u2, u3] payload).1 _ _).mpr ⟨_, hplan, hconducts, rfl⟩⟩

end Dispatcher

end Runbook
