import Runbook.Program

/-!
# Courses of programs

A program leaves open what its requests are answered. Surroundings answer each of them, and may look back at all that
was asked and answered before, so a law about all surroundings is a law about every script of answers.

* `Exchange`, `Program.Leads`: a request with its answer, and the courses that a program can take.
* `Surroundings`, `Program.under`: answers to all requests, and what a program comes to under them.
* **`Program.leads_bind`**: the course of a sequence is the courses of its parts, one after the other.
-/

namespace Runbook

/-- A request and its answer. -/
structure Exchange (Op : Type) (Reply : Op → Type) where
  op : Op
  reply : Reply op

/-- What answers the requests of a program, in view of the exchanges before. -/
abbrev Surroundings (Op : Type) (Reply : Op → Type) := List (Exchange Op Reply) → (op : Op) → Reply op

namespace Program

variable {Op : Type} {Reply : Op → Type} {α β : Type}

/-- The program may take this course, and then ends with this result. -/
inductive Leads : Program Op Reply α → List (Exchange Op Reply) → α → Prop where
  | done (a : α) : Leads (done a) [] a
  | ask {op : Op} {next : Reply op → Program Op Reply α} {t : List (Exchange Op Reply)} {a : α} (r : Reply op) :
    Leads (next r) t a → Leads (ask op next) (⟨op, r⟩ :: t) a

theorem leads_done {a b : α} {t : List (Exchange Op Reply)} :
    Leads (done a : Program Op Reply α) t b ↔ t = [] ∧ b = a := by
  constructor
  · intro h
    cases h
    exact ⟨rfl, rfl⟩
  · rintro ⟨rfl, rfl⟩
    exact .done b

theorem leads_ask {op : Op} {next : Reply op → Program Op Reply α} {t : List (Exchange Op Reply)} {a : α} :
    Leads (ask op next) t a ↔ ∃ r t', t = ⟨op, r⟩ :: t' ∧ Leads (next r) t' a := by
  constructor
  · intro h
    cases h with
    | ask r h => exact ⟨r, _, rfl, h⟩
  · rintro ⟨r, t', rfl, h⟩
    exact .ask r h

/-- **The course of a sequence** is the course of its first part and then that of what follows. -/
theorem leads_bind {p : Program Op Reply α} {f : α → Program Op Reply β} {t : List (Exchange Op Reply)} {b : β} :
    Leads (p.bind f) t b ↔ ∃ t₁ a t₂, Leads p t₁ a ∧ Leads (f a) t₂ b ∧ t = t₁ ++ t₂ := by
  induction p generalizing t with
  | done a =>
    rw [done_bind]
    constructor
    · intro h
      exact ⟨[], a, t, .done a, h, rfl⟩
    · rintro ⟨t₁, a', t₂, h₁, h₂, rfl⟩
      obtain ⟨rfl, rfl⟩ := leads_done.mp h₁
      exact h₂
  | ask op next ih =>
    rw [ask_bind, leads_ask]
    constructor
    · rintro ⟨r, t', rfl, h⟩
      obtain ⟨t₁, a, t₂, h₁, h₂, rfl⟩ := (ih r).mp h
      exact ⟨⟨op, r⟩ :: t₁, a, t₂, .ask r h₁, h₂, rfl⟩
    · rintro ⟨t₁, a, t₂, h₁, h₂, rfl⟩
      obtain ⟨r, t', rfl, h⟩ := leads_ask.mp h₁
      exact ⟨r, t' ++ t₂, rfl, (ih r).mpr ⟨t', a, t₂, h, h₂, rfl⟩⟩

/-- The same for programs that may fail: a failure of the first part is one of the whole. -/
theorem leads_run_bind {ε : Type} {a : ExceptT ε (Program Op Reply) α} {f : α → ExceptT ε (Program Op Reply) β}
    {t : List (Exchange Op Reply)} {r : Except ε β} :
    (a >>= f).run.Leads t r ↔ (∃ e, a.run.Leads t (.error e) ∧ r = .error e) ∨
      ∃ x t₁ t₂, a.run.Leads t₁ (.ok x) ∧ (f x).run.Leads t₂ r ∧ t = t₁ ++ t₂ := by
  rw [ExceptT.run_bind]
  change Leads (bind _ _) t r ↔ _
  rw [leads_bind]
  constructor
  · rintro ⟨t₁, x | x, t₂, h₁, h₂, rfl⟩
    · obtain ⟨rfl, rfl⟩ := leads_done.mp h₂
      rw [List.append_nil]
      exact .inl ⟨x, h₁, rfl⟩
    · exact .inr ⟨x, t₁, t₂, h₁, h₂, rfl⟩
  · rintro (⟨e, h, rfl⟩ | ⟨x, t₁, t₂, h₁, h₂, rfl⟩)
    · exact ⟨t, .error e, [], h, .done _, (List.append_nil t).symm⟩
    · exact ⟨t₁, .ok x, t₂, h₁, h₂, rfl⟩

theorem leads_request {op : Op} {t : List (Exchange Op Reply)} {r : Reply op} :
    Leads (request op : Program Op Reply (Reply op)) t r ↔ t = [⟨op, r⟩] := by
  rw [request, leads_ask]
  constructor
  · rintro ⟨r', t', rfl, h⟩
    obtain ⟨rfl, rfl⟩ := leads_done.mp h
    rfl
  · rintro rfl
    exact ⟨r, [], rfl, .done r⟩

/-- A course has one result. -/
theorem Leads.result_unique {p : Program Op Reply α} {t : List (Exchange Op Reply)} {a b : α} (h : Leads p t a)
    (h' : Leads p t b) : a = b := by
  induction h with
  | done a => exact (leads_done.mp h').2.symm
  | ask r _ ih =>
    obtain ⟨r', t', e, h'⟩ := leads_ask.mp h'
    cases e
    exact ih h'

/-! ## Under given surroundings -/

/-- The course of a program under surroundings that have seen these exchanges before, and its result. -/
def after (s : Surroundings Op Reply) (past : List (Exchange Op Reply)) :
    Program Op Reply α → List (Exchange Op Reply) × α
  | done a => ([], a)
  | ask op next =>
    let x : Exchange Op Reply := ⟨op, s past op⟩
    let (t, a) := after s (past ++ [x]) (next x.reply)
    (x :: t, a)

/-- The course of a program under surroundings, and its result. -/
def under (s : Surroundings Op Reply) (p : Program Op Reply α) : List (Exchange Op Reply) × α := p.after s []

theorem leads_after (s : Surroundings Op Reply) (past : List (Exchange Op Reply)) (p : Program Op Reply α) :
    p.Leads (p.after s past).1 (p.after s past).2 := by
  induction p generalizing past with
  | done a => exact .done a
  | ask op next ih => exact .ask _ (ih _ _)

/-- **A program comes to an end under all surroundings**, by one of its courses. -/
theorem leads_under (s : Surroundings Op Reply) (p : Program Op Reply α) : p.Leads (p.under s).1 (p.under s).2 :=
  leads_after s [] p

theorem exists_reply_of_mem_after {s : Surroundings Op Reply} {past : List (Exchange Op Reply)}
    {p : Program Op Reply α} {x : Exchange Op Reply} (h : x ∈ (p.after s past).1) :
    ∃ before, x.reply = s before x.op := by
  induction p generalizing past with
  | done a => cases h
  | ask op next ih =>
    rcases List.mem_cons.mp h with rfl | h
    · exact ⟨past, rfl⟩
    · exact ih _ h

/-- What is answered in a course comes from the surroundings. -/
theorem exists_reply_of_mem_under {s : Surroundings Op Reply} {p : Program Op Reply α} {x : Exchange Op Reply}
    (h : x ∈ (p.under s).1) : ∃ before, x.reply = s before x.op :=
  exists_reply_of_mem_after h

end Program

end Runbook
