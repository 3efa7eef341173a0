import Runbook.Proofs.Course

/-!
# Rules that programs keep to

A rule follows the exchanges of a program with a state of its own. The state says what may be asked next, and what the program
may end with. A program keeps to a rule if all its courses do, and what is left of it after an exchange keeps to the rule from
the state after that exchange. So a rule that is shown of the courses of a program holds wherever the program is run.

* `Rule`, `Rule.Allows`: rules, and the courses that they allow.
* `Program.Leaves`: what is left of a program after a course.
* `Program.Obeys`: a program keeps to a rule.
* **`Program.Obeys.next`**, **`Program.Leaves.obeys`**: what is left of a program keeps to its rule.
-/

namespace Runbook

/-- A rule: what may be asked in a state, the state after an exchange, and what a program may end with. -/
structure Rule (Op : Type) (Reply : Op → Type) (α : Type) where
  State : Type
  allows : State → Op → Prop
  after : State → Exchange Op Reply → State
  ends : State → α → Prop

variable {Op : Type} {Reply : Op → Type} {α : Type}

namespace Rule

variable (R : Rule Op Reply α)

/-- The state after a course. -/
def stateAfter (σ : R.State) (t : List (Exchange Op Reply)) : R.State := t.foldl R.after σ

/-- A course in which nothing is asked that may not be. -/
def Allows : R.State → List (Exchange Op Reply) → Prop
  | _, [] => True
  | σ, x :: t => R.allows σ x.op ∧ Allows (R.after σ x) t

variable {R} {σ : R.State} {x : Exchange Op Reply} {t t' : List (Exchange Op Reply)}

@[simp] theorem stateAfter_nil : R.stateAfter σ [] = σ := rfl

@[simp] theorem stateAfter_cons : R.stateAfter σ (x :: t) = R.stateAfter (R.after σ x) t := rfl

@[simp] theorem allows_nil : R.Allows σ [] := trivial

@[simp] theorem allows_cons : R.Allows σ (x :: t) ↔ R.allows σ x.op ∧ R.Allows (R.after σ x) t := Iff.rfl

theorem allows_append : R.Allows σ (t ++ t') ↔ R.Allows σ t ∧ R.Allows (R.stateAfter σ t) t' := by
  induction t generalizing σ with
  | nil => simp
  | cons x t ih => rw [List.cons_append, allows_cons, allows_cons, stateAfter_cons, ih, and_assoc]

/-- What may always be asked may be asked in every course. -/
theorem allows_of_forall (h : ∀ x ∈ t, ∀ σ, R.allows σ x.op) : R.Allows σ t := by
  induction t generalizing σ with
  | nil => trivial
  | cons x t ih =>
    obtain ⟨hx, ht⟩ := List.forall_mem_cons.mp h
    exact ⟨hx σ, ih ht⟩

end Rule

namespace Program

section Leaves

variable {p : Program Op Reply α} {t : List (Exchange Op Reply)}

/-- After this course that much is left of a program. -/
inductive Leaves : Program Op Reply α → List (Exchange Op Reply) → Program Op Reply α → Prop where
  | here (p : Program Op Reply α) : Leaves p [] p
  | later {op : Op} {next : Reply op → Program Op Reply α} {t : List (Exchange Op Reply)} {rest : Program Op Reply α}
      (r : Reply op) : Leaves (next r) t rest → Leaves (ask op next) (⟨op, r⟩ :: t) rest

/-- One more answer. -/
theorem Leaves.told {op : Op} {next : Reply op → Program Op Reply α} (h : p.Leaves t (ask op next)) (r : Reply op) :
    p.Leaves (t ++ [⟨op, r⟩]) (next r) := by
  generalize hrest : ask op next = rest at h
  induction h with
  | here => exact hrest ▸ .later r (.here _)
  | later r' _ ih => exact .later r' (ih hrest)

/-- A program that has nothing left has come to its end. -/
theorem Leaves.leads {a : α} (h : p.Leaves t (done a)) : p.Leads t a := by
  generalize hrest : done a = rest at h
  induction h with
  | here => exact hrest ▸ .done a
  | later r _ ih => exact .ask r (ih hrest)

end Leaves

variable {R : Rule Op Reply α} {σ : R.State} {op : Op} {rest : Reply op → Program Op Reply α}

/-- All courses of the program are allowed from a state on, and end as they may. -/
def Obeys (R : Rule Op Reply α) (σ : R.State) (p : Program Op Reply α) : Prop :=
  ∀ t a, p.Leads t a → R.Allows σ t ∧ R.ends (R.stateAfter σ t) a

/-- **What is left of a program** after an exchange keeps to the rule. -/
theorem Obeys.next (h : (ask op rest).Obeys R σ) (r : Reply op) : (rest r).Obeys R (R.after σ ⟨op, r⟩) := by
  intro t a ht
  obtain ⟨hallows, hends⟩ := h _ _ (.ask r ht)
  exact ⟨hallows.2, hends⟩

/-- What a program that keeps to a rule asks may be asked. -/
theorem Obeys.allows (h : (ask op rest).Obeys R σ) (s : Surroundings Op Reply) : R.allows σ op := by
  obtain ⟨hallows, -⟩ := h _ _ (.ask (s [] op) (leads_under s _))
  exact hallows.1

theorem Obeys.ends {a : α} (h : (done a : Program Op Reply α).Obeys R σ) : R.ends σ a := (h [] a (.done a)).2

/-- What is left of a program keeps to its rule. -/
theorem Leaves.obeys {p rest : Program Op Reply α} {t : List (Exchange Op Reply)} (h : p.Leaves t rest) (hp : p.Obeys R σ) :
    rest.Obeys R (R.stateAfter σ t) := by
  induction h generalizing σ with
  | here => exact hp
  | later r _ ih => exact ih (hp.next r)

end Program

end Runbook
