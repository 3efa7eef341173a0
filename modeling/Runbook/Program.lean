/-!
# Programs

A program either has a result or asks its surroundings something and goes on with the answer. What the
answers are is not part of the program, so one program stands for its runs in all surroundings.
-/

namespace Runbook

/-- A program that asks operations `Op` and ends with an `α`. -/
inductive Program (Op : Type) (Reply : Op → Type) (α : Type) where
  | done (result : α)
  | ask (op : Op) (next : Reply op → Program Op Reply α)

namespace Program

variable {Op : Type} {Reply : Op → Type} {α β : Type}

/-- Goes on with the result of a program. -/
def bind : Program Op Reply α → (α → Program Op Reply β) → Program Op Reply β
  | done a, f => f a
  | ask op next, f => ask op fun r => bind (next r) f

instance : Monad (Program Op Reply) where
  pure := done
  bind := bind

/-- The program that asks one thing and ends with the answer. -/
def request (op : Op) : Program Op Reply (Reply op) := ask op done

@[simp] theorem done_bind (a : α) (f : α → Program Op Reply β) : (done a).bind f = f a := rfl

@[simp] theorem ask_bind (op : Op) (next : Reply op → Program Op Reply α) (f : α → Program Op Reply β) :
    (ask op next).bind f = ask op fun r => (next r).bind f := rfl

theorem bind_done (p : Program Op Reply α) : p.bind done = p := by
  induction p with
  | done a => rfl
  | ask op next ih => simp only [ask_bind, ih]

theorem bind_assoc {γ : Type} (p : Program Op Reply α) (f : α → Program Op Reply β)
    (g : β → Program Op Reply γ) : (p.bind f).bind g = p.bind fun a => (f a).bind g := by
  induction p with
  | done a => rfl
  | ask op next ih => simp only [ask_bind, ih]

instance : LawfulMonad (Program Op Reply) :=
  LawfulMonad.mk' (Program Op Reply) bind_done (fun _ _ => rfl) bind_assoc

end Program

end Runbook
