import Runbook.Failure

/-!
# Results that may be errors

* `faultOf?`: the error of a result that is one.
* `bind_eq_ok`, `bind_eq_error`, `map_eq_ok`, `mapError_eq_ok`, `mapError_eq_error`: what a result of a bind or of a change comes of.
-/

namespace Runbook

variable {ε ε' α β : Type}

/-- The error of a result that is one. -/
def faultOf? : Except ε α → Option ε
  | .ok _ => none
  | .error e => some e

theorem faultOf?_map (f : α → β) (x : Except ε α) : faultOf? (f <$> x) = faultOf? x := by
  cases x <;> rfl

theorem eq_error_of_faultOf? {x : Except ε α} {e : ε} (h : faultOf? x = some e) : x = .error e := by
  cases x with
  | ok a => cases h
  | error e' => exact congrArg _ (Option.some.inj h)

theorem ok_bind (a : α) (f : α → Except ε β) : (Except.ok a >>= f) = f a := rfl

theorem error_bind (e : ε) (f : α → Except ε β) : (Except.error e >>= f) = .error e := rfl

theorem bind_eq_ok {x : Except ε α} {f : α → Except ε β} {b : β} (h : (x >>= f) = .ok b) : ∃ a, x = .ok a ∧ f a = .ok b := by
  cases x with
  | error e => cases h
  | ok a => exact ⟨a, rfl, h⟩

theorem bind_eq_error {x : Except ε α} {f : α → Except ε β} {e : ε} (h : (x >>= f) = .error e) :
    x = .error e ∨ ∃ a, x = .ok a ∧ f a = .error e := by
  cases x with
  | error e' => exact .inl (congrArg _ (Except.error.inj h))
  | ok a => exact .inr ⟨a, rfl, h⟩

theorem map_eq_ok {x : Except ε α} {g : α → β} {b : β} (h : x.map g = .ok b) : ∃ a, x = .ok a ∧ b = g a := by
  cases x with
  | error e => cases h
  | ok a => exact ⟨a, rfl, (Except.ok.inj h).symm⟩

theorem mapError_eq_error {x : Except ε α} {g : ε → ε'} {f : ε'} (h : x.mapError g = .error f) : ∃ e, f = g e := by
  cases x with
  | error e => exact ⟨e, (Except.error.inj h).symm⟩
  | ok a => cases h

theorem mapError_eq_ok {x : Except ε α} {g : ε → ε'} {a : α} (h : x.mapError g = .ok a) : x = .ok a := by
  cases x with
  | error e => cases h
  | ok b =>
    cases h
    rfl

end Runbook
