import Runbook.Proofs.Run

/-!
# Named failures

What is recorded about a failure is its message, or its name where it has none. The failures of the engine itself always have
one of the two. A failure that is reported from outside has a name as long as its reporter gives it one.

* `Failure.IsNamed`: a failure that has a name if its message may be missing.
* **`Failure.summary_ne_empty`**: something is recorded about a named failure.
-/

namespace Runbook

theorem append_ne_empty_left {s t : String} (h : s ≠ "") : s ++ t ≠ "" :=
  fun e => h (String.append_eq_empty_iff.mp e).1

theorem append_ne_empty_right {s t : String} (h : t ≠ "") : s ++ t ≠ "" :=
  fun e => h (String.append_eq_empty_iff.mp e).2

theorem JsonError.message_ne_empty (e : JsonError) : e.message ≠ "" := by
  cases e with
  | malformed => exact append_ne_empty_right (by decide)
  | numberTooLong => exact append_ne_empty_right (by decide)

theorem NotJson.message_ne_empty (e : NotJson) : e.message ≠ "" := by
  cases e with
  | value => exact append_ne_empty_right (by decide)
  | key => exact append_ne_empty_left (by decide)

theorem DateTimeError.message_ne_empty (e : DateTimeError) : e.message ≠ "" := by
  cases e with
  | malformed => exact append_ne_empty_left (by decide)
  | year => exact append_ne_empty_right (by decide)
  | offset => exact append_ne_empty_right (by decide)
  | _ => decide

theorem UrlError.message_ne_empty (e : UrlError) : e.message ≠ "" := by
  cases e with
  | notAddress => exact append_ne_empty_right (by decide)
  | lookalike => exact append_ne_empty_right (by decide)
  | _ => decide

theorem WrongShape.message_ne_empty (e : WrongShape) : e.message ≠ "" := by
  cases e with
  | notAPair position length =>
    cases length with
    | none => exact append_ne_empty_right (by decide)
    | some n => exact append_ne_empty_right (by decide)
  | _ => exact append_ne_empty_right (by decide)

theorem Misuse.message_ne_empty (m : Misuse) : m.message ≠ "" := by
  cases m with
  | index => exact append_ne_empty_right (by decide)
  | notComparable cause =>
    cases cause
    decide
  | notRecordable cause =>
    cases cause
    decide
  | notAKey => exact append_ne_empty_right (by decide)
  | notJson cause => exact cause.message_ne_empty
  | json cause => exact cause.message_ne_empty
  | dateTime cause => exact cause.message_ne_empty
  | url cause => exact cause.message_ne_empty
  | notAnInteger number =>
    show (if number.isNaN then _ else _) ≠ ""
    split <;> decide
  | wrongShape cause => exact cause.message_ne_empty

theorem Fault.name_ne_empty (c : Fault) : c.name ≠ "" := by
  cases c <;> exact of_decide_eq_true rfl

namespace Failure

/-- A failure of the engine itself, or one that was reported from outside by a name. -/
def IsNamed : Failure → Prop
  | database name _ => name ≠ ""
  | reported name _ _ => name ≠ ""
  | _ => True

theorem fieldReport_ne_empty (object : String) (errors : List FieldError) : fieldReport object errors ≠ "" := by
  unfold fieldReport
  rw [String.intercalate_cons_append]
  intro h
  have hcount := (String.append_eq_empty_iff.mp (String.append_eq_empty_iff.mp h).1).2
  split at hcount <;> simp at hcount

/-- **Something is recorded about a named failure.** -/
theorem summary_ne_empty {f : Failure} (h : f.IsNamed) : f.summary ≠ "" := by
  unfold summary
  split
  · next hm =>
    have hm : f.message = "" := String.isEmpty_iff.mp hm
    cases f with
    | fault cause => exact cause.name_ne_empty
    | misuse cause => exact absurd hm cause.message_ne_empty
    | invalidFields object errors => exact absurd hm (fieldReport_ne_empty object errors)
    | database => exact h
    | reported => exact h
    | timedOut => exact of_decide_eq_true rfl
    | interrupted => exact of_decide_eq_true rfl
  · next hm =>
    intro e
    exact hm (String.isEmpty_iff.mpr e)

end Failure

end Runbook
