import Runbook.Proofs.Comparable
import Runbook.Proofs.Task

/-!
# Conditions that come to an answer

A condition compares whatever it finds. The comparison gives a truth value, false for values without an order, unless it comes
to a decimal NaN beside a number, or to a decimal beside a NaN: such a comparison fails, and the step with it. Two items that are
one and the same NaN are passed over.

* `Engine.leads_compared`: what a condition step does, from the outcome of its comparison.
* **`Engine.orderings_answer_but_for_nans`**: the orderings answer for all other values, and so does the step.
-/

namespace Runbook.Engine

open Value Operator

/-- A condition step asks nothing. It keeps the outcome of its comparison, or fails as that does. -/
theorem leads_compared (vs : Variables) (step path : String) (operator : Operator) (expected : Value) :
    (compare step path operator expected).Leads vs [] ((compared vs path operator expected).map fun _ => ())
      (afterCompare vs step path operator expected) := by
  unfold afterCompare compared
  refine Run.leads_bind.mpr ?_
  cases hv : Variables.lookup vs (.str path) with
  | error f => exact .inl ⟨f, Run.leads_lookup.mpr ⟨rfl, hv.symm, rfl⟩, rfl⟩
  | ok actual =>
    refine .inr ⟨actual, vs, [], [], Run.leads_lookup.mpr ⟨rfl, hv.symm, rfl⟩, Run.leads_bind.mpr ?_, rfl⟩
    cases hr : (operator.evaluate actual expected).mapError fun e => Failure.misuse (.notComparable e) with
    | error f =>
      refine .inl ⟨f, Run.leads_liftExcept.mpr ⟨rfl, rfl, ?_⟩, ?_⟩ <;> simp only [Except.bind, hr, Except.map]
    | ok r =>
      refine .inr ⟨r, vs, [], [], Run.leads_liftExcept.mpr ⟨rfl, rfl, rfl⟩, Run.leads_setVariable.mpr ⟨rfl, ?_, ?_⟩, rfl⟩ <;>
        simp only [Except.bind, hr, Except.map]

/-- **The orderings answer for all values but those where order fails**: there both of them fail, in both directions, and
otherwise each gives a truth value, which is false for values without an order. Order never fails between values without
decimals. A condition step that finds its value keeps the answer of its comparison, and fails exactly if that fails. -/
theorem orderings_answer_but_for_nans (a b : Value) :
    (OrderFails a b → greaterThan.evaluate a b = .error .notANumber ∧ lessThan.evaluate a b = .error .notANumber) ∧
    (¬ OrderFails a b → ∃ greater less, greaterThan.evaluate a b = .ok greater ∧ lessThan.evaluate a b = .ok less ∧
      (¬ HaveOrder a b → greater = false ∧ less = false)) ∧
    (a.everywhere (!·.isDecimal) → b.everywhere (!·.isDecimal) → ¬ OrderFails a b) ∧
    ∀ (vs : Variables) (step path : String) (operator : Operator), Variables.lookup vs (.str path) = .ok a →
      (operator.Fails a b →
        (compare step path operator b).Leads vs [] (.error (.misuse (.notComparable .notANumber))) vs) ∧
      (¬ operator.Fails a b → ∃ r, operator.evaluate a b = .ok r ∧
        (compare step path operator b).Leads vs [] (.ok ()) (Entries.set vs (step ++ "_result") (.bool r))) := by
  refine ⟨fun h => ⟨?_, ?_⟩, fun h => ?_, not_orderFails not_clash_of_not_isDecimal,
    fun vs step path operator hfound => ⟨fun h => ?_, fun h => ?_⟩⟩
  · exact evaluate_eq_error.mpr h
  · exact evaluate_eq_error.mpr h
  · obtain ⟨greater, hgreater⟩ : ∃ r, greaterThan.evaluate a b = .ok r := evaluate_eq_ok h
    obtain ⟨less, hless⟩ : ∃ r, lessThan.evaluate a b = .ok r := evaluate_eq_ok h
    exact ⟨greater, less, hgreater, hless, fun hno =>
      ⟨eq_false_of_not_haveOrder hno hgreater, eq_false_of_not_haveOrder hno hless⟩⟩
  · have hleads := leads_compared vs step path operator b
    have herror : operator.evaluate a b = .error .notANumber := evaluate_eq_error.mpr h
    simpa [compared, afterCompare, hfound, Except.bind, herror, Except.mapError, Except.map] using hleads
  · obtain ⟨r, hr⟩ := evaluate_eq_ok h
    have hleads := leads_compared vs step path operator b
    refine ⟨r, hr, ?_⟩
    simpa [compared, afterCompare, hfound, Except.bind, hr, Except.mapError, Except.map] using hleads

-- The NaN of JSON is the same item in both lists, so the items behind it are compared.
example : lessThan.evaluate (list [float Json.nan, int 1]) (list [float Json.nan, int 2]) = .ok true := by decide +kernel

/-- A decimal NaN is neither greater nor less than one: the comparison fails. -/
theorem orderings_fail_at_nan : OrderFails (decimal (.nan false false 0 0)) (int 1) ∧
    greaterThan.evaluate (decimal (.nan false false 0 0)) (int 1) = .error .notANumber := by
  have hfails : OrderFails (decimal (.nan false false 0 0)) (int 1) :=
    .numbers ⟨none, some (.finite 1), rfl, rfl, .inl rfl, .inl rfl⟩
  exact ⟨hfails, ((orderings_answer_but_for_nans _ _).1 hfails).1⟩

end Runbook.Engine
