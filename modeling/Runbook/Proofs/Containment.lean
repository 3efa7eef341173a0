import Runbook.Condition

/-!
# What a text form contains

Sequences are searched through the text of their items, joined with commas at every depth. So a sequence contains all that
occurs in it, however deep; it contains other values too, such as the text of two neighbouring items.

* `Text.occursIn_iff`: the search finds exactly the infixes.
* `Value.plainText_of_items`: the text form of a sequence that is not empty.
* `Value.Occurs`: the items of a sequence, and the items of these, at every depth.
* **`Operator.contains_what_occurs`**: what occurs is contained; containment is reflexive and transitive; joined lists have
  joined texts.
-/

namespace Runbook

/-- **The search finds exactly the infixes.** -/
theorem Text.occursIn_iff {part whole : List Char} : Text.occursIn part whole ↔ part <:+: whole := by
  induction whole with
  | nil => simp [Text.occursIn]
  | cons c cs ih => rw [Text.occursIn, Bool.or_eq_true, List.isPrefixOf_iff_prefix, ih, List.infix_cons_iff]

/-- A text is an infix of those that it is joined with. -/
theorem infix_intercalate {separator t : String} {ts : List String} (ht : t ∈ ts) :
    t.toList <:+: (separator.intercalate ts).toList := by
  induction ts with
  | nil => cases ht
  | cons u ts ih =>
    cases ts with
    | nil =>
      obtain rfl := List.mem_singleton.mp ht
      simp only [String.intercalate_singleton, List.infix_rfl]
    | cons v ts =>
      rw [String.intercalate_cons_cons, String.toList_append, String.toList_append]
      rcases List.mem_cons.mp ht with rfl | ht
      · exact ((List.prefix_append _ _).trans (List.prefix_append _ _)).isInfix
      · exact (ih ht).trans (List.suffix_append _ _).isInfix

namespace Value

variable {v w x : Value} {xs ys : List Value}

/-- The items of a sequence. -/
def items : Value → List Value
  | list xs | tuple xs => xs
  | _ => []

theorem plainTexts_eq (xs : List Value) : plainTexts xs = xs.map plainText := by
  induction xs with
  | nil => rfl
  | cons x xs ih => rw [plainTexts, ih, List.map_cons]

theorem plainText_of_items (h : x ∈ v.items) : v.plainText = ",".intercalate (v.items.map plainText) := by
  cases v with
  | list xs | tuple xs => rw [plainText, plainTexts_eq, items]
  | _ => cases h

/-- A value occurs in a sequence: as an item, or in one of its items. -/
inductive Occurs (x : Value) : Value → Prop where
  | item {v : Value} : x ∈ v.items → Occurs x v
  | deeper {v w : Value} : w ∈ v.items → Occurs x w → Occurs x v

/-- The text form of one value is an infix of that of another. -/
def IsPartOf (v w : Value) : Prop := v.plainText.toList <:+: w.plainText.toList

theorem IsPartOf.of_item (h : x ∈ v.items) : x.IsPartOf v := by
  rw [IsPartOf, plainText_of_items h]
  exact infix_intercalate (List.mem_map_of_mem h)

theorem Occurs.isPartOf (h : Occurs x v) : x.IsPartOf v := by
  induction h with
  | item hmem => exact .of_item hmem
  | deeper hmem _ ih => exact ih.trans (IsPartOf.of_item hmem)

end Value

namespace Operator

open Value

theorem contains_iff {v w : Value} : contains.evaluate v w = .ok true ↔ w.IsPartOf v := by
  rw [evaluate, textContains, Except.ok.injEq, Text.occursIn_iff, IsPartOf]

/-- **A sequence contains all that occurs in it.** Values are contained in others as their texts are, so containment is reflexive
and transitive; and the text of two sequences joined is their texts with a comma between, unless one is empty. -/
theorem contains_what_occurs (v w x : Value) (xs ys : List Value) :
    (Occurs x v → contains.evaluate v x = .ok true) ∧
    contains.evaluate v v = .ok true ∧
    (contains.evaluate v w = .ok true → contains.evaluate w x = .ok true → contains.evaluate v x = .ok true) ∧
    (contains.evaluate v x = .ok true ↔ x.plainText.toList <:+: v.plainText.toList) ∧
    (xs ≠ [] → ys ≠ [] →
      (list (xs ++ ys)).plainText = (list xs).plainText ++ "," ++ (list ys).plainText ∧
      (tuple (xs ++ ys)).plainText = (tuple xs).plainText ++ "," ++ (tuple ys).plainText) := by
  refine ⟨fun h => contains_iff.mpr h.isPartOf, contains_iff.mpr (List.infix_refl _), fun hvw hwx => ?_, contains_iff,
    fun hxs hys => ?_⟩
  · exact contains_iff.mpr ((contains_iff.mp hwx).trans (contains_iff.mp hvw))
  · have htexts : ",".intercalate ((xs ++ ys).map plainText) =
        ",".intercalate (xs.map plainText) ++ "," ++ ",".intercalate (ys.map plainText) := by
      rw [List.map_append, String.intercalate_append_of_ne_nil (by simpa using hxs) (by simpa using hys)]
    simp only [plainText, plainTexts_eq, htexts, and_self]

/-- A number deep in a list, beside a text that holds a comma and one that is empty. -/
theorem contains_deep_item : Occurs (.int 3) (list [.str "a,b", .tuple [.str "", .list [.int 3]]]) ∧
    contains.evaluate (list [.str "a,b", .tuple [.str "", .list [.int 3]]]) (.int 3) = .ok true := by
  have hoccurs : Occurs (.int 3) (list [.str "a,b", .tuple [.str "", .list [.int 3]]]) :=
    .deeper (w := .tuple [.str "", .list [.int 3]]) (by simp [items])
      (.deeper (w := .list [.int 3]) (by simp [items]) (.item (by simp [items])))
  exact ⟨hoccurs, (contains_what_occurs _ .null _ [] []).1 hoccurs⟩

-- a text that no single item contains
example : contains.evaluate (list [.str "a", .str "b"]) (.str "a,b") = .ok true := by rfl

end Operator

end Runbook
