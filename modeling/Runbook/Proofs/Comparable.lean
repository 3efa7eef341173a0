import Runbook.Condition
import Runbook.Proofs.Alike

/-!
# Which values can be compared

A comparison fails if it comes to a decimal that must not be compared. Sequences are compared item by item as far as their items
are equal, so the failure may lie deep inside them, and what stands behind the first difference is never looked at. Nor is an item
that is one and the same in both.

* `Value.ComesTo`: the pairs of items that a comparison of two sequences comes to.
* **`Value.equal_eq_error`, `Value.inOrder_eq_error`**: exactly when equality and order fail.
* `Value.not_orderFails`: values without decimals, or without NaNs, can all be compared.
* `Value.HaveOrder`, **`Value.HaveOrder.of_inOrder`**: the pairs that have an order; only such a pair can stand in it.
* **`Operator.evaluate_eq_error`**: exactly when the comparison of a condition fails.
-/

namespace Runbook

namespace Value

variable {a b x y : Value} {xs ys : List Value} {es fs : List (Value × Value)} {e : NotComparable} {d : Direction}

/-! ## What a comparison comes to -/

theorem equalItem_eq_error : equalItem a b = .error e ↔ a.isSameNaN b = false ∧ equal a b = .error e := by
  unfold equalItem orSame
  split <;> simp_all

theorem Unlike.isSameNaN (h : Unlike a b) : a.isSameNaN b = false := by
  unfold Unlike equalItem orSame at h
  split at h <;> simp_all

/-- A comparison of two sequences comes to a pair of items if they are not one and the same, and all items before are equal. -/
inductive ComesTo (x y : Value) : List Value → List Value → Prop where
  | here {xs ys : List Value} : x.isSameNaN y = false → ComesTo x y (x :: xs) (y :: ys)
  | next {u v : Value} {xs ys : List Value} : Alike u v → ComesTo x y xs ys → ComesTo x y (u :: xs) (v :: ys)

theorem ComesTo.mem (h : ComesTo x y xs ys) : x ∈ xs ∧ y ∈ ys := by
  induction h with
  | here => exact ⟨List.mem_cons_self, List.mem_cons_self⟩
  | next _ _ ih => exact ⟨List.mem_cons_of_mem _ ih.1, List.mem_cons_of_mem _ ih.2⟩

/-- What holds of some pair that the comparison of two non-empty lists comes to. -/
theorem exists_comesTo_cons {Q : Value → Value → Prop} {u v : Value} :
    (∃ x y, ComesTo x y (u :: xs) (v :: ys) ∧ Q x y) ↔
      (u.isSameNaN v = false ∧ Q u v) ∨ (Alike u v ∧ ∃ x y, ComesTo x y xs ys ∧ Q x y) := by
  constructor
  · rintro ⟨x, y, h, hQ⟩
    cases h with
    | here hsame => exact .inl ⟨hsame, hQ⟩
    | next huv h => exact .inr ⟨huv, x, y, h, hQ⟩
  · rintro (⟨hsame, hQ⟩ | ⟨huv, x, y, h, hQ⟩)
    · exact ⟨u, v, .here hsame, hQ⟩
    · exact ⟨x, y, .next huv h, hQ⟩

/-- A comparison of two dictionaries comes to the values under a key that is in both, if they are not one and the same, and those
before are equal. -/
inductive ComesUnder (v w : Value) (fs : List (Value × Value)) : List (Value × Value) → Prop where
  | here {k k' : Value} {es : List (Value × Value)} : found? k fs = some (k', w) → v.isSameNaN w = false →
    ComesUnder v w fs ((k, v) :: es)
  | next {e f : Value × Value} {es : List (Value × Value)} : found? e.1 fs = some f → Alike e.2 f.2 →
    ComesUnder v w fs es → ComesUnder v w fs (e :: es)

theorem ComesUnder.mem {v w : Value} (h : ComesUnder v w fs es) : (∃ e ∈ es, e.2 = v) ∧ ∃ f ∈ fs, f.2 = w := by
  induction h with
  | here hf _ => exact ⟨⟨_, List.mem_cons_self, rfl⟩, _, (mem_of_found? hf).1, rfl⟩
  | next _ _ _ ih =>
    obtain ⟨⟨e, he, hv⟩, hw⟩ := ih
    exact ⟨⟨e, List.mem_cons_of_mem _ he, hv⟩, hw⟩

/-- Two values are lists of these items, or tuples of them. -/
inductive AreSequences : Value → Value → List Value → List Value → Prop where
  | lists {xs ys : List Value} : AreSequences (list xs) (list ys) xs ys
  | tuples {xs ys : List Value} : AreSequences (tuple xs) (tuple ys) xs ys

theorem AreSequences.held (h : AreSequences a b xs ys) : a.held = xs ∧ b.held = ys := by
  cases h <;> exact ⟨rfl, rfl⟩

/-! ## When equality fails -/

/-- Two values that equality cannot tell: it comes to a signaling decimal beside a number or a truth value. -/
inductive EqualityFails : Value → Value → Prop where
  | numbers {a b : Value} {p q : Option Extended} : a.point? = some p → b.point? = some q →
    a.isSignaling ∨ b.isSignaling → EqualityFails a b
  | lists {xs ys : List Value} {x y : Value} : xs.length = ys.length → ComesTo x y xs ys → EqualityFails x y →
    EqualityFails (list xs) (list ys)
  | tuples {xs ys : List Value} {x y : Value} : ComesTo x y xs ys → EqualityFails x y →
    EqualityFails (tuple xs) (tuple ys)
  | dicts {es fs : List (Value × Value)} {v w : Value} : es.length = fs.length → ComesUnder v w fs es →
    EqualityFails v w → EqualityFails (dict es) (dict fs)

theorem both_eq_error {p : Except NotComparable Bool} {q : Unit → Except NotComparable Bool} :
    both p q = .error e ↔ p = .error e ∨ (p = .ok true ∧ q () = .error e) := by
  unfold both
  split
  · simp
  · next hp =>
    constructor
    · exact .inl
    · exact fun h => h.resolve_right fun h => hp h.1

theorem equalItems_eq_error :
    equalItems xs ys = .error e ↔ ∃ x y, ComesTo x y xs ys ∧ equal x y = .error e := by
  induction xs generalizing ys with
  | nil =>
    refine iff_of_false (by cases ys <;> simp [equalItems]) ?_
    rintro ⟨x, y, h, -⟩
    cases h
  | cons u xs ih =>
    cases ys with
    | nil =>
      refine iff_of_false (by simp [equalItems]) ?_
      rintro ⟨x, y, h, -⟩
      cases h
    | cons v ys =>
      rw [equalItems, both_eq_error, ih, exists_comesTo_cons (Q := fun x y => equal x y = .error e), ← equalItem_eq_error]
      rfl

theorem equalEntries_eq_error :
    equalEntries es fs = .error e ↔ ∃ v w, ComesUnder v w fs es ∧ equal v w = .error e := by
  induction es with
  | nil =>
    refine iff_of_false (by simp [equalEntries]) ?_
    rintro ⟨v, w, h, -⟩
    cases h
  | cons entry es ih =>
    rw [equalEntries_cons]
    cases hf : found? entry.1 fs with
    | none =>
      refine iff_of_false (by simp) ?_
      rintro ⟨v, w, h, -⟩
      cases h with
      | here hf' _ => exact absurd (hf.symm.trans hf') (by simp)
      | next hf' => exact absurd (hf.symm.trans hf') (by simp)
    | some f =>
      rw [Option.elim_some, both_eq_error, equalItem_eq_error, ih]
      constructor
      · rintro (⟨hsame, he⟩ | ⟨hv, v, w, h, he⟩)
        · exact ⟨entry.2, f.2, .here hf hsame, he⟩
        · exact ⟨v, w, .next hf hv h, he⟩
      · rintro ⟨v, w, h, he⟩
        cases h with
        | here hf' hsame =>
          cases hf.symm.trans hf'
          exact .inl ⟨hsame, he⟩
        | next hf' hv h =>
          cases hf.symm.trans hf'
          exact .inr ⟨hv, v, w, h, he⟩

theorem equalPoints_eq_error {p q : Option Extended} :
    equalPoints a b p q = .error e ↔ a.isSignaling ∨ b.isSignaling := by
  cases e
  unfold equalPoints
  rw [← Bool.or_eq_true]
  split <;> simp_all

theorem EqualityFails.equal (h : EqualityFails a b) : equal a b = .error .notANumber := by
  induction h with
  | numbers hp hq hs =>
    rw [equal_of_point hp, hq]
    exact equalPoints_eq_error.mpr hs
  | lists hlen h _ ih => rw [Value.equal, if_pos hlen, equalItems_eq_error.mpr ⟨_, _, h, ih⟩]
  | tuples h _ ih => rw [Value.equal, equalItems_eq_error.mpr ⟨_, _, h, ih⟩]
  | dicts hlen h _ ih => rw [Value.equal, if_pos hlen, equalEntries_eq_error.mpr ⟨_, _, h, ih⟩]

/-- **Equality fails** exactly if it comes to a signaling decimal beside a number or a truth value. -/
theorem equal_eq_error : equal a b = .error e ↔ EqualityFails a b := by
  cases e
  refine ⟨fun h => ?_, EqualityFails.equal⟩
  induction a using held_induction generalizing b with
  | h a ih =>
    cases a with
    | bool _ | int _ | float _ | decimal _ =>
      rw [equal_of_point rfl] at h
      cases hb : b.point? with
      | none => simp [hb] at h
      | some q => exact .numbers rfl hb (equalPoints_eq_error.mp (by simpa [hb] using h))
    | null | str _ | bytes _ | date _ | dateTime _ => cases b <;> simp [Value.equal] at h
    | set xs =>
      cases b <;> simp [Value.equal] at h
      split at h <;> cases h
    | list xs =>
      cases b <;> simp [Value.equal] at h
      split at h
      · next hlen =>
        obtain ⟨x, y, hcomes, he⟩ := equalItems_eq_error.mp h
        exact .lists hlen hcomes (ih x hcomes.mem.1 he)
      · cases h
    | tuple xs =>
      cases b <;> simp [Value.equal] at h
      obtain ⟨x, y, hcomes, he⟩ := equalItems_eq_error.mp h
      exact .tuples hcomes (ih x hcomes.mem.1 he)
    | dict es =>
      cases b <;> simp [Value.equal] at h
      split at h
      · next hlen =>
        obtain ⟨v, w, hcomes, he⟩ := equalEntries_eq_error.mp h
        obtain ⟨⟨entry, hmem, rfl⟩, -⟩ := hcomes.mem
        exact .dicts hlen hcomes (ih _ (mem_held_dict hmem).2 he)
      · cases h

/-! ## When order fails -/

/-- A decimal beside a number or a truth value, where one of the two is a NaN. -/
def NumbersClash (a b : Value) : Prop :=
  ∃ p q, a.point? = some p ∧ b.point? = some q ∧ (p = none ∨ q = none) ∧ (a.isDecimal ∨ b.isDecimal)

/-- Two values whose order cannot be told: equality fails on the way to the first items that differ, or these clash. -/
inductive OrderFails : Value → Value → Prop where
  | numbers {a b : Value} : NumbersClash a b → OrderFails a b
  | undecided {a b x y : Value} {xs ys : List Value} : AreSequences a b xs ys → ComesTo x y xs ys → EqualityFails x y →
    OrderFails a b
  | differ {a b x y : Value} {xs ys : List Value} : AreSequences a b xs ys → ComesTo x y xs ys → Unlike x y →
    OrderFails x y → OrderFails a b

theorem NumbersClash.symm (h : NumbersClash a b) : NumbersClash b a := by
  obtain ⟨p, q, hp, hq, hnan, hdecimal⟩ := h
  exact ⟨q, p, hq, hp, hnan.symm, hdecimal.symm⟩

theorem inOrder_of_sequences (h : AreSequences a b xs ys) : inOrder d a b = itemsInOrder d xs ys := by
  cases h <;> rw [inOrder]

theorem itemsInOrder_eq_error : itemsInOrder d xs ys = .error e ↔
    ∃ x y, ComesTo x y xs ys ∧ (equal x y = .error e ∨ (Unlike x y ∧ inOrder d x y = .error e)) := by
  induction xs generalizing ys with
  | nil =>
    refine iff_of_false (by cases ys <;> simp [itemsInOrder]) ?_
    rintro ⟨x, y, h, -⟩
    cases h
  | cons u xs ih =>
    cases ys with
    | nil =>
      refine iff_of_false (by simp [itemsInOrder]) ?_
      rintro ⟨x, y, h, -⟩
      cases h
    | cons v ys =>
      rw [itemsInOrder, exists_comesTo_cons (Q := fun x y => equal x y = .error e ∨ (Unlike x y ∧ inOrder d x y = .error e)),
        ← ih, and_or_left, ← equalItem_eq_error, and_iff_right_of_imp fun h => Unlike.isSameNaN h.1, Alike, Unlike]
      cases huv : equalItem u v with
      | error e' => simp
      | ok r => cases r <;> simp

theorem lessPlain_of_point {p : Option Extended} (h : a.point? = some p) :
    lessPlain a b = match b.point? with
      | some q => lessPoints a b p q
      | none => .ok false := by
  cases a with
  | bool _ | int _ | float _ | decimal _ =>
    cases h
    simp only [lessPlain]
    cases b.point? <;> rfl
  | _ => cases h

theorem lessPoints_eq_error {p q : Option Extended} :
    lessPoints a b p q = .error e ↔ (p = none ∨ q = none) ∧ (a.isDecimal ∨ b.isDecimal) := by
  cases e
  unfold lessPoints
  rw [← Bool.or_eq_true]
  cases p <;> cases q <;> cases a.isDecimal || b.isDecimal <;> simp

theorem lessPlain_eq_error : lessPlain a b = .error e ↔ NumbersClash a b := by
  cases ha : a.point? with
  | none =>
    refine iff_of_false ?_ ?_
    · cases a <;> simp [lessPlain, point?] at ha ⊢
    · rintro ⟨p, q, hp, -⟩
      cases ha.symm.trans hp
  | some p =>
    rw [lessPlain_of_point ha]
    cases hb : b.point? with
    | none =>
      refine iff_of_false (by simp) ?_
      rintro ⟨p, q, -, hq, -⟩
      cases hb.symm.trans hq
    | some q => simp [NumbersClash, ha, hb, lessPoints_eq_error]

theorem plainInOrder_eq_error : plainInOrder d a b = .error e ↔ NumbersClash a b := by
  cases d with
  | ascending => exact lessPlain_eq_error
  | descending => exact lessPlain_eq_error.trans ⟨NumbersClash.symm, NumbersClash.symm⟩

/-- Values are compared as sequences or as plain values. -/
theorem sequences_or_plain (a b : Value) :
    (∃ xs ys, AreSequences a b xs ys) ∨ ∀ d, inOrder d a b = plainInOrder d a b := by
  cases a with
  | list xs =>
    cases b with
    | list ys => exact .inl ⟨xs, ys, .lists⟩
    | _ =>
      right
      rintro (_ | _) <;> simp [inOrder, plainInOrder, lessPlain, point?]
  | tuple xs =>
    cases b with
    | tuple ys => exact .inl ⟨xs, ys, .tuples⟩
    | _ =>
      right
      rintro (_ | _) <;> simp [inOrder, plainInOrder, lessPlain, point?]
  | _ =>
    right
    simp [inOrder]

theorem NumbersClash.inOrder (h : NumbersClash a b) : inOrder d a b = .error .notANumber := by
  rcases sequences_or_plain a b with ⟨xs, ys, hseq⟩ | hplain
  · obtain ⟨p, q, hp, -⟩ := h
    cases hseq <;> cases hp
  · rw [hplain, plainInOrder_eq_error.mpr h]

/-- **Order fails** in both directions at once, exactly if it comes to such a pair. -/
theorem inOrder_eq_error : inOrder d a b = .error e ↔ OrderFails a b := by
  cases e
  constructor
  · intro h
    induction a using held_induction generalizing b with
    | h a ih =>
      rcases sequences_or_plain a b with ⟨xs, ys, hseq⟩ | hplain
      · rw [inOrder_of_sequences hseq] at h
        obtain ⟨x, y, hcomes, he | ⟨hunlike, he⟩⟩ := itemsInOrder_eq_error.mp h
        · exact .undecided hseq hcomes (equal_eq_error.mp he)
        · exact .differ hseq hcomes hunlike (ih x (hseq.held.1 ▸ hcomes.mem.1) he)
      · exact .numbers (plainInOrder_eq_error.mp (hplain d ▸ h))
  · intro h
    induction h with
    | numbers h => exact h.inOrder
    | undecided hseq hcomes hf =>
      exact (inOrder_of_sequences hseq).trans (itemsInOrder_eq_error.mpr ⟨_, _, hcomes, .inl hf.equal⟩)
    | differ hseq hcomes hunlike _ ih =>
      exact (inOrder_of_sequences hseq).trans (itemsInOrder_eq_error.mpr ⟨_, _, hcomes, .inr ⟨hunlike, ih⟩⟩)

/-! ## Values that can all be compared -/

theorem isDecimal_of_isSignaling (h : a.isSignaling) : a.isDecimal := by
  match a, h with
  | decimal (.nan ..), _ => rfl

theorem clash_of_isSignaling {p q : Option Extended} (hp : a.point? = some p) (hq : b.point? = some q)
    (hs : a.isSignaling ∨ b.isSignaling) : NumbersClash a b := by
  rcases hs with hs | hs
  · exact ⟨none, q, point?_of_isSignaling hs, hq, .inl rfl, .inl (isDecimal_of_isSignaling hs)⟩
  · exact ⟨p, none, hp, point?_of_isSignaling hs, .inr rfl, .inr (isDecimal_of_isSignaling hs)⟩

section NeverClash

variable {p : Value → Bool}

/-- Equality does not fail between values in which nothing clashes with anything. -/
theorem not_equalityFails (hp : ∀ v w, p v → p w → ¬ NumbersClash v w) (ha : a.everywhere p) (hb : b.everywhere p) :
    ¬ EqualityFails a b := by
  intro h
  induction h with
  | numbers hx hy hs => exact hp _ _ (everywhere_iff.mp ha).1 (everywhere_iff.mp hb).1 (clash_of_isSignaling hx hy hs)
  | lists _ h _ ih => exact ih ((everywhere_iff.mp ha).2 _ h.mem.1) ((everywhere_iff.mp hb).2 _ h.mem.2)
  | tuples h _ ih => exact ih ((everywhere_iff.mp ha).2 _ h.mem.1) ((everywhere_iff.mp hb).2 _ h.mem.2)
  | dicts _ h _ ih =>
    obtain ⟨⟨entry, hmem, rfl⟩, f, hf, rfl⟩ := h.mem
    exact ih ((everywhere_iff.mp ha).2 _ (mem_held_dict hmem).2) ((everywhere_iff.mp hb).2 _ (mem_held_dict hf).2)

/-- Nor does order. -/
theorem not_orderFails (hp : ∀ v w, p v → p w → ¬ NumbersClash v w) (ha : a.everywhere p) (hb : b.everywhere p) :
    ¬ OrderFails a b := by
  intro h
  induction h with
  | numbers h => exact hp _ _ (everywhere_iff.mp ha).1 (everywhere_iff.mp hb).1 h
  | undecided hseq h hf =>
    exact not_equalityFails hp ((everywhere_iff.mp ha).2 _ (hseq.held.1 ▸ h.mem.1))
      ((everywhere_iff.mp hb).2 _ (hseq.held.2 ▸ h.mem.2)) hf
  | differ hseq h _ _ ih =>
    exact ih ((everywhere_iff.mp ha).2 _ (hseq.held.1 ▸ h.mem.1)) ((everywhere_iff.mp hb).2 _ (hseq.held.2 ▸ h.mem.2))

end NeverClash

theorem not_clash_of_not_isDecimal (v w : Value) (hv : !v.isDecimal) (hw : !w.isDecimal) : ¬ NumbersClash v w := by
  rintro ⟨p, q, -, -, -, h | h⟩ <;> simp_all

theorem not_clash_of_not_isNaN (v w : Value) (hv : !v.isNaN && v.isApart) (hw : !w.isNaN && w.isApart) :
    ¬ NumbersClash v w := by
  rintro ⟨p, q, hp, hq, rfl | rfl, -⟩ <;> simp_all [isNaN]

/-- Sound values are equal or differ. -/
theorem alike_or_unlike (ha : a.isSound) (hb : b.isSound) : Alike a b ∨ Unlike a b := by
  unfold Alike Unlike
  cases h : equalItem a b with
  | error e => exact absurd (equal_eq_error.mp (equalItem_eq_error.mp h).2) (not_equalityFails not_clash_of_not_isNaN ha hb)
  | ok r => cases r <;> simp

/-! ## Values that have an order -/

/-- Two lists have equal items up to the end of one of them. -/
inductive RunOut : List Value → List Value → Prop where
  | left (ys : List Value) : RunOut [] ys
  | right (xs : List Value) : RunOut xs []
  | next {u v : Value} {xs ys : List Value} : Alike u v → RunOut xs ys → RunOut (u :: xs) (v :: ys)

/-- Two values of kinds between which there is an order; of two sequences, those are the first items that differ. -/
inductive HaveOrder : Value → Value → Prop where
  | numbers {a b : Value} {p q : Option Extended} : a.point? = some p → b.point? = some q → HaveOrder a b
  | strs (s t : String) : HaveOrder (str s) (str t)
  | bytes (s t : List UInt8) : HaveOrder (bytes s) (bytes t)
  | dates (s t : Date) : HaveOrder (date s) (date t)
  | dateTimes {s t : DateTime} : s.offset.isSome = t.offset.isSome → HaveOrder (dateTime s) (dateTime t)
  | sets (xs ys : List Value) : HaveOrder (set xs) (set ys)
  | runOut {a b : Value} {xs ys : List Value} : AreSequences a b xs ys → RunOut xs ys → HaveOrder a b
  | differ {a b x y : Value} {xs ys : List Value} : AreSequences a b xs ys → ComesTo x y xs ys → Unlike x y →
    HaveOrder x y → HaveOrder a b

theorem HaveOrder.symm_plain (h : lessPlain a b = .ok true) : HaveOrder a b ∧ HaveOrder b a := by
  cases a with
  | bool _ | int _ | float _ | decimal _ =>
    rw [lessPlain_of_point rfl] at h
    cases hb : b.point? with
    | none => simp [hb] at h
    | some q => exact ⟨.numbers rfl hb, .numbers hb rfl⟩
  | str s =>
    cases b <;> simp [lessPlain] at h
    exact ⟨.strs _ _, .strs _ _⟩
  | bytes s =>
    cases b <;> simp [lessPlain] at h
    exact ⟨.bytes _ _, .bytes _ _⟩
  | date s =>
    cases b <;> simp [lessPlain] at h
    exact ⟨.dates _ _, .dates _ _⟩
  | dateTime s =>
    cases b <;> simp [lessPlain] at h
    next t =>
    have hoffset : s.offset.isSome = t.offset.isSome := by
      unfold earlier DateTime.instant? at h
      cases hs : s.offset <;> cases ht : t.offset <;> simp [hs, ht] at h ⊢
    exact ⟨.dateTimes hoffset, .dateTimes hoffset.symm⟩
  | set xs =>
    cases b <;> simp [lessPlain] at h
    exact ⟨.sets _ _, .sets _ _⟩
  | _ => simp [lessPlain, point?] at h

theorem itemsInOrder_eq_true (h : itemsInOrder d xs ys = .ok true) :
    RunOut xs ys ∨ ∃ x y, ComesTo x y xs ys ∧ Unlike x y ∧ inOrder d x y = .ok true := by
  induction xs generalizing ys with
  | nil => exact .inl (.left ys)
  | cons u xs ih =>
    cases ys with
    | nil => exact .inl (.right _)
    | cons v ys =>
      rw [itemsInOrder] at h
      cases huv : equalItem u v with
      | error e => simp [huv] at h
      | ok r =>
        cases r with
        | true =>
          rw [huv] at h
          obtain hrun | ⟨x, y, hcomes, hxy⟩ := ih h
          · exact .inl (.next huv hrun)
          · exact .inr ⟨x, y, .next huv hcomes, hxy⟩
        | false =>
          rw [huv] at h
          exact .inr ⟨u, v, .here (Unlike.isSameNaN huv), huv, h⟩

/-- **Only values that have an order stand in it.** -/
theorem HaveOrder.of_inOrder (h : inOrder d a b = .ok true) : HaveOrder a b := by
  induction a using held_induction generalizing b with
  | h a ih =>
    rcases sequences_or_plain a b with ⟨xs, ys, hseq⟩ | hplain
    · rw [inOrder_of_sequences hseq] at h
      obtain hrun | ⟨x, y, hcomes, hunlike, hxy⟩ := itemsInOrder_eq_true h
      · exact .runOut hseq hrun
      · exact .differ hseq hcomes hunlike (ih x (hseq.held.1 ▸ hcomes.mem.1) hxy)
    · rw [hplain] at h
      cases d with
      | ascending => exact (symm_plain h).1
      | descending => exact (symm_plain h).2

/-- What the orderings say of values without an order, if they say anything. -/
theorem eq_false_of_not_haveOrder {r : Bool} (h : ¬ HaveOrder a b) (hr : inOrder d a b = .ok r) : r = false := by
  cases r with
  | false => rfl
  | true => exact absurd (.of_inOrder hr) h

end Value

/-! ## Conditions -/

namespace Operator

open Value

/-- The comparison of two values fails. `contains` never does; equality at the top is looked at only between values of one kind. -/
def Fails : Operator → Value → Value → Prop
  | equals, a, b | notEquals, a, b => (a.isNumber && b.isNumber || a.kind = b.kind) ∧ EqualityFails a b
  | greaterThan, a, b | lessThan, a, b => OrderFails a b
  | contains, _, _ => False

theorem strictEqual_eq_true {a b : Value} :
    a.strictEqual b = .ok true ↔ (a.isNumber && b.isNumber || a.kind = b.kind) ∧ a.equal b = .ok true := by
  unfold strictEqual
  split
  · next h => simp [h]
  · next h =>
    by_cases hkind : a.kind = b.kind <;> simp [h, hkind]

theorem strictEqual_eq_error {a b : Value} {e : NotComparable} :
    a.strictEqual b = .error e ↔ (a.isNumber && b.isNumber || a.kind = b.kind) ∧ EqualityFails a b := by
  unfold strictEqual
  rw [← equal_eq_error (e := e)]
  split
  · next h => simp [h]
  · next h =>
    by_cases hkind : a.kind = b.kind <;> simp [h, hkind]

/-- **The comparison of a condition fails** exactly if equality, or order, fails between its values. -/
theorem evaluate_eq_error {op : Operator} {a b : Value} {e : NotComparable} :
    op.evaluate a b = .error e ↔ op.Fails a b := by
  cases op with
  | equals => exact strictEqual_eq_error
  | notEquals =>
    rw [evaluate, Fails, ← strictEqual_eq_error (e := e)]
    cases a.strictEqual b <;> simp [Except.map]
  | greaterThan => exact inOrder_eq_error
  | lessThan => exact inOrder_eq_error
  | contains => simp [evaluate, Fails]

theorem evaluate_eq_ok {op : Operator} {a b : Value} (h : ¬ op.Fails a b) : ∃ r, op.evaluate a b = .ok r := by
  cases hr : op.evaluate a b with
  | error e => exact absurd (evaluate_eq_error.mp hr) h
  | ok r => exact ⟨r, rfl⟩

/-- Sound values can be compared in every way. -/
theorem not_fails_of_isSound {a b : Value} (ha : a.isSound) (hb : b.isSound) (op : Operator) : ¬ op.Fails a b := by
  cases op with
  | equals | notEquals => exact fun h => not_equalityFails not_clash_of_not_isNaN ha hb h.2
  | greaterThan | lessThan => exact not_orderFails not_clash_of_not_isNaN ha hb
  | contains => exact id

end Operator

end Runbook
