import Mathlib.Data.List.Nodup
import Runbook.Proofs.Comparable

/-!
# How strict equality is

The comparison `equals` tells kinds apart at the top, and leaves the rest to the equality of items. Inside a container a truth
value therefore equals the number that it counts as: `[true]` equals `[1]`.

* `Value.Structural`: equality of plain data by structure, from a relation between values without parts.
* **`Value.alike_iff_structural`**: the equality of items is the structural one in which truth values count as numbers.
* `Value.Meet`: the pairs of values that stand at the same place in two others.
* **`Value.structural_sameScalar_iff`**: it is strict as far as no truth value meets a number.
* **`Operator.equals_is_strict_at_the_top`**: what this makes of the comparison.
-/

namespace Runbook

namespace Value

variable {a b x y : Value} {xs ys : List Value} {es fs : List (Value × Value)}

/-! ## Plain data -/

/-- Whether a value is of a kind that plain data consists of; keys are texts then. -/
def isDatum : Value → Bool
  | bytes _ | date _ | dateTime _ | set _ => false
  | dict es => es.all fun e => e.1.kind = .str
  | _ => true

/-- Whether a value is plain data: sound, and of such kinds at every depth. -/
def isPlain (v : Value) : Bool := v.everywhere fun w => (!w.isNaN && w.isApart) && w.isDatum

theorem isPlain_iff : a.isPlain ↔ a.isDatum ∧ a.isSound ∧ ∀ w ∈ a.held, w.isPlain := by
  constructor
  · intro h
    obtain ⟨ha, hheld⟩ := everywhere_iff.mp h
    exact ⟨(Bool.and_eq_true_iff.mp ha).2, everywhere_mono (fun v hv => (Bool.and_eq_true_iff.mp hv).1) h, hheld⟩
  · rintro ⟨hdatum, hsound, hheld⟩
    exact everywhere_iff.mpr ⟨Bool.and_eq_true_iff.mpr ⟨(everywhere_iff.mp hsound).1, hdatum⟩, hheld⟩

theorem isSound_of_isPlain (h : a.isPlain) : a.isSound := (isPlain_iff.mp h).2.1

/-- The keys of plain data are texts, and so equal only to themselves. -/
theorem alike_key_iff (h : (dict es).isPlain) {e : Value × Value} (he : e ∈ es) : Alike e.1 b ↔ b = e.1 := by
  have htext : e.1.kind = .str := of_decide_eq_true (List.all_eq_true.mp (isPlain_iff.mp h).1 e he)
  refine alike_of_isExact ?_
  generalize e.1 = k at htext ⊢
  cases k <;> first | rfl | cases htext

theorem nodup_keys (h : (dict es).isPlain) : (es.map (·.1)).Nodup := by
  refine (apart_keys (isSound_of_isPlain h)).imp_of_mem fun {k k'} hk _ hne heq => hne ?_
  obtain ⟨e, he, rfl⟩ := List.mem_map.mp hk
  exact (alike_key_iff h he).mpr heq.symm

/-! ## Equality by structure -/

/-- The same value without parts, with no crossing of kinds; numbers are the same by value. -/
inductive SameScalar : Value → Value → Prop where
  | null : SameScalar null null
  | bool (b : Bool) : SameScalar (bool b) (bool b)
  | str (s : String) : SameScalar (str s) (str s)
  | numbers {a b : Value} {p : Extended} : a.isNumber → b.isNumber → a.point? = some (some p) → b.point? = some (some p) →
    SameScalar a b

/-- The same, where truth values count as numbers. -/
inductive SamePoint : Value → Value → Prop where
  | null : SamePoint null null
  | str (s : String) : SamePoint (str s) (str s)
  | points {a b : Value} {p : Extended} : a.point? = some (some p) → b.point? = some (some p) → SamePoint a b

/-- Equality by structure: sequences of equal lengths agree item by item, dictionaries with equal keys under each of them. -/
inductive Structural (R : Value → Value → Prop) : Value → Value → Prop where
  | scalars {a b : Value} : R a b → Structural R a b
  | lists {xs ys : List Value} : xs.length = ys.length →
    (∀ i (hx : i < xs.length) (hy : i < ys.length), Structural R xs[i] ys[i]) → Structural R (list xs) (list ys)
  | tuples {xs ys : List Value} : xs.length = ys.length →
    (∀ i (hx : i < xs.length) (hy : i < ys.length), Structural R xs[i] ys[i]) → Structural R (tuple xs) (tuple ys)
  | dicts {es fs : List (Value × Value)} : (∀ k, (∃ v, (k, v) ∈ es) ↔ ∃ w, (k, w) ∈ fs) →
    (∀ k v w, (k, v) ∈ es → (k, w) ∈ fs → Structural R v w) → Structural R (dict es) (dict fs)

theorem Structural.mono {R S : Value → Value → Prop} (hRS : ∀ a b, R a b → S a b) (h : Structural R a b) : Structural S a b := by
  induction h with
  | scalars h => exact .scalars (hRS _ _ h)
  | lists hlen _ ih => exact .lists hlen ih
  | tuples hlen _ ih => exact .tuples hlen ih
  | dicts hkeys _ ih => exact .dicts hkeys ih

theorem SameScalar.samePoint (h : SameScalar a b) : SamePoint a b := by
  cases h with
  | null => exact .null
  | bool b => exact .points rfl rfl
  | str s => exact .str s
  | numbers _ _ ha hb => exact .points ha hb

/-- Values that agree strictly are both numbers, or of one kind. -/
theorem Structural.kind_eq (h : Structural SameScalar a b) : a.isNumber && b.isNumber || a.kind = b.kind := by
  cases h with
  | scalars h =>
    cases h with
    | numbers ha hb => simp [ha, hb]
    | _ => rfl
  | _ => rfl

/-! ## The equality of items -/

theorem forall₂_alike_iff {R : Value → Value → Prop} (h : ∀ x ∈ xs, ∀ y ∈ ys, Alike x y ↔ R x y) :
    List.Forall₂ Alike xs ys ↔ xs.length = ys.length ∧
      ∀ i (hx : i < xs.length) (hy : i < ys.length), R xs[i] ys[i] := by
  rw [List.forall₂_iff_get]
  exact and_congr_right fun _ => forall_congr' fun i => forall₂_congr fun hx hy =>
    h _ (List.getElem_mem hx) _ (List.getElem_mem hy)

/-- Plain dictionaries are equal if they have as many entries and the second has an equal value under each key of the first. -/
theorem alike_dict_iff_entries (hes : (dict es).isPlain) (hfs : (dict fs).isPlain) : Alike (dict es) (dict fs) ↔
    es.length = fs.length ∧ ∀ e ∈ es, ∃ w, (e.1, w) ∈ fs ∧ Alike e.2 w := by
  have hkeys : ∀ e ∈ es, e.1.isSound := fun e he => isSound_of_isPlain ((isPlain_iff.mp hes).2.2 _ (mem_held_dict he).1)
  have hkeys' : ∀ f ∈ fs, f.1.isSound := fun f hf => isSound_of_isPlain ((isPlain_iff.mp hfs).2.2 _ (mem_held_dict hf).1)
  rw [equates_isSound.alike_dict_iff hkeys hkeys' (apart_keys (isSound_of_isPlain hfs))]
  refine and_congr_right fun _ => forall₂_congr fun e he => ⟨?_, ?_⟩
  · rintro ⟨f, hf, hk, hv⟩
    exact ⟨f.2, (alike_key_iff hes he).mp hk ▸ hf, hv⟩
  · rintro ⟨w, hw, hv⟩
    exact ⟨(e.1, w), hw, (alike_key_iff hes he).mpr rfl, hv⟩

/-- They are equal if they have the same keys, and equal values under each. -/
theorem alike_dict_iff_keys (hes : (dict es).isPlain) (hfs : (dict fs).isPlain) : Alike (dict es) (dict fs) ↔
    (∀ k, (∃ v, (k, v) ∈ es) ↔ ∃ w, (k, w) ∈ fs) ∧ ∀ k v w, (k, v) ∈ es → (k, w) ∈ fs → Alike v w := by
  constructor
  · intro h
    have hback : Alike (dict fs) (dict es) := equates_isSound.symm (isSound_of_isPlain hes) (isSound_of_isPlain hfs) h
    obtain ⟨-, hall⟩ := (alike_dict_iff_entries hes hfs).mp h
    obtain ⟨-, hall'⟩ := (alike_dict_iff_entries hfs hes).mp hback
    refine ⟨fun k => ⟨?_, ?_⟩, fun k v w hv hw => ?_⟩
    · rintro ⟨v, hv⟩
      obtain ⟨w, hw, -⟩ := hall _ hv
      exact ⟨w, hw⟩
    · rintro ⟨w, hw⟩
      obtain ⟨v, hv, -⟩ := hall' _ hw
      exact ⟨v, hv⟩
    · -- the key stands only once in the second
      obtain ⟨w', hw', hvw⟩ := hall _ hv
      cases List.inj_on_of_nodup_map (nodup_keys hfs) hw hw' rfl
      exact hvw
  · rintro ⟨hkeys, hvalues⟩
    have hperm : (es.map (·.1)).Perm (fs.map (·.1)) := by
      refine (List.perm_ext_iff_of_nodup (nodup_keys hes) (nodup_keys hfs)).mpr fun k => ?_
      simpa using hkeys k
    refine (alike_dict_iff_entries hes hfs).mpr ⟨by simpa using hperm.length_eq, fun e he => ?_⟩
    obtain ⟨w, hw⟩ := (hkeys e.1).mp ⟨e.2, he⟩
    exact ⟨w, hw, hvalues _ _ _ he hw⟩

/-- **The equality of items of plain data** is the structural one in which truth values count as numbers. -/
theorem alike_iff_structural (ha : a.isPlain) (hb : b.isPlain) : Alike a b ↔ Structural SamePoint a b := by
  induction a using held_induction generalizing b with
  | h a ih =>
    obtain ⟨hdatum, hsound, haheld⟩ := isPlain_iff.mp ha
    obtain ⟨-, -, hbheld⟩ := isPlain_iff.mp hb
    -- for all pairs at once, since a dictionary tells only later which values stand under one key
    have hheld : ∀ v ∈ a.held, ∀ w ∈ b.held, Alike v w ↔ Structural SamePoint v w := fun v hv w hw =>
      ih v hv (haheld v hv) (hbheld w hw)
    cases a with
    | bool _ | int _ | float _ | decimal _ =>
      obtain ⟨p, hp⟩ := exists_point hsound rfl
      rw [alike_of_point hp]
      constructor
      · exact fun hq => .scalars (.points hp hq)
      · intro h
        cases h with
        | scalars h =>
          cases h with
          | points hp' hq => exact hq.trans (hp'.symm.trans hp)
    | null =>
      rw [alike_of_isExact rfl]
      constructor
      · rintro rfl
        exact .scalars .null
      · intro h
        cases h with
        | scalars h =>
          cases h with
          | null => rfl
          | points hp => cases hp
    | str s =>
      rw [alike_of_isExact rfl]
      constructor
      · rintro rfl
        exact .scalars (.str s)
      · intro h
        cases h with
        | scalars h =>
          cases h with
          | str => rfl
          | points hp => cases hp
    | list xs =>
      rw [alike_list]
      constructor
      · rintro ⟨ys, rfl, h⟩
        obtain ⟨hlen, hitems⟩ := (forall₂_alike_iff hheld).mp h
        exact .lists hlen hitems
      · intro h
        cases h with
        | scalars h =>
          cases h with
          | points hp => cases hp
        | lists hlen hitems => exact ⟨_, rfl, (forall₂_alike_iff hheld).mpr ⟨hlen, hitems⟩⟩
    | tuple xs =>
      rw [alike_tuple]
      constructor
      · rintro ⟨ys, rfl, h⟩
        obtain ⟨hlen, hitems⟩ := (forall₂_alike_iff hheld).mp h
        exact .tuples hlen hitems
      · intro h
        cases h with
        | scalars h =>
          cases h with
          | points hp => cases hp
        | tuples hlen hitems => exact ⟨_, rfl, (forall₂_alike_iff hheld).mpr ⟨hlen, hitems⟩⟩
    | dict es =>
      constructor
      · intro h
        obtain ⟨fs, rfl, -⟩ := alike_dict.mp h
        obtain ⟨hkeys, hvalues⟩ := (alike_dict_iff_keys ha hb).mp h
        exact .dicts hkeys fun k v w hv hw =>
          (hheld v (mem_held_dict hv).2 w (mem_held_dict hw).2).mp (hvalues k v w hv hw)
      · intro h
        cases h with
        | scalars h =>
          cases h with
          | points hp => cases hp
        | dicts hkeys hvalues =>
          exact (alike_dict_iff_keys ha hb).mpr ⟨hkeys, fun k v w hv hw =>
            (hheld v (mem_held_dict hv).2 w (mem_held_dict hw).2).mpr (hvalues k v w hv hw)⟩
    | bytes _ | date _ | dateTime _ | set _ => cases hdatum

/-! ## Where it crosses kinds -/

/-- Two values stand at the same place in two others: at the top, at the same index, or under the same key. -/
inductive Meet (x y : Value) : Value → Value → Prop where
  | here : Meet x y x y
  | inLists {xs ys : List Value} {i : Nat} (hx : i < xs.length) (hy : i < ys.length) : Meet x y xs[i] ys[i] →
    Meet x y (list xs) (list ys)
  | inTuples {xs ys : List Value} {i : Nat} (hx : i < xs.length) (hy : i < ys.length) : Meet x y xs[i] ys[i] →
    Meet x y (tuple xs) (tuple ys)
  | inDicts {es fs : List (Value × Value)} {k v w : Value} : (k, v) ∈ es → (k, w) ∈ fs → Meet x y v w →
    Meet x y (dict es) (dict fs)

theorem SameScalar.kind_iff (h : SameScalar a b) : a.kind = .bool ↔ b.kind = .bool := by
  cases h with
  | numbers ha hb => cases a <;> cases ha <;> cases b <;> cases hb <;> simp [kind]
  | _ => simp [kind]

/-- Where values agree strictly, no truth value meets a number. -/
theorem Meet.kind_iff (h : Meet x y a b) (hab : Structural SameScalar a b) : x.kind = .bool ↔ y.kind = .bool := by
  induction h with
  | here =>
    cases hab with
    | scalars h => exact h.kind_iff
    | _ => simp [kind]
  | inLists hx hy _ ih =>
    cases hab with
    | scalars h =>
      cases h with
      | numbers hnum => cases hnum
    | lists _ hitems => exact ih (hitems _ hx hy)
  | inTuples hx hy _ ih =>
    cases hab with
    | scalars h =>
      cases h with
      | numbers hnum => cases hnum
    | tuples _ hitems => exact ih (hitems _ hx hy)
  | inDicts hv hw _ ih =>
    cases hab with
    | scalars h =>
      cases h with
      | numbers hnum => cases hnum
    | dicts _ hvalues => exact ih (hvalues _ _ _ hv hw)

theorem isNumber_of_point {p : Option Extended} (h : a.point? = some p) (hkind : a.kind ≠ .bool) : a.isNumber := by
  cases a with
  | int _ | float _ | decimal _ => rfl
  | bool _ => exact absurd rfl hkind
  | _ => cases h

theorem bool_of_point {c d : Bool} (h : (bool c).point? = (bool d).point?) : c = d := by
  cases c <;> cases d <;> simp [point?] at h ⊢

theorem SamePoint.sameScalar (h : SamePoint a b) (hkind : a.kind = .bool ↔ b.kind = .bool) : SameScalar a b := by
  cases h with
  | null => exact .null
  | str s => exact .str s
  | points ha hb =>
    by_cases hbool : a.kind = .bool
    · match a, b, hbool, hkind.mp hbool with
      | .bool c, .bool d, _, _ =>
        obtain rfl := bool_of_point (ha.trans hb.symm)
        exact .bool c
    · exact .numbers (isNumber_of_point ha hbool) (isNumber_of_point hb (mt hkind.mpr hbool)) ha hb

/-- **Structural equality is strict** as far as no truth value meets a number. -/
theorem structural_sameScalar_iff : Structural SameScalar a b ↔
    Structural SamePoint a b ∧ ∀ x y, Meet x y a b → (x.kind = .bool ↔ y.kind = .bool) := by
  constructor
  · exact fun h => ⟨h.mono fun _ _ => SameScalar.samePoint, fun x y hmeet => hmeet.kind_iff h⟩
  · rintro ⟨h, hmeet⟩
    induction h with
    | scalars h => exact .scalars (h.sameScalar (hmeet _ _ .here))
    | lists hlen _ ih => exact .lists hlen fun i hx hy => ih i hx hy fun x y h => hmeet x y (.inLists hx hy h)
    | tuples hlen _ ih => exact .tuples hlen fun i hx hy => ih i hx hy fun x y h => hmeet x y (.inTuples hx hy h)
    | dicts hkeys _ ih => exact .dicts hkeys fun k v w hv hw => ih k v w hv hw fun x y h => hmeet x y (.inDicts hv hw h)

end Value

namespace Operator

open Value

/-- **Strict equality is strict at the top only.** On plain data it is structural equality in which truth values count as
numbers, between numbers and between values of one kind. So it holds of all values that agree strictly at every depth, and of
those besides in which a truth value meets a number inside a container. -/
theorem equals_is_strict_at_the_top {a b : Value} (ha : a.isPlain) (hb : b.isPlain) :
    ∃ r, equals.evaluate a b = .ok r ∧
      (r ↔ (a.isNumber && b.isNumber || a.kind = b.kind) ∧ Structural SamePoint a b) ∧
      (Structural SameScalar a b ↔ r ∧ ∀ x y, Meet x y a b → (x.kind = .bool ↔ y.kind = .bool)) := by
  obtain ⟨r, hr⟩ := evaluate_eq_ok (not_fails_of_isSound (isSound_of_isPlain ha) (isSound_of_isPlain hb) equals)
  have hiff : r ↔ (a.isNumber && b.isNumber || a.kind = b.kind) ∧ Structural SamePoint a b := by
    have hnan : a.isNaN = false := (isSound_iff.mp (isSound_of_isPlain ha)).1
    rw [← alike_iff_structural ha hb, alike_iff_equal hnan, ← strictEqual_eq_true, show a.strictEqual b = .ok r from hr,
      Except.ok.injEq]
  refine ⟨r, hr, hiff, ?_⟩
  rw [structural_sameScalar_iff, hiff, and_assoc]
  refine ⟨fun h => ⟨?_, h⟩, And.right⟩
  exact (structural_sameScalar_iff.mpr h).kind_eq

/-- `[true]` equals `[1]`, though strictly they differ. -/
theorem equals_of_lists : equals.evaluate (list [.bool true]) (list [.int 1]) = .ok true ∧
    ¬ Structural SameScalar (list [.bool true]) (list [.int 1]) := by
  obtain ⟨r, hr, hiff, hstrict⟩ := equals_is_strict_at_the_top (a := list [.bool true]) (b := list [.int 1]) rfl rfl
  have hpoint : Structural SamePoint (list [.bool true]) (list [.int 1]) := by
    refine .lists rfl fun i hx hy => ?_
    obtain rfl : i = 0 := by simpa using hx
    exact .scalars (.points rfl rfl)
  have hmeet : Meet (.bool true) (.int 1) (list [.bool true]) (list [.int 1]) :=
    .inLists (i := 0) Nat.one_pos Nat.one_pos .here
  rw [hiff.mpr ⟨rfl, hpoint⟩] at hr
  refine ⟨hr, fun h => ?_⟩
  simpa [kind] using (hstrict.mp h).2 _ _ hmeet

end Operator

end Runbook
