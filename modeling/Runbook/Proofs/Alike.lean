import Mathlib.Data.List.Forall2
import Runbook.Value.Compare

/-!
# Equality of values as a relation

Items of containers are equal if they are one and the same or equal by value, so that a truth value equals the number that it
counts as. Among values that hold no NaN, and in which no member of a set and no key of a dictionary stands twice, this is an
equivalence.

* `Value.everywhere`: what is true of a value and of all that it holds, at every depth.
* `Value.Alike`, `Value.alike_list` and its siblings: what a value of each kind is equal to as an item.
* `Value.alike_iff`: only a NaN may be the same item without being equal by value.
* `exists_partner`: a list whose members find different partners in one that is not longer leaves out none of them.
* `Value.isSound`: no NaN, no member twice.
* **`Value.equates_isSound`**: equality of sound values is reflexive, symmetric and transitive.
-/

namespace Runbook

/-- If members of `xs` never share a partner in `ys`, and `ys` is not longer, each member of `ys` is a partner. -/
theorem exists_partner {α β : Type} {R : α → β → Prop} {xs : List α} {ys : List β}
    (hapart : xs.Pairwise fun x x' => ∀ y ∈ ys, R x y → ¬ R x' y) (hlen : ys.length ≤ xs.length)
    (h : ∀ x ∈ xs, ∃ y ∈ ys, R x y) : ∀ y ∈ ys, ∃ x ∈ xs, R x y := by
  induction xs generalizing ys with
  | nil =>
    obtain rfl := List.eq_nil_of_length_eq_zero (Nat.le_zero.mp hlen)
    exact fun y hy => absurd hy List.not_mem_nil
  | cons x xs ih =>
    obtain ⟨hx, hxs⟩ := List.pairwise_cons.mp hapart
    obtain ⟨y, hy, hxy⟩ := h x List.mem_cons_self
    obtain ⟨rest, hperm⟩ : ∃ rest, ys.Perm (y :: rest) := by
      obtain ⟨before, after, rfl⟩ := List.append_of_mem hy
      exact ⟨before ++ after, List.perm_middle⟩
    have hmem : ∀ z ∈ rest, z ∈ ys := fun z hz => hperm.mem_iff.mpr (List.mem_cons_of_mem _ hz)
    have hfound : ∀ z ∈ rest, ∃ x' ∈ xs, R x' z := by
      refine ih (hxs.imp fun hne z hz => hne z (hmem z hz)) ?_ fun x' hx' => ?_
      · have hlen' := hperm.length_eq
        simp only [List.length_cons] at hlen hlen'
        omega
      · -- the partner of `x` is no partner of `x'`, which therefore finds its own in the rest
        obtain ⟨z, hz, hxz⟩ := h x' (List.mem_cons_of_mem _ hx')
        rcases List.mem_cons.mp (hperm.mem_iff.mp hz) with rfl | hz'
        · exact absurd hxz (hx x' hx' z hz hxy)
        · exact ⟨z, hz', hxz⟩
    intro z hz
    rcases List.mem_cons.mp (hperm.mem_iff.mp hz) with rfl | hz
    · exact ⟨x, List.mem_cons_self, hxy⟩
    · obtain ⟨x', hx', hxz⟩ := hfound z hz
      exact ⟨x', List.mem_cons_of_mem _ hx', hxz⟩

/-- What two date-times have in common if they are the same moment: whether they have an offset, and where they lie. -/
def DateTime.moment (t : DateTime) : Bool × Int :=
  match t.instant? with
  | some i => (true, i)
  | none => (false, t.wallClock)

theorem DateTime.sameMoment_iff {s t : DateTime} : Value.sameMoment s t ↔ s.moment = t.moment := by
  unfold Value.sameMoment moment
  cases s.instant? <;> cases t.instant? <;> simp

namespace Value

variable {a b c : Value} {xs ys zs : List Value} {es fs gs : List (Value × Value)} {p : Value → Bool}

/-! ## What a value holds -/

/-- What a value holds directly: items, members, keys and the values under them. -/
def held : Value → List Value
  | list xs | tuple xs | set xs => xs
  | dict es => es.map (·.1) ++ es.map (·.2)
  | _ => []

theorem mem_held_dict {e : Value × Value} (he : e ∈ es) : e.1 ∈ (dict es).held ∧ e.2 ∈ (dict es).held :=
  ⟨List.mem_append_left _ (List.mem_map_of_mem he), List.mem_append_right _ (List.mem_map_of_mem he)⟩

theorem sizeOf_lt_of_mem_held (h : b ∈ a.held) : sizeOf b < sizeOf a := by
  cases a with
  | list xs | tuple xs | set xs =>
    have hlt := List.sizeOf_lt_of_mem (show b ∈ xs from h)
    simp only [list.sizeOf_spec, tuple.sizeOf_spec, set.sizeOf_spec]
    omega
  | dict es =>
    -- a key and the value under it are parts of their entry
    rcases List.mem_append.mp h with h | h <;> obtain ⟨⟨k, v⟩, he, rfl⟩ := List.mem_map.mp h <;>
      have hlt := List.sizeOf_lt_of_mem he <;> simp only [dict.sizeOf_spec, Prod.mk.sizeOf_spec] at hlt ⊢ <;> omega
  | _ => cases h

/-- What holds of a value if it holds of all that the value holds directly is true of every value. -/
theorem held_induction {motive : Value → Prop} (h : ∀ v, (∀ w ∈ v.held, motive w) → motive v) (v : Value) : motive v :=
  h v fun w _ => held_induction h w
termination_by sizeOf v
decreasing_by exact sizeOf_lt_of_mem_held ‹_›

mutual

/-- Whether a value, and all that it holds at every depth, satisfies `p`. -/
def everywhere (p : Value → Bool) : Value → Bool
  | list xs => p (list xs) && everywhereIn p xs
  | tuple xs => p (tuple xs) && everywhereIn p xs
  | set xs => p (set xs) && everywhereIn p xs
  | dict es => p (dict es) && everywhereUnder p es
  | v => p v

/-- Whether this is so of all items of a list. -/
def everywhereIn (p : Value → Bool) : List Value → Bool
  | [] => true
  | x :: xs => everywhere p x && everywhereIn p xs

/-- Whether this is so of all keys of a dictionary and of the values under them. -/
def everywhereUnder (p : Value → Bool) : List (Value × Value) → Bool
  | [] => true
  | (k, v) :: es => everywhere p k && everywhere p v && everywhereUnder p es

end

theorem everywhereIn_iff : everywhereIn p xs ↔ ∀ x ∈ xs, x.everywhere p := by
  induction xs with
  | nil => simp [everywhereIn]
  | cons x xs ih => simp [everywhereIn, ih]

theorem everywhereUnder_iff : everywhereUnder p es ↔ ∀ e ∈ es, e.1.everywhere p ∧ e.2.everywhere p := by
  induction es with
  | nil => simp [everywhereUnder]
  | cons e es ih => simp [everywhereUnder, ih]

theorem everywhere_iff : a.everywhere p ↔ p a ∧ ∀ w ∈ a.held, w.everywhere p := by
  cases a with
  | list xs | tuple xs | set xs => rw [everywhere, Bool.and_eq_true, everywhereIn_iff, held]
  | dict es =>
    rw [everywhere, Bool.and_eq_true, everywhereUnder_iff, held]
    refine and_congr_right fun _ => ⟨fun h w hw => ?_, fun h e he => ?_⟩
    · rcases List.mem_append.mp hw with hw | hw <;> obtain ⟨e, he, rfl⟩ := List.mem_map.mp hw
      · exact (h e he).1
      · exact (h e he).2
    · exact ⟨h _ (mem_held_dict he).1, h _ (mem_held_dict he).2⟩
  | _ => simp [everywhere, held]

theorem everywhere_mono {q : Value → Bool} (hpq : ∀ v, p v → q v) : a.everywhere p → a.everywhere q := by
  induction a using held_induction with
  | h a ih =>
    intro h
    obtain ⟨ha, hheld⟩ := everywhere_iff.mp h
    exact everywhere_iff.mpr ⟨hpq a ha, fun w hw => ih w hw (hheld w hw)⟩

/-! ## What a value is equal to -/

/-- The values are equal as items of containers are. -/
def Alike (a b : Value) : Prop := equalItem a b = .ok true

/-- The values can be compared as items of containers are, and differ. -/
def Unlike (a b : Value) : Prop := equalItem a b = .ok false

instance (a b : Value) : Decidable (Alike a b) :=
  match h : equalItem a b with
  | .ok true => isTrue h
  | .ok false => isFalse fun h' => by rw [Alike, h] at h'; cases h'
  | .error _ => isFalse fun h' => by rw [Alike, h] at h'; cases h'

theorem matches_iff {r : Except NotComparable Bool} : (r matches .ok true) = true ↔ r = .ok true := by
  split <;> simp_all

/-- Whether a value is a number that is none. -/
def isNaN (v : Value) : Bool := decide (v.point? = some none)

theorem isNaN_of_isSameNaN (h : a.isSameNaN b) : a.isNaN ∧ b.isNaN := by
  unfold isSameNaN at h
  split at h <;> first | exact ⟨rfl, rfl⟩ | cases h

/-- Items are alike if they are one NaN or equal by value. -/
theorem alike_iff : Alike a b ↔ a.isSameNaN b ∨ equal a b = .ok true := by
  unfold Alike equalItem orSame
  split <;> simp_all

/-- What is no NaN is compared by value. -/
theorem equalItem_of_not_isNaN (h : a.isNaN = false) : equalItem a b = equal a b :=
  if_neg fun hsame => Bool.false_ne_true (h.symm.trans (isNaN_of_isSameNaN hsame).1)

theorem alike_iff_equal (h : a.isNaN = false) : Alike a b ↔ equal a b = .ok true := by
  rw [Alike, equalItem_of_not_isNaN h]

theorem Alike.of_equal (h : equal a b = .ok true) : Alike a b := alike_iff.mpr (.inr h)

theorem both_eq_true {p : Except NotComparable Bool} {q : Unit → Except NotComparable Bool} :
    both p q = .ok true ↔ p = .ok true ∧ q () = .ok true := by
  unfold both
  split
  · simp
  · next hp =>
    constructor
    · exact fun h => absurd h hp
    · exact fun h => absurd h.1 hp

theorem point?_of_isSignaling (h : a.isSignaling) : a.point? = some none := by
  match a, h with
  | decimal (.nan ..), _ => rfl

/-- How a number or a truth value compares with another value. -/
theorem equal_of_point {x : Option Extended} (h : a.point? = some x) :
    equal a b = match b.point? with
      | some y => equalPoints a b x y
      | none => .ok false := by
  cases a with
  | bool _ | int _ | float _ | decimal _ =>
    cases h
    simp only [equal]
    cases b.point? <;> rfl
  | _ => cases h

/-- Numbers and truth values are equal to those that stand for the same point. -/
theorem alike_of_point {q : Extended} (h : a.point? = some (some q)) : Alike a b ↔ b.point? = some (some q) := by
  rw [Alike, equalItem_of_not_isNaN (by simp [isNaN, h]), equal_of_point h]
  cases hb : b.point? with
  | none => simp
  | some y =>
    by_cases hs : a.isSignaling || b.isSignaling
    · -- the other one is no number then
      simp only [equalPoints, if_pos hs]
      refine iff_of_false (fun h' => by cases h') ?_
      rintro ⟨⟩
      rcases Bool.or_eq_true_iff.mp hs with hs | hs
      · cases h.symm.trans (point?_of_isSignaling hs)
      · cases hb.symm.trans (point?_of_isSignaling hs)
    · simp only [equalPoints, if_neg hs]
      cases y <;> simp [eq_comm]

/-- Numbers and truth values are alike only if they stand for the same point, or are both no number. -/
theorem Alike.point? {x : Option Extended} (h : Alike a b) (hx : a.point? = some x) : b.point? = some x := by
  cases x with
  | some q => exact (alike_of_point hx).mp h
  | none =>
    obtain hsame | hequal := alike_iff.mp h
    · exact of_decide_eq_true (isNaN_of_isSameNaN hsame).2
    · -- what is no number is equal to nothing by value
      rw [equal_of_point hx] at hequal
      cases hb : b.point? with
      | none => simp [hb] at hequal
      | some y =>
        simp only [hb, equalPoints] at hequal
        split at hequal <;> cases hequal

/-- Whether a value is equal to no other value than itself. -/
def isExact : Value → Bool
  | null | str _ | bytes _ | date _ => true
  | _ => false

theorem alike_of_isExact (h : a.isExact) : Alike a b ↔ b = a := by
  cases a with
  | null => cases b <;> simp [alike_iff, isSameNaN, equal]
  | str _ | bytes _ | date _ =>
    rw [eq_comm]
    cases b <;> simp [alike_iff, isSameNaN, equal]
  | _ => cases h

theorem alike_dateTime {t : DateTime} : Alike (dateTime t) b ↔ ∃ u, b = dateTime u ∧ sameMoment t u := by
  cases b <;> simp [alike_iff, isSameNaN, equal]

theorem equalItems_eq_true : equalItems xs ys = .ok true ↔ List.Forall₂ Alike xs ys := by
  induction xs generalizing ys with
  | nil => cases ys <;> simp [equalItems]
  | cons x xs ih =>
    cases ys with
    | nil => simp [equalItems]
    | cons y ys => rw [equalItems, both_eq_true, ih, List.forall₂_cons, Alike, equalItem]

theorem alike_list : Alike (list xs) b ↔ ∃ ys, b = list ys ∧ List.Forall₂ Alike xs ys := by
  cases b with
  | list ys =>
    simp only [alike_iff, isSameNaN, equal, list.injEq, exists_eq_left', Bool.false_eq_true, false_or]
    split
    · exact equalItems_eq_true
    · next hlen => exact iff_of_false (fun h => by cases h) fun h => hlen h.length_eq
  | _ => simp [alike_iff, isSameNaN, equal]

theorem alike_tuple : Alike (tuple xs) b ↔ ∃ ys, b = tuple ys ∧ List.Forall₂ Alike xs ys := by
  cases b <;> simp [alike_iff, isSameNaN, equal, equalItems_eq_true]

theorem allIn_iff : allIn xs ys ↔ ∀ x ∈ xs, ∃ y ∈ ys, Alike x y := by
  induction xs with
  | nil => simp [allIn]
  | cons x xs ih =>
    rw [allIn, Bool.and_eq_true, List.any_eq_true, ih, List.forall_mem_cons]
    exact and_congr_left' (exists_congr fun y => and_congr_right' matches_iff)

theorem alike_set : Alike (set xs) b ↔ ∃ ys, b = set ys ∧ xs.length = ys.length ∧ ∀ x ∈ xs, ∃ y ∈ ys, Alike x y := by
  cases b with
  | set ys =>
    simp only [alike_iff (a := set xs), isSameNaN, equal, set.injEq, exists_eq_left', Bool.false_eq_true, false_or]
    split <;> simp_all [allIn_iff]
  | _ => simp [alike_iff (a := set xs), isSameNaN, equal]

/-- The entry of a dictionary that a key leads to. -/
def found? (k : Value) (fs : List (Value × Value)) : Option (Value × Value) := fs.find? fun f => decide (Alike k f.1)

theorem mem_of_found? {k : Value} {f : Value × Value} (h : found? k fs = some f) : f ∈ fs ∧ Alike k f.1 := by
  unfold found? at h
  exact ⟨List.mem_of_find?_eq_some h, of_decide_eq_true (List.find?_some (p := fun f : Value × Value => decide (Alike k f.1)) h)⟩

theorem equalEntries_cons {e : Value × Value} : equalEntries (e :: es) fs =
    (found? e.1 fs).elim (.ok false) fun f => both (equalItem e.2 f.2) fun _ => equalEntries es fs := by
  obtain ⟨k, v⟩ := e
  have hkey : (fun f : Value × Value => orSame k f.1 (equal k f.1) matches .ok true) = fun f => decide (Alike k f.1) :=
    funext fun f => Bool.eq_iff_iff.mpr (matches_iff.trans (decide_eq_true_iff (p := Alike k f.1)).symm)
  simp only [equalEntries, found?, ← hkey]
  cases List.find? _ fs <;> rfl

theorem equalEntries_eq_true :
    equalEntries es fs = .ok true ↔ ∀ e ∈ es, ∃ f, found? e.1 fs = some f ∧ Alike e.2 f.2 := by
  induction es with
  | nil => simp [equalEntries]
  | cons e es ih =>
    rw [equalEntries_cons, List.forall_mem_cons]
    cases found? e.1 fs with
    | none => simp
    | some f => simp [both_eq_true, ih, Alike]

theorem alike_dict : Alike (dict es) b ↔ ∃ fs, b = dict fs ∧ es.length = fs.length ∧
    ∀ e ∈ es, ∃ f, found? e.1 fs = some f ∧ Alike e.2 f.2 := by
  cases b with
  | dict fs =>
    simp only [alike_iff (a := dict es), isSameNaN, equal, dict.injEq, exists_eq_left', Bool.false_eq_true, false_or]
    split <;> simp_all [equalEntries_eq_true]
  | _ => simp [alike_iff (a := dict es), isSameNaN, equal]

/-! ## Where equality is an equivalence -/

/-- Among the values that satisfy `P`, equality is an equivalence. -/
structure Equates (P : Value → Prop) : Prop where
  refl : ∀ {a}, P a → Alike a a
  symm : ∀ {a b}, P a → P b → Alike a b → Alike b a
  trans : ∀ {a b c}, P a → P b → P c → Alike a b → Alike b c → Alike a c

/-- No two of the values are equal. -/
def AreApart (xs : List Value) : Prop := xs.Pairwise fun x y => ¬ Alike x y

instance (xs : List Value) : Decidable (AreApart xs) := inferInstanceAs (Decidable (xs.Pairwise _))

namespace Equates

variable {P : Value → Prop}

theorem refl_items (h : Equates P) (hx : ∀ x ∈ xs, P x) : List.Forall₂ Alike xs xs :=
  List.forall₂_same.mpr fun x hmem => h.refl (hx x hmem)

theorem symm_items (h : Equates P) (hx : ∀ x ∈ xs, P x) (hy : ∀ y ∈ ys, P y) (hxy : List.Forall₂ Alike xs ys) :
    List.Forall₂ Alike ys xs := by
  induction hxy with
  | nil => exact .nil
  | cons hxy _ ih =>
    obtain ⟨hx, hxs⟩ := List.forall_mem_cons.mp hx
    obtain ⟨hy, hys⟩ := List.forall_mem_cons.mp hy
    exact .cons (h.symm hx hy hxy) (ih hxs hys)

theorem trans_items (h : Equates P) (hx : ∀ x ∈ xs, P x) (hy : ∀ y ∈ ys, P y) (hz : ∀ z ∈ zs, P z)
    (hxy : List.Forall₂ Alike xs ys) (hyz : List.Forall₂ Alike ys zs) : List.Forall₂ Alike xs zs := by
  induction hxy generalizing zs with
  | nil => exact hyz
  | cons hxy _ ih =>
    cases hyz with
    | cons hyz hrest =>
      obtain ⟨hx, hxs⟩ := List.forall_mem_cons.mp hx
      obtain ⟨hy, hys⟩ := List.forall_mem_cons.mp hy
      obtain ⟨hz, hzs⟩ := List.forall_mem_cons.mp hz
      exact .cons (h.trans hx hy hz hxy hyz) (ih hxs hys hzs hrest)

/-- Values that are apart have no common equal. -/
theorem no_common (h : Equates P) {x x' y : Value} (hx : P x) (hx' : P x') (hy : P y) (hne : ¬ Alike x x')
    (hxy : Alike x y) : ¬ Alike x' y :=
  fun hx'y => hne (h.trans hx hy hx' hxy (h.symm hx' hy hx'y))

theorem symm_members (h : Equates P) (hx : ∀ x ∈ xs, P x) (hy : ∀ y ∈ ys, P y) (hapart : AreApart xs)
    (hlen : xs.length = ys.length) (hxy : ∀ x ∈ xs, ∃ y ∈ ys, Alike x y) : ∀ y ∈ ys, ∃ x ∈ xs, Alike y x := by
  have hshared : xs.Pairwise fun x x' => ∀ y ∈ ys, Alike x y → ¬ Alike x' y :=
    hapart.imp_of_mem fun hmem hmem' hne y hymem => h.no_common (hx _ hmem) (hx _ hmem') (hy y hymem) hne
  intro y hymem
  obtain ⟨x, hmem, hxy⟩ := exists_partner hshared (Nat.le_of_eq hlen.symm) hxy y hymem
  exact ⟨x, hmem, h.symm (hx x hmem) (hy y hymem) hxy⟩

/-- A key leads to the entry with an equal key. -/
theorem found?_eq_some (h : Equates P) {k : Value} {f : Value × Value} (hk : P k) (hkeys : ∀ g ∈ fs, P g.1)
    (hapart : AreApart (fs.map (·.1))) (hf : f ∈ fs) (hkf : Alike k f.1) : found? k fs = some f := by
  obtain ⟨before, after, rfl⟩ := List.append_of_mem hf
  refine List.find?_eq_some_iff_append.mpr ⟨decide_eq_true hkf, before, after, rfl, fun g hg => ?_⟩
  rw [AreApart, List.map_append, List.map_cons] at hapart
  have hne : ¬ Alike g.1 f.1 :=
    (List.pairwise_append.mp hapart).2.2 _ (List.mem_map_of_mem hg) _ List.mem_cons_self
  have hgP := hkeys g (List.mem_append_left _ hg)
  have hkg : ¬ Alike k g.1 := fun hkg => hne (h.trans hgP hk (hkeys f hf) (h.symm hk hgP hkg) hkf)
  simpa using hkg

/-- **Dictionaries are equal** if they have as many entries and every entry of the first has an equal one in the second. -/
theorem alike_dict_iff (h : Equates P) (hes : ∀ e ∈ es, P e.1) (hfs : ∀ f ∈ fs, P f.1)
    (hapart : AreApart (fs.map (·.1))) : Alike (dict es) (dict fs) ↔
      es.length = fs.length ∧ ∀ e ∈ es, ∃ f ∈ fs, Alike e.1 f.1 ∧ Alike e.2 f.2 := by
  rw [alike_dict]
  constructor
  · rintro ⟨_, hfs', hlen, hall⟩
    cases hfs'
    refine ⟨hlen, fun e he => ?_⟩
    obtain ⟨f, hf, hv⟩ := hall e he
    obtain ⟨hmem, hk⟩ := mem_of_found? hf
    exact ⟨f, hmem, hk, hv⟩
  · rintro ⟨hlen, hall⟩
    refine ⟨fs, rfl, hlen, fun e he => ?_⟩
    obtain ⟨f, hf, hk, hv⟩ := hall e he
    exact ⟨f, h.found?_eq_some (hes e he) hfs hapart hf hk, hv⟩

theorem symm_dict (h : Equates P) (hes : ∀ e ∈ es, P e.1 ∧ P e.2) (hfs : ∀ f ∈ fs, P f.1 ∧ P f.2)
    (he : AreApart (es.map (·.1))) (hf : AreApart (fs.map (·.1))) (hef : Alike (dict es) (dict fs)) :
    Alike (dict fs) (dict es) := by
  obtain ⟨hlen, hall⟩ := (h.alike_dict_iff (fun e he => (hes e he).1) (fun f hf => (hfs f hf).1) hf).mp hef
  have hshared : es.Pairwise fun e e' => ∀ f ∈ fs, Alike e.1 f.1 ∧ Alike e.2 f.2 → ¬ (Alike e'.1 f.1 ∧ Alike e'.2 f.2) :=
    (List.pairwise_map.mp he).imp_of_mem fun hmem hmem' hne f hfmem hef he'f =>
      h.no_common (hes _ hmem).1 (hes _ hmem').1 (hfs f hfmem).1 hne hef.1 he'f.1
  refine (h.alike_dict_iff (fun f hf => (hfs f hf).1) (fun e he => (hes e he).1) he).mpr ⟨hlen.symm, fun f hfmem => ?_⟩
  obtain ⟨e, hmem, hk, hv⟩ := exists_partner hshared (Nat.le_of_eq hlen.symm) hall f hfmem
  exact ⟨e, hmem, h.symm (hes e hmem).1 (hfs f hfmem).1 hk, h.symm (hes e hmem).2 (hfs f hfmem).2 hv⟩

theorem trans_dict (h : Equates P) (hes : ∀ e ∈ es, P e.1 ∧ P e.2) (hfs : ∀ f ∈ fs, P f.1 ∧ P f.2)
    (hgs : ∀ g ∈ gs, P g.1 ∧ P g.2) (hf : AreApart (fs.map (·.1))) (hg : AreApart (gs.map (·.1)))
    (hef : Alike (dict es) (dict fs)) (hfg : Alike (dict fs) (dict gs)) : Alike (dict es) (dict gs) := by
  have hes₁ : ∀ e ∈ es, P e.1 := fun e he => (hes e he).1
  have hfs₁ : ∀ f ∈ fs, P f.1 := fun f hf => (hfs f hf).1
  have hgs₁ : ∀ g ∈ gs, P g.1 := fun g hg => (hgs g hg).1
  obtain ⟨hlen, hall⟩ := (h.alike_dict_iff hes₁ hfs₁ hf).mp hef
  obtain ⟨hlen', hall'⟩ := (h.alike_dict_iff hfs₁ hgs₁ hg).mp hfg
  refine (h.alike_dict_iff hes₁ hgs₁ hg).mpr ⟨hlen.trans hlen', fun e he => ?_⟩
  obtain ⟨f, hf, hk, hv⟩ := hall e he
  obtain ⟨g, hg, hk', hv'⟩ := hall' f hf
  exact ⟨g, hg, h.trans (hes e he).1 (hfs f hf).1 (hgs g hg).1 hk hk', h.trans (hes e he).2 (hfs f hf).2 (hgs g hg).2 hv hv'⟩

end Equates

/-! ## Sound values -/

/-- Whether no member of a set, or no key of a dictionary, stands in it twice. -/
def isApart : Value → Bool
  | set xs => decide (AreApart xs)
  | dict es => decide (AreApart (es.map (·.1)))
  | _ => true

/-- Whether a value holds no NaN, and no member of a set or key of a dictionary twice. -/
def isSound (v : Value) : Bool := v.everywhere fun w => !w.isNaN && w.isApart

theorem isSound_iff : a.isSound ↔ a.isNaN = false ∧ a.isApart ∧ ∀ w ∈ a.held, w.isSound := by
  rw [isSound, everywhere_iff, Bool.and_eq_true, Bool.not_eq_true', and_assoc]
  rfl

theorem exists_point (ha : a.isSound) {x : Option Extended} (h : a.point? = some x) : ∃ q, a.point? = some (some q) := by
  have hnan : a.point? ≠ some none := of_decide_eq_false (isSound_iff.mp ha).1
  cases x with
  | none => exact absurd h hnan
  | some q => exact ⟨q, h⟩

theorem apart_members (h : (set xs).isSound) : AreApart xs := of_decide_eq_true (isSound_iff.mp h).2.1

theorem apart_keys (h : (dict es).isSound) : AreApart (es.map (·.1)) := of_decide_eq_true (isSound_iff.mp h).2.1

namespace Equates

variable {P : Value → Prop}

theorem of_dict (h : ∀ w ∈ (dict es).held, P w) : ∀ e ∈ es, P e.1 ∧ P e.2 := fun _ he =>
  ⟨h _ (mem_held_dict he).1, h _ (mem_held_dict he).2⟩

/-- If what a sound value holds is equal to itself, the value is. -/
theorem refl_next (h : Equates P) (ha : a.isSound) (hheld : ∀ w ∈ a.held, P w) : Alike a a := by
  cases a with
  | bool _ | int _ | float _ | decimal _ =>
    obtain ⟨q, hq⟩ := exists_point ha rfl
    exact (alike_of_point hq).mpr hq
  | null | str _ | bytes _ | date _ => exact (alike_of_isExact rfl).mpr rfl
  | dateTime t => exact alike_dateTime.mpr ⟨t, rfl, DateTime.sameMoment_iff.mpr rfl⟩
  | list xs => exact alike_list.mpr ⟨xs, rfl, h.refl_items hheld⟩
  | tuple xs => exact alike_tuple.mpr ⟨xs, rfl, h.refl_items hheld⟩
  | set xs => exact alike_set.mpr ⟨xs, rfl, rfl, fun x hx => ⟨x, hx, h.refl (hheld x hx)⟩⟩
  | dict es =>
    have hes := of_dict hheld
    exact (h.alike_dict_iff (fun e he => (hes e he).1) (fun e he => (hes e he).1) (apart_keys ha)).mpr
      ⟨rfl, fun e he => ⟨e, he, h.refl (hes e he).1, h.refl (hes e he).2⟩⟩

/-- If equality of what two sound values hold goes both ways, so does theirs. -/
theorem symm_next (h : Equates P) (ha : a.isSound) (hb : b.isSound) (haheld : ∀ w ∈ a.held, P w)
    (hbheld : ∀ w ∈ b.held, P w) (hab : Alike a b) : Alike b a := by
  cases a with
  | bool _ | int _ | float _ | decimal _ =>
    obtain ⟨q, hq⟩ := exists_point ha rfl
    exact (alike_of_point ((alike_of_point hq).mp hab)).mpr hq
  | null | str _ | bytes _ | date _ =>
    obtain rfl := (alike_of_isExact rfl).mp hab
    exact hab
  | dateTime t =>
    obtain ⟨u, rfl, htu⟩ := alike_dateTime.mp hab
    exact alike_dateTime.mpr ⟨t, rfl, DateTime.sameMoment_iff.mpr (DateTime.sameMoment_iff.mp htu).symm⟩
  | list xs =>
    obtain ⟨ys, rfl, hxy⟩ := alike_list.mp hab
    exact alike_list.mpr ⟨xs, rfl, h.symm_items haheld hbheld hxy⟩
  | tuple xs =>
    obtain ⟨ys, rfl, hxy⟩ := alike_tuple.mp hab
    exact alike_tuple.mpr ⟨xs, rfl, h.symm_items haheld hbheld hxy⟩
  | set xs =>
    obtain ⟨ys, rfl, hlen, hxy⟩ := alike_set.mp hab
    exact alike_set.mpr ⟨xs, rfl, hlen.symm, h.symm_members haheld hbheld (apart_members ha) hlen hxy⟩
  | dict es =>
    obtain ⟨fs, rfl, -⟩ := alike_dict.mp hab
    exact h.symm_dict (of_dict haheld) (of_dict hbheld) (apart_keys ha) (apart_keys hb) hab

/-- If equality passes on among what three sound values hold, it does among them. -/
theorem trans_next (h : Equates P) (ha : a.isSound) (hb : b.isSound) (hc : c.isSound) (haheld : ∀ w ∈ a.held, P w)
    (hbheld : ∀ w ∈ b.held, P w) (hcheld : ∀ w ∈ c.held, P w) (hab : Alike a b) (hbc : Alike b c) : Alike a c := by
  cases a with
  | bool _ | int _ | float _ | decimal _ =>
    obtain ⟨q, hq⟩ := exists_point ha rfl
    exact (alike_of_point hq).mpr ((alike_of_point ((alike_of_point hq).mp hab)).mp hbc)
  | null | str _ | bytes _ | date _ =>
    obtain rfl := (alike_of_isExact rfl).mp hab
    exact hbc
  | dateTime t =>
    obtain ⟨u, rfl, htu⟩ := alike_dateTime.mp hab
    obtain ⟨v, rfl, huv⟩ := alike_dateTime.mp hbc
    exact alike_dateTime.mpr ⟨v, rfl, DateTime.sameMoment_iff.mpr
      ((DateTime.sameMoment_iff.mp htu).trans (DateTime.sameMoment_iff.mp huv))⟩
  | list xs =>
    obtain ⟨ys, rfl, hxy⟩ := alike_list.mp hab
    obtain ⟨zs, rfl, hyz⟩ := alike_list.mp hbc
    exact alike_list.mpr ⟨zs, rfl, h.trans_items haheld hbheld hcheld hxy hyz⟩
  | tuple xs =>
    obtain ⟨ys, rfl, hxy⟩ := alike_tuple.mp hab
    obtain ⟨zs, rfl, hyz⟩ := alike_tuple.mp hbc
    exact alike_tuple.mpr ⟨zs, rfl, h.trans_items haheld hbheld hcheld hxy hyz⟩
  | set xs =>
    obtain ⟨ys, rfl, hlen, hxy⟩ := alike_set.mp hab
    obtain ⟨zs, rfl, hlen', hyz⟩ := alike_set.mp hbc
    refine alike_set.mpr ⟨zs, rfl, hlen.trans hlen', fun x hx => ?_⟩
    obtain ⟨y, hy, hxy⟩ := hxy x hx
    obtain ⟨z, hz, hyz⟩ := hyz y hy
    exact ⟨z, hz, h.trans (haheld x hx) (hbheld y hy) (hcheld z hz) hxy hyz⟩
  | dict es =>
    obtain ⟨fs, rfl, -⟩ := alike_dict.mp hab
    obtain ⟨gs, rfl, -⟩ := alike_dict.mp hbc
    exact h.trans_dict (of_dict haheld) (of_dict hbheld) (of_dict hcheld) (apart_keys hb) (apart_keys hc) hab hbc

end Equates

/-- A law among values that goes over from what sound values hold to these values is one among the sound values below any size. -/
theorem law_below {L : (Value → Prop) → Prop} (hnone : L fun _ => False)
    (hmono : ∀ {P Q : Value → Prop}, (∀ v, Q v → P v) → L P → L Q)
    (hnext : ∀ {P : Value → Prop}, L P → L fun v => v.isSound ∧ ∀ w ∈ v.held, P w) (n : Nat) :
    L fun v => v.isSound ∧ sizeOf v < n := by
  induction n with
  | zero => exact hmono (fun _ h => absurd h.2 (Nat.not_lt_zero _)) hnone
  | succ n ih =>
    refine hmono (fun v hv => ⟨hv.1, fun w hw => ⟨(isSound_iff.mp hv.1).2.2 w hw, ?_⟩⟩) (hnext ih)
    exact Nat.lt_of_lt_of_le (sizeOf_lt_of_mem_held hw) (Nat.le_of_lt_succ hv.2)

/-- **Equality of sound values is an equivalence.** -/
theorem equates_isSound : Equates fun v => v.isSound := by
  have hbelow := law_below (L := Equates) ⟨False.elim, fun h => h.elim, fun h => h.elim⟩
    (fun hQ h => ⟨fun ha => h.refl (hQ _ ha), fun ha hb => h.symm (hQ _ ha) (hQ _ hb),
      fun ha hb hc => h.trans (hQ _ ha) (hQ _ hb) (hQ _ hc)⟩)
    fun h => ⟨fun ha => h.refl_next ha.1 ha.2, fun ha hb => h.symm_next ha.1 hb.1 ha.2 hb.2,
      fun ha hb hc => h.trans_next ha.1 hb.1 hc.1 ha.2 hb.2 hc.2⟩
  -- the sum of their sizes bounds each of the values
  refine ⟨fun {a} ha => ?_, fun {a b} ha hb => ?_, fun {a b c} ha hb hc => ?_⟩
  · exact (hbelow (sizeOf a + 1)).refl ⟨ha, Nat.lt_succ_self _⟩
  · exact (hbelow (sizeOf a + sizeOf b + 1)).symm ⟨ha, by omega⟩ ⟨hb, by omega⟩
  · exact (hbelow (sizeOf a + sizeOf b + sizeOf c + 1)).trans ⟨ha, by omega⟩ ⟨hb, by omega⟩ ⟨hc, by omega⟩

end Value

end Runbook
