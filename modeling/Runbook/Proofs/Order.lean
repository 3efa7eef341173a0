import Mathlib.Data.String.Basic
import Mathlib.Order.Basic
import Mathlib.Algebra.Order.Ring.Rat
import Runbook.Proofs.Comparable

/-!
# The order of values

On sound values the orderings are one strict partial order, read from two sides, and it goes with equality. Within a kind of
values without parts they are ranked on a line; sets are ordered by inclusion, and sequences by their first items that differ.

* `Value.Rank`: the lines on which values without parts are ranked.
* `Value.below_iff_rank`, `Value.below_set`, `Value.below_list`: what a value of each kind is less than.
* **`Value.orders_isSound`**: the order goes with equality, and is transitive.
* **`Value.inOrder_descending`**: what is greater is what the other is less than.
* **`Operator.orderings_are_one_strict_order`**: what this says of conditions.
-/

namespace Runbook

namespace Value

variable {a b c : Value} {xs ys zs : List Value}

/-! ## Ranks -/

/-- A place on one of the lines on which values without parts are ranked. -/
inductive Rank where
  | point (x : Extended)
  | text (s : String)
  | bytes (bs : List UInt8)
  | day (n : Nat)
  | moment (known : Bool) (at_ : Int)

/-- The order of each line. -/
def Rank.Lt : Rank → Rank → Prop
  | point x, point y => x.lt y
  | text s, text t => s < t
  | bytes s, bytes t => lessBytes s t
  | day m, day n => m < n
  | moment k i, moment l j => k = l ∧ i < j
  | _, _ => False

theorem lt_irrefl_extended (x : Extended) : ¬ x.lt x := by cases x <;> simp [Extended.lt]

theorem lt_trans_extended {x y z : Extended} (hxy : x.lt y) (hyz : y.lt z) : x.lt z := by
  cases x <;> cases y <;> cases z <;> simp_all [Extended.lt]
  exact hxy.trans hyz

theorem lessBytes_irrefl (s : List UInt8) : ¬ lessBytes s s := by
  induction s with
  | nil => simp [lessBytes]
  | cons x s ih => simpa [lessBytes] using ih

theorem lessBytes_trans {s t u : List UInt8} (hst : lessBytes s t) (htu : lessBytes t u) : lessBytes s u := by
  induction s generalizing t u with
  | nil =>
    cases u with
    | nil => cases t <;> simp [lessBytes] at htu
    | cons z u => rfl
  | cons x s ih =>
    cases t with
    | nil => simp [lessBytes] at hst
    | cons y t =>
      cases u with
      | nil => simp [lessBytes] at htu
      | cons z u =>
        simp only [lessBytes, Bool.or_eq_true, Bool.and_eq_true, decide_eq_true_eq, beq_iff_eq] at hst htu ⊢
        rcases hst with hxy | ⟨rfl, hst⟩
        · rcases htu with hyz | ⟨rfl, -⟩
          · exact .inl (UInt8.lt_trans hxy hyz)
          · exact .inl hxy
        · exact htu.imp_right fun h => ⟨h.1, ih hst h.2⟩

theorem Rank.lt_irrefl (r : Rank) : ¬ r.Lt r := by
  cases r with
  | point x => exact lt_irrefl_extended x
  | text s => exact String.lt_irrefl s
  | bytes s => exact lessBytes_irrefl s
  | day n => exact Nat.lt_irrefl n
  | moment k i => exact fun h => Int.lt_irrefl i h.2

theorem Rank.lt_trans {r s t : Rank} (hrs : r.Lt s) (hst : s.Lt t) : r.Lt t := by
  cases r <;> cases s <;> first | exact hrs.elim | skip
  all_goals cases t <;> first | exact hst.elim | skip
  case point.point.point => exact lt_trans_extended hrs hst
  case text.text.text => exact hrs.trans hst
  case bytes.bytes.bytes => exact lessBytes_trans hrs hst
  case day.day.day => exact Nat.lt_trans hrs hst
  case moment.moment.moment => exact ⟨hrs.1.trans hst.1, Int.lt_trans hrs.2 hst.2⟩

/-- The rank of a value without parts, if its kind has an order and it is no NaN. -/
def rank? : Value → Option Rank
  | bool b => some (.point (.finite (if b then 1 else 0)))
  | int n => some (.point (.finite n))
  | float x => x.toExtended?.map .point
  | decimal d => d.toExtended?.map .point
  | str s => some (.text s)
  | bytes s => some (.bytes s)
  | date d => some (.day d.ordinal)
  | dateTime t => some (.moment t.moment.1 t.moment.2)
  | _ => none

theorem rank?_of_point {p : Option Extended} (h : a.point? = some p) : a.rank? = p.map .point := by
  cases a with
  | bool _ | int _ | float _ | decimal _ =>
    cases h
    rfl
  | _ => cases h

theorem rank?_eq_point {x : Extended} : a.rank? = some (.point x) ↔ a.point? = some (some x) := by
  cases a <;> simp [rank?, point?]

/-! ## What a value is less than -/

/-- The first value is less than the second. -/
def Below (a b : Value) : Prop := less a b = .ok true

/-- The items of a sequence are less than those of another. -/
def ItemsBelow (xs ys : List Value) : Prop := itemsInOrder .ascending xs ys = .ok true

/-- Whether the order of a value comes from what it holds. -/
def isCollection : Value → Bool
  | list _ | tuple _ | set _ => true
  | _ => false

theorem earlier_iff {t u : DateTime} : earlier t u ↔ t.moment.1 = u.moment.1 ∧ t.moment.2 < u.moment.2 := by
  unfold earlier DateTime.moment
  cases t.instant? <;> cases u.instant? <;> simp

theorem less_eq_lessPlain (h : a.isCollection = false) : less a b = lessPlain a b := by
  cases a <;> first | cases h; done | simp only [less, inOrder, plainInOrder]

theorem below_of_point {p : Option Extended} (h : a.point? = some p) :
    Below a b ↔ ∃ x y, p = some x ∧ b.point? = some (some y) ∧ x.lt y := by
  have hplain : a.isCollection = false := by cases a <;> first | rfl | cases h
  rw [Below, less_eq_lessPlain hplain, lessPlain_of_point h]
  cases b.point? with
  | none => simp
  | some q =>
    cases p <;> cases q <;> simp [lessPoints]
    all_goals split <;> simp

/-- **Values without parts are ordered by their ranks.** -/
theorem below_iff_rank (h : a.isCollection = false) :
    Below a b ↔ ∃ r s, a.rank? = some r ∧ b.rank? = some s ∧ r.Lt s := by
  cases a with
  | bool _ | int _ | float _ | decimal _ =>
    rw [below_of_point rfl, rank?_of_point rfl]
    constructor
    · rintro ⟨x, y, hx, hy, hxy⟩
      exact ⟨.point x, .point y, by rw [hx]; rfl, rank?_eq_point.mpr hy, hxy⟩
    · rintro ⟨r, s, hr, hs, hrs⟩
      obtain ⟨x, hx, rfl⟩ := Option.map_eq_some_iff.mp hr
      match s, hrs with
      | .point y, hxy => exact ⟨x, y, hx, rank?_eq_point.mp hs, hxy⟩
  | str _ | bytes _ | date _ | dateTime _ =>
    rw [Below, less_eq_lessPlain rfl]
    cases b with
    | bool _ | int _ | float _ | decimal _ =>
      refine iff_of_false (fun h => by cases h) ?_
      rintro ⟨_, _, ⟨⟩, hs, hlt⟩
      obtain ⟨x, -, rfl⟩ := Option.map_eq_some_iff.mp ((rank?_of_point rfl).symm.trans hs)
      exact hlt
    | null | list _ | tuple _ | set _ | dict _ =>
      refine iff_of_false (fun h => by cases h) ?_
      rintro ⟨_, _, -, ⟨⟩, -⟩
    | str _ | bytes _ | date _ | dateTime _ => simp [lessPlain, rank?, Rank.Lt, earlier_iff]
  | null | dict _ =>
    rw [Below, less_eq_lessPlain rfl]
    simp [lessPlain, point?, rank?]
  | list _ | tuple _ | set _ => cases h

theorem below_set : Below (set xs) b ↔ ∃ ys, b = set ys ∧ xs.length < ys.length ∧ ∀ x ∈ xs, ∃ y ∈ ys, Alike x y := by
  cases b with
  | set ys => simp [Below, less, inOrder, plainInOrder, lessPlain, allIn_iff]
  | _ => simp [Below, less, inOrder, plainInOrder, lessPlain]

theorem below_list : Below (list xs) b ↔ ∃ ys, b = list ys ∧ ItemsBelow xs ys := by
  cases b <;> simp [Below, less, inOrder, ItemsBelow]

theorem below_tuple : Below (tuple xs) b ↔ ∃ ys, b = tuple ys ∧ ItemsBelow xs ys := by
  cases b <;> simp [Below, less, inOrder, ItemsBelow]

theorem not_itemsBelow_nil : ¬ ItemsBelow xs [] := by
  cases xs <;> simp [ItemsBelow, itemsInOrder]

theorem nil_itemsBelow {y : Value} : ItemsBelow [] (y :: ys) := by simp [ItemsBelow, itemsInOrder]

theorem itemsBelow_cons {x y : Value} :
    ItemsBelow (x :: xs) (y :: ys) ↔ (Alike x y ∧ ItemsBelow xs ys) ∨ (Unlike x y ∧ Below x y) := by
  rw [ItemsBelow, itemsInOrder, Alike, Unlike, Below, less, ItemsBelow]
  cases hxy : equalItem x y with
  | error e => simp
  | ok r => cases r <;> simp

/-! ## Order and equality -/

/-- Equal values are ordered in the same way, and have the same rank. -/
theorem Alike.rank? (h : Alike a b) : b.isCollection = a.isCollection ∧ b.rank? = a.rank? := by
  cases a with
  | bool _ | int _ | float _ | decimal _ =>
    have hb := h.point? rfl
    refine ⟨?_, (rank?_of_point hb).trans (rank?_of_point rfl).symm⟩
    cases b <;> first | rfl | cases hb
  | null | str _ | bytes _ | date _ =>
    obtain rfl := (alike_of_isExact rfl).mp h
    exact ⟨rfl, rfl⟩
  | dateTime t =>
    obtain ⟨u, rfl, htu⟩ := alike_dateTime.mp h
    exact ⟨rfl, by rw [Value.rank?, Value.rank?, DateTime.sameMoment_iff.mp htu]⟩
  | list xs =>
    obtain ⟨ys, rfl, -⟩ := alike_list.mp h
    exact ⟨rfl, rfl⟩
  | tuple xs =>
    obtain ⟨ys, rfl, -⟩ := alike_tuple.mp h
    exact ⟨rfl, rfl⟩
  | set xs =>
    obtain ⟨ys, rfl, -⟩ := alike_set.mp h
    exact ⟨rfl, rfl⟩
  | dict es =>
    obtain ⟨fs, rfl, -⟩ := alike_dict.mp h
    exact ⟨rfl, rfl⟩

theorem isCollection_of_rank? {r : Rank} (h : a.rank? = some r) : a.isCollection = false := by
  cases a <;> first | rfl | cases h

theorem ItemsBelow.not_alike (h : ItemsBelow xs ys) : ¬ List.Forall₂ Alike xs ys := by
  intro halike
  induction halike with
  | nil => exact not_itemsBelow_nil h
  | cons hxy _ ih =>
    rcases itemsBelow_cons.mp h with ⟨-, hrest⟩ | ⟨hunlike, -⟩
    · exact ih hrest
    · exact absurd (hxy.symm.trans hunlike) (by simp)

/-- What is less differs. -/
theorem Below.not_alike (h : Below a b) : ¬ Alike a b := by
  intro halike
  cases a with
  | list xs =>
    obtain ⟨ys, rfl, hbelow⟩ := below_list.mp h
    obtain ⟨_, ⟨⟩, hxy⟩ := alike_list.mp halike
    exact hbelow.not_alike hxy
  | tuple xs =>
    obtain ⟨ys, rfl, hbelow⟩ := below_tuple.mp h
    obtain ⟨_, ⟨⟩, hxy⟩ := alike_tuple.mp halike
    exact hbelow.not_alike hxy
  | set xs =>
    obtain ⟨ys, rfl, hlt, -⟩ := below_set.mp h
    obtain ⟨_, ⟨⟩, hlen, -⟩ := alike_set.mp halike
    omega
  | _ =>
    obtain ⟨r, s, hr, hs, hrs⟩ := (below_iff_rank rfl).mp h
    cases hr.symm.trans (halike.rank?.2.symm.trans hs)
    exact r.lt_irrefl hrs

/-- Among the values that satisfy `P`, all of them sound, the order is transitive, and what is equal lies equally in it. -/
structure Orders (P : Value → Prop) : Prop where
  sound : ∀ {a}, P a → a.isSound
  alike_below : ∀ {a b c}, P a → P b → P c → Alike a b → Below b c → Below a c
  below_alike : ∀ {a b c}, P a → P b → P c → Below a b → Alike b c → Below a c
  trans : ∀ {a b c}, P a → P b → P c → Below a b → Below b c → Below a c

namespace Orders

variable {P : Value → Prop}

theorem alike_trans (h : Orders P) (ha : P a) (hb : P b) (hc : P c) (hab : Alike a b) (hbc : Alike b c) : Alike a c :=
  equates_isSound.trans (h.sound ha) (h.sound hb) (h.sound hc) hab hbc

theorem itemsBelow_cons_iff (h : Orders P) {x y : Value} (hx : P x) (hy : P y) :
    ItemsBelow (x :: xs) (y :: ys) ↔ (Alike x y ∧ ItemsBelow xs ys) ∨ Below x y := by
  rw [itemsBelow_cons]
  refine or_congr_right ⟨And.right, fun hbelow => ⟨?_, hbelow⟩⟩
  exact (alike_or_unlike (h.sound hx) (h.sound hy)).resolve_left hbelow.not_alike

section Items

variable (h : Orders P) (hx : ∀ x ∈ xs, P x) (hy : ∀ y ∈ ys, P y) (hz : ∀ z ∈ zs, P z)
include h hx hy hz

theorem alike_below_items (hxy : List.Forall₂ Alike xs ys) (hyz : ItemsBelow ys zs) : ItemsBelow xs zs := by
  induction hxy generalizing zs with
  | nil => exact hyz
  | @cons x y xs ys hxy hrest ih =>
    obtain ⟨hx, hxs⟩ := List.forall_mem_cons.mp hx
    obtain ⟨hy, hys⟩ := List.forall_mem_cons.mp hy
    cases zs with
    | nil => exact absurd hyz not_itemsBelow_nil
    | cons z zs =>
      obtain ⟨hz, hzs⟩ := List.forall_mem_cons.mp hz
      rw [h.itemsBelow_cons_iff hy hz] at hyz
      rw [h.itemsBelow_cons_iff hx hz]
      rcases hyz with ⟨hyz, htail⟩ | hyz
      · exact .inl ⟨h.alike_trans hx hy hz hxy hyz, ih hxs hys hzs htail⟩
      · exact .inr (h.alike_below hx hy hz hxy hyz)

theorem below_alike_items (hxy : ItemsBelow xs ys) (hyz : List.Forall₂ Alike ys zs) : ItemsBelow xs zs := by
  induction hyz generalizing xs with
  | nil => exact hxy
  | @cons y z ys zs hyz hrest ih =>
    obtain ⟨hy, hys⟩ := List.forall_mem_cons.mp hy
    obtain ⟨hz, hzs⟩ := List.forall_mem_cons.mp hz
    cases xs with
    | nil => exact nil_itemsBelow
    | cons x xs =>
      obtain ⟨hx, hxs⟩ := List.forall_mem_cons.mp hx
      rw [h.itemsBelow_cons_iff hx hy] at hxy
      rw [h.itemsBelow_cons_iff hx hz]
      rcases hxy with ⟨hxy, htail⟩ | hxy
      · exact .inl ⟨h.alike_trans hx hy hz hxy hyz, ih hxs hys hzs htail⟩
      · exact .inr (h.below_alike hx hy hz hxy hyz)

theorem trans_items (hxy : ItemsBelow xs ys) (hyz : ItemsBelow ys zs) : ItemsBelow xs zs := by
  induction xs generalizing ys zs with
  | nil =>
    cases zs with
    | nil => exact absurd hyz not_itemsBelow_nil
    | cons z zs => exact nil_itemsBelow
  | cons x xs ih =>
    cases ys with
    | nil => exact absurd hxy not_itemsBelow_nil
    | cons y ys =>
      cases zs with
      | nil => exact absurd hyz not_itemsBelow_nil
      | cons z zs =>
        obtain ⟨hx, hxs⟩ := List.forall_mem_cons.mp hx
        obtain ⟨hy, hys⟩ := List.forall_mem_cons.mp hy
        obtain ⟨hz, hzs⟩ := List.forall_mem_cons.mp hz
        rw [h.itemsBelow_cons_iff hx hy] at hxy
        rw [h.itemsBelow_cons_iff hy hz] at hyz
        rw [h.itemsBelow_cons_iff hx hz]
        -- the earlier of the two first differences decides
        rcases hxy with ⟨hxy, htail⟩ | hxy <;> rcases hyz with ⟨hyz, htail'⟩ | hyz
        · exact .inl ⟨h.alike_trans hx hy hz hxy hyz, ih hxs hys hzs htail htail'⟩
        · exact .inr (h.alike_below hx hy hz hxy hyz)
        · exact .inr (h.below_alike hx hy hz hxy hyz)
        · exact .inr (h.trans hx hy hz hxy hyz)

end Items

theorem trans_members (h : Orders P) (hx : ∀ x ∈ xs, P x) (hy : ∀ y ∈ ys, P y) (hz : ∀ z ∈ zs, P z)
    (hxy : ∀ x ∈ xs, ∃ y ∈ ys, Alike x y) (hyz : ∀ y ∈ ys, ∃ z ∈ zs, Alike y z) : ∀ x ∈ xs, ∃ z ∈ zs, Alike x z := by
  intro x hmem
  obtain ⟨y, hymem, hxy⟩ := hxy x hmem
  obtain ⟨z, hzmem, hyz⟩ := hyz y hymem
  exact ⟨z, hzmem, h.alike_trans (hx x hmem) (hy y hymem) (hz z hzmem) hxy hyz⟩

section Next

variable (h : Orders P) (ha : ∀ w ∈ a.held, P w) (hb : ∀ w ∈ b.held, P w) (hc : ∀ w ∈ c.held, P w)
include h ha hb hc

theorem alike_below_next (hab : Alike a b) (hbc : Below b c) : Below a c := by
  cases a with
  | list xs =>
    obtain ⟨ys, rfl, hxy⟩ := alike_list.mp hab
    obtain ⟨zs, rfl, hyz⟩ := below_list.mp hbc
    exact below_list.mpr ⟨zs, rfl, h.alike_below_items ha hb hc hxy hyz⟩
  | tuple xs =>
    obtain ⟨ys, rfl, hxy⟩ := alike_tuple.mp hab
    obtain ⟨zs, rfl, hyz⟩ := below_tuple.mp hbc
    exact below_tuple.mpr ⟨zs, rfl, h.alike_below_items ha hb hc hxy hyz⟩
  | set xs =>
    obtain ⟨ys, rfl, hlen, hxy⟩ := alike_set.mp hab
    obtain ⟨zs, rfl, hlt, hyz⟩ := below_set.mp hbc
    exact below_set.mpr ⟨zs, rfl, by omega, h.trans_members ha hb hc hxy hyz⟩
  | _ =>
    obtain ⟨r, s, hr, hs, hrs⟩ := (below_iff_rank hab.rank?.1).mp hbc
    exact (below_iff_rank rfl).mpr ⟨r, s, hab.rank?.2.symm.trans hr, hs, hrs⟩

theorem below_alike_next (hab : Below a b) (hbc : Alike b c) : Below a c := by
  cases a with
  | list xs =>
    obtain ⟨ys, rfl, hxy⟩ := below_list.mp hab
    obtain ⟨zs, rfl, hyz⟩ := alike_list.mp hbc
    exact below_list.mpr ⟨zs, rfl, h.below_alike_items ha hb hc hxy hyz⟩
  | tuple xs =>
    obtain ⟨ys, rfl, hxy⟩ := below_tuple.mp hab
    obtain ⟨zs, rfl, hyz⟩ := alike_tuple.mp hbc
    exact below_tuple.mpr ⟨zs, rfl, h.below_alike_items ha hb hc hxy hyz⟩
  | set xs =>
    obtain ⟨ys, rfl, hlt, hxy⟩ := below_set.mp hab
    obtain ⟨zs, rfl, hlen, hyz⟩ := alike_set.mp hbc
    exact below_set.mpr ⟨zs, rfl, by omega, h.trans_members ha hb hc hxy hyz⟩
  | _ =>
    obtain ⟨r, s, hr, hs, hrs⟩ := (below_iff_rank rfl).mp hab
    exact (below_iff_rank rfl).mpr ⟨r, s, hr, hbc.rank?.2.trans hs, hrs⟩

theorem trans_next (hab : Below a b) (hbc : Below b c) : Below a c := by
  cases a with
  | list xs =>
    obtain ⟨ys, rfl, hxy⟩ := below_list.mp hab
    obtain ⟨zs, rfl, hyz⟩ := below_list.mp hbc
    exact below_list.mpr ⟨zs, rfl, h.trans_items ha hb hc hxy hyz⟩
  | tuple xs =>
    obtain ⟨ys, rfl, hxy⟩ := below_tuple.mp hab
    obtain ⟨zs, rfl, hyz⟩ := below_tuple.mp hbc
    exact below_tuple.mpr ⟨zs, rfl, h.trans_items ha hb hc hxy hyz⟩
  | set xs =>
    obtain ⟨ys, rfl, hlt, hxy⟩ := below_set.mp hab
    obtain ⟨zs, rfl, hlt', hyz⟩ := below_set.mp hbc
    exact below_set.mpr ⟨zs, rfl, by omega, h.trans_members ha hb hc hxy hyz⟩
  | _ =>
    obtain ⟨r, s, hr, hs, hrs⟩ := (below_iff_rank rfl).mp hab
    obtain ⟨s', t, hs', ht, hst⟩ := (below_iff_rank (isCollection_of_rank? hs)).mp hbc
    cases hs.symm.trans hs'
    exact (below_iff_rank rfl).mpr ⟨r, t, hr, ht, Rank.lt_trans hrs hst⟩

end Next

end Orders

/-- **The order of sound values goes with their equality and is transitive.** -/
theorem orders_isSound : Orders fun v => v.isSound := by
  have hbelow := law_below (L := Orders) ⟨False.elim, fun h => h.elim, fun h => h.elim, fun h => h.elim⟩
    (fun hQ h => ⟨fun ha => h.sound (hQ _ ha), fun ha hb hc => h.alike_below (hQ _ ha) (hQ _ hb) (hQ _ hc),
      fun ha hb hc => h.below_alike (hQ _ ha) (hQ _ hb) (hQ _ hc), fun ha hb hc => h.trans (hQ _ ha) (hQ _ hb) (hQ _ hc)⟩)
    fun h => ⟨And.left, fun ha hb hc => h.alike_below_next ha.2 hb.2 hc.2, fun ha hb hc => h.below_alike_next ha.2 hb.2 hc.2,
      fun ha hb hc => h.trans_next ha.2 hb.2 hc.2⟩
  refine ⟨id, fun {a b c} ha hb hc => ?_, fun {a b c} ha hb hc => ?_, fun {a b c} ha hb hc => ?_⟩ <;>
    have hsize := hbelow (sizeOf a + sizeOf b + sizeOf c + 1)
  · exact hsize.alike_below ⟨ha, by omega⟩ ⟨hb, by omega⟩ ⟨hc, by omega⟩
  · exact hsize.below_alike ⟨ha, by omega⟩ ⟨hb, by omega⟩ ⟨hc, by omega⟩
  · exact hsize.trans ⟨ha, by omega⟩ ⟨hb, by omega⟩ ⟨hc, by omega⟩

/-! ## The two directions -/

theorem AreSequences.symm (h : AreSequences a b xs ys) : AreSequences b a ys xs := by
  cases h
  · exact .lists
  · exact .tuples

/-- Sound values that are equal, or differ, do so from either side. -/
theorem equalItem_symm (ha : a.isSound) (hb : b.isSound) : equalItem b a = equalItem a b := by
  rcases alike_or_unlike ha hb with hab | hab
  · exact (equates_isSound.symm ha hb hab).trans hab.symm
  · rcases alike_or_unlike hb ha with hba | hba
    · exact absurd ((equates_isSound.symm hb ha hba).symm.trans hab) (by simp)
    · exact hba.trans hab.symm

theorem itemsInOrder_descending (hx : ∀ x ∈ xs, x.isSound) (hy : ∀ y ∈ ys, y.isSound)
    (h : ∀ x ∈ xs, ∀ y ∈ ys, inOrder .descending x y = inOrder .ascending y x) :
    itemsInOrder .descending xs ys = itemsInOrder .ascending ys xs := by
  induction xs generalizing ys with
  | nil => cases ys <;> simp [itemsInOrder]
  | cons x xs ih =>
    cases ys with
    | nil => simp [itemsInOrder]
    | cons y ys =>
      obtain ⟨hx, hxs⟩ := List.forall_mem_cons.mp hx
      obtain ⟨hy, hys⟩ := List.forall_mem_cons.mp hy
      have hrest : itemsInOrder .descending xs ys = itemsInOrder .ascending ys xs :=
        ih hxs hys fun x hx y hy => h x (List.mem_cons_of_mem _ hx) y (List.mem_cons_of_mem _ hy)
      rw [itemsInOrder, itemsInOrder, equalItem_symm hx hy, hrest, h x List.mem_cons_self y List.mem_cons_self]

/-- **What is greater is what the other is less than.** -/
theorem inOrder_descending (ha : a.isSound) (hb : b.isSound) : inOrder .descending a b = inOrder .ascending b a := by
  induction a using held_induction generalizing b with
  | h a ih =>
    by_cases hseq : ∃ xs ys, AreSequences a b xs ys
    · obtain ⟨xs, ys, hseq⟩ := hseq
      obtain ⟨rfl, rfl⟩ := hseq.held
      have hax := (isSound_iff.mp ha).2.2
      have hby := (isSound_iff.mp hb).2.2
      rw [inOrder_of_sequences hseq, inOrder_of_sequences hseq.symm]
      exact itemsInOrder_descending hax hby fun x hx y hy => ih x hx (hax x hx) (hby y hy)
    · -- values that are no sequences are compared the other way round by definition
      have hplain := (sequences_or_plain a b).resolve_left hseq
      have hplain' := (sequences_or_plain b a).resolve_left fun ⟨ys, xs, h⟩ => hseq ⟨xs, ys, h.symm⟩
      rw [hplain, hplain', plainInOrder, plainInOrder]

end Value

namespace Operator

open Value

variable {a b c : Value}

theorem evaluate_greaterThan (ha : a.isSound) (hb : b.isSound) : greaterThan.evaluate a b = lessThan.evaluate b a :=
  inOrder_descending ha hb

theorem greaterThan_iff (ha : a.isSound) (hb : b.isSound) : greaterThan.evaluate a b = .ok true ↔ Below b a := by
  rw [evaluate_greaterThan ha hb]
  rfl

/-- No sound value is less than itself. -/
theorem not_below_self (ha : a.isSound) : ¬ Below a a := fun h => h.not_alike (equates_isSound.refl ha)

theorem lessThan_self (ha : a.isSound) : lessThan.evaluate a a = .ok false := by
  obtain ⟨r, hr⟩ := evaluate_eq_ok (not_fails_of_isSound ha ha lessThan)
  cases r with
  | false => exact hr
  | true => exact absurd hr (not_below_self ha)

/-- **The orderings are one strict order**, transitive and read from two sides, on all values that hold no NaN; of two values at
most one of equality and the orderings holds, and neither ordering holds of values without an order. Values without parts are in
it as their ranks are. -/
theorem orderings_are_one_strict_order (ha : a.isSound) (hb : b.isSound) (hc : c.isSound) :
    greaterThan.evaluate a b = lessThan.evaluate b a ∧
    (greaterThan.evaluate a a = .ok false ∧ lessThan.evaluate a a = .ok false) ∧
    (greaterThan.evaluate a b = .ok true → greaterThan.evaluate b c = .ok true → greaterThan.evaluate a c = .ok true) ∧
    ∃ equal greater less, equals.evaluate a b = .ok equal ∧ greaterThan.evaluate a b = .ok greater ∧
      lessThan.evaluate a b = .ok less ∧ ¬ (equal ∧ greater) ∧ ¬ (equal ∧ less) ∧ ¬ (greater ∧ less) ∧
      (¬ HaveOrder a b → greater = false ∧ less = false) ∧
      (a.isCollection = false → (less ↔ ∃ r s, a.rank? = some r ∧ b.rank? = some s ∧ r.Lt s)) := by
  refine ⟨evaluate_greaterThan ha hb, ⟨?_, lessThan_self ha⟩, fun hab hbc => ?_, ?_⟩
  · rw [evaluate_greaterThan ha ha, lessThan_self ha]
  · exact (greaterThan_iff ha hc).mpr
      (orders_isSound.trans hc hb ha ((greaterThan_iff hb hc).mp hbc) ((greaterThan_iff ha hb).mp hab))
  · obtain ⟨equal, hequal⟩ := evaluate_eq_ok (not_fails_of_isSound ha hb equals)
    obtain ⟨greater, hgreater⟩ := evaluate_eq_ok (not_fails_of_isSound ha hb greaterThan)
    obtain ⟨less, hless⟩ := evaluate_eq_ok (not_fails_of_isSound ha hb lessThan)
    refine ⟨equal, greater, less, hequal, hgreater, hless, ?_, ?_, ?_, fun hno => ⟨?_, ?_⟩, fun hplain => ?_⟩
    · rintro ⟨rfl, rfl⟩
      exact ((greaterThan_iff ha hb).mp hgreater).not_alike
        (equates_isSound.symm ha hb (.of_equal (strictEqual_eq_true.mp hequal).2))
    · rintro ⟨rfl, rfl⟩
      exact Below.not_alike hless (.of_equal (strictEqual_eq_true.mp hequal).2)
    · rintro ⟨rfl, rfl⟩
      exact not_below_self ha (orders_isSound.trans ha hb ha hless ((greaterThan_iff ha hb).mp hgreater))
    · exact eq_false_of_not_haveOrder hno hgreater
    · exact eq_false_of_not_haveOrder hno hless
    · rw [← below_iff_rank hplain, Below, show Value.less a b = .ok less from hless, Except.ok.injEq]

/-- Three lists, the first items of which that differ are numbers of several kinds, in descending order. -/
theorem greaterThan_of_lists :
    ((list [.str "a", .int 3]).isSound ∧ (list [.str "a", .decimal (.finite false 25 (-1)), .null]).isSound ∧
      (list [.str "a", .bool true]).isSound) ∧
    greaterThan.evaluate (list [.str "a", .int 3]) (list [.str "a", .bool true]) = .ok true := by
  have hsound : (list [.str "a", .int 3]).isSound ∧ (list [.str "a", .decimal (.finite false 25 (-1)), .null]).isSound ∧
      (list [.str "a", .bool true]).isSound := by decide
  refine ⟨hsound, (orderings_are_one_strict_order hsound.1 hsound.2.1 hsound.2.2).2.2.1 ?_ ?_⟩
  · decide +kernel
  · decide +kernel

end Operator

end Runbook
