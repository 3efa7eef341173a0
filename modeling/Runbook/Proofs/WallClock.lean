import Mathlib.Algebra.Group.Nat.Defs
import Mathlib.Order.Monotone.Basic
import Runbook.Time.IsoReader

/-!
# Wall clocks

A date-time that is read from a text is one of the calendar, so the time that it shows on the wall tells its fields. Two date-times
that denote one instant therefore show the same fields exactly if they have the same offset.

* `Date.IsValid`, `DateTime.IsValid`: dates of the calendar, and times of the day.
* `DateTime.isValid_of_readIso`: what is read is one.
* `Date.eq_of_ordinal`, `DateTime.withoutOffset_eq_of_wallClock`: a day has one number, and a wall clock one reading.
* **`DateTime.withoutOffset_eq_iff`**: the same instant shows the same fields at the same offset only.
-/

namespace Runbook

/-! ## Days -/

namespace Date

/-- A date of the calendar. -/
structure IsValid (d : Date) : Prop where
  year : 0 < d.year
  month : 0 < d.month ∧ d.month ≤ 12
  day : 0 < d.day ∧ d.day ≤ daysInMonth d.year d.month

/-- The days of a year. -/
def daysInYear (year : Nat) : Nat := if isLeap year then 366 else 365

theorem daysBeforeYear_succ {year : Nat} (h : 0 < year) : daysBeforeYear (year + 1) = daysBeforeYear year + daysInYear year := by
  obtain ⟨y, rfl⟩ : ∃ y, year = y + 1 := ⟨year - 1, (Nat.sub_add_cancel h).symm⟩
  unfold daysBeforeYear daysInYear isLeap
  rw [Nat.add_sub_cancel, Nat.add_sub_cancel]
  grind

theorem daysBeforeMonth_succ (year : Nat) {month : Nat} (h : 0 < month) :
    daysBeforeMonth year (month + 1) = daysBeforeMonth year month + daysInMonth year month := by
  obtain ⟨m, rfl⟩ : ∃ m, month = m + 1 := ⟨month - 1, by omega⟩
  rfl

theorem daysBeforeYear_mono : Monotone daysBeforeYear := by
  refine monotone_nat_of_le_succ fun year => ?_
  cases year with
  | zero => exact Nat.le_refl 0
  | succ year =>
    rw [daysBeforeYear_succ year.succ_pos]
    exact Nat.le_add_right _ _

theorem daysBeforeMonth_mono (year : Nat) : Monotone (daysBeforeMonth year) := by
  refine monotone_nat_of_le_succ fun month => ?_
  cases month with
  | zero => exact Nat.le_refl 0
  | succ month =>
    rw [daysBeforeMonth_succ year month.succ_pos]
    exact Nat.le_add_right _ _

/-- The months of a year make up the year. -/
theorem daysBeforeMonth_thirteen (year : Nat) : daysBeforeMonth year 13 = daysInYear year := by
  simp only [daysBeforeMonth, daysInMonth, daysInYear]
  cases isLeap year <;> rfl

/-- A number lies in one of the intervals that a growing sequence makes. -/
theorem eq_of_between {f : Nat → Nat} (hf : Monotone f) {a b n : Nat} (ha : f a < n ∧ n ≤ f (a + 1))
    (hb : f b < n ∧ n ≤ f (b + 1)) : a = b := by
  rcases Nat.lt_trichotomy a b with h | h | h
  · exact absurd (ha.2.trans (hf h)) (Nat.not_le.mpr hb.1)
  · exact h
  · exact absurd (hb.2.trans (hf h)) (Nat.not_le.mpr ha.1)

variable {d e : Date}

namespace IsValid

theorem between_months (h : d.IsValid) : daysBeforeMonth d.year d.month < daysBeforeMonth d.year d.month + d.day ∧
    daysBeforeMonth d.year d.month + d.day ≤ daysBeforeMonth d.year (d.month + 1) := by
  rw [daysBeforeMonth_succ d.year h.month.1]
  have hday := h.day
  omega

theorem between_years (h : d.IsValid) : daysBeforeYear d.year < d.ordinal ∧ d.ordinal ≤ daysBeforeYear (d.year + 1) := by
  have hmonth := h.between_months
  have hyear : daysBeforeMonth d.year (d.month + 1) ≤ daysBeforeMonth d.year 13 :=
    daysBeforeMonth_mono d.year (Nat.succ_le_succ h.month.2)
  rw [daysBeforeMonth_thirteen] at hyear
  rw [daysBeforeYear_succ h.year]
  unfold ordinal
  omega

end IsValid

/-- A day of the calendar has one number. -/
theorem eq_of_ordinal (hd : d.IsValid) (he : e.IsValid) (h : d.ordinal = e.ordinal) : d = e := by
  have hyears := he.between_years
  rw [← h] at hyears
  have hyear : d.year = e.year := eq_of_between daysBeforeYear_mono hd.between_years hyears
  have hmonths := he.between_months
  unfold ordinal at h
  rw [← hyear] at h hmonths
  have hdays : daysBeforeMonth d.year d.month + d.day = daysBeforeMonth d.year e.month + e.day := by omega
  rw [← hdays] at hmonths
  have hmonth : d.month = e.month := eq_of_between (daysBeforeMonth_mono d.year) hd.between_months hmonths
  have hday : d.day = e.day := by
    rw [hmonth] at hdays
    omega
  cases d
  cases e
  cases hyear
  cases hmonth
  cases hday
  rfl

end Date

/-! ## Times of the day -/

/-- A date of the calendar with a time of the day. -/
structure DateTime.IsValid (t : DateTime) : Prop where
  date : t.date.IsValid
  hour : t.hour ≤ 23
  minute : t.minute ≤ 59
  second : t.second ≤ 59
  microsecond : t.microsecond < 1000000

namespace DateTime

variable {s t : DateTime}

/-- A wall clock tells the fields that it shows. -/
theorem withoutOffset_eq_of_wallClock (hs : s.IsValid) (ht : t.IsValid) (h : s.wallClock = t.wallClock) :
    s.withoutOffset = t.withoutOffset := by
  unfold wallClock at h
  have hnat := Int.ofNat.inj h
  obtain ⟨hsd, hsh, hsm, hss, hsu⟩ := hs
  obtain ⟨htd, hth, htm, hts, htu⟩ := ht
  have hfields : s.date.ordinal = t.date.ordinal ∧ s.hour = t.hour ∧ s.minute = t.minute ∧ s.second = t.second ∧
      s.microsecond = t.microsecond := by omega
  obtain ⟨hday, hhour, hminute, hsecond, hmicrosecond⟩ := hfields
  unfold withoutOffset
  rw [Date.eq_of_ordinal hsd htd hday, hhour, hminute, hsecond, hmicrosecond]

/-- What the wall clock shows at an instant. -/
theorem wallClock_of_instant? {i o : Int} (hi : t.instant? = some i) (ho : t.offset = some o) : t.wallClock = i + o := by
  unfold instant? at hi
  rw [ho] at hi
  have heq : t.wallClock - o = i := Option.some.inj hi
  omega

/-- **Two date-times of one instant** show the same fields exactly if they have the same offset. -/
theorem withoutOffset_eq_iff {i : Int} (hs : s.IsValid) (ht : t.IsValid) (hsi : s.instant? = some i) (hti : t.instant? = some i) :
    s.withoutOffset = t.withoutOffset ↔ s.offset = t.offset := by
  obtain ⟨o, ho, -⟩ := Option.map_eq_some_iff.mp hsi
  obtain ⟨o', ho', -⟩ := Option.map_eq_some_iff.mp hti
  have hclock := wallClock_of_instant? hsi ho
  have hclock' := wallClock_of_instant? hti ho'
  rw [ho, ho', Option.some_inj]
  constructor
  · intro h
    have heq : s.withoutOffset.wallClock = t.withoutOffset.wallClock := congrArg wallClock h
    change s.wallClock = t.wallClock at heq
    omega
  · rintro rfl
    exact withoutOffset_eq_of_wallClock hs ht (hclock.trans hclock'.symm)

end DateTime

/-! ## What is read -/

namespace IsoReader

theorem value_le {c : Char} (h : c.isDigit) : Digits.value c ≤ 9 := by
  unfold Char.isDigit at h
  unfold Digits.value
  obtain ⟨-, hle⟩ := Bool.and_eq_true_iff.mp h
  have hle : c.toNat ≤ 57 := of_decide_eq_true hle
  have hzero : '0'.toNat = 48 := rfl
  omega

theorem foldl_digits_lt {ds : List Char} (h : ds.all Char.isDigit) (n : Nat) :
    ds.foldl (fun n c => n * 10 + Digits.value c) n < (n + 1) * 10 ^ ds.length := by
  induction ds generalizing n with
  | nil => simp
  | cons c ds ih =>
    obtain ⟨hc, hds⟩ := Bool.and_eq_true_iff.mp (List.all_cons ▸ h)
    have hvalue := value_le hc
    calc (c :: ds).foldl (fun n c => n * 10 + Digits.value c) n
        < (n * 10 + Digits.value c + 1) * 10 ^ ds.length := ih hds _
      _ ≤ (n + 1) * 10 * 10 ^ ds.length := Nat.mul_le_mul_right _ (by omega)
      _ = (n + 1) * 10 ^ (c :: ds).length := by rw [Nat.mul_assoc, List.length_cons, Nat.pow_succ']

theorem digits_lt {count v : Nat} {cs rest : List Char} (h : digits count cs = some (v, rest)) : v < 10 ^ count := by
  unfold digits at h
  dsimp only at h
  split_ifs at h with hfront
  obtain ⟨hlength, hall⟩ := hfront
  cases h
  have hlt := foldl_digits_lt hall 0
  rwa [hlength, Nat.zero_add, Nat.one_mul] at hlt

theorem microsecond_of_fraction {fields result : ClockFields} {cs : List Char} {more : Bool}
    (h : fraction fields cs more = some result) : result.microsecond < 1000000 := by
  unfold fraction at h
  obtain ⟨⟨v, rest⟩, hv, h⟩ := Option.bind_eq_some_iff.mp h
  dsimp only at h
  split_ifs at h
  cases h
  have hcount : min cs.length 6 ≤ 6 := Nat.min_le_right _ _
  calc v * 10 ^ (6 - min cs.length 6)
      < 10 ^ min cs.length 6 * 10 ^ (6 - min cs.length 6) :=
        Nat.mul_lt_mul_of_pos_right (digits_lt hv) (Nat.pow_pos (by decide))
    _ = 1000000 := by rw [← Nat.pow_add, Nat.add_sub_cancel' hcount]

/-- Without a fraction no microseconds are read. -/
theorem microsecond_of_clockFields {result : ClockFields} {cs : List Char} {more : Bool} (h : clockFields cs more = some result) :
    result.microsecond < 1000000 := by
  have hzero : 0 < 1000000 := by decide
  unfold clockFields at h
  obtain ⟨⟨hour, rest⟩, -, h⟩ := Option.bind_eq_some_iff.mp h
  dsimp only at h
  split at h
  · cases h
    exact hzero
  · cases h
    exact hzero
  split at h
  · exact microsecond_of_fraction h
  obtain ⟨⟨minute, rest⟩, -, h⟩ := Option.bind_eq_some_iff.mp h
  dsimp only at h
  split at h
  · cases h
    exact hzero
  · cases h
    exact hzero
  split at h
  · exact microsecond_of_fraction h
  split at h
  · cases h
  obtain ⟨⟨second, rest⟩, -, h⟩ := Option.bind_eq_some_iff.mp h
  dsimp only at h
  split at h
  · cases h
    exact hzero
  · cases h
    exact hzero
  split_ifs at h <;> exact microsecond_of_fraction h

theorem microsecond_of_timeFields {fields : ClockFields} {offset : Option Int} {cs : List Char}
    (h : timeFields cs = some (fields, offset)) : fields.microsecond < 1000000 := by
  unfold timeFields at h
  dsimp only at h
  split at h
  · obtain ⟨fields, hfields, h⟩ := Option.bind_eq_some_iff.mp h
    split_ifs at h
    cases h
    exact microsecond_of_clockFields hfields
  · obtain ⟨fields, hfields, h⟩ := Option.bind_eq_some_iff.mp h
    split_ifs at h
    · cases h
      exact microsecond_of_clockFields hfields
    · obtain ⟨o, -, h⟩ := Option.bind_eq_some_iff.mp h
      split_ifs at h
      cases h
      exact microsecond_of_clockFields hfields

theorem isValid_of_checked {d : Date} {fields : ClockFields} {offset : Option Int} {t : DateTime}
    (hfields : fields.microsecond < 1000000) (h : build.checked d fields offset = .ok t) : t.IsValid := by
  unfold build.checked at h
  split_ifs at h with hyear hmonth hday hhour hminute hsecond
  cases h
  refine ⟨⟨?_, ?_, ?_⟩, ?_, ?_, ?_, hfields⟩ <;> dsimp only <;> omega

theorem isValid_of_build {d : Date} {fields : ClockFields} {offset : Option Int} {t : DateTime}
    (hfields : fields.microsecond < 1000000) (h : build d fields offset = .ok t) : t.IsValid := by
  unfold build at h
  split at h
  · split_ifs at h
    exact isValid_of_checked hfields h
  · exact isValid_of_checked hfields h

end IsoReader

/-- **What is read** is a date of the calendar with a time of the day. -/
theorem DateTime.isValid_of_readIso {text : String} {t : DateTime} (h : readIso text = .ok t) : t.IsValid := by
  unfold readIso at h
  dsimp only at h
  split at h
  · cases h
  · next d fields offset hparts =>
    refine IsoReader.isValid_of_build ?_ h
    split_ifs at hparts
    obtain ⟨n, -, hparts⟩ := Option.bind_eq_some_iff.mp hparts
    obtain ⟨d, -, hparts⟩ := Option.bind_eq_some_iff.mp hparts
    split_ifs at hparts
    · cases hparts
      decide
    · obtain ⟨⟨fields, offset⟩, hfields, hparts⟩ := Option.bind_eq_some_iff.mp hparts
      cases hparts
      exact IsoReader.microsecond_of_timeFields hfields

end Runbook
