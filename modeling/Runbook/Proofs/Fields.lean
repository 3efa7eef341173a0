import Mathlib.Data.List.Nodup
import Mathlib.Data.List.Pairwise
import Runbook.Proofs.Result
import Runbook.Step.Reader

/-!
# What is read from a dictionary

A typed object is read from a dictionary by the names of its fields, some of which may be spelled in two ways. What is read comes
of the values under these names, whatever else the dictionary holds.

* `Checked.result?`: the result of a reading, if it has one.
* `Field.value?`: the value under the first of several names that a dictionary has.
* `Field.Agree`: dictionaries with the same values under the names of all fields.
* `Entries.respell`: a dictionary with one key spelled in another way.
* **`Field.agree_respell`**: a dictionary with one field spelled in its other way agrees with it in all fields.
-/

namespace Runbook

/-! ## Results of readings -/

namespace Checked

variable {α β : Type} {x : Checked α} {a : α}

/-- The result of a reading, if it has one. -/
def result? : Checked α → Option α
  | ok a => some a
  | failed _ _ => none

theorem result?_eq_some : x.result? = some a ↔ x = .ok a := by
  cases x with
  | ok b => exact ⟨fun h => congrArg ok (Option.some.inj h), fun h => h ▸ rfl⟩
  | failed e es => exact ⟨nofun, nofun⟩

theorem result?_map (f : α → β) (x : Checked α) : (f <$> x).result? = x.result?.map f := by
  cases x <;> rfl

theorem result?_seq (f : Checked (α → β)) (x : Checked α) : (f <*> x).result? = f.result?.bind fun g => x.result?.map g := by
  cases f <;> cases x <;> rfl

theorem result?_under (name : String) (x : Checked α) : (x.under name).result? = x.result? := by
  cases x <;> rfl

theorem result?_orElse (x y : Checked α) : (x.orElse y).result? = x.result?.or y.result? := by
  cases x <;> cases y <;> rfl

theorem toOption_forStep (step : String) (x : Checked α) : (x.forStep step).toOption = x.result? := by
  cases x <;> rfl

theorem forStep_eq_ok {step : String} : x.forStep step = .ok a ↔ x = .ok a := by
  cases x with
  | ok b => exact ⟨fun h => congrArg ok (Except.ok.inj h), fun h => h ▸ rfl⟩
  | failed e es => exact ⟨nofun, nofun⟩

end Checked

theorem toOption_eq_some {ε α : Type} {x : Except ε α} {a : α} : x.toOption = some a ↔ x = .ok a := by
  cases x with
  | ok b => exact ⟨fun h => congrArg Except.ok (Option.some.inj h), fun h => h ▸ rfl⟩
  | error e => exact ⟨nofun, nofun⟩

/-! ## Keys -/

namespace Value

variable {k : Value} {key other old new : String}

theorem not_isStr_of_isStr (h : other ≠ key) (hk : k.isStr key) : ¬ k.isStr other := by
  cases k with
  | str s =>
    intro ho
    exact h ((eq_of_beq ho).symm.trans (eq_of_beq hk))
  | _ => cases hk

/-- A key, spelled in the new way if it is spelled in the old one. -/
def respell (old new : String) (k : Value) : Value := if k.isStr old then .str new else k

theorem isStr_respell_new (h : ¬ k.isStr new) : (k.respell old new).isStr new = k.isStr old := by
  rw [respell]
  split
  · next hold =>
    rw [hold]
    exact beq_self_eq_true new
  · next hold => rw [Bool.eq_false_iff.mpr h, Bool.eq_false_iff.mpr hold]

theorem isStr_respell_old (hne : old ≠ new) : (k.respell old new).isStr old = false := by
  rw [respell]
  split
  · exact beq_false_of_ne hne.symm
  · next hold => exact Bool.eq_false_iff.mpr hold

theorem isStr_respell_of_ne (hold : key ≠ old) (hnew : key ≠ new) : (k.respell old new).isStr key = k.isStr key := by
  rw [respell]
  split
  · next h =>
    rw [Bool.eq_false_iff.mpr (not_isStr_of_isStr hold h)]
    exact beq_false_of_ne hnew.symm
  · rfl

end Value

namespace Entries

variable {es : Entries} {key other old new : String}

theorem get?_set_self (es : Entries) (key : String) (v : Value) : (es.set key v).get? key = some v := by
  induction es with
  | nil =>
    show (if (key == key) = true then some v else none) = some v
    rw [if_pos (beq_self_eq_true key)]
  | cons e es ih =>
    rw [Entries.set]
    split
    · next hkey => rw [Entries.get?, if_pos hkey]
    · next hkey =>
      rw [Entries.get?, if_neg hkey]
      exact ih

theorem get?_set_of_ne (es : Entries) (v : Value) (h : other ≠ key) : (es.set key v).get? other = es.get? other := by
  induction es with
  | nil =>
    show (if (key == other) = true then some v else none) = none
    rw [if_neg fun hkey => h (eq_of_beq hkey).symm]
  | cons e es ih =>
    rw [Entries.set]
    split
    · next hkey =>
      have hother := Value.not_isStr_of_isStr h hkey
      rw [Entries.get?, Entries.get?, if_neg hother, if_neg hother]
    · next hkey => rw [Entries.get?, Entries.get?, ih]

/-- The entries with one key spelled in another way. -/
def respell (es : Entries) (old new : String) : Entries := es.map fun (k, v) => (k.respell old new, v)

theorem respell_cons (e : Value × Value) (es : Entries) (old new : String) :
    Entries.respell (e :: es) old new = (e.1.respell old new, e.2) :: es.respell old new := rfl

theorem get?_respell_new (habsent : es.get? new = none) : (es.respell old new).get? new = es.get? old := by
  induction es with
  | nil => rfl
  | cons e es ih =>
    rw [Entries.get?] at habsent
    split at habsent
    · cases habsent
    · next hnew => rw [respell_cons, Entries.get?, Entries.get?, Value.isStr_respell_new hnew, ih habsent]

theorem get?_respell_old (es : Entries) (hne : old ≠ new) : (es.respell old new).get? old = none := by
  induction es with
  | nil => rfl
  | cons e es ih =>
    rw [respell_cons, Entries.get?, Value.isStr_respell_old hne, ih]
    rfl

theorem get?_respell_of_ne (es : Entries) (hold : key ≠ old) (hnew : key ≠ new) :
    (es.respell old new).get? key = es.get? key := by
  induction es with
  | nil => rfl
  | cons e es ih => rw [respell_cons, Entries.get?, Entries.get?, Value.isStr_respell_of_ne hold hnew, ih]

end Entries

/-! ## Fields -/

namespace Field

variable {α : Type} {es es' : Entries} {names : List String} {groups : List (List String)} {read : Value → Checked α}

/-- The value under the first of several names that a dictionary has. -/
def value? (es : Entries) (names : List String) : Option Value := (find? es names).map Prod.snd

theorem value?_cons (es : Entries) (name : String) (names : List String) :
    value? es (name :: names) = (es.get? name).or (value? es names) := by
  rw [value?, find?]
  cases es.get? name <;> rfl

theorem value?_singleton (es : Entries) (name : String) : value? es [name] = es.get? name := by
  rw [value?_cons]
  exact Option.or_none

theorem value?_pair (es : Entries) (name other : String) : value? es [name, other] = (es.get? name).or (es.get? other) := by
  rw [value?_cons, value?_singleton]

theorem result?_required (es : Entries) (names : List String) (read : Value → Checked α) :
    (required es names read).result? = (value? es names).bind fun v => (read v).result? := by
  unfold required value?
  cases find? es names with
  | none => rfl
  | some found => exact Checked.result?_under _ _

theorem result?_optional (es : Entries) (names : List String) (default : α) (read : Value → Checked α) :
    (optional es names default read).result? = (value? es names).elim (some default) fun v => (read v).result? := by
  unfold optional value?
  cases find? es names with
  | none => rfl
  | some found => exact Checked.result?_under _ _

theorem required_eq_ok {a : α} : required es names read = .ok a ↔ ∃ v, value? es names = some v ∧ read v = .ok a := by
  rw [← Checked.result?_eq_some, result?_required, Option.bind_eq_some_iff]
  simp only [Checked.result?_eq_some]

/-- Dictionaries with the same values under the names of several fields. -/
def Agree (groups : List (List String)) (es es' : Entries) : Prop := ∀ names ∈ groups, value? es names = value? es' names

theorem Agree.mono {groups' : List (List String)} (h : Agree groups es es') (hsub : groups' ⊆ groups) : Agree groups' es es' :=
  fun names hnames => h names (hsub hnames)

theorem Agree.get? (h : Agree groups es es') (name : String) (hname : [name] ∈ groups) : es.get? name = es'.get? name := by
  rw [← value?_singleton, ← value?_singleton, h _ hname]

theorem Agree.required (h : Agree groups es es') (hnames : names ∈ groups) :
    (required es names read).result? = (Field.required es' names read).result? := by
  rw [result?_required, result?_required, h _ hnames]

theorem Agree.optional {default : α} (h : Agree groups es es') (hnames : names ∈ groups) :
    (optional es names default read).result? = (Field.optional es' names default read).result? := by
  rw [result?_optional, result?_optional, h _ hnames]

/-- Two names are the two spellings of a field. -/
def IsSpelling (groups : List (List String)) (old new : String) : Prop := [old, new] ∈ groups ∨ [new, old] ∈ groups

/-- No name stands for two fields, or twice for one. -/
def AreApart (groups : List (List String)) : Prop := groups.flatten.Nodup

instance (groups : List (List String)) (old new : String) : Decidable (IsSpelling groups old new) :=
  inferInstanceAs (Decidable (_ ∨ _))

instance (groups : List (List String)) : Decidable (AreApart groups) := inferInstanceAs (Decidable (List.Nodup _))

theorem AreApart.ne {old new : String} (h : AreApart groups) (hspelling : IsSpelling groups old new) : old ≠ new := by
  have hnodup := (List.nodup_flatten.mp h).1
  obtain hmem | hmem := hspelling
  · exact List.ne_of_not_mem_cons (List.nodup_cons.mp (hnodup _ hmem)).1
  · exact (List.ne_of_not_mem_cons (List.nodup_cons.mp (hnodup _ hmem)).1).symm

/-- A field has the two names, or none of them. -/
theorem AreApart.eq_or_notMem {old new : String} (h : AreApart groups) (hspelling : IsSpelling groups old new) (hnames : names ∈ groups) :
    (names = [old, new] ∨ names = [new, old]) ∨ old ∉ names ∧ new ∉ names := by
  have : Std.Symm (List.Disjoint (α := String)) := ⟨fun _ _ hd _ ha hb => hd hb ha⟩
  have hdisjoint : ∀ others ∈ groups, others = names ∨ others.Disjoint names := fun others hothers =>
    or_iff_not_imp_left.mpr fun hne => (List.nodup_flatten.mp h).2.forall hothers hnames hne
  obtain hmem | hmem := hspelling
  · obtain heq | hd := hdisjoint _ hmem
    · exact .inl (.inl heq.symm)
    · exact .inr ⟨fun hold => hd List.mem_cons_self hold, fun hnew => hd (List.mem_cons_of_mem _ List.mem_cons_self) hnew⟩
  · obtain heq | hd := hdisjoint _ hmem
    · exact .inl (.inr heq.symm)
    · exact .inr ⟨fun hold => hd (List.mem_cons_of_mem _ List.mem_cons_self) hold, fun hnew => hd List.mem_cons_self hnew⟩

theorem value?_set_of_notMem {key : String} (es : Entries) (v : Value) (h : key ∉ names) :
    value? (es.set key v) names = value? es names := by
  induction names with
  | nil => rfl
  | cons name names ih =>
    obtain ⟨hne, hmem⟩ := List.ne_and_not_mem_of_not_mem_cons h
    rw [value?_cons, value?_cons, Entries.get?_set_of_ne es v hne.symm, ih hmem]

theorem agree_set {key : String} (es : Entries) (v : Value) (h : key ∉ groups.flatten) : Agree groups es (es.set key v) :=
  fun _ hnames => (value?_set_of_notMem es v fun hmem => h (List.mem_flatten.mpr ⟨_, hnames, hmem⟩)).symm

section Respell

variable {old new : String}

theorem value?_respell_of_notMem (es : Entries) (hold : old ∉ names) (hnew : new ∉ names) :
    value? (es.respell old new) names = value? es names := by
  induction names with
  | nil => rfl
  | cons name names ih =>
    obtain ⟨hold, hold'⟩ := List.ne_and_not_mem_of_not_mem_cons hold
    obtain ⟨hnew, hnew'⟩ := List.ne_and_not_mem_of_not_mem_cons hnew
    rw [value?_cons, value?_cons, Entries.get?_respell_of_ne es hold.symm hnew.symm, ih hold' hnew']

theorem value?_respell (hne : old ≠ new) (habsent : es.get? new = none) (h : names = [old, new] ∨ names = [new, old]) :
    value? (es.respell old new) names = value? es names := by
  have hold := Entries.get?_respell_old es hne
  have hnew : (es.respell old new).get? new = es.get? old := Entries.get?_respell_new habsent
  obtain rfl | rfl := h
  · rw [value?_pair, value?_pair, hold, hnew, habsent, Option.none_or, Option.or_none]
  · rw [value?_pair, value?_pair, hold, hnew, habsent, Option.none_or, Option.or_none]

/-- **A dictionary with one field spelled in its other way** agrees with it in all fields. -/
theorem agree_respell (hgroups : AreApart groups) (hspelling : IsSpelling groups old new) (habsent : es.get? new = none) :
    Agree groups es (es.respell old new) := by
  intro names hnames
  obtain h | ⟨hold, hnew⟩ := hgroups.eq_or_notMem hspelling hnames
  · exact (value?_respell (hgroups.ne hspelling) habsent h).symm
  · exact (value?_respell_of_notMem es hold hnew).symm

end Respell

end Field

end Runbook
