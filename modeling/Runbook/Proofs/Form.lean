import Runbook.Json.Form
import Runbook.Proofs.Recordable

/-!
# Recorded forms and JSON

A recorded form holds nothing that JSON has no form for, and no key twice. So a column of JSON gives it back as it was, but for
the mark of a NaN.

* `Value.stored`: what is given back of a value that is kept.
* `Fields.AreForms`: fields under different names, whose values JSON gives back.
* **`Value.jsonForm_of_recorded`**: JSON gives a recorded form back as it is stored.
-/

namespace Runbook

namespace Value

mutual

/-- What is given back of a value: moments are kept without their offset, and what is not a number is the NaN of JSON. -/
def stored : Value → Value
  | dateTime t => dateTime t.withoutOffset
  | float x => float (Json.reread x)
  | list xs => list (storedItems xs)
  | dict es => dict (storedUnder es)
  | v => v

/-- What is given back of the items of a list. -/
def storedItems : List Value → List Value
  | [] => []
  | x :: xs => stored x :: storedItems xs

/-- What is given back of the values of a dictionary. -/
def storedUnder : List (Value × Value) → List (Value × Value)
  | [] => []
  | (k, v) :: es => (k, stored v) :: storedUnder es

end

end Value

namespace Fields

variable {fields acc : Fields} {name name' : String} {v : Value}

theorem set_eq_concat (h : name ∉ fields.map Prod.fst) : fields.set name v = fields ++ [(name, v)] := by
  induction fields with
  | nil => rfl
  | cons p fields ih =>
    have hne : name ≠ p.1 := List.ne_of_not_mem_cons h
    rw [set, if_neg (by simpa using hne.symm), ih (List.not_mem_of_not_mem_cons h)]
    rfl

theorem names_set_of_mem (h : name ∈ fields.map Prod.fst) : (fields.set name v).map Prod.fst = fields.map Prod.fst := by
  induction fields with
  | nil => cases h
  | cons p fields ih =>
    obtain ⟨n, w⟩ := p
    rw [set]
    split
    · rfl
    · next hne =>
      refine congrArg (n :: ·) (ih ((List.mem_cons.mp h).resolve_left ?_))
      rintro rfl
      exact hne (beq_self_eq_true _)

theorem mem_set {p : String × Value} (h : p ∈ fields.set name v) : p ∈ fields ∨ p.2 = v := by
  induction fields with
  | nil => exact .inr (List.mem_singleton.mp h ▸ rfl)
  | cons p' fields ih =>
    rw [set] at h
    split at h <;> rcases List.mem_cons.mp h with rfl | h
    · exact .inr rfl
    · exact .inl (List.mem_cons_of_mem _ h)
    · exact .inl List.mem_cons_self
    · exact (ih h).imp_left (List.mem_cons_of_mem _)

theorem nodup_set (h : (fields.map Prod.fst).Nodup) (name : String) (v : Value) :
    ((fields.set name v).map Prod.fst).Nodup := by
  by_cases hname : name ∈ fields.map Prod.fst
  · rw [names_set_of_mem hname]
    exact h
  · rw [set_eq_concat hname, List.map_append]
    refine List.nodup_append.mpr ⟨h, List.pairwise_singleton _ _, ?_⟩
    rintro a ha b hb rfl
    obtain rfl : a = name := List.mem_singleton.mp hb
    exact hname ha

/-- Of fields under different names one after the other can be set. -/
theorem append_cons_eq_set_append (h : ((acc ++ (name, v) :: fields).map Prod.fst).Nodup) :
    acc ++ (name, v) :: fields = acc.set name v ++ fields := by
  have hnew : name ∉ acc.map Prod.fst := by
    rw [List.map_append] at h
    obtain ⟨-, -, hne⟩ := List.nodup_append.mp h
    exact fun hname => hne name hname name List.mem_cons_self rfl
  rw [set_eq_concat hnew, List.append_assoc]
  rfl

/-- Fields under different names, whose values JSON gives back as `f` has them. -/
structure HaveForms (f : Value → Value) (fields : Fields) : Prop where
  nodup : (fields.map Prod.fst).Nodup
  form : ∀ p ∈ fields, p.2.jsonForm = .ok (f p.2)

/-- Fields under different names, whose values JSON gives back as they were. -/
structure AreForms (fields : Fields) : Prop where
  nodup : (fields.map Prod.fst).Nodup
  form : ∀ p ∈ fields, p.2.jsonForm = .ok p.2

section Forms

variable {f : Value → Value}

theorem HaveForms.nil : HaveForms f [] := ⟨List.nodup_nil, List.forall_mem_nil _⟩

theorem HaveForms.set (h : fields.HaveForms f) (hv : v.jsonForm = .ok (f v)) : (fields.set name v).HaveForms f where
  nodup := nodup_set h.nodup name v
  form p hp := by
    rcases mem_set hp with hp | hp
    · exact h.form p hp
    · rw [hp]
      exact hv

/-- Fields with other values. -/
theorem map_fst_mapSnd (f : Value → Value) (fields : Fields) :
    (fields.map (Prod.map id f)).map Prod.fst = fields.map Prod.fst := by
  rw [List.map_map]
  rfl

theorem jsonEntries_toEntries (hform : ∀ p ∈ fields, p.2.jsonForm = .ok (f p.2))
    (hnodup : ((acc ++ fields).map Prod.fst).Nodup) :
    Value.jsonEntries fields.toEntries acc = .ok (acc ++ fields.map (Prod.map id f)) := by
  induction fields generalizing acc with
  | nil =>
    rw [List.map_nil, List.append_nil]
    rfl
  | cons p fields ih =>
    obtain ⟨n, v⟩ := p
    obtain ⟨hv, hfields⟩ := List.forall_mem_cons.mp hform
    have hset {rest : Fields} (hnames : rest.map Prod.fst = fields.map Prod.fst) :
        acc ++ (n, f v) :: rest = acc.set n (f v) ++ rest := append_cons_eq_set_append (by simpa [hnames] using hnodup)
    have hnodup' : ((acc.set n (f v) ++ fields).map Prod.fst).Nodup := by simpa [← hset rfl] using hnodup
    show (do
      let w ← v.jsonForm
      Value.jsonEntries (toEntries fields) (acc.set n w)) = _
    rw [hv]
    exact (ih hfields hnodup').trans (congrArg Except.ok (hset (map_fst_mapSnd f fields)).symm)

/-- JSON gives a dictionary back with these values. -/
theorem HaveForms.jsonForm_toValue (h : fields.HaveForms f) :
    fields.toValue.jsonForm = .ok (toValue (fields.map (Prod.map id f))) := by
  have hentries : Value.jsonEntries fields.toEntries [] = .ok (fields.map (Prod.map id f)) :=
    jsonEntries_toEntries h.form h.nodup
  show (Value.jsonEntries fields.toEntries []).map Fields.toValue = _
  rw [hentries]
  rfl

end Forms

theorem AreForms.haveForms (h : fields.AreForms) : fields.HaveForms id := ⟨h.nodup, h.form⟩

theorem AreForms.nil : AreForms [] := ⟨List.nodup_nil, List.forall_mem_nil _⟩

theorem AreForms.set (h : fields.AreForms) (hv : v.jsonForm = .ok v) : (fields.set name v).AreForms :=
  ⟨(h.haveForms.set hv).nodup, (h.haveForms.set hv).form⟩

/-- JSON gives a dictionary of forms back as it was. -/
theorem AreForms.jsonForm_toValue (h : fields.AreForms) : fields.toValue.jsonForm = .ok fields.toValue := by
  rw [h.haveForms.jsonForm_toValue, Prod.map_id, List.map_id]

end Fields

namespace Value

theorem stored_toValue (fields : Fields) : fields.toValue.stored = Fields.toValue (fields.map (Prod.map id stored)) := by
  have hunder : storedUnder fields.toEntries = Fields.toEntries (fields.map (Prod.map id stored)) := by
    induction fields with
    | nil => rfl
    | cons p fields ih => exact congrArg ((.str p.1, p.2.stored) :: ·) ih
  exact congrArg dict hunder

theorem upTo_eq_ok {depth : Int} {v w : Value} {form : Except NotRecordable Value} (h : upTo depth v form = .ok w) :
    w = .str v.text ∨ form = .ok w := by
  unfold upTo at h
  split at h
  · exact .inl (Except.ok.inj h).symm
  · exact .inr h

/-- A value beyond the depth becomes a text, so it is enough to look at the form within the depth. -/
theorem jsonForm_of_upTo {depth : Int} {v w : Value} {form : Except NotRecordable Value}
    (hform : form = .ok w → w.jsonForm = .ok w.stored) (h : upTo depth v form = .ok w) : w.jsonForm = .ok w.stored := by
  obtain rfl | h := upTo_eq_ok h
  · rfl
  · exact hform h

theorem jsonForm_list {xs : List Value} (h : jsonForms xs = .ok (storedItems xs)) :
    (list xs).jsonForm = .ok (list xs).stored := by
  show (jsonForms xs).map list = _
  rw [h]
  rfl

mutual

theorem jsonForm_of_snapshotAt (v : Value) {depth : Int} {w : Value} (h : snapshotAt depth v = .ok w) :
    w.jsonForm = .ok w.stored := by
  match v with
  | null | bool _ | int _ | float _ | str _ | date _ | dateTime _ =>
    refine jsonForm_of_upTo ?_ h
    rintro ⟨⟩
    rfl
  | bytes _ =>
    cases h
    rfl
  | decimal d =>
    refine jsonForm_of_upTo (fun h => ?_) h
    split at h <;> cases h
    rfl
  | dict es =>
    refine jsonForm_of_upTo (fun h => ?_) h
    obtain ⟨fields, hfields, rfl⟩ := map_eq_ok h
    rw [(haveForms_of_snapshotEntries es .nil hfields).jsonForm_toValue, stored_toValue]
  | list xs | tuple xs | set xs =>
    refine jsonForm_of_upTo (fun h => ?_) h
    obtain ⟨ys, hys, rfl⟩ := map_eq_ok h
    exact jsonForm_list (jsonForms_of_snapshotItems xs hys)
termination_by structural v

theorem jsonForms_of_snapshotItems (xs : List Value) {depth : Int} {ys : List Value} (h : snapshotItems depth xs = .ok ys) :
    jsonForms ys = .ok (storedItems ys) := by
  match xs with
  | [] =>
    cases h
    rfl
  | x :: xs =>
    obtain ⟨y, hy, h⟩ := bind_eq_ok h
    obtain ⟨rest, hrest, h⟩ := bind_eq_ok h
    cases h
    rw [jsonForms, jsonForm_of_snapshotAt x hy, jsonForms_of_snapshotItems xs hrest]
    rfl
termination_by structural xs

theorem haveForms_of_snapshotEntries (es : List (Value × Value)) {depth : Int} {acc fields : Fields}
    (hacc : acc.HaveForms stored) (h : snapshotEntries depth es acc = .ok fields) : fields.HaveForms stored := by
  match es with
  | [] =>
    cases h
    exact hacc
  | (k, v) :: es =>
    obtain ⟨w, hw, h⟩ := bind_eq_ok h
    exact haveForms_of_snapshotEntries es (hacc.set (jsonForm_of_snapshotAt v hw)) h
termination_by structural es

end

/-- **JSON gives a recorded form back** as it is stored. -/
theorem jsonForm_of_recorded {v w : Value} (h : v.recorded = .ok w) : w.jsonForm = .ok w.stored :=
  jsonForm_of_snapshotAt v (mapError_eq_ok h)

end Value

end Runbook
