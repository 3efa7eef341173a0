import Mathlib.Data.List.Induction
import Runbook.Proofs.Alike
import Runbook.Proofs.Form
import Runbook.Proofs.Within

/-!
# Merging and settling

Fields are merged from left to right: what comes later stands. A store that writes a merge only where it is another value than what
it holds settles instead: as numbers and truth values are equal by value, a later value that equals the one that is held is not
written. What is settled has the fields of the merge in their order, and under each name a value that equals that of the merge.

* `Fields.settle`: fields that others are written over, unless that comes to an equal value.
* `Fields.mergeAll`, `Fields.settleAll`: the same for several fields, one after the other.
* `Fields.get?_merge_of_nodup`, `Fields.names_merge_congr`: what is merged under which names.
* **`Fields.standsFor_settleAll`**: what is settled stands for what is merged.
* `Fields.settleAll_eq_mergeAll`: it is the same where no two values that are written under one name are equal but different.
-/

namespace Runbook

namespace Fields

/-- The fields with others over them, unless that is an equal value. -/
def settle (fs other : Fields) : Fields :=
  if Value.equal (fs.merge other).toValue fs.toValue matches .ok true then fs else fs.merge other

/-- All of these merged. -/
def mergeAll (written : List Fields) : Fields := written.foldl merge []

/-- All of these settled. -/
def settleAll (written : List Fields) : Fields := written.foldl settle []

/-- The same names in the same order, with equal values under them. -/
structure StandsFor (fs merged : Fields) : Prop where
  names : fs.map Prod.fst = merged.map Prod.fst
  alike : ∀ {name v w}, merged.get? name = some v → fs.get? name = some w → v = w ∨ v.Alike w

/-- Equal values under one name are the same value. -/
def AreExact (written : List Fields) : Prop :=
  ∀ fs ∈ written, ∀ gs ∈ written, ∀ name v w, fs.get? name = some v → gs.get? name = some w → v.Alike w → v = w

variable {fs gs merged other : Fields} {name : String} {v w : Value} {written : List Fields}

/-! ## Fields under different names -/

theorem get?_eq_some_iff (h : (fs.map Prod.fst).Nodup) : fs.get? name = some v ↔ (name, v) ∈ fs := by
  induction fs with
  | nil => exact ⟨nofun, nofun⟩
  | cons p fs ih =>
    obtain ⟨n, u⟩ := p
    obtain ⟨hn, hnodup⟩ := List.nodup_cons.mp h
    by_cases hname : n = name
    · obtain rfl := hname
      have hget : get? ((n, u) :: fs) n = some u := by simp [get?]
      rw [hget, List.mem_cons]
      constructor
      · rintro ⟨⟩
        exact .inl rfl
      · rintro (heq | hmem)
        · cases heq
          rfl
        · exact absurd (List.mem_map_of_mem hmem) hn
    · rw [get?_cons_of_ne hname, ih hnodup, List.mem_cons]
      exact (or_iff_right fun heq => hname (congrArg Prod.fst heq).symm).symm

theorem get?_isSome_iff : (fs.get? name).isSome ↔ name ∈ fs.map Prod.fst := by
  rw [Option.isSome_iff_ne_none, Ne, get?_eq_none_iff]
  simp

/-- Fields with the same names in the same order and the same values under them are the same. -/
theorem eq_of_get? (hfs : (fs.map Prod.fst).Nodup) (hnames : fs.map Prod.fst = gs.map Prod.fst)
    (hvalues : ∀ name v w, fs.get? name = some v → gs.get? name = some w → v = w) : fs = gs := by
  induction fs generalizing gs with
  | nil => exact (List.map_eq_nil_iff.mp hnames.symm).symm
  | cons p fs ih =>
    obtain ⟨n, v⟩ := p
    cases gs with
    | nil => cases hnames
    | cons q gs =>
      obtain ⟨m, w⟩ := q
      obtain ⟨rfl, hrest⟩ := List.cons.inj hnames
      obtain ⟨hn, hnodup⟩ := List.nodup_cons.mp hfs
      obtain rfl : v = w := hvalues n v w (by simp [get?]) (by simp [get?])
      refine congrArg ((n, v) :: ·) (ih hnodup hrest fun name u u' hu hu' => ?_)
      have hne : n ≠ name := by
        rintro rfl
        exact hn (get?_isSome_iff.mp (by rw [hu]; rfl))
      exact hvalues name u u' (by rw [get?_cons_of_ne hne, hu]) (by rw [get?_cons_of_ne hne, hu'])

/-! ## What is merged -/

@[simp] theorem merge_cons (fs other : Fields) (name : String) (v : Value) :
    fs.merge ((name, v) :: other) = (fs.set name v).merge other := rfl

theorem AreForms.merge (h : fs.AreForms) (hother : ∀ p ∈ other, p.2.jsonForm = .ok p.2) : (fs.merge other).AreForms := by
  induction other generalizing fs with
  | nil => exact h
  | cons p other ih =>
    obtain ⟨hp, hother⟩ := List.forall_mem_cons.mp hother
    exact ih (h.set hp) hother

/-- What is merged later stands. -/
theorem get?_merge_of_nodup (h : (other.map Prod.fst).Nodup) : (fs.merge other).get? name = (other.get? name).or (fs.get? name) := by
  induction other generalizing fs with
  | nil => rfl
  | cons p other ih =>
    obtain ⟨n, v⟩ := p
    obtain ⟨hn, hnodup⟩ := List.nodup_cons.mp h
    rw [merge_cons, ih hnodup]
    by_cases hname : n = name
    · obtain rfl := hname
      have hnone : get? other n = none := Option.not_isSome_iff_eq_none.mp (mt get?_isSome_iff.mp hn)
      have hsome : get? ((n, v) :: other) n = some v := by simp [get?]
      rw [hnone, hsome, get?_set_self]
      rfl
    · rw [get?_set_of_ne hname, get?_cons_of_ne hname]

/-- A name that is set keeps its place, or comes at the end. -/
theorem names_set (fs : Fields) (name : String) (v : Value) :
    (fs.set name v).map Prod.fst = if name ∈ fs.map Prod.fst then fs.map Prod.fst else fs.map Prod.fst ++ [name] := by
  split
  · next h => exact names_set_of_mem h
  · next h => rw [set_eq_concat h, List.map_append]; rfl

/-- Under which names is merged does not depend on the values. -/
theorem names_merge_congr (h : fs.map Prod.fst = gs.map Prod.fst) : (fs.merge other).map Prod.fst = (gs.merge other).map Prod.fst := by
  induction other generalizing fs gs with
  | nil => exact h
  | cons p other ih => exact ih (by rw [names_set, names_set, h])

/-- The names of what is merged stay where they are. -/
theorem names_prefix_merge (fs other : Fields) : fs.map Prod.fst <+: (fs.merge other).map Prod.fst := by
  induction other generalizing fs with
  | nil => exact List.prefix_rfl
  | cons p other ih =>
    refine List.IsPrefix.trans ?_ (ih (fs.set p.1 p.2))
    rw [names_set]
    split
    · exact List.prefix_rfl
    · exact List.prefix_append _ _

theorem mem_names_merge (h : name ∈ other.map Prod.fst) : name ∈ (fs.merge other).map Prod.fst := by
  induction other generalizing fs with
  | nil => cases h
  | cons p other ih =>
    obtain rfl | h := List.mem_cons.mp h
    · refine (names_prefix_merge (fs.set p.1 p.2) other).subset ?_
      exact get?_isSome_iff.mp (by rw [get?_set_self]; rfl)
    · exact ih h

theorem merge_ne_nil (h : other ≠ []) : fs.merge other ≠ [] := by
  obtain ⟨p, other, rfl⟩ := List.exists_cons_of_ne_nil h
  have hmem : p.1 ∈ (fs.merge (p :: other)).map Prod.fst := mem_names_merge List.mem_cons_self
  intro hnil
  rw [hnil] at hmem
  cases hmem

theorem toEntries_cons (name : String) (v : Value) (fs : Fields) : toEntries ((name, v) :: fs) = (.str name, v) :: fs.toEntries := rfl

/-- Entries are set as fields are. -/
theorem toEntries_set (fs : Fields) (name : String) (v : Value) : (fs.set name v).toEntries = fs.toEntries.set name v := by
  induction fs with
  | nil => rfl
  | cons p fs ih =>
    obtain ⟨n, w⟩ := p
    have hkey : (Value.str n).isStr name = (n == name) := rfl
    rw [toEntries_cons, set, Entries.set, hkey]
    cases n == name with
    | true => rfl
    | false => exact congrArg ((Value.str n, w) :: ·) ih

theorem toEntries_merge (fs other : Fields) :
    other.foldl (fun es (n, v) => Entries.set es n v) fs.toEntries = (fs.merge other).toEntries := by
  induction other generalizing fs with
  | nil => rfl
  | cons p other ih =>
    obtain ⟨n, v⟩ := p
    rw [List.foldl_cons]
    dsimp only
    rw [← toEntries_set]
    exact ih (fs.set n v)

/-- Fields that are merged into none are the same. -/
theorem append_merge (h : ((fs ++ other).map Prod.fst).Nodup) : fs.merge other = fs ++ other := by
  induction other generalizing fs with
  | nil => exact (List.append_nil fs).symm
  | cons p other ih =>
    have hset := append_cons_eq_set_append h
    rw [hset] at h ⊢
    exact ih h

/-! ## What is settled -/

/-- Either is nothing written, because it would come to an equal value, or all that is merged. -/
theorem settle_cases (fs other : Fields) : ((fs.merge other).toValue.Alike fs.toValue ∧ fs.settle other = fs) ∨
    (¬ (fs.merge other).toValue.Alike fs.toValue ∧ fs.settle other = fs.merge other) := by
  rw [Value.alike_iff_equal rfl]
  unfold settle
  split
  · next h => exact .inl ⟨h, rfl⟩
  · next h => exact .inr ⟨h, rfl⟩

theorem AreForms.settle (h : fs.AreForms) (hother : ∀ p ∈ other, p.2.jsonForm = .ok p.2) : (fs.settle other).AreForms := by
  obtain ⟨-, heq⟩ | ⟨-, heq⟩ := settle_cases fs other
  · rw [heq]
    exact h
  · rw [heq]
    exact h.merge hother

/-- A merge that comes to an equal value has the same names, with equal values under them. -/
theorem standsFor_of_alike (hfs : (fs.map Prod.fst).Nodup) (h : (fs.merge other).toValue.Alike fs.toValue) :
    fs.StandsFor (fs.merge other) := by
  obtain ⟨es, hes, hlength, hentries⟩ := Value.alike_dict.mp h
  obtain rfl : fs.toEntries = es := Value.dict.inj hes
  refine ⟨(names_prefix_merge fs other).eq_of_length ?_, fun {name v w} hv hw => .inr ?_⟩
  · unfold toEntries at hlength
    rw [List.length_map, List.length_map] at hlength ⊢
    exact hlength.symm
  · have hmem : (Value.str name, v) ∈ (fs.merge other).toEntries := by
      obtain ⟨p, hp, heq⟩ := Option.map_eq_some_iff.mp hv
      obtain rfl : p.1 = name := eq_of_beq (List.find?_some (p := fun q : String × Value => q.1 == name) hp)
      obtain rfl := heq
      exact List.mem_map_of_mem (List.mem_of_find?_eq_some hp)
    obtain ⟨f, hf, halike⟩ := hentries _ hmem
    obtain ⟨hmem, hkey⟩ := Value.mem_of_found? hf
    obtain ⟨⟨n, u⟩, hn, rfl⟩ := List.mem_map.mp hmem
    obtain rfl : n = name := Value.str.inj ((Value.alike_of_isExact rfl).mp hkey)
    obtain rfl := Option.some.inj (((get?_eq_some_iff hfs).mpr hn).symm.trans hw)
    exact halike

/-- What is settled goes on to stand for what is merged. -/
theorem StandsFor.settle (h : fs.StandsFor merged) (hfs : (fs.map Prod.fst).Nodup) (hother : (other.map Prod.fst).Nodup) :
    (fs.settle other).StandsFor (merged.merge other) := by
  have hnames : (fs.merge other).map Prod.fst = (merged.merge other).map Prod.fst := names_merge_congr h.names
  obtain ⟨halike, heq⟩ | ⟨-, heq⟩ := settle_cases fs other
  · rw [heq]
    have hkept := standsFor_of_alike hfs halike
    refine ⟨hkept.names.trans hnames, fun {name v w} hv hw => ?_⟩
    rw [get?_merge_of_nodup hother] at hv
    cases hnew : other.get? name with
    | none =>
      rw [hnew, Option.none_or] at hv
      exact h.alike hv hw
    | some u =>
      rw [hnew] at hv
      refine hkept.alike ?_ hw
      rw [get?_merge_of_nodup hother, hnew]
      exact hv
  · rw [heq]
    refine ⟨hnames, fun {name v w} hv hw => ?_⟩
    rw [get?_merge_of_nodup hother] at hv hw
    cases hnew : other.get? name with
    | none =>
      rw [hnew, Option.none_or] at hv hw
      exact h.alike hv hw
    | some u =>
      rw [hnew] at hv hw
      exact .inl (Option.some.inj (hv.symm.trans hw))

theorem mergeAll_concat (written : List Fields) (fs : Fields) : mergeAll (written ++ [fs]) = (mergeAll written).merge fs :=
  List.foldl_concat ..

theorem settleAll_concat (written : List Fields) (fs : Fields) : settleAll (written ++ [fs]) = (settleAll written).settle fs :=
  List.foldl_concat ..

theorem settleAll_singleton (h : fs.AreForms) : settleAll [fs] = fs := by
  have hmerge : merge [] fs = fs := append_merge h.nodup
  obtain ⟨halike, heq⟩ | ⟨-, heq⟩ := settle_cases [] fs
  · have hnames := (standsFor_of_alike AreForms.nil.nodup halike).names
    rw [hmerge] at hnames
    exact heq.trans (List.map_eq_nil_iff.mp hnames.symm).symm
  · exact heq.trans hmerge

theorem AreForms.settleAll (h : ∀ fs ∈ written, fs.AreForms) : (settleAll written).AreForms := by
  induction written using List.reverseRecOn with
  | nil => exact .nil
  | append_singleton written fs ih =>
    obtain ⟨hwritten, hfs⟩ := List.forall_mem_append.mp h
    rw [settleAll_concat]
    exact (ih hwritten).settle (hfs fs (List.mem_singleton_self fs)).form

/-- **What is settled stands for what is merged.** -/
theorem standsFor_settleAll (h : ∀ fs ∈ written, fs.AreForms) : (settleAll written).StandsFor (mergeAll written) := by
  induction written using List.reverseRecOn with
  | nil => exact ⟨rfl, nofun⟩
  | append_singleton written fs ih =>
    obtain ⟨hwritten, hfs⟩ := List.forall_mem_append.mp h
    rw [settleAll_concat, mergeAll_concat]
    exact (ih hwritten).settle (AreForms.settleAll hwritten).nodup (hfs fs (List.mem_singleton_self fs)).nodup

/-- Nothing that was written is lost. -/
theorem mem_names_settleAll (h : ∀ fs ∈ written, fs.AreForms) (hfs : fs ∈ written) (hname : name ∈ fs.map Prod.fst) :
    name ∈ (settleAll written).map Prod.fst := by
  rw [(standsFor_settleAll h).names]
  clear h
  induction written using List.reverseRecOn with
  | nil => cases hfs
  | append_singleton written gs ih =>
    rw [mergeAll_concat]
    obtain hfs | hfs := List.mem_append.mp hfs
    · exact (names_prefix_merge _ gs).subset (ih hfs)
    · obtain rfl := List.mem_singleton.mp hfs
      exact mem_names_merge hname

/-- A value that is merged was written. -/
theorem exists_of_get?_mergeAll (h : ∀ fs ∈ written, fs.AreForms) (hv : (mergeAll written).get? name = some v) :
    ∃ fs ∈ written, fs.get? name = some v := by
  induction written using List.reverseRecOn with
  | nil => cases hv
  | append_singleton written gs ih =>
    obtain ⟨hwritten, hgs⟩ := List.forall_mem_append.mp h
    have hlast : gs ∈ written ++ [gs] := List.mem_append_right _ (List.mem_singleton_self gs)
    rw [mergeAll_concat, get?_merge_of_nodup (h gs hlast).nodup] at hv
    obtain hnew | ⟨-, hold⟩ := Option.or_eq_some_iff.mp hv
    · exact ⟨gs, hlast, hnew⟩
    · obtain ⟨fs, hfs, hget⟩ := ih hwritten hold
      exact ⟨fs, List.mem_append_left _ hfs, hget⟩

/-- So was a value that is settled. -/
theorem exists_of_get?_settleAll (h : ∀ fs ∈ written, fs.AreForms) (hv : (settleAll written).get? name = some v) :
    ∃ fs ∈ written, fs.get? name = some v := by
  induction written using List.reverseRecOn with
  | nil => cases hv
  | append_singleton written gs ih =>
    obtain ⟨hwritten, hgs⟩ := List.forall_mem_append.mp h
    have hlast : gs ∈ written ++ [gs] := List.mem_append_right _ (List.mem_singleton_self gs)
    have hold : (settleAll written).get? name = some v → ∃ fs ∈ written ++ [gs], fs.get? name = some v := fun hget => by
      obtain ⟨fs, hfs, hget⟩ := ih hwritten hget
      exact ⟨fs, List.mem_append_left _ hfs, hget⟩
    rw [settleAll_concat] at hv
    obtain ⟨-, heq⟩ | ⟨-, heq⟩ := settle_cases (settleAll written) gs
    · rw [heq] at hv
      exact hold hv
    · rw [heq, get?_merge_of_nodup (h gs hlast).nodup] at hv
      obtain hnew | ⟨-, hget⟩ := Option.or_eq_some_iff.mp hv
      · exact ⟨gs, hlast, hnew⟩
      · exact hold hget

/-- **Where equal values are the same**, what is settled is what is merged. -/
theorem settleAll_eq_mergeAll (h : ∀ fs ∈ written, fs.AreForms) (hexact : AreExact written) : settleAll written = mergeAll written := by
  have hstands := standsFor_settleAll h
  refine eq_of_get? (AreForms.settleAll h).nodup hstands.names fun name v w hv hw => ?_
  obtain ⟨fs, hfs, hget⟩ := exists_of_get?_settleAll h hv
  obtain ⟨gs, hgs, hget'⟩ := exists_of_get?_mergeAll h hw
  obtain heq | halike := hstands.alike hw hv
  · exact heq.symm
  · exact (hexact gs hgs fs hfs name w v hget' hget halike).symm

end Fields

end Runbook
