import Runbook.Proofs.Form

/-!
# Snapshots as a projection

A snapshot changes the kinds of values and cuts them off at a depth, where the kind of a value no longer matters. What it leaves is
plain down to that depth, with texts only beyond it, and a snapshot of that changes nothing. So snapshots are a projection, and the
values that they leave as they are are those that a look at their nodes tells.

* `Value.NodeAt`: the nodes of a value, level by level; `Value.IsPlain`: a node that JSON has a form for.
* `Value.IsForm`: what a snapshot leaves at a depth. **`Value.isForm_of_snapshotAt`**, **`Value.IsForm.snapshotAt`**: so it is, and
  it is left as it is.
* **`Value.snapshots_are_a_projection`**: what snapshots come to, and which values they do not change.
-/

namespace Runbook

namespace Value

/-! ## Nodes -/

/-- The values that a value is made of: its items, or the values of its entries. -/
def parts : Value → List Value
  | list xs | tuple xs | set xs => xs
  | dict es => es.map (·.2)
  | _ => []

/-- A node of a value at a level. The value itself is its node at level zero, and the nodes of its parts are a level below. The keys
of dictionaries are no nodes. -/
inductive NodeAt : Value → Nat → Value → Prop where
  | root {v : Value} : NodeAt v 0 v
  | inside {v part u : Value} {level : Nat} : part ∈ v.parts → NodeAt part level u → NodeAt v (level + 1) u

/-- A node that JSON has a form for: null, a truth value, a number, a text, a list, or a dictionary whose keys are texts, each of
them once. What a list or a dictionary is made of are other nodes. -/
inductive IsPlain : Value → Prop where
  | null : IsPlain null
  | bool {b : Bool} : IsPlain (bool b)
  | int {n : Int} : IsPlain (int n)
  | float {x : Binary64} : IsPlain (float x)
  | str {s : String} : IsPlain (str s)
  | list {xs : List Value} : IsPlain (list xs)
  | dict {fields : Fields} : (fields.map Prod.fst).Nodup → IsPlain fields.toValue

/-- What is recorded at a depth: plain values whose parts are of this kind one level below, but texts only beyond the depth up to
which values keep their structure. -/
inductive IsForm : Int → Value → Prop where
  | str {depth : Int} {s : String} : IsForm depth (str s)
  | null {depth : Int} : depth ≤ snapshotDepth → IsForm depth null
  | bool {depth : Int} {b : Bool} : depth ≤ snapshotDepth → IsForm depth (bool b)
  | int {depth : Int} {n : Int} : depth ≤ snapshotDepth → IsForm depth (int n)
  | float {depth : Int} {x : Binary64} : depth ≤ snapshotDepth → IsForm depth (float x)
  | list {depth : Int} {xs : List Value} : depth ≤ snapshotDepth → (∀ x ∈ xs, IsForm (depth + 1) x) → IsForm depth (list xs)
  | dict {depth : Int} {fields : Fields} : depth ≤ snapshotDepth → (fields.map Prod.fst).Nodup →
    (∀ p ∈ fields, IsForm (depth + 1) p.2) → IsForm depth fields.toValue

theorem parts_toValue (fields : Fields) : fields.toValue.parts = fields.map Prod.snd := by
  show (fields.toEntries).map (·.2) = _
  rw [Fields.toEntries, List.map_map]
  rfl

end Value

/-- Fields under different names, whose values are what is recorded at a depth. -/
structure Fields.AreFormsAt (depth : Int) (fields : Fields) : Prop where
  nodup : (fields.map Prod.fst).Nodup
  form : ∀ p ∈ fields, p.2.IsForm depth

namespace Fields.AreFormsAt

variable {depth : Int} {fields : Fields} {v : Value}

theorem nil : AreFormsAt depth [] := ⟨List.nodup_nil, List.forall_mem_nil _⟩

theorem set (h : AreFormsAt depth fields) (name : String) (hv : v.IsForm depth) : AreFormsAt depth (fields.set name v) where
  nodup := nodup_set h.nodup name v
  form p hp := by
    rcases mem_set hp with hp | hp
    · exact h.form p hp
    · rw [hp]
      exact hv

end Fields.AreFormsAt

namespace Value

variable {depth : Int} {v w u : Value} {level : Nat}

/-! ## What snapshots leave -/

/-- A value beyond the depth becomes a text, so it is enough to look at the form within the depth. -/
theorem isForm_of_upTo {form : Except NotRecordable Value} (hform : depth ≤ snapshotDepth → form = .ok w → IsForm depth w)
    (h : upTo depth v form = .ok w) : IsForm depth w := by
  unfold upTo at h
  split at h
  · cases h
    exact .str
  · next hwithin => exact hform (Int.not_lt.mp hwithin) h

mutual

/-- **What a snapshot leaves** is of the form that is recorded at its depth. -/
theorem isForm_of_snapshotAt (v : Value) {depth : Int} {w : Value} (h : snapshotAt depth v = .ok w) : IsForm depth w := by
  match v with
  | null | bool _ | int _ | float _ | str _ | date _ | dateTime _ =>
    refine isForm_of_upTo (fun hwithin h => ?_) h
    cases h
    constructor <;> exact hwithin
  | bytes _ =>
    cases h
    exact .str
  | decimal d =>
    refine isForm_of_upTo (fun hwithin h => ?_) h
    split at h <;> cases h
    exact .float hwithin
  | dict es =>
    refine isForm_of_upTo (fun hwithin h => ?_) h
    obtain ⟨fields, hfields, rfl⟩ := map_eq_ok h
    have hforms := areFormsAt_of_snapshotEntries es .nil hfields
    exact .dict hwithin hforms.nodup hforms.form
  | list xs | tuple xs | set xs =>
    refine isForm_of_upTo (fun hwithin h => ?_) h
    obtain ⟨ys, hys, rfl⟩ := map_eq_ok h
    exact .list hwithin (isForm_of_snapshotItems xs hys)
termination_by structural v

theorem isForm_of_snapshotItems (xs : List Value) {depth : Int} {ys : List Value} (h : snapshotItems depth xs = .ok ys) :
    ∀ y ∈ ys, IsForm depth y := by
  match xs with
  | [] =>
    cases h
    exact List.forall_mem_nil _
  | x :: xs =>
    obtain ⟨y, hy, h⟩ := bind_eq_ok h
    obtain ⟨rest, hrest, h⟩ := bind_eq_ok h
    cases h
    exact List.forall_mem_cons.mpr ⟨isForm_of_snapshotAt x hy, isForm_of_snapshotItems xs hrest⟩
termination_by structural xs

theorem areFormsAt_of_snapshotEntries (es : List (Value × Value)) {depth : Int} {acc fields : Fields}
    (hacc : acc.AreFormsAt depth) (h : snapshotEntries depth es acc = .ok fields) : fields.AreFormsAt depth := by
  match es with
  | [] =>
    cases h
    exact hacc
  | (k, v) :: es =>
    obtain ⟨w, hw, h⟩ := bind_eq_ok h
    exact areFormsAt_of_snapshotEntries es (hacc.set k.text (isForm_of_snapshotAt v hw)) h
termination_by structural es

end

/-! ## What snapshots leave as it is -/

theorem upTo_of_le (h : depth ≤ snapshotDepth) (v : Value) (form : Except NotRecordable Value) : upTo depth v form = form :=
  if_neg (Int.not_lt.mpr h)

theorem snapshotItems_of_fixed {xs : List Value} (h : ∀ x ∈ xs, snapshotAt depth x = .ok x) : snapshotItems depth xs = .ok xs := by
  induction xs with
  | nil => rfl
  | cons x xs ih =>
    obtain ⟨hx, hxs⟩ := List.forall_mem_cons.mp h
    rw [snapshotItems, hx, ih hxs]
    rfl

theorem snapshotEntries_of_fixed {fields acc : Fields} (h : ∀ p ∈ fields, snapshotAt depth p.2 = .ok p.2)
    (hnodup : ((acc ++ fields).map Prod.fst).Nodup) : snapshotEntries depth fields.toEntries acc = .ok (acc ++ fields) := by
  induction fields generalizing acc with
  | nil =>
    rw [List.append_nil]
    rfl
  | cons p fields ih =>
    obtain ⟨n, v⟩ := p
    obtain ⟨hv, hfields⟩ := List.forall_mem_cons.mp h
    have hacc := Fields.append_cons_eq_set_append hnodup
    rw [hacc] at hnodup ⊢
    show (do
      let w ← snapshotAt depth v
      snapshotEntries depth (Fields.toEntries fields) (acc.set n w)) = _
    rw [hv]
    exact ih hfields hnodup

/-- **What is recorded is recorded as it is.** -/
theorem IsForm.snapshotAt (h : IsForm depth v) : snapshotAt depth v = .ok v := by
  induction h with
  | @str depth s =>
    show upTo depth (.str s) (.ok (.str s)) = _
    rw [upTo]
    split <;> rfl
  | null hwithin | bool hwithin | int hwithin | float hwithin => exact upTo_of_le hwithin _ _
  | @list depth xs hwithin _ ih =>
    rw [Value.snapshotAt, upTo_of_le hwithin, snapshotItems_of_fixed ih]
    rfl
  | @dict depth fields hwithin hnodup _ ih =>
    have hfields : snapshotEntries (depth + 1) fields.toEntries [] = .ok fields := snapshotEntries_of_fixed ih hnodup
    show Value.snapshotAt depth (.dict fields.toEntries) = _
    rw [Value.snapshotAt, upTo_of_le hwithin, hfields]
    rfl

/-! ## Nodes of what snapshots leave -/

theorem IsForm.isPlain (h : IsForm depth v) : v.IsPlain := by
  cases h with
  | str => exact .str
  | null => exact .null
  | bool => exact .bool
  | int => exact .int
  | float => exact .float
  | list => exact .list
  | dict _ hnodup => exact .dict hnodup

/-- What has a part is within the depth, and its parts are recorded one level below. -/
theorem IsForm.part {part : Value} (h : IsForm depth v) (hpart : part ∈ v.parts) :
    depth ≤ snapshotDepth ∧ IsForm (depth + 1) part := by
  cases h with
  | str | null | bool | int | float => cases hpart
  | list hwithin hxs => exact ⟨hwithin, hxs part hpart⟩
  | dict hwithin _ hfields =>
    rw [parts_toValue] at hpart
    obtain ⟨p, hp, rfl⟩ := List.mem_map.mp hpart
    exact ⟨hwithin, hfields p hp⟩

/-- What is recorded lies within the depth, or it is a text. -/
theorem IsForm.within_or_str (h : IsForm depth v) : depth ≤ snapshotDepth ∨ ∃ s, v = .str s := by
  cases h with
  | str => exact .inr ⟨_, rfl⟩
  | null hwithin | bool hwithin | int hwithin | float hwithin | list hwithin | dict hwithin => exact .inl hwithin

/-- **The nodes of what is recorded** are recorded at their depths, and none of them lies further than just beyond the depth up to
which values keep their structure. -/
theorem IsForm.node (hnode : NodeAt v level u) (h : IsForm depth v) (hdepth : depth ≤ snapshotDepth + 1) :
    IsForm (depth + level) u ∧ depth + level ≤ snapshotDepth + 1 := by
  induction hnode generalizing depth with
  | root =>
    rw [Int.natCast_zero, Int.add_zero]
    exact ⟨h, hdepth⟩
  | @inside v part u level hpart _ ih =>
    -- What has a part is within the depth, so the part is at most just beyond it.
    obtain ⟨hwithin, hform⟩ := h.part hpart
    have hlevel : depth + ((level + 1 : Nat) : Int) = depth + 1 + level := by omega
    rw [hlevel]
    exact ih hform (by omega)

theorem sizeOf_lt_of_mem_parts {part : Value} (h : part ∈ v.parts) : sizeOf part < sizeOf v := by
  cases v with
  | list xs | tuple xs | set xs =>
    have hlt : sizeOf part < sizeOf xs := List.sizeOf_lt_of_mem h
    simp only [list.sizeOf_spec, tuple.sizeOf_spec, set.sizeOf_spec]
    omega
  | dict es =>
    obtain ⟨⟨k, x⟩, he, rfl⟩ := List.mem_map.mp h
    have hlt : sizeOf (k, x) < sizeOf es := List.sizeOf_lt_of_mem he
    simp only [dict.sizeOf_spec, Prod.mk.sizeOf_spec] at hlt ⊢
    omega
  | _ => cases h

/-- A value is recorded as it is if its nodes are plain and all of them but texts are within the depth. -/
theorem isForm_of_nodes (v : Value) {depth : Int}
    (h : ∀ level u, NodeAt v level u → u.IsPlain ∧ (depth + level ≤ snapshotDepth ∨ ∃ s, u = str s)) : IsForm depth v := by
  have hparts : ∀ part ∈ v.parts, IsForm (depth + 1) part := by
    intro part hpart
    refine isForm_of_nodes part fun level u hu => ?_
    obtain ⟨hplain, hwithin⟩ := h (level + 1) u (.inside hpart hu)
    have hlevel : depth + ((level + 1 : Nat) : Int) = depth + 1 + level := by omega
    exact ⟨hplain, hlevel ▸ hwithin⟩
  obtain ⟨hplain, hroot⟩ := h 0 v .root
  have hwithin : (∀ s, v ≠ str s) → depth ≤ snapshotDepth := fun hne =>
    hroot.elim (fun hle => by omega) fun ⟨s, hs⟩ => absurd hs (hne s)
  cases hplain with
  | str => exact .str
  | null => exact .null (hwithin nofun)
  | bool => exact .bool (hwithin nofun)
  | int => exact .int (hwithin nofun)
  | float => exact .float (hwithin nofun)
  | list => exact .list (hwithin nofun) hparts
  | @dict fields hnodup =>
    refine .dict (hwithin nofun) hnodup fun p hp => hparts p.2 ?_
    rw [parts_toValue]
    exact List.mem_map_of_mem hp
termination_by sizeOf v
decreasing_by exact sizeOf_lt_of_mem_parts hpart

/-! ## Snapshots of whole values -/

theorem snapshot_eq_self_iff :
    v.snapshot = .ok v ↔ ∀ level u, NodeAt v level u → u.IsPlain ∧ (level ≤ 10 ∨ ∃ s, u = str s) := by
  have hdepth : snapshotDepth = 10 := rfl
  constructor
  · intro h level u hu
    obtain ⟨hform, -⟩ := (isForm_of_snapshotAt v h).node hu (by omega)
    exact ⟨hform.isPlain, hform.within_or_str.imp_left fun hwithin => by omega⟩
  · intro h
    refine (isForm_of_nodes v fun level u hu => ?_).snapshotAt
    obtain ⟨hplain, hwithin⟩ := h level u hu
    exact ⟨hplain, hwithin.imp_left fun hle => by omega⟩

/-- **Snapshots are a projection onto plain values.** Every value without a signaling NaN has a snapshot. All nodes of the snapshot
are plain and none is deeper than level 11, and its own snapshot is the snapshot again. The values whose snapshot is the value
itself are those all of whose nodes are plain and, but for texts, at level 10 or above. So a plain value that is no deeper than that
is its own snapshot, and variables that are lose nothing when they are recorded. -/
theorem snapshots_are_a_projection :
    (∀ v : Value, v.isRecordable → ∃ w, v.snapshot = .ok w ∧ (∀ level u, NodeAt w level u → u.IsPlain ∧ level ≤ 11) ∧
      w.snapshot = .ok w) ∧
    (∀ v : Value, v.snapshot = .ok v ↔ ∀ level u, NodeAt v level u → u.IsPlain ∧ (level ≤ 10 ∨ ∃ s, u = str s)) ∧
    (∀ v : Value, (∀ level u, NodeAt v level u → u.IsPlain ∧ level ≤ 10) → v.snapshot = .ok v) ∧
    ∀ vs : Variables, (∀ level u, NodeAt (dict vs) level u → u.IsPlain ∧ level ≤ 10) → vs.recorded = .ok (dict vs) := by
  have hshallow : ∀ v : Value, (∀ level u, NodeAt v level u → u.IsPlain ∧ level ≤ 10) → v.snapshot = .ok v :=
    fun v h => snapshot_eq_self_iff.mpr fun level u hu => (h level u hu).imp_right .inl
  refine ⟨fun v hv => ?_, fun v => snapshot_eq_self_iff, hshallow, fun vs h => ?_⟩
  · obtain ⟨w, hw⟩ := snapshotAt_isOk v hv 0
    have hform := isForm_of_snapshotAt v hw
    refine ⟨w, hw, fun level u hu => ?_, hform.snapshotAt⟩
    have hdepth : snapshotDepth = 10 := rfl
    obtain ⟨hnode, hlevel⟩ := hform.node hu (by omega)
    exact ⟨hnode.isPlain, by omega⟩
  · rw [Variables.recorded, recorded, hshallow _ h]
    rfl

/-- A value with so many lists around it. -/
def nested : Nat → Value → Value
  | 0, v => v
  | n + 1, v => list [nested n v]

/-- A number key, a date in a tuple, and a list that is cut off, and variables that are recorded as they are. -/
theorem snapshots_are_a_projection_nested :
    let v : Value := dict [(int 1, tuple [bool true, date ⟨2026, 11, 1⟩]), (str "deep", nested 11 (int 7))]
    let w : Value := dict [(str "1", list [bool true, str "2026-11-01"]), (str "deep", nested 10 (str "[7]"))]
    let vs : Variables := [(str "lines", list [int 1])]
    v.snapshot = .ok w ∧ w.snapshot = .ok w ∧ (∀ level u, NodeAt w level u → u.IsPlain ∧ level ≤ 11) ∧
      (dict vs).snapshot = .ok (dict vs) ∧ vs.recorded = .ok (dict vs) := by
  intro v w vs
  obtain ⟨hprojects, -, hshallow, hrecorded⟩ := snapshots_are_a_projection
  obtain ⟨w', hw', hnodes, hagain⟩ := hprojects v rfl
  have hw : v.snapshot = .ok w := rfl
  obtain rfl : w = w' := Except.ok.inj (hw.symm.trans hw')
  have hlines : IsPlain (Fields.toValue [("lines", list [int 1])]) := .dict (List.pairwise_singleton _ _)
  have hvs : ∀ level u, NodeAt (dict vs) level u → u.IsPlain ∧ level ≤ 10 := by
    intro level u hu
    cases hu with
    | root => exact ⟨hlines, by omega⟩
    | inside hpart hu =>
      obtain rfl := List.mem_singleton.mp hpart
      cases hu with
      | root => exact ⟨.list, by omega⟩
      | inside hpart hu =>
        obtain rfl := List.mem_singleton.mp hpart
        cases hu with
        | root => exact ⟨.int, by omega⟩
        | inside hpart _ => cases hpart
  exact ⟨hw, hagain, hnodes, hshallow _ hvs, hrecorded vs hvs⟩

end Value

end Runbook
