import Runbook.Engine
import Runbook.Proofs.Result

/-!
# Recordable values

The only value without a recorded form is one that holds a signaling NaN where its structure is kept. A value that holds
none at all has a recorded form however deep it is looked at, and so has whatever is found inside it or made of such values.

* `Value.isRecordable`: no signaling NaN is among the items and entries of a value, at any depth.
* **`Value.recorded_isOk`**: a recordable value has a recorded form.
* **`Json.isRecordable_of_read`**: what is read from a JSON text is recordable.
-/

namespace Runbook

namespace Value

mutual

/-- Whether a value holds no signaling NaN. -/
def isRecordable : Value → Bool
  | decimal d => d.toBinary64?.isSome
  | dict es => entriesRecordable es
  | list xs | tuple xs | set xs => itemsRecordable xs
  | _ => true

/-- Whether no item of a list holds a signaling NaN. -/
def itemsRecordable : List Value → Bool
  | [] => true
  | x :: xs => isRecordable x && itemsRecordable xs

/-- Whether no value of a dictionary holds a signaling NaN. -/
def entriesRecordable : List (Value × Value) → Bool
  | [] => true
  | (_, v) :: es => isRecordable v && entriesRecordable es

end

theorem itemsRecordable_iff {xs : List Value} : itemsRecordable xs ↔ ∀ x ∈ xs, x.isRecordable := by
  induction xs with
  | nil => simp [itemsRecordable]
  | cons x xs ih => simp [itemsRecordable, ih]

theorem entriesRecordable_iff {es : Entries} : entriesRecordable es ↔ ∀ e ∈ es, e.2.isRecordable := by
  induction es with
  | nil => simp [entriesRecordable]
  | cons e es ih => simp [entriesRecordable, ih]

theorem isRecordable_list {xs : List Value} : (list xs).isRecordable ↔ ∀ x ∈ xs, x.isRecordable := itemsRecordable_iff

theorem isRecordable_tuple {xs : List Value} : (tuple xs).isRecordable ↔ ∀ x ∈ xs, x.isRecordable :=
  itemsRecordable_iff

theorem isRecordable_dict {es : Entries} : (dict es).isRecordable ↔ ∀ e ∈ es, e.2.isRecordable :=
  entriesRecordable_iff

/-! ## Snapshots -/

theorem upTo_isOk {depth : Int} {v : Value} {form : Except NotRecordable Value} (h : ∃ w, form = .ok w) :
    ∃ w, upTo depth v form = .ok w := by
  unfold upTo
  split
  · exact ⟨_, rfl⟩
  · exact h

theorem map_isOk {α β : Type} {x : Except NotRecordable α} (f : α → β) (h : ∃ a, x = .ok a) :
    ∃ b, x.map f = .ok b := by
  obtain ⟨a, rfl⟩ := h
  exact ⟨f a, rfl⟩

mutual

theorem snapshotAt_isOk (v : Value) (h : v.isRecordable) (depth : Int) : ∃ w, snapshotAt depth v = .ok w := by
  match v with
  | null | bool _ | int _ | float _ | str _ | date _ | dateTime _ => exact upTo_isOk ⟨_, rfl⟩
  | bytes _ => exact ⟨_, rfl⟩
  | decimal d =>
    obtain ⟨x, hx⟩ := Option.isSome_iff_exists.mp h
    exact upTo_isOk ⟨.float x, by rw [hx]⟩
  | dict es => exact upTo_isOk (map_isOk _ (snapshotEntries_isOk es h (depth + 1) []))
  | list xs | tuple xs | set xs => exact upTo_isOk (map_isOk _ (snapshotItems_isOk xs h (depth + 1)))
termination_by structural v

theorem snapshotItems_isOk (xs : List Value) (h : itemsRecordable xs) (depth : Int) :
    ∃ ys, snapshotItems depth xs = .ok ys := by
  match xs with
  | [] => exact ⟨[], rfl⟩
  | x :: xs =>
    obtain ⟨hx, hxs⟩ := Bool.and_eq_true_iff.mp h
    obtain ⟨y, hy⟩ := snapshotAt_isOk x hx depth
    obtain ⟨ys, hys⟩ := snapshotItems_isOk xs hxs depth
    exact ⟨y :: ys, by rw [snapshotItems, hy, hys]; rfl⟩
termination_by structural xs

theorem snapshotEntries_isOk (es : List (Value × Value)) (h : entriesRecordable es) (depth : Int) (acc : Fields) :
    ∃ fs, snapshotEntries depth es acc = .ok fs := by
  match es with
  | [] => exact ⟨acc, rfl⟩
  | (k, v) :: es =>
    obtain ⟨hv, hes⟩ := Bool.and_eq_true_iff.mp h
    obtain ⟨w, hw⟩ := snapshotAt_isOk v hv depth
    obtain ⟨fs, hfs⟩ := snapshotEntries_isOk es hes depth (acc.set k.text w)
    exact ⟨fs, by rw [snapshotEntries, hw]; exact hfs⟩
termination_by structural es

end

/-- **A recordable value has a recorded form.** -/
theorem recorded_isOk {v : Value} (h : v.isRecordable) : ∃ w, v.recorded = .ok w := by
  obtain ⟨w, hw⟩ := snapshotAt_isOk v h 0
  exact ⟨w, by rw [recorded, snapshot, hw]; rfl⟩

end Value

/-! ## Entries -/

theorem Entries.mem_of_get? {es : Entries} {key : String} {v : Value} (h : es.get? key = some v) :
    ∃ k, (k, v) ∈ es := by
  induction es with
  | nil => cases h
  | cons e es ih =>
    rw [Entries.get?] at h
    split at h
    · cases h
      exact ⟨e.1, List.mem_cons_self⟩
    · obtain ⟨k, hk⟩ := ih h
      exact ⟨k, List.mem_cons_of_mem _ hk⟩

theorem Entries.mem_set {es : Entries} {key : String} {v : Value} {e : Value × Value} (h : e ∈ es.set key v) :
    e ∈ es ∨ e.2 = v := by
  induction es with
  | nil =>
    rw [List.mem_singleton.mp h]
    exact .inr rfl
  | cons e' es ih =>
    rw [Entries.set] at h
    split at h <;> rcases List.mem_cons.mp h with rfl | h
    · exact .inr rfl
    · exact .inl (List.mem_cons_of_mem _ h)
    · exact .inl List.mem_cons_self
    · exact (ih h).imp_left (List.mem_cons_of_mem _)

theorem Value.mem_putKey {es : Entries} {key v : Value} {e : Value × Value} (h : e ∈ Value.putKey es key v) :
    e ∈ es ∨ e.2 = v := by
  induction es with
  | nil =>
    rw [List.mem_singleton.mp h]
    exact .inr rfl
  | cons e' es ih =>
    rw [Value.putKey] at h
    split at h <;> rcases List.mem_cons.mp h with rfl | h
    · exact .inr rfl
    · exact .inl (List.mem_cons_of_mem _ h)
    · exact .inl List.mem_cons_self
    · exact (ih h).imp_left (List.mem_cons_of_mem _)

namespace Variables

/-- Variables all of whose values are recordable. -/
def AreRecordable (vs : Variables) : Prop := ∀ e ∈ vs, e.2.isRecordable

theorem AreRecordable.recorded_isOk {vs : Variables} (h : vs.AreRecordable) : ∃ w, vs.recorded = .ok w :=
  Value.recorded_isOk (Value.isRecordable_dict.mpr h)

theorem AreRecordable.set {vs : Variables} {v : Value} (h : vs.AreRecordable) (hv : v.isRecordable) (name : String) :
    Variables.AreRecordable (Entries.set vs name v) := by
  intro e he
  rcases Entries.mem_set he with he | he
  · exact h e he
  · exact he ▸ hv

theorem AreRecordable.merge {vs others : Variables} (h : vs.AreRecordable) (ho : others.AreRecordable) :
    (vs.merge others).AreRecordable := by
  unfold Variables.merge
  induction others generalizing vs with
  | nil => exact h
  | cons e others ih =>
    refine ih ?_ fun e' he' => ho e' (List.mem_cons_of_mem _ he')
    intro e' he'
    rcases Value.mem_putKey he' with he' | he'
    · exact h e' he'
    · exact he' ▸ ho e List.mem_cons_self

end Variables

namespace Value

/-! ## Paths -/

theorem isRecordable_item {items : List Value} {segment : List Char} {v : Value} (h : ∀ x ∈ items, x.isRecordable)
    (hv : item items segment = .ok (some v)) : v.isRecordable := by
  unfold item at hv
  split at hv
  · cases hv
  · split at hv
    · cases hv
    · exact h v (List.mem_of_getElem? (Except.ok.inj hv))

theorem isRecordable_enter {v w : Value} {segment : List Char} (h : v.isRecordable)
    (hw : v.enter segment = .ok (some w)) : w.isRecordable := by
  unfold enter at hw
  split at hw
  · obtain ⟨k, hk⟩ := Entries.mem_of_get? (Except.ok.inj hw)
    exact isRecordable_dict.mp h _ hk
  · exact isRecordable_item (isRecordable_list.mp h) hw
  · exact isRecordable_item (isRecordable_tuple.mp h) hw
  · cases hw

theorem isRecordable_follow {v w : Value} {path : List (List Char)} (h : v.isRecordable)
    (hw : v.follow path = .ok w) : w.isRecordable := by
  induction path generalizing v with
  | nil => exact Except.ok.inj hw ▸ h
  | cons segment path ih =>
    rw [follow] at hw
    split at hw
    · cases hw
    · exact Except.ok.inj hw ▸ rfl
    · next u hu => exact ih (isRecordable_enter h hu) hw

end Value

theorem Variables.AreRecordable.lookup {vs : Variables} {path : String} {v : Value} (h : vs.AreRecordable)
    (hv : vs.lookup (.str path) = .ok v) : v.isRecordable := by
  rw [Variables.lookup, Value.lookup, Value.resolve] at hv
  split at hv
  · exact Except.ok.inj hv ▸ rfl
  · cases hw : (Value.dict vs).follow (Text.splitChars '.' path.toList) with
    | error e => rw [hw] at hv; cases hv
    | ok w =>
      rw [hw] at hv
      exact Except.ok.inj hv ▸ Value.isRecordable_follow (Value.isRecordable_dict.mpr h) hw

/-! ## Reading JSON -/

namespace Json

theorem isRecordable_of_readNumber {pos : Nat} {cs : List Char} {v : Value} {next : Nat × List Char}
    (h : readNumber pos cs = .ok (v, next)) : v.isRecordable := by
  unfold readNumber at h
  split at h
  extract_lets whole rest fraction rest at h
  split at h
  · cases h
  · split at h
    extract_lets at h
    split at h
    · split at h
      · cases h
      · cases h; rfl
    · cases h; rfl

theorem isRecordable_of_mem_words {w : List Char} {v : Value} (h : (w, v) ∈ words) : v.isRecordable := by
  have hall : ∀ p ∈ words, p.2.isRecordable := by decide
  exact hall _ h

/-- What is read from a text is recordable, if so much fuel is given. -/
def ReadsRecordable (fuel : Nat) : Prop :=
  (∀ pos cs v next, readValue fuel pos cs = .ok (v, next) → v.isRecordable) ∧
  (∀ pos cs xs next, readItems fuel pos cs = .ok (xs, next) → ∀ x ∈ xs, x.isRecordable) ∧
  (∀ pos cs acc es next, readEntries fuel pos cs acc = .ok (es, next) → Variables.AreRecordable acc →
    Variables.AreRecordable es)

theorem isRecordable_of_readValue {fuel : Nat} (ih : ReadsRecordable fuel) {pos : Nat} {cs : List Char} {v : Value}
    {next : Nat × List Char} (h : readValue (fuel + 1) pos cs = .ok (v, next)) : v.isRecordable := by
  unfold readValue at h
  split at h
  · cases h
  · obtain ⟨s, hs, h⟩ := bind_eq_ok h
    cases h
    rfl
  · split at h
    · cases h
      rfl
    · obtain ⟨⟨xs, next⟩, hxs, h⟩ := bind_eq_ok h
      cases h
      exact Value.isRecordable_list.mpr (ih.2.1 _ _ _ _ hxs)
  · split at h
    · cases h
      rfl
    · obtain ⟨⟨es, next⟩, hes, h⟩ := bind_eq_ok h
      cases h
      exact Value.isRecordable_dict.mpr (ih.2.2 _ _ _ _ _ hes (List.forall_mem_nil _))
  · split at h
    · next w _ hw =>
      cases h
      exact isRecordable_of_mem_words (List.mem_of_find?_eq_some hw)
    · exact isRecordable_of_readNumber h

theorem areRecordable_of_readItems {fuel : Nat} (ih : ReadsRecordable fuel) {pos : Nat} {cs : List Char}
    {xs : List Value} {next : Nat × List Char} (h : readItems (fuel + 1) pos cs = .ok (xs, next)) :
    ∀ x ∈ xs, x.isRecordable := by
  unfold readItems at h
  obtain ⟨⟨x, pos, rest⟩, hx, h⟩ := bind_eq_ok h
  have hxr := ih.1 _ _ _ _ hx
  dsimp only at h
  split at h
  · cases h
    exact List.forall_mem_singleton.mpr hxr
  · obtain ⟨⟨ys, next⟩, hys, h⟩ := bind_eq_ok h
    cases h
    exact List.forall_mem_cons.mpr ⟨hxr, ih.2.1 _ _ _ _ hys⟩
  · cases h

theorem areRecordable_of_readEntries {fuel : Nat} (ih : ReadsRecordable fuel) {pos : Nat} {cs : List Char}
    {acc es : Entries} {next : Nat × List Char} (h : readEntries (fuel + 1) pos cs acc = .ok (es, next))
    (hacc : Variables.AreRecordable acc) : Variables.AreRecordable es := by
  unfold readEntries at h
  split at h
  · obtain ⟨⟨key, pos, rest⟩, -, h⟩ := bind_eq_ok h
    dsimp only at h
    split at h
    · obtain ⟨⟨v, pos, rest⟩, hv, h⟩ := bind_eq_ok h
      have hset := hacc.set (ih.1 _ _ _ _ hv) key
      dsimp only at h
      split at h
      · cases h
        exact hset
      · exact ih.2.2 _ _ _ _ _ h hset
      · cases h
    · cases h
  · cases h

theorem readsRecordable (fuel : Nat) : ReadsRecordable fuel := by
  induction fuel with
  | zero =>
    refine ⟨?_, ?_, ?_⟩
    · rintro pos cs v next ⟨⟩
    · rintro pos cs xs next ⟨⟩
    · rintro pos cs acc es next ⟨⟩
  | succ fuel ih =>
    exact ⟨fun _ _ _ _ h => isRecordable_of_readValue ih h, fun _ _ _ _ h => areRecordable_of_readItems ih h,
      fun _ _ _ _ _ h => areRecordable_of_readEntries ih h⟩

/-- **What is read from a JSON text is recordable.** -/
theorem isRecordable_of_read {text : String} {v : Value} (h : Json.read text = .ok v) : v.isRecordable := by
  unfold Json.read at h
  extract_lets cs located at h
  split at h
  split at h
  · cases h
  · cases h
  · next w pos rest hw =>
    have hwr := (readsRecordable _).1 _ _ _ _ hw
    split at h
    · cases h
      exact hwr
    · cases h

end Json

namespace Engine

/-- A run that is given recordable variables only begins with such. -/
theorem startVariables_areRecordable {stored : StoredWorkflow} {o : Order} {vs : Variables}
    (hs : stored.initial.isRecordable) (ho : o.given.AreRecordable) (h : startVariables stored o = .ok vs) :
    vs.AreRecordable := by
  have horElse : (stored.initial.orElse (.dict [])).isRecordable := by
    unfold Value.orElse
    split
    · exact hs
    · rfl
  unfold startVariables at h
  generalize stored.initial.orElse (.dict []) = v at h horElse
  cases v with
  | dict es =>
    cases h
    exact Variables.AreRecordable.merge (Value.isRecordable_dict.mp horElse) ho
  | _ => cases h

end Engine

end Runbook
