import Runbook.Proofs.Tour

/-!
# Descents into values

A path descends into a value segment by segment. What it comes to is found, or is missing and null. Only one thing ends a descent
with a failure: a list or a tuple, and digits for it that are too many to be read as an index.

* `Text.splitChars_append_cons`: the segments of two paths that a dot joins are those of the one and then those of the other.
* `Value.Under`, `Value.LiesAt`: what lies under a segment, and at the end of a path.
* `Value.Misses`, `Value.Overruns`: paths that lead to nothing, and paths that fail.
* **`Value.lookups_fail_only_at_overlong_indexes`**: what every lookup comes to.
* **`Value.lookups_compose`**: to look up a joined path is to look up one after the other.
-/

namespace Runbook

namespace Text

/-! ## Segments -/

variable {sep c : Char} {cs piece : List Char}

theorem splitChars_ne_nil (sep : Char) (cs : List Char) : splitChars sep cs ≠ [] := by
  cases cs with
  | nil => exact List.cons_ne_nil _ _
  | cons c cs =>
    rw [splitChars]
    split
    · exact List.cons_ne_nil _ _
    · split <;> exact List.cons_ne_nil _ _

theorem splitChars_sep (sep : Char) (cs : List Char) : splitChars sep (sep :: cs) = [] :: splitChars sep cs := by
  rw [splitChars, if_pos rfl]

/-- A character that is no separator belongs to the first piece. -/
theorem exists_splitChars_cons (h : c ≠ sep) (cs : List Char) :
    ∃ piece rest, splitChars sep cs = piece :: rest ∧ splitChars sep (c :: cs) = (c :: piece) :: rest := by
  obtain ⟨piece, rest, hcs⟩ := List.exists_cons_of_ne_nil (splitChars_ne_nil sep cs)
  exact ⟨piece, rest, hcs, by rw [splitChars, if_neg h, hcs]⟩

/-- **The pieces of two texts with a separator between them** are those of the first and then those of the second. -/
theorem splitChars_append_cons (sep : Char) (cs ds : List Char) :
    splitChars sep (cs ++ sep :: ds) = splitChars sep cs ++ splitChars sep ds := by
  induction cs with
  | nil => exact splitChars_sep sep ds
  | cons c cs ih =>
    by_cases hc : c = sep
    · rw [hc, List.cons_append, splitChars_sep, splitChars_sep, ih, List.cons_append]
    · obtain ⟨piece, rest, hcs, hcons⟩ := exists_splitChars_cons hc cs
      obtain ⟨piece', rest', hcs', hcons'⟩ := exists_splitChars_cons hc (cs ++ sep :: ds)
      rw [hcs', hcs, List.cons_append] at ih
      obtain ⟨rfl, rfl⟩ := List.cons.inj ih
      rw [List.cons_append, hcons', hcons, List.cons_append]

theorem splitChars_of_notMem (h : sep ∉ cs) : splitChars sep cs = [cs] := by
  induction cs with
  | nil => rfl
  | cons c cs ih =>
    rw [splitChars, if_neg (List.ne_of_not_mem_cons h).symm, ih (List.not_mem_of_not_mem_cons h)]

/-- A piece is no longer than the text, and the separator does not stand in it. -/
theorem length_le_of_mem_splitChars (h : piece ∈ splitChars sep cs) : piece.length ≤ cs.length ∧ sep ∉ piece := by
  induction cs generalizing piece with
  | nil =>
    obtain rfl := List.mem_singleton.mp h
    exact ⟨Nat.le_refl _, List.not_mem_nil⟩
  | cons c cs ih =>
    by_cases hc : c = sep
    · rw [hc, splitChars_sep] at h
      rcases List.mem_cons.mp h with rfl | h
      · exact ⟨Nat.zero_le _, List.not_mem_nil⟩
      · exact (ih h).imp_left Nat.le_succ_of_le
    · obtain ⟨first, rest, hcs, hcons⟩ := exists_splitChars_cons hc cs
      rw [hcons] at h
      rw [hcs] at ih
      rcases List.mem_cons.mp h with rfl | h
      · obtain ⟨hle, hsep⟩ := ih List.mem_cons_self
        exact ⟨Nat.succ_le_succ hle, fun hmem => (List.mem_cons.mp hmem).elim (fun he => hc he.symm) hsep⟩
      · exact (ih (List.mem_cons_of_mem _ h)).imp_left Nat.le_succ_of_le

/-! ## Indexes -/

/-- A text of decimal digits of any script. -/
def IsIndex (cs : List Char) : Prop := cs ≠ [] ∧ ∀ c ∈ cs, (decimalValue? c).isSome

/-- **A text stands for a number exactly if it is made of decimal digits.** -/
theorem decimalNumber?_isSome : (decimalNumber? cs).isSome ↔ IsIndex cs := by
  have hdigits : ∀ (cs : List Char) (acc : Option Nat),
      (cs.foldl (fun acc c => acc.bind fun n => (decimalValue? c).map (n * 10 + ·)) acc).isSome ↔
        acc.isSome ∧ ∀ c ∈ cs, (decimalValue? c).isSome := by
    intro cs
    induction cs with
    | nil => simp
    | cons c cs ih =>
      intro acc
      rw [List.foldl_cons, ih, List.forall_mem_cons, ← and_assoc]
      cases acc <;> simp
  unfold decimalNumber? IsIndex
  cases cs with
  | nil => simp
  | cons c cs =>
    rw [List.isEmpty_cons, if_neg Bool.false_ne_true, hdigits]
    simp

end Text

namespace Value

open Text

variable {u v w : Value} {segment : List Char} {path rest : List (List Char)} {e : IndexTooLong}

/-! ## What lies at a path -/

/-- The items of a list or of a tuple. -/
def sequence? : Value → Option (List Value)
  | list xs | tuple xs => some xs
  | _ => none

/-- A value lies under a segment of another: under that key of a dictionary, or at the place that the digits of the segment tell
in a list or a tuple. -/
inductive Under (segment : List Char) (w : Value) : Value → Prop where
  | key {es : Entries} : es.get? (String.ofList segment) = some w → Under segment w (dict es)
  | item {v : Value} {xs : List Value} {n : Nat} : v.sequence? = some xs → segment.length ≤ maxIndexDigits →
    decimalNumber? segment = some n → xs[n]? = some w → Under segment w v

/-- A list or a tuple is given digits that are too many to be read as an index. -/
def IsOverlong (segment : List Char) (v : Value) : Prop :=
  v.sequence?.isSome ∧ IsIndex segment ∧ maxIndexDigits < segment.length

/-- A value lies at the end of a path into another. -/
inductive LiesAt : Value → List (List Char) → Value → Prop where
  | here {v : Value} : LiesAt v [] v
  | under {u v w : Value} {segment : List Char} {rest : List (List Char)} : Under segment u v → LiesAt u rest w →
    LiesAt v (segment :: rest) w

/-- On the way along a path nothing lies under the next segment. -/
inductive Misses : Value → List (List Char) → Prop where
  | here {v : Value} {segment : List Char} {rest : List (List Char)} : (∀ u, ¬ Under segment u v) → ¬ IsOverlong segment v →
    Misses v (segment :: rest)
  | under {u v : Value} {segment : List Char} {rest : List (List Char)} : Under segment u v → Misses u rest →
    Misses v (segment :: rest)

/-- On the way along a path a list or a tuple is given an index of so many digits, too many to be read. -/
inductive Overruns : Value → List (List Char) → Nat → Prop where
  | here {v : Value} {segment : List Char} {rest : List (List Char)} : IsOverlong segment v →
    Overruns v (segment :: rest) segment.length
  | under {u v : Value} {segment : List Char} {rest : List (List Char)} {n : Nat} : Under segment u v → Overruns u rest n →
    Overruns v (segment :: rest) n

/-! ## Single segments -/

/-- Whether a path can go on into a value. -/
def isEnterable : Value → Bool
  | dict _ | list _ | tuple _ => true
  | _ => false

theorem enter_of_not_isEnterable (h : ¬ v.isEnterable) (segment : List Char) : v.enter segment = .ok none := by
  cases v with
  | dict | list | tuple => exact absurd rfl h
  | _ => rfl

theorem enter_of_sequence? {xs : List Value} (h : v.sequence? = some xs) (segment : List Char) :
    v.enter segment = item xs segment := by
  cases v <;> cases h <;> rfl

theorem item_eq_error {xs : List Value} :
    item xs segment = .error e ↔ IsIndex segment ∧ maxIndexDigits < segment.length ∧ e = ⟨segment.length⟩ := by
  unfold item
  rw [← decimalNumber?_isSome]
  cases decimalNumber? segment with
  | none => simp
  | some n =>
    by_cases hlong : maxIndexDigits < segment.length
    · simp [hlong, eq_comm]
    · simp [hlong]

theorem item_eq_some {xs : List Value} : item xs segment = .ok (some w) ↔
    segment.length ≤ maxIndexDigits ∧ ∃ n, decimalNumber? segment = some n ∧ xs[n]? = some w := by
  unfold item
  cases decimalNumber? segment with
  | none => simp
  | some n =>
    by_cases hlong : maxIndexDigits < segment.length
    · simp [hlong, Nat.not_le.mpr hlong]
    · simp [hlong, Nat.not_lt.mp hlong]

theorem enter_eq_error : v.enter segment = .error e ↔ IsOverlong segment v ∧ e = ⟨segment.length⟩ := by
  unfold IsOverlong
  cases v with
  | list xs | tuple xs =>
    rw [enter, item_eq_error, ← and_assoc]
    simp [sequence?]
  | _ => exact iff_of_false nofun fun h => Bool.false_ne_true h.1.1

theorem enter_eq_some : v.enter segment = .ok (some w) ↔ Under segment w v := by
  constructor
  · intro h
    cases v with
    | dict es => exact .key (Except.ok.inj h)
    | list xs | tuple xs =>
      obtain ⟨hshort, n, hn, hw⟩ := item_eq_some.mp h
      exact .item rfl hshort hn hw
    | _ => cases h
  · intro h
    cases h with
    | key h => exact congrArg Except.ok h
    | item hseq hshort hn hw =>
      rw [enter_of_sequence? hseq]
      exact item_eq_some.mpr ⟨hshort, _, hn, hw⟩

theorem enter_eq_none : v.enter segment = .ok none ↔ (∀ u, ¬ Under segment u v) ∧ ¬ IsOverlong segment v := by
  constructor
  · intro h
    refine ⟨fun u hu => ?_, fun hlong => ?_⟩
    · cases h.symm.trans (enter_eq_some.mpr hu)
    · cases h.symm.trans (enter_eq_error.mpr ⟨hlong, rfl⟩)
  · rintro ⟨hnone, hshort⟩
    cases h : v.enter segment with
    | error e => exact absurd (enter_eq_error.mp h).1 hshort
    | ok found =>
      cases found with
      | none => rfl
      | some u => exact absurd (enter_eq_some.mp h) (hnone u)

/-! ## Whole paths -/

theorem follow_under (h : Under segment u v) (rest : List (List Char)) : v.follow (segment :: rest) = u.follow rest := by
  rw [follow, enter_eq_some.mpr h]

theorem follow_of_missing (h : v.enter segment = .ok none) (rest : List (List Char)) :
    v.follow (segment :: rest) = .ok null := by
  rw [follow, h]

theorem follow_of_liesAt (h : LiesAt v path w) : v.follow path = .ok w := by
  induction h with
  | here => rfl
  | under h _ ih => rw [follow_under h, ih]

theorem follow_of_misses (h : Misses v path) : v.follow path = .ok null := by
  induction h with
  | here hnone hshort => exact follow_of_missing (enter_eq_none.mpr ⟨hnone, hshort⟩) _
  | under h _ ih => rw [follow_under h, ih]

theorem follow_of_overruns {n : Nat} (h : Overruns v path n) : v.follow path = .error ⟨n⟩ := by
  induction h with
  | here hlong => rw [follow, enter_eq_error.mpr ⟨hlong, rfl⟩]
  | under h _ ih => rw [follow_under h, ih]

/-- **A path leads somewhere, misses, or overruns**, as the descent along it finds. -/
theorem liesAt_or_misses_or_overruns (v : Value) (path : List (List Char)) :
    (∃ w, LiesAt v path w) ∨ Misses v path ∨ ∃ n, Overruns v path n := by
  induction path generalizing v with
  | nil => exact .inl ⟨v, .here⟩
  | cons segment rest ih =>
    cases h : v.enter segment with
    | error e => exact .inr (.inr ⟨_, .here (enter_eq_error.mp h).1⟩)
    | ok found =>
      cases found with
      | none =>
        obtain ⟨hnone, hshort⟩ := enter_eq_none.mp h
        exact .inr (.inl (.here hnone hshort))
      | some u =>
        have hu := enter_eq_some.mp h
        obtain ⟨w, hw⟩ | hmisses | ⟨n, hn⟩ := ih u
        · exact .inl ⟨w, .under hu hw⟩
        · exact .inr (.inl (.under hu hmisses))
        · exact .inr (.inr ⟨n, .under hu hn⟩)

theorem follow_eq_error : v.follow path = .error e ↔ Overruns v path e.digits := by
  refine ⟨fun h => ?_, follow_of_overruns⟩
  obtain ⟨w, hw⟩ | hmisses | ⟨n, hn⟩ := liesAt_or_misses_or_overruns v path
  · cases h.symm.trans (follow_of_liesAt hw)
  · cases h.symm.trans (follow_of_misses hmisses)
  · cases h.symm.trans (follow_of_overruns hn)
    exact hn

theorem follow_eq_ok : v.follow path = .ok w ↔ LiesAt v path w ∨ Misses v path ∧ w = null := by
  constructor
  · intro h
    obtain ⟨u, hu⟩ | hmisses | ⟨n, hn⟩ := liesAt_or_misses_or_overruns v path
    · cases h.symm.trans (follow_of_liesAt hu)
      exact .inl hu
    · cases h.symm.trans (follow_of_misses hmisses)
      exact .inr ⟨hmisses, rfl⟩
    · cases h.symm.trans (follow_of_overruns hn)
  · rintro (h | ⟨h, rfl⟩)
    · exact follow_of_liesAt h
    · exact follow_of_misses h

theorem exists_overlong_of_overruns {n : Nat} (h : Overruns v path n) :
    maxIndexDigits < n ∧ ∃ segment ∈ path, segment.length = n := by
  induction h with
  | here hlong => exact ⟨hlong.2.2, _, List.mem_cons_self, rfl⟩
  | under _ _ ih =>
    obtain ⟨hn, segment, hmem, rfl⟩ := ih
    exact ⟨hn, segment, List.mem_cons_of_mem _ hmem, rfl⟩

/-! ## Paths as texts -/

/-- The segments of a path. -/
def segments (path : String) : List (List Char) := splitChars '.' path.toList

theorem resolve_of_ne {path : String} (h : path ≠ "") (v : Value) : v.resolve path = v.follow (segments path) := by
  rw [resolve, if_neg (by simpa using h)]
  rfl

theorem resolve_of_eq (v : Value) : v.resolve "" = .ok null := rfl

/-- **What a lookup comes to**, in any value and along any path. It fails exactly if on its way it comes to a list or a tuple with
more digits, of any script, than are read as an index, and it tells how many. Else it gives the value that lies at the path, or
null if the path is empty or misses. Along a path that is no longer than an index it never fails. -/
theorem lookups_fail_only_at_overlong_indexes (v : Value) (path : String) :
    (∀ e, v.resolve path = .error e ↔ path ≠ "" ∧ Overruns v (segments path) e.digits) ∧
    (∀ w, v.resolve path = .ok w ↔
      path ≠ "" ∧ LiesAt v (segments path) w ∨ (path = "" ∨ Misses v (segments path)) ∧ w = null) ∧
    (path.length ≤ maxIndexDigits → ∃ w, v.resolve path = .ok w) := by
  by_cases hpath : path = ""
  · subst hpath
    refine ⟨fun e => ⟨nofun, fun h => absurd rfl h.1⟩, fun w => ?_, fun _ => ⟨null, rfl⟩⟩
    simp [resolve_of_eq, eq_comm]
  have hfails : ∀ e, v.resolve path = .error e ↔ Overruns v (segments path) e.digits := fun e => by
    rw [resolve_of_ne hpath, follow_eq_error]
  refine ⟨fun e => ?_, fun w => ?_, fun hshort => ?_⟩
  · rw [hfails, and_iff_right hpath]
  · rw [resolve_of_ne hpath, follow_eq_ok, and_iff_right hpath, or_iff_right hpath]
  · cases h : v.resolve path with
    | ok w => exact ⟨w, rfl⟩
    | error e =>
      obtain ⟨hlong, segment, hmem, hlen⟩ := exists_overlong_of_overruns ((hfails e).mp h)
      have hle := (length_le_of_mem_splitChars hmem).1
      rw [String.length_toList] at hle
      omega

/-- A list of one item is given more than enough zeros, and so many that they still are an index. -/
theorem lookup_fails_at_many_zeros :
    (list [int 1]).resolve (String.ofList (List.replicate 4301 '0')) = .error ⟨4301⟩ ∧
      ∃ w, (list [int 1]).resolve (String.ofList (List.replicate 4300 '0')) = .ok w := by
  have hoverlong : IsOverlong (List.replicate 4301 '0') (list [int 1]) := by
    refine ⟨rfl, ⟨List.cons_ne_nil _ _, fun c hc => ?_⟩, ?_⟩
    · rw [List.eq_of_mem_replicate hc]
      decide
    · rw [List.length_replicate]
      decide
  have hsegments : segments (String.ofList (List.replicate 4301 '0')) = [List.replicate 4301 '0'] := by
    rw [segments, String.toList_ofList]
    exact splitChars_of_notMem fun hmem => absurd (List.eq_of_mem_replicate hmem) (by decide)
  have hoverruns : Overruns (list [int 1]) (segments (String.ofList (List.replicate 4301 '0'))) 4301 := by
    have h : Overruns (list [int 1]) [List.replicate 4301 '0'] (List.replicate 4301 '0').length := .here hoverlong
    rwa [List.length_replicate, ← hsegments] at h
  refine ⟨((lookups_fail_only_at_overlong_indexes _ _).1 ⟨4301⟩).mpr ⟨?_, hoverruns⟩,
    (lookups_fail_only_at_overlong_indexes _ _).2.2 ?_⟩
  · rw [ne_eq, String.ofList_eq_empty_iff]
    exact List.cons_ne_nil _ _
  · rw [String.length_ofList, List.length_replicate]
    decide

/-! ## Joined paths -/

/-- No path goes on into a value that has no parts. -/
theorem follow_of_not_isEnterable (h : ¬ v.isEnterable) (segment : List Char) (rest : List (List Char)) :
    v.follow (segment :: rest) = .ok null :=
  follow_of_missing (enter_of_not_isEnterable h segment) rest

theorem follow_null (path : List (List Char)) : null.follow path = .ok null := by
  cases path with
  | nil => rfl
  | cons segment rest => exact follow_of_not_isEnterable (v := null) Bool.false_ne_true segment rest

/-- **To follow two paths** is to follow the second from where the first leads; what is missing there is missing beyond. -/
theorem follow_append (v : Value) (path rest : List (List Char)) :
    v.follow (path ++ rest) = (v.follow path).bind fun w => w.follow rest := by
  induction path generalizing v with
  | nil => rfl
  | cons segment path ih =>
    rw [List.cons_append, follow, follow]
    cases v.enter segment with
    | error e => rfl
    | ok found =>
      cases found with
      | none => exact (follow_null rest).symm
      | some u => exact ih u

theorem segments_join (p q : String) : segments (p ++ "." ++ q) = segments p ++ segments q := by
  unfold segments
  rw [String.toList_append, String.toList_append, List.append_assoc]
  exact splitChars_append_cons '.' p.toList q.toList

theorem join_ne (p q : String) : p ++ "." ++ q ≠ "" := by
  intro h
  have hdot : '.' ∈ (p ++ "." ++ q).toList := by
    rw [String.toList_append, String.toList_append]
    exact List.mem_append_left _ (List.mem_append_right _ List.mem_cons_self)
  rw [h] at hdot
  cases hdot

/-- A path that goes on is looked up in what its beginning leads to. -/
theorem resolve_join {p q : String} (hp : p ≠ "") (hq : q ≠ "") (v : Value) :
    v.resolve (p ++ "." ++ q) = (v.resolve p).bind fun w => w.resolve q := by
  rw [resolve_of_ne (join_ne p q), segments_join, follow_append, resolve_of_ne hp]
  exact congrArg _ (funext fun w => (resolve_of_ne hq w).symm)

theorem resolve_of_not_isEnterable (h : ¬ v.isEnterable) (path : String) : v.resolve path = .ok null := by
  by_cases hpath : path = ""
  · rw [hpath, resolve_of_eq]
  · obtain ⟨segment, rest, hsegments⟩ := List.exists_cons_of_ne_nil (splitChars_ne_nil '.' path.toList)
    rw [resolve_of_ne hpath, segments, hsegments, follow_of_not_isEnterable h]

/-- A path of one segment leads to what lies under it, or to null. -/
theorem resolve_of_notMem {key : String} (hkey : key ≠ "") (hdot : '.' ∉ key.toList) (es : Entries) :
    (dict es).resolve key = .ok (es.getD key) := by
  rw [resolve_of_ne hkey, segments, splitChars_of_notMem hdot, follow, enter, String.ofList_toList, Entries.getD]
  cases es.get? key <;> rfl

theorem notMem_of_isIndex {cs : List Char} (h : IsIndex cs) : '.' ∉ cs := by
  intro hdot
  have hvalue := h.2 '.' hdot
  exact absurd hvalue (by decide)

/-- An index that is not too long leads to its item. -/
theorem resolve_index {xs : List Value} {i : Nat} {x : Value} {n : String} (hv : v.sequence? = some xs) (hx : xs[i]? = some x)
    (hn : decimalNumber? n.toList = some i) (hshort : n.length ≤ maxIndexDigits) : v.resolve n = .ok x := by
  have hindex : IsIndex n.toList := decimalNumber?_isSome.mp (by rw [hn]; rfl)
  have hne : n ≠ "" := by
    rintro rfl
    exact hindex.1 rfl
  have hunder : Under n.toList x v := .item hv (by rwa [String.length_toList]) hn hx
  rw [resolve_of_ne hne, segments, splitChars_of_notMem (notMem_of_isIndex hindex), follow_under hunder, follow]

/-! ## The items of loops -/

/-- A loop that has items found them in the list or tuple at its collection. -/
theorem sequence_of_foundItems {vs : Variables} {collection : String} {items : List Value} {i : Nat} {x : Value}
    (h : Engine.foundItems vs collection = .ok items) (hx : items[i]? = some x) :
    ∃ v, (dict vs).resolve collection = .ok v ∧ v.sequence? = some items := by
  unfold Engine.foundItems at h
  cases hfound : Variables.lookup vs (.str collection) with
  | error f =>
    rw [hfound] at h
    cases h
  | ok v =>
    rw [hfound] at h
    refine ⟨v, mapError_eq_ok hfound, ?_⟩
    cases v with
    | null =>
      cases h
      cases hx
    | list xs | tuple xs =>
      cases h
      rfl
    | _ => cases h

theorem resolve_item {vs : Variables} {collection n : String} {items : List Value} {i : Nat} {x : Value}
    (h : Engine.foundItems vs collection = .ok items) (hx : items[i]? = some x) (hn : decimalNumber? n.toList = some i)
    (hshort : n.length ≤ maxIndexDigits) : (dict vs).resolve (collection ++ "." ++ n) = .ok x := by
  obtain ⟨v, hv, hseq⟩ := sequence_of_foundItems h hx
  have hcollection : collection ≠ "" := by
    rintro rfl
    cases hv.symm.trans (resolve_of_eq (dict vs))
    cases hseq
  have hne : n ≠ "" := by
    rintro rfl
    cases hn
  rw [resolve_join hcollection hne, hv]
  exact resolve_index hseq hx hn hshort

theorem resolve_current {vs : Variables} {v x : Value} {p q : String} (hp : p ≠ "") (hq : q ≠ "") (hx : v.resolve p = .ok x)
    (hcurrent : Entries.get? vs "current_item" = some x) :
    (dict vs).resolve ("current_item" ++ "." ++ q) = v.resolve (p ++ "." ++ q) := by
  have hitem : (dict vs).resolve "current_item" = .ok x := by
    rw [resolve_of_notMem (by decide) (by decide), Entries.getD, hcurrent]
    rfl
  rw [resolve_join (by decide) hq, resolve_join hp hq, hitem, hx]

/-- **Lookups compose.** In every value, a path that goes on leads to what the rest of it leads to in what its beginning leads to,
and fails as these do. So all longer paths lead to null beyond a segment that is missing, beyond a null that is stored, and beyond
any other value without parts. What a loop has as its item is looked up as it is where it comes from: by any path to it, and so
by the path of the collection and the item's index in it, in the variables that the loop began with. -/
theorem lookups_compose :
    (∀ (v : Value) (p q : String), p ≠ "" → q ≠ "" → v.resolve (p ++ "." ++ q) = (v.resolve p).bind fun w => w.resolve q) ∧
    (∀ (v : Value) (p q : String), p ≠ "" → q ≠ "" →
      Misses v (segments p) ∨ (∃ w, LiesAt v (segments p) w ∧ ¬ w.isEnterable) → v.resolve (p ++ "." ++ q) = .ok null) ∧
    (∀ (vs : Variables) (v x : Value) (p q : String), Entries.get? vs "current_item" = some x → v.resolve p = .ok x →
      p ≠ "" → q ≠ "" → (dict vs).resolve ("current_item" ++ "." ++ q) = v.resolve (p ++ "." ++ q)) ∧
    ∀ (vs vs' : Variables) (collection : String) (items : List Value) (i : Nat) (x : Value) (n q : String),
      Engine.foundItems vs collection = .ok items → items[i]? = some x → decimalNumber? n.toList = some i →
        n.length ≤ maxIndexDigits → q ≠ "" →
          (dict (vs'.forPass i x)).resolve ("current_item" ++ "." ++ q) =
            (dict vs).resolve (collection ++ "." ++ n ++ "." ++ q) := by
  refine ⟨fun v p q hp hq => resolve_join hp hq v, fun v p q hp hq h => ?_,
    fun vs v x p q hcurrent hx hp hq => resolve_current hp hq hx hcurrent,
    fun vs vs' collection items i x n q hitems hx hn hshort hq => ?_⟩
  · have hend : ∃ w, v.resolve p = .ok w ∧ ¬ w.isEnterable := by
      rcases h with hmisses | ⟨w, hw, hclosed⟩
      · exact ⟨null, (resolve_of_ne hp v).trans (follow_of_misses hmisses), Bool.false_ne_true⟩
      · exact ⟨w, (resolve_of_ne hp v).trans (follow_of_liesAt hw), hclosed⟩
    obtain ⟨w, hw, hclosed⟩ := hend
    rw [resolve_join hp hq, hw]
    exact resolve_of_not_isEnterable hclosed q
  · exact resolve_current (join_ne collection n) hq (resolve_item hitems hx hn hshort) (Variables.get?_forPass_item vs' i x)

/-- A path into an order line, a path beyond a text, and the line as a loop has it and as it is kept apart. -/
theorem lookups_compose_in_order :
    let line : Value := dict [(str "sku", str "B-7")]
    let vs : Variables := [(str "order", dict [(str "lines", list [int 0, line])])]
    (dict vs).resolve "order.lines.1.sku" = ((dict vs).resolve "order.lines").bind (fun w => w.resolve "1.sku") ∧
      (dict vs).resolve "order.lines.1.sku.2" = .ok null ∧
      (dict [(str "current_item", line)]).resolve "current_item.sku" = (dict vs).resolve "order.lines.1.sku" ∧
      (dict (Variables.forPass vs 1 line)).resolve "current_item.sku" = (dict vs).resolve "order.lines.1.sku" := by
  intro line vs
  obtain ⟨hjoin, hend, hcurrent, hitem⟩ := lookups_compose
  refine ⟨hjoin (dict vs) "order.lines" "1.sku" (by decide) (by decide), ?_, ?_, ?_⟩
  · refine hend (dict vs) "order.lines.1.sku" "2" (by decide) (by decide) (.inr ⟨str "B-7", ?_, Bool.false_ne_true⟩)
    exact .under (.key rfl) (.under (.key rfl) (.under (.item rfl (by decide) rfl rfl) (.under (.key rfl) .here)))
  · exact hcurrent [(str "current_item", line)] (dict vs) line "order.lines.1" "sku" rfl rfl (by decide) (by decide)
  · exact hitem vs vs "order.lines" [int 0, line] 1 line "1" "sku" rfl rfl rfl (by decide) (by decide)

end Value

end Runbook
