import Runbook.Proofs.Audit
import Runbook.Proofs.Spared

/-!
# Accounts of runs

A run is where its program is after what it was answered so far. An account of a run is such a course. It counts a call of the
audit as answered once its effect is made, though the run is told of that with its next move only. So at every moment the entries
of the account are those that have been made in the database.

* `Accounts`: the account of a run at a moment.
* `Moment.Enters`: what a move does to the audit, and the entries after it. **`Accounts.step`**: how an account goes on.
-/

namespace Runbook

/-! ## Accounts -/

/-- What a run in a phase waits for, if it waits, is not the audit. -/
def Phase.AsksOthers {w : Wiring} : Phase w.setting → Prop
  | .called q _ | .waiting q _ => Request.isAudit q = false
  | _ => True

/-- The account of a run at a moment: what it was told, or that and the answer to the call of the audit that is being made. -/
inductive Accounts (w : Wiring) (p : w.setting.Rest) (i : Nat) : Moment w.setting → Phase w.setting → Course → Prop where
  | told {m : Moment w.setting} {φ : Phase w.setting} {t : Course} : φ.Left p t → φ.AsksOthers → Accounts w p i m φ t
  | asked {s : Schedule w.setting} {c : Call} {next : Except Failure c.Answer → w.setting.Rest}
      {onFailure : Failure → w.setting.Rest} {t : Course} : c.isAudit → p.Leaves t (.ask (.call c none) next) →
    Accounts w p i ⟨.task i (next <$> w.setting.perform c) onFailure, s⟩ (.waiting (.call c none) next) t
  | made {s : Schedule w.setting} {c : Call} {next : Except Failure c.Answer → w.setting.Rest} {r : Except Failure c.Answer}
      {onFailure : Failure → w.setting.Rest} {t : Course} : p.Leaves t (.ask (.call c none) next) →
    Accounts w p i ⟨.task i (.done (next r)) onFailure, s⟩ (.waiting (.call c none) next) (t ++ [⟨.call c none, r⟩])

/-- What a move does to the audit for a run that has made these entries, and the entries after it: the run makes an entry or
none, and what others do is not the run's. -/
inductive Moment.Enters {w : Wiring} (i : Nat) (tenant : String) (m m' : Moment w.setting) (es : List Entry) : List Entry → Prop where
  | own {e? : Option Entry} : m.activity.IsOf i → (∀ e ∈ e?, e.FollowsOn es tenant) →
    m.schedule.world.database.Enters e? m'.schedule.world.database → Enters i tenant m m' es (es ++ e?.toList)
  | others : ¬ m.activity.IsOf i → Enters i tenant m m' es es

variable {w : Wiring} {p : w.setting.Rest} {i : Nat} {m m' : Moment w.setting} {φ φ' : Phase w.setting} {t : Course}
  {tenant : String}

theorem Accounts.leaves (h : Accounts w p i m φ t) : ∃ rest, p.Leaves t rest := by
  cases h with
  | told hleft => exact hleft.leaves
  | asked _ hleaves => exact ⟨_, hleaves⟩
  | made hleaves => exact ⟨_, hleaves.told _⟩

theorem entries_told {q : Request Call} {r : q.Reply Call.Answer} (hq : q.isAudit = false) (t : Course) :
    Course.entries (t ++ [⟨q, r⟩]) = t.entries := by
  have hnone : Course.entries [⟨q, r⟩] = [] := by
    refine Course.entries_of_isAudit fun m hm => ?_
    obtain ⟨limit, hm⟩ := Course.mem_calls.mp hm
    cases List.mem_singleton.mp hm
    exact hq
  rw [Course.entries_append, hnone, List.append_nil]

theorem entries_made {c : Call} {limit : Option Binary64} (r : Except Failure c.Answer) (t : Course) :
    Course.entries (t ++ [⟨.call c limit, r⟩]) = t.entries ++ (Made.entry? ⟨c, r⟩).toList := by
  rw [Course.entries_append]
  show _ ++ List.filterMap Made.entry? [⟨c, r⟩] = _
  rw [List.filterMap_cons]
  cases Made.entry? ⟨c, r⟩ <;> rfl

/-- What a run asks of the audit it asks in order and without a limit. -/
theorem keepsBooks_of_leaves {c : Call} {limit : Option Binary64} {next : Except Failure c.Answer → w.setting.Rest}
    (hp : p.Obeys (bookkeeping tenant) []) (h : p.Leaves t (.ask (.call c limit) next)) (hc : c.isAudit) :
    limit = none ∧ c.KeepsBooks tenant t.entries := by
  have hobeys : Program.Obeys (bookkeeping tenant) t (.ask (.call c limit) next) := by
    have hstate : (bookkeeping tenant).stateAfter [] t = t := stateAfter_bookkeeping
    exact hstate ▸ h.obeys hp
  exact hobeys.allows (obliging { id := .null, tenant := .null } "") c limit rfl hc

/-- A run that does not wait for the audit leaves it as it is. -/
theorem sameAudit_of_asksOthers (hin : m.In i φ) (hφ : φ.AsksOthers) (hof : m.activity.IsOf i) :
    m.schedule.world.database.SameAudit m.next.schedule.world.database := by
  refine hin.keeps hof ?_
  rintro c limit next rfl
  exact Call.keepsAudit hφ

theorem Moment.Enters.silent (hmove : Move m m') (h : m.activity.IsOf i →
    m.schedule.world.database.SameAudit m.next.schedule.world.database) (es : List Entry) :
    m.Enters i tenant m' es es := by
  by_cases hof : m.activity.IsOf i
  · obtain rfl := hmove.eq_next_of_isOf hof
    have hown : m.Enters i tenant m.next es (es ++ (none : Option Entry).toList) := .own hof nofun (.nothing (h hof))
    rwa [Option.toList_none, List.append_nil] at hown
  · exact .others hof

/-- Where a run does not wait for the audit, its account goes on with what it is told. -/
theorem Accounts.step_told (hp : p.Obeys (bookkeeping tenant) []) (hleft : φ.Left p t) (hothers : φ.AsksOthers) (hin : m.In i φ)
    (hmove : Move m m') (hin' : m'.In i φ') (hφ : φ.Step i m φ') :
    ∃ t', Accounts w p i m' φ' t' ∧ t'.entries = t.entries := by
  cases hφ with
  | stay => exact ⟨t, .told hleft hothers, rfl⟩
  | begin =>
    obtain ⟨rfl, rfl⟩ := hleft
    exact ⟨[], .told (.here _) trivial, rfl⟩
  | drop => exact ⟨t, .told (.inl hleft.1) trivial, rfl⟩
  | @reply q next r hreply =>
    refine ⟨_, .told (Program.Leaves.told hleft r) trivial, entries_told ?_ t⟩
    cases q <;> first | rfl | cases hreply
  | @call q next errand herrand =>
    refine ⟨t, .told hleft ?_, rfl⟩
    cases q with
    | call c limit =>
      refine Bool.eq_false_iff.mpr fun hc => ?_
      obtain ⟨rfl, -⟩ := keepsBooks_of_leaves hp hleft hc
      cases herrand
    | _ => rfl
  | @wait q next hreply =>
    cases q with
    | call c limit =>
      by_cases hc : c.isAudit
      · obtain ⟨rfl, -⟩ := keepsBooks_of_leaves hp hleft hc
        obtain rfl := hmove.eq_next_of_isOf hin.isOf
        obtain ⟨activity, s⟩ := m
        cases hin.activity_eq
        exact ⟨t, .asked hc hleft, rfl⟩
      · exact ⟨t, .told hleft (Bool.eq_false_iff.mpr hc), rfl⟩
    | _ => exact ⟨t, .told hleft rfl, rfl⟩
  | start => exact ⟨t, .told hleft hothers, rfl⟩
  | answer r => exact ⟨_, .told (Program.Leaves.told hleft r) trivial, entries_told hothers t⟩
  | finish => exact ⟨t, .told hleft trivial, rfl⟩
  | cut => exact ⟨t, .told (.inr ⟨_, hleft⟩) trivial, rfl⟩

/-- **An account goes on** with every move, and its entries are what the moves of the run do to the audit. -/
theorem Accounts.step (hw : w.stores = .onDatabase) (hp : p.Obeys (bookkeeping tenant) []) (h : Accounts w p i m φ t)
    (hin : m.In i φ) (hmove : Move m m') (hin' : m'.In i φ') (hφ : φ.Step i m φ') :
    ∃ t', Accounts w p i m' φ' t' ∧ m.Enters i tenant m' t.entries t'.entries := by
  cases h with
  | told hleft hothers =>
    obtain ⟨t', haccounts, hentries⟩ := step_told hp hleft hothers hin hmove hin' hφ
    exact ⟨t', haccounts, hentries ▸ .silent hmove (sameAudit_of_asksOthers hin hothers) _⟩
  | @asked s c next onFailure t hc hleaves =>
    have hbooks := (keepsBooks_of_leaves hp hleaves hc).2
    obtain ⟨f, answer, hdoes, henters⟩ := w.perform_enters hw hc hbooks
    obtain rfl := hmove.eq_next_of_isOf (i := i) rfl
    have hnext : Moment.next ⟨.task i (next <$> w.setting.perform c) onFailure, s⟩ =
        ⟨.task i (.done (next (answer s.world))) onFailure, { s with world := f s.world }⟩ := by
      rw [show w.setting.perform c = _ from hdoes]
      rfl
    rw [hnext] at hin' ⊢
    cases hφ with
    | stay =>
      refine ⟨_, .made hleaves, ?_⟩
      rw [entries_made]
      exact .own rfl (Call.KeepsBooks.followsOn (m := ⟨c, answer s.world⟩) hbooks) (henters s.world)
    | answer r => cases hin'.activity_eq
  | @made s c next r onFailure t hleaves =>
    obtain rfl := hmove.eq_next_of_isOf (i := i) rfl
    obtain rfl := hin'.eq_going rfl
    exact ⟨_, .told (hleaves.told r) trivial, .silent hmove (fun _ => refl_of Database.SameAudit _) _⟩

end Runbook
