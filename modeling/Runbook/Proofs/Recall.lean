import Runbook.Proofs.Cancel
import Runbook.Proofs.Conclusive
import Runbook.Proofs.Descent
import Runbook.Proofs.Footprint
import Runbook.Proofs.Parts

/-!
# Steps that read what steps have written

A condition writes its result, and a web call its reply, under a name that is made of the step's id. Steps read by paths. A name
without a dot is a path of one segment, so what is written under it is read from then on, until the name is written again. A name
with a dot is never read as a whole: its path leads where it led before, whatever has been written. Yet ids with dots are ids.

* `Point`, `Stride`, `Strides`: the points of a run, one by one, with the names that are written between them.
* **`Walk.strides`**: every walk passes through points by strides. **`Strides.keeps`**: strides keep what they do not write.
* `HasWritten`: what a step that has completed has written.
* **`Engine.written_is_read_but_under_dots`**: which of it is read.
-/

namespace Runbook

/-! ## Names with and without dots -/

namespace Value

open Text

variable {es : Entries} {key : String}

theorem follow_dict_congr {es' : Entries} {segment : List Char} (rest : List (List Char))
    (h : es.get? (String.ofList segment) = es'.get? (String.ofList segment)) :
    (dict es).follow (segment :: rest) = (dict es').follow (segment :: rest) := by
  rw [follow, follow, enter, enter, h]

/-- **What is set under a key with a dot is not read by it**: the path begins with a shorter key. -/
theorem resolve_set_of_mem (hdot : '.' ∈ key.toList) (es : Entries) (v : Value) :
    (dict (es.set key v)).resolve key = (dict es).resolve key := by
  obtain ⟨segment, rest, hsegments⟩ := List.exists_cons_of_ne_nil (splitChars_ne_nil '.' key.toList)
  have hplain : '.' ∉ segment := (length_le_of_mem_splitChars (hsegments ▸ List.mem_cons_self)).2
  have hother : String.ofList segment ≠ key := by
    rintro rfl
    rw [String.toList_ofList] at hdot
    exact hplain hdot
  have hkey : key ≠ "" := by
    rintro rfl
    cases hdot
  rw [resolve_of_ne hkey, resolve_of_ne hkey, segments, hsegments]
  exact follow_dict_congr rest (Entries.get?_set_of_ne es v hother)

/-- A path leads nowhere if there is nothing under the key that it begins with. -/
theorem resolve_of_get?_eq_none {before after : String} (hplain : '.' ∉ before.toList) (hnone : es.get? before = none) :
    (dict es).resolve (before ++ "." ++ after) = .ok null := by
  rw [resolve_of_ne (join_ne before after), segments_join, segments, splitChars_of_notMem hplain, List.singleton_append]
  refine follow_of_missing ?_ _
  rw [enter, String.ofList_toList, hnone]

end Value

namespace Variables

variable {vs : Variables} {name : String}

theorem lookup_of_notMem {v : Value} (hname : name ≠ "") (hdot : '.' ∉ name.toList) (h : Entries.get? vs name = some v) :
    lookup vs (.str name) = .ok v := by
  rw [lookup, Value.lookup, Value.resolve_of_notMem hname hdot, Entries.getD, h]
  rfl

theorem lookup_set_of_mem (hdot : '.' ∈ name.toList) (vs : Variables) (v : Value) :
    lookup (Entries.set vs name v) (.str name) = lookup vs (.str name) := by
  rw [lookup, lookup, Value.lookup, Value.lookup, Value.resolve_set_of_mem hdot]

theorem lookup_of_get?_eq_none {before after : String} (hplain : '.' ∉ before.toList) (hnone : Entries.get? vs before = none) :
    lookup vs (.str (before ++ "." ++ after)) = .ok .null := by
  rw [lookup, Value.lookup, Value.resolve_of_get?_eq_none hplain hnone]
  rfl

end Variables

namespace Engine

variable {g : Engine} {e : Opened} {part : Part} {vs vs' : Variables} {t : Course} {r : Except Failure Unit}

/-! ## The points of a run -/

/-- A point of a run: what of it lies ahead, part by part, and the variables at this moment. -/
structure Point where
  ahead : List Part
  vars : Variables

/-- From a point of a run to the next one, with the names of the variables that are written between them. A failure ends a run, so
there is no next point after it. -/
inductive Stride (g : Engine) (e : Opened) : Point → List String → Point → Prop where
  | begins {place : String → StepPath} {s : Step} {rest : List Step} {ahead : List Part} {vs : Variables} :
    Stride g e ⟨.steps place (s :: rest) :: ahead, vs⟩ [] ⟨.step (place s.id) s.task :: .steps place rest :: ahead, vs⟩
  | finished {place : String → StepPath} {ahead : List Part} {vs : Variables} :
    Stride g e ⟨.steps place [] :: ahead, vs⟩ [] ⟨ahead, vs⟩
  | recorded {path : StepPath} {task : Task} {ahead : List Part} {vs : Variables} :
    Stride g e ⟨.step path task :: ahead, vs⟩ [] ⟨.handler path task :: ahead, vs⟩
  | plain {path : StepPath} {task : Task} {ahead : List Part} {vs vs' : Variables} {t : Course} :
    task.isPlain → (g.execute e path task).Leads vs t (.ok ()) vs' →
      Stride g e ⟨.handler path task :: ahead, vs⟩ (task.writes path.id) ⟨ahead, vs'⟩
  | looped {path : StepPath} {collection : String} {limit : Nat} {body : List Step} {ahead : List Part} {vs : Variables}
      {items : List Value} : foundItems vs collection = .ok items →
    Stride g e ⟨.handler path (.loop collection limit body) :: ahead, vs⟩ []
      ⟨.passes path body 0 (items.take limit) :: ahead, vs⟩
  | again {path : StepPath} {body : List Step} {i : Nat} {x : Value} {rest : List Value} {ahead : List Part} {vs : Variables} :
    Stride g e ⟨.passes path body i (x :: rest) :: ahead, vs⟩ ["current_index", "current_item"]
      ⟨.steps (passPlace path i) body :: .passes path body (i + 1) rest :: ahead, vs.forPass i x⟩
  | ended {path : StepPath} {body : List Step} {i : Nat} {ahead : List Part} {vs : Variables} :
    Stride g e ⟨.passes path body i [] :: ahead, vs⟩ [] ⟨ahead, vs⟩

/-- From a point of a run to a later one, with all the names that are written between them. -/
inductive Strides (g : Engine) (e : Opened) : Point → List String → Point → Prop where
  | here {a : Point} : Strides g e a [] a
  | onward {a b c : Point} {names names' : List String} : Stride g e a names b → Strides g e b names' c →
    Strides g e a (names ++ names') c

variable {a b c : Point} {names names' : List String}

theorem Strides.trans (h : Strides g e a names b) (h' : Strides g e b names' c) : Strides g e a (names ++ names') c := by
  induction h with
  | here => exact h'
  | onward hstride _ ih =>
    rw [List.append_assoc]
    exact .onward hstride (ih h')

theorem Stride.keeps (h : Stride g e a names b) : Variables.Keeps names a.vars b.vars := by
  cases h with
  | begins | finished | recorded | looped | ended => exact .refl _ _
  | plain hplain h => exact (leaves_of_plain hplain h).keeps
  | again => exact keeps_forPass _ _ _ []

/-- **Strides keep what they do not write.** -/
theorem Strides.keeps (h : Strides g e a names b) : Variables.Keeps names a.vars b.vars := by
  induction h with
  | here => exact .refl _ _
  | onward hstride _ ih =>
    exact (hstride.keeps.mono (List.subset_append_left _ _)).trans (ih.mono (List.subset_append_right _ _))

/-- **A walk passes through points by strides**, whatever lies ahead of it. It comes to all of that if it succeeds; if it fails it
ends at a point with the variables that it leaves. -/
theorem Walk.strides (h : Walk g e part vs t r vs') (ahead : List Part) :
    ∃ names rest, Strides g e ⟨part :: ahead, vs⟩ names ⟨rest, vs'⟩ ∧ (r = .ok () → rest = ahead) := by
  induction h generalizing ahead with
  | finished => exact ⟨_, _, .onward .finished .here, fun _ => rfl⟩
  | stopped | refused | unknown | unlisted => exact ⟨_, _, .here, nofun⟩
  | @fails place s rest _ _ _ _ _ _ _ ih =>
    obtain ⟨names, left, hstrides, -⟩ := ih (.steps place rest :: ahead)
    exact ⟨_, left, .onward .begins hstrides, nofun⟩
  | @goesOn place s rest _ _ _ _ _ _ _ _ _ _ ih ih' =>
    obtain ⟨names, left, hstrides, hleft⟩ := ih (.steps place rest :: ahead)
    obtain rfl := hleft rfl
    obtain ⟨names', left', hstrides', hleft'⟩ := ih' ahead
    exact ⟨_, left', .onward .begins (hstrides.trans hstrides'), hleft'⟩
  | @recorded _ _ _ _ _ _ _ _ r a _ _ ih =>
    obtain ⟨names, left, hstrides, hleft⟩ := ih ahead
    refine ⟨_, left, .onward .recorded hstrides, fun hok => hleft ?_⟩
    cases a with
    | error f => cases hok
    | ok _ => exact hok
  | @plain _ _ _ _ _ r hplain h =>
    cases r with
    | ok _ => exact ⟨_, _, .onward (.plain hplain h) .here, fun _ => rfl⟩
    | error f =>
      -- A task without steps that fails leaves the variables of the point before it.
      cases leaves_of_plain hplain h
      exact ⟨_, _, .here, nofun⟩
  | looped hitems _ ih =>
    obtain ⟨names, left, hstrides, hleft⟩ := ih ahead
    exact ⟨_, left, .onward (.looped hitems) hstrides, hleft⟩
  | ended => exact ⟨_, _, .onward .ended .here, fun _ => rfl⟩
  | @broken path body i x rest _ _ _ _ _ ih =>
    obtain ⟨names, left, hstrides, -⟩ := ih (.passes path body (i + 1) rest :: ahead)
    exact ⟨_, left, .onward .again hstrides, nofun⟩
  | @again path body i x rest _ _ _ _ _ _ _ _ ih ih' =>
    obtain ⟨names, left, hstrides, hleft⟩ := ih (.passes path body (i + 1) rest :: ahead)
    obtain rfl := hleft rfl
    obtain ⟨names', left', hstrides', hleft'⟩ := ih' ahead
    exact ⟨_, left', .onward .again (hstrides.trans hstrides'), hleft'⟩

/-! ## What a step has written -/

/-- What a condition or a web call that has completed has written, and under which name: what the comparison comes to with the
variables that the step began with, or what a successful reply says. -/
inductive HasWritten (id : String) (vs : Variables) (t : Course) : Task → String → Value → Prop where
  | result {at_ : String} {operator : Operator} {expected : Value} {b : Bool} : compared vs at_ operator expected = .ok b →
    HasWritten id vs t (.condition at_ operator expected) (id ++ "_result") (.bool b)
  | response {w : Webhook} {request : Http.Request} {response : Http.Response} {v : Value} :
    ⟨.http request, .ok response⟩ ∈ t.calls → response.isSuccess →
      (response.body.isEmpty ∧ v = .null ∨ Json.read response.body = .ok v) →
        HasWritten id vs t (.webhook w) (id ++ "_response") v

variable {id name : String} {task : Task} {v : Value}

theorem exists_hasWritten (hkind : task.kind = .condition ∨ task.kind = .webhook) (h : Leaves id vs t task (.ok ()) vs') :
    ∃ name v, HasWritten id vs t task name v ∧ vs' = Entries.set vs name v := by
  cases h with
  | compared hcompared => exact ⟨_, _, .result hcompared, rfl⟩
  | replied hcall hsuccess hvalue => exact ⟨_, _, .response hcall hsuccess hvalue, rfl⟩
  | acted | waited => exact hkind.elim nofun nofun

theorem HasWritten.mono {t' : Course} (h : HasWritten id vs t task name v) (hcalls : t.calls ⊆ t'.calls) :
    HasWritten id vs t' task name v := by
  cases h with
  | result hcompared => exact .result hcompared
  | response hcall hsuccess hvalue => exact .response (hcalls hcall) hsuccess hvalue

/-- A name that is written is the step's id with an ending, and the ending has no dot. -/
theorem HasWritten.exists_ending (h : HasWritten id vs t task name v) :
    ∃ ending, name = id ++ ending ∧ ending ≠ "" ∧ '.' ∉ ending.toList := by
  cases h with
  | result => exact ⟨"_result", rfl, by decide, by decide⟩
  | response => exact ⟨"_response", rfl, by decide, by decide⟩

theorem HasWritten.name_ne (h : HasWritten id vs t task name v) : name ≠ "" := by
  obtain ⟨ending, rfl, hne, -⟩ := h.exists_ending
  exact fun hempty => hne (String.append_eq_empty_iff.mp hempty).2

theorem HasWritten.dot_mem_iff (h : HasWritten id vs t task name v) : '.' ∈ name.toList ↔ '.' ∈ id.toList := by
  obtain ⟨ending, rfl, -, hplain⟩ := h.exists_ending
  rw [String.toList_append, List.mem_append, or_iff_left hplain]

/-- A step that succeeds has done its task. -/
theorem leaves_of_step_ok {place : String → StepPath} {s : Step} (hplace : (place s.id).id = s.id) (hp : s.task.isPlain)
    (h : (g.runStep e place s).Leads vs t r vs') (hr : r = .ok ()) :
    ∃ inner : Course, inner.calls ⊆ t.calls ∧ Leaves s.id vs inner s.task (.ok ()) vs' := by
  cases walk_of_step g e place s h with
  | refused => cases hr
  | @recorded _ _ _ _ _ _ _ inner r a hhandle hwalk =>
    have hok : r = .ok () := by
      cases a with
      | error f => cases hr
      | ok _ => exact hr
    rw [hok] at hwalk
    refine ⟨inner, fun m hm => ?_, ?_⟩
    · rw [Course.calls_append]
      exact List.mem_append_left _ (List.mem_cons_of_mem _ hm)
    · rw [← hplace]
      exact hwalk.leaves hp

theorem isPlain_of_kind (hkind : task.kind = .condition ∨ task.kind = .webhook) : task.isPlain := by
  cases task with
  | loop => exact hkind.elim nofun nofun
  | _ => rfl

/-! ## Ids with dots -/

/-- Every text that is not blank is the id of a step that is read. -/
theorem exists_read_of_id (limit : Value) (hid : (Value.str id).isBlank = false) :
    ∃ raw step, Step.read limit raw = .ok step ∧ step.id = id ∧ step.task.kind = .condition :=
  ⟨.dict (Checking.entries id), Checking.stepRead id,
    Step.read_of_bodiless (Step.entriesOf_dict hid) rfl rfl rfl rfl rfl, rfl, rfl⟩

/-! ## What is read -/

/-- **What a step has written is read from then on, unless its id has a dot in it.** A condition or a web call that has completed
has set one variable. If its id has no dot, then at every later point of the run, in loops or out of them, the variable's name
leads to what was written, as long as nothing that came between writes that name. If its id has a dot, the name leads where it led
before the step, and to null if there is no variable of the name before the first dot. Every run passes through the points that
are meant here. And an id with a dot is accepted like any other that is not blank. -/
theorem written_is_read_but_under_dots (g : Engine) (e : Opened) :
    (∀ (place : String → StepPath) (s : Step) (vs vs' : Variables) (t : Course), (place s.id).id = s.id →
      s.kind = .condition ∨ s.kind = .webhook → (g.runStep e place s).Leads vs t (.ok ()) vs' →
        ∃ name v, HasWritten s.id vs t s.task name v ∧ vs' = Entries.set vs name v ∧
          ('.' ∉ s.id.toList → ∀ ahead names b, Strides g e ⟨ahead, vs'⟩ names b → name ∉ names →
            Variables.lookup b.vars (.str name) = .ok v) ∧
          ('.' ∈ s.id.toList → Variables.lookup vs' (.str name) = Variables.lookup vs (.str name)) ∧
          ∀ before after, s.id = before ++ "." ++ after → '.' ∉ before.toList → Entries.get? vs before = none →
            Variables.lookup vs' (.str name) = .ok .null) ∧
    (∀ (place : String → StepPath) (steps : List Step) (vs vs' : Variables) (t : Course) (r : Except Failure Unit),
      (g.runAll e place steps).Leads vs t r vs' →
        ∃ names rest, Strides g e ⟨[.steps place steps], vs⟩ names ⟨rest, vs'⟩ ∧ (r = .ok () → rest = [])) ∧
    ∀ id, (Value.str id).isBlank = false →
      ∃ raw step, Step.read g.loopLimit raw = .ok step ∧ step.id = id ∧ step.kind = .condition := by
  refine ⟨fun place s vs vs' t hplace hkind h => ?_, fun place steps vs vs' t r h => (walk_of_leads g e place steps h).strides [],
    fun id hid => exists_read_of_id g.loopLimit hid⟩
  obtain ⟨inner, hcalls, hleaves⟩ := leaves_of_step_ok hplace (isPlain_of_kind hkind) h rfl
  obtain ⟨name, v, hwritten, rfl⟩ := exists_hasWritten hkind hleaves
  have hdotted : '.' ∈ s.id.toList →
      Variables.lookup (Entries.set vs name v) (.str name) = Variables.lookup vs (.str name) :=
    fun hdot => Variables.lookup_set_of_mem (hwritten.dot_mem_iff.mpr hdot) vs v
  refine ⟨name, v, hwritten.mono hcalls, rfl, fun hplain ahead names b hstrides hnames => ?_, hdotted,
    fun before after hid hbefore hnone => ?_⟩
  · refine Variables.lookup_of_notMem hwritten.name_ne (fun hdot => hplain (hwritten.dot_mem_iff.mp hdot)) ?_
    rw [hstrides.keeps.get? hnames]
    exact Entries.get?_set_self vs name v
  · have hdot : '.' ∈ s.id.toList := by
      rw [hid, String.toList_append, String.toList_append]
      exact List.mem_append_left _ (List.mem_append_right _ List.mem_cons_self)
    obtain ⟨ending, hname, -, -⟩ := hwritten.exists_ending
    rw [hdotted hdot, hname, hid, String.append_assoc]
    exact Variables.lookup_of_get?_eq_none hbefore hnone

/-! ## Two conditions -/

theorem exists_leads_bind {α β : Type} {m : Run α} {k : α → Run β} {x : α} {y : Except Failure β} {vs₁ : Variables}
    (hm : ∃ t, m.Leads vs t (.ok x) vs₁) (hk : ∃ t, (k x).Leads vs₁ t y vs') : ∃ t, (m >>= k).Leads vs t y vs' := by
  obtain ⟨t₁, hm⟩ := hm
  obtain ⟨t₂, hk⟩ := hk
  exact ⟨t₁ ++ t₂, Run.leads_bind.mpr (.inr ⟨x, vs₁, t₁, t₂, hm, hk, rfl⟩)⟩

theorem exists_leads_call (c : Call) (a : c.Answer) (vs : Variables) : ∃ t, (Run.call c).Leads vs t (.ok a) vs :=
  ⟨_, Run.leads_call.mpr ⟨rfl, rfl⟩⟩

theorem exists_leads_now (vs : Variables) : ∃ t, Run.now.Leads vs t (.ok (Clock.stamp (Binary64.zero false))) vs :=
  ⟨_, Run.leads_now.mpr ⟨Binary64.zero false, rfl, rfl, rfl⟩⟩

/-- A step succeeds if its task does and it can be recorded. -/
theorem exists_leads_record {path : StepPath} (h : ∃ t, (g.handle e path task).Leads vs t (.ok ()) vs') :
    ∃ t, (record e path task.kind (g.handle e path task)).Leads vs t (.ok ()) vs' := by
  obtain ⟨t, h⟩ := h
  refine exists_leads_bind (exists_leads_now vs) ?_
  refine exists_leads_bind (exists_leads_call (.createStepRun _) "run" vs) ?_
  refine exists_leads_bind ⟨t, Run.leads_observe.mpr ⟨_, rfl, h⟩⟩ ?_
  refine exists_leads_bind (exists_leads_now vs') ?_
  refine exists_leads_bind (exists_leads_call (.updateStepRun ..) () vs') ?_
  exact ⟨_, Run.leads_liftExcept.mpr ⟨rfl, rfl, rfl⟩⟩

/-- What is missing is null. -/
theorem leads_compare_null (id : String) (h : Variables.lookup vs (.str "x") = .ok .null) :
    (compare id "x" .equals .null).Leads vs [] (.ok ()) (Entries.set vs (id ++ "_result") (.bool true)) := by
  have hcompared : compared vs "x" .equals .null = .ok true := by
    rw [compared, h]
    show (Value.equal .null .null).mapError _ = _
    rw [Value.equal]
    rfl
  have hleads := leads_compared vs id "x" .equals .null
  rw [afterCompare, hcompared] at hleads
  exact hleads

theorem exists_leads_stepRead (id : String) (h : Variables.lookup vs (.str "x") = .ok .null) :
    ∃ t, (({} : Engine).runStep e .top (Checking.stepRead id)).Leads vs t (.ok ())
      (Entries.set vs (id ++ "_result") (.bool true)) :=
  exists_leads_record (exists_leads_bind ⟨[], Run.leads_liftExcept.mpr ⟨rfl, rfl, rfl⟩⟩ ⟨[], leads_compare_null id h⟩)

/-- The result of a step without a dot in its id is read after a further step. That of a step with one is not read, though a step
of that id is accepted. -/
theorem written_is_read_but_under_dots_check :
    let e : Opened := ⟨"execution", ⟨"tenant", "user"⟩, Clock.stamp (Binary64.zero false)⟩
    (∃ names b, Strides {} e ⟨[.steps .top [Checking.stepRead "last"]], [(.str "check_result", .bool true)]⟩ names b ∧
      b.ahead = [] ∧ Variables.lookup b.vars (.str "check_result") = .ok (.bool true)) ∧
    (∃ t, (({} : Engine).runStep e .top (Checking.stepRead "a.b")).Leads [] t (.ok ()) [(.str "a.b_result", .bool true)]) ∧
    Variables.lookup [(.str "a.b_result", .bool true)] (.str "a.b_result") = .ok .null ∧
    ∃ raw step, Step.read (.int 100) raw = .ok step ∧ step.id = "a.b" ∧ step.kind = .condition := by
  intro e
  obtain ⟨hsteps, -, hids⟩ := written_is_read_but_under_dots {} e
  have hx : Variables.lookup [] (.str "x") = .ok .null := rfl
  obtain ⟨t, hplain⟩ : ∃ t, (({} : Engine).runStep e .top (Checking.stepRead "check")).Leads [] t (.ok ()) _ :=
    exists_leads_stepRead "check" hx
  obtain ⟨t', hdotted⟩ : ∃ t, (({} : Engine).runStep e .top (Checking.stepRead "a.b")).Leads [] t (.ok ()) _ :=
    exists_leads_stepRead "a.b" hx
  refine ⟨?_, ⟨t', hdotted⟩, ?_, hids "a.b" rfl⟩
  · obtain ⟨name, v, hwritten, hset, hread, -⟩ := hsteps .top _ _ _ _ rfl (.inl rfl) hplain
    cases hwritten with
    | @result _ _ _ b _ =>
      obtain rfl : true = b := by
        cases hset
        rfl
      have hlast : (compare "last" "x" .equals .null).Leads [(.str "check_result", .bool true)] [] (.ok ()) _ :=
        leads_compare_null "last" rfl
      have hstride : Stride {} e
          ⟨[.handler (.top "last") (Checking.stepRead "last").task, .steps .top []], [(.str "check_result", .bool true)]⟩
          ["last_result"] ⟨[.steps .top []], [(.str "check_result", .bool true), (.str "last_result", .bool true)]⟩ :=
        .plain rfl hlast
      have hstrides : Strides {} e ⟨[.steps .top [Checking.stepRead "last"]], [(.str "check_result", .bool true)]⟩
          ["last_result"] ⟨[], [(.str "check_result", .bool true), (.str "last_result", .bool true)]⟩ :=
        .onward .begins (.onward .recorded (.onward hstride (.onward .finished .here)))
      exact ⟨_, _, hstrides, rfl, hread (by decide) _ _ _ hstrides (by decide)⟩
  · obtain ⟨name, v, hwritten, -, -, -, hmissing⟩ := hsteps .top _ _ _ _ rfl (.inl rfl) hdotted
    cases hwritten with
    | result => exact hmissing "a" "b" rfl (by decide) rfl

end Engine

end Runbook
