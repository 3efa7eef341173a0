import Mathlib.Logic.Relation
import Runbook.Proofs.Parts

/-!
# Spellings of fields

Some fields of a stored step have two names. One of them is asked for by one name before the step is read: the id of the record
that is updated. All others can be spelled in either way, wherever they stand.

* `Step.Respelled`: a field of a stored step, of its configuration, of its parameters or of one of its recipients is spelled in its
  other way.
* **`Step.spellings_are_free`**: a step is read to the same whichever spellings it has, apart from the id of a record, which cannot
  be spelled in its second way.
-/

namespace Runbook

open Runbook.Field

/-! ## Parameters -/

namespace Action

variable {old new step : String} {kind : ActionKind} {ps r : Entries} {before after : List Value} {a : Action}

theorem apart_parameterNames (h : kind ≠ .updateRecord) : AreApart (parameterNames kind) := by
  cases kind with
  | updateRecord => exact absurd rfl h
  | _ => decide

theorem exists_id (h : readParameters .updateRecord step ps = .ok a) : ∃ v, ps.get? "id" = some v := by
  obtain ⟨_, hrequired, -⟩ := bind_eq_ok h
  cases hid : ps.get? "id" with
  | some v => exact ⟨v, rfl⟩
  | none => simp [checkRequired, requiredNames, Entries.getD, hid, Value.isBlank] at hrequired

/-- **The names of parameters** can be spelled in either way, but for that of the id of a record. -/
theorem readParameters_respell (hspelling : IsSpelling (parameterNames kind) old new) (habsent : ps.get? new = none)
    (hid : ¬ (old = "id" ∧ new = "record_id")) (h : readParameters kind step ps = .ok a) :
    readParameters kind step (ps.respell old new) = .ok a := by
  by_cases hkind : kind = .updateRecord
  · subst hkind
    obtain ⟨v, hv⟩ := exists_id h
    simp only [IsSpelling, parameterNames, List.mem_cons, List.cons.injEq, reduceCtorEq, and_false, and_true, List.not_mem_nil,
      or_false, false_or] at hspelling
    obtain ⟨-, rfl⟩ | ⟨rfl, rfl⟩ := hspelling
    · rw [habsent] at hv
      cases hv
    · exact absurd ⟨rfl, rfl⟩ hid
  · rw [← toOption_eq_some, ← readParameters_agree (agree_respell (apart_parameterNames hkind) hspelling habsent), h]
    rfl

/-- **The id of a record** is missed under its other name. -/
theorem readParameters_record (step : String) (ps : Entries) : readParameters .updateRecord step (ps.respell "id" "record_id") =
    .error (.fault (.missingParameters "record update" ["table", "id", "data"])) := by
  have hid : (ps.respell "id" "record_id").get? "id" = none := Entries.get?_respell_old ps (by decide)
  have hrequired : (requiredNames .updateRecord).any fun name => (Entries.getD (ps.respell "id" "record_id") name).isBlank :=
    List.any_eq_true.mpr ⟨"id", by decide, by rw [Entries.getD, hid]; rfl⟩
  rw [readParameters, checkRequired, if_pos hrequired]
  rfl

/-- A notification is read to the same if its recipients are. -/
theorem readParameters_recipients {rs rs' : List Value} (hrs : ps.get? "recipients" = some (.list rs))
    (h : (sequence Addressee.read (.list rs)).result? = (sequence Addressee.read (.list rs')).result?) :
    (readParameters .sendNotification step ps).toOption =
      (readParameters .sendNotification step (ps.set "recipients" (.list rs'))).toOption := by
  have hself := Entries.get?_set_self ps "recipients" (.list rs')
  have hne {name : String} (hname : name ≠ "recipients") := Entries.get?_set_of_ne ps (.list rs') hname
  have hrequired : checkRequired .sendNotification (ps.set "recipients" (.list rs')) = checkRequired .sendNotification ps := by
    have hblank (xs : List Value) : (Value.list xs).isBlank = false := rfl
    simp only [checkRequired, requiredNames, List.any_cons, List.any_nil, Entries.getD, hself, hrs, Option.getD_some, hblank,
      hne (show "title" ≠ "recipients" by decide), hne (show "message" ≠ "recipients" by decide)]
  have hparameters : (parametersOf .sendNotification (ps.set "recipients" (.list rs'))).result? =
      (parametersOf .sendNotification ps).result? := by
    simp only [parametersOf, Checked.result?_seq, Checked.result?_map, result?_required, result?_optional, value?_singleton, hself,
      hrs, Option.bind_some, h, hne (show "title" ≠ "recipients" by decide), hne (show "message" ≠ "recipients" by decide),
      hne (show "type" ≠ "recipients" by decide), hne (show "category" ≠ "recipients" by decide),
      hne (show "priority" ≠ "recipients" by decide)]
  rw [readParameters, readParameters, hrequired]
  cases checkRequired .sendNotification ps with
  | error f => rfl
  | ok _ => exact (Checked.toOption_forStep ..).trans (hparameters.symm.trans (Checked.toOption_forStep ..).symm)

/-- **The names of the fields of a recipient** can be spelled in either way. -/
theorem recipients_respell (hspelling : IsSpelling Addressee.fieldNames old new) (habsent : r.get? new = none) :
    (sequence Addressee.read (.list (before ++ .dict r :: after))).result? =
      (sequence Addressee.read (.list (before ++ .dict (r.respell old new) :: after))).result? := by
  have hread := Addressee.read_agree (agree_respell (by decide) hspelling habsent)
  rw [result?_sequence, result?_sequence]
  simp only [items?, Option.bind_some, List.mapM_append, List.mapM_cons, hread]

end Action

namespace Step

variable {limit raw raw' : Value} {old new : String} {step : Step} {R : Value → Value → Prop}

/-! ## Changes of stored steps -/

/-- A field of a stored step is spelled in its other way, which it did not have before: one of its own, of its configuration, of the
parameters of its action, or of a recipient of its notification. -/
inductive Respelled (old new : String) : Value → Value → Prop where
  | own {es : Entries} : IsSpelling fieldNames old new → es.get? new = none → Respelled old new (.dict es) (.dict (es.respell old new))
  | config {es config : Entries} {kind : StepKind} : readKind (either es "type" "kind") = .ok kind →
      es.get? "config" = some (.dict config) → IsSpelling (configNames kind) old new → config.get? new = none →
      Respelled old new (.dict es) (.dict (es.set "config" (.dict (config.respell old new))))
  | parameters {es config ps : Entries} {kind : ActionKind} : readKind (either es "type" "kind") = .ok .action →
      es.get? "config" = some (.dict config) → Action.readKind (config.getD "action") = .ok kind →
      config.get? "parameters" = some (.dict ps) → IsSpelling (Action.parameterNames kind) old new → ps.get? new = none →
      Respelled old new (.dict es)
        (.dict (es.set "config" (.dict (config.set "parameters" (.dict (ps.respell old new))))))
  | recipient {es config ps r : Entries} {before after : List Value} : readKind (either es "type" "kind") = .ok .action →
      es.get? "config" = some (.dict config) → Action.readKind (config.getD "action") = .ok .sendNotification →
      config.get? "parameters" = some (.dict ps) → ps.get? "recipients" = some (.list (before ++ .dict r :: after)) →
      IsSpelling Addressee.fieldNames old new → r.get? new = none →
      Respelled old new (.dict es) (.dict (es.set "config" (.dict (config.set "parameters"
        (.dict (ps.set "recipients" (.list (before ++ .dict (r.respell old new) :: after))))))))

/-! ## Reading what is changed -/

theorem apart_configNames (kind : StepKind) : AreApart (configNames kind) := by
  cases kind <;> decide

/-- An action whose parameters are another dictionary is read to what this one is read to. -/
theorem readOwn_set_parameters {config ps : Entries} {kind : ActionKind} (limit : Value) (id : String)
    (hkind : Action.readKind (config.getD "action") = .ok kind) : readOwn limit id .action (config.set "parameters" (.dict ps)) =
      (fun a _ => .action a) <$> Action.readParameters kind id ps := by
  have haction : (config.set "parameters" (.dict ps)).getD "action" = config.getD "action" := by
    rw [Entries.getD, Entries.getD, Entries.get?_set_of_ne config _ (by decide)]
  rw [readOwn, Action.read_eq (haction ▸ hkind) (Entries.get?_set_self config "parameters" _)]

/-- **A field spelled in its other way** is read to the same, but for the id of a record. -/
theorem Respelled.read_eq_ok (h : Respelled old new raw raw') (hid : ¬ (old = "id" ∧ new = "record_id"))
    (hread : read limit raw = .ok step) : read limit raw' = .ok step := by
  obtain ⟨es, kind, config, make, body, rfl, hmade⟩ := read_eq_ok_iff.mp hread
  cases h with
  | own hspelling habsent =>
    have hagree : Agree fieldNames es (Entries.respell es old new) := agree_respell (by decide) hspelling habsent
    have hconfig := (configOf_agree (hagree.mono (by decide))).symm.trans hmade.hasConfig
    exact hmade.read_of_same (hagree.mono (by decide)) hconfig hmade.hasTask hmade.hasBody
  | config hkind hget hspelling habsent =>
    obtain rfl := hmade.eq_kind hkind
    obtain rfl := hmade.eq_config hget
    have hagree := agree_respell (apart_configNames kind) hspelling habsent
    have hmake : readOwn limit (Entries.getD es "id").text kind (config.respell old new) = .ok make := by
      rw [← toOption_eq_some, ← readOwn_agree hagree, hmade.hasTask]
      rfl
    exact hmade.read_of_same (agree_set_config es _) (configOf_set es _) hmake (storedBody_agree hagree ▸ hmade.hasBody)
  | parameters hkind hget haction hps hspelling habsent =>
    obtain rfl := hmade.eq_kind hkind
    obtain rfl := hmade.eq_config hget
    have htask := hmade.hasTask
    rw [readOwn, Action.read_eq haction hps] at htask
    obtain ⟨a, ha, rfl⟩ := map_eq_ok htask
    refine hmade.read_of_same (agree_set_config es _) (configOf_set es _) ?_ hmade.hasBody
    rw [readOwn_set_parameters limit _ haction, Action.readParameters_respell hspelling habsent hid ha]
    rfl
  | recipient hkind hget haction hps hrs hspelling habsent =>
    obtain rfl := hmade.eq_kind hkind
    obtain rfl := hmade.eq_config hget
    have htask := hmade.hasTask
    rw [readOwn, Action.read_eq haction hps] at htask
    obtain ⟨a, ha, rfl⟩ := map_eq_ok htask
    refine hmade.read_of_same (agree_set_config es _) (configOf_set es _) ?_ hmade.hasBody
    rw [← toOption_eq_some, Action.readParameters_recipients hrs (Action.recipients_respell hspelling habsent),
      toOption_eq_some] at ha
    rw [readOwn_set_parameters limit _ haction, ha]
    rfl

/-- **The id of a record spelled in its second way** is missed. -/
theorem Respelled.read_record (h : Respelled "id" "record_id" raw raw') (hread : read limit raw = .ok step) :
    read limit raw' = .error (.fault (.missingParameters "record update" ["table", "id", "data"])) := by
  obtain ⟨es, kind, config, make, body, rfl, hmade⟩ := read_eq_ok_iff.mp hread
  cases h with
  | own hspelling => exact absurd hspelling (by decide)
  | @config _ _ kind' _ _ hspelling => exact absurd hspelling (by cases kind' <;> decide)
  | recipient _ _ _ _ _ hspelling => exact absurd hspelling (by decide)
  | @parameters _ config' ps action hkind hget haction hps hspelling =>
    obtain rfl := hmade.eq_kind hkind
    obtain rfl := hmade.eq_config hget
    have hupdate : action = .updateRecord := by
      cases action with
      | updateRecord => rfl
      | _ => exact absurd hspelling (by decide)
    subst hupdate
    rw [hmade.read_of_head (agree_set es _ (by decide)) (configOf_set es _), readOwn_set_parameters limit _ haction,
      Action.readParameters_record]
    rfl

/-- **Spellings are free.** However many of its fields, at whatever depth, are spelled in their other way, a stored step that is read
is read to the same. Only the id of the record that is updated has to be called `id`: it is declared under a second name too, but
under this one it is missed. -/
theorem spellings_are_free (limit raw raw' : Value) (step : Step) (hread : read limit raw = .ok step) :
    (Relation.ReflTransGen (fun raw raw' => ∃ old new, ¬ (old = "id" ∧ new = "record_id") ∧ Inside (Respelled old new) raw raw') raw raw' →
      read limit raw' = .ok step) ∧
    (Inside (Respelled "id" "record_id") raw raw' →
      read limit raw' = .error (.fault (.missingParameters "record update" ["table", "id", "data"]))) := by
  constructor
  · intro hsteps
    induction hsteps with
    | refl => exact hread
    | tail _ hlast ih =>
      obtain ⟨old, new, hid, hinside⟩ := hlast
      obtain ⟨inner, inner', s, hrespelled, hs, hsame, -⟩ := hinside.read ih
      exact hsame (hrespelled.read_eq_ok hid hs)
  · intro hinside
    obtain ⟨inner, inner', s, hrespelled, hs, -, hfails⟩ := hinside.read hread
    exact hfails _ (hrespelled.read_record hs)

/-- A stored update of a record, with a name for the field of the step's kind and one for that of the record's id. -/
def renewal (kindName idName : String) : Entries :=
  [(.str "id", .str "renew"), (.str kindName, .str "action"), (.str "config", .dict [(.str "action", .str "update_record"),
    (.str "parameters", .dict [(.str "table", .str "orders"), (.str idName, .str "7"), (.str "data", .dict [])])])]

/-- The update in the body of a loop. -/
def renewals (kindName idName : String) : Entries :=
  [(.str "id", .str "each"), (.str "type", .str "loop"),
    (.str "config", .dict [(.str "collection", .str "items"), (.str "steps", .list [.dict (renewal kindName idName)])])]

theorem inside_renewals {kindName idName kindName' idName' : String}
    (h : R (.dict (renewal kindName idName)) (.dict (renewal kindName' idName'))) :
    Inside R (.dict (renewals kindName idName)) (.dict (renewals kindName' idName')) :=
  @Inside.body R (renewals kindName idName) _ _ _ [] [] rfl rfl rfl (.here h)

theorem spellings_are_free_renewals : ∃ step, read (.int 100) (.dict (renewals "type" "id")) = .ok step ∧
    read (.int 100) (.dict (renewals "kind" "id")) = .ok step ∧ read (.int 100) (.dict (renewals "type" "record_id")) =
      .error (.fault (.missingParameters "record update" ["table", "id", "data"])) := by
  obtain ⟨s, hs⟩ : ∃ s, read (.int 100) (.dict (renewal "type" "id")) = .ok s := ⟨_, read_of_bodiless rfl rfl rfl rfl rfl rfl⟩
  obtain ⟨step, hread⟩ : ∃ step, read (.int 100) (.dict (renewals "type" "id")) = .ok step :=
    ⟨_, read_of_parts rfl rfl rfl rfl (readAll_cons_of_ok hs (readAll_nil _)) rfl⟩
  have hkind : Respelled "type" "kind" (.dict (renewal "type" "id")) (.dict (renewal "kind" "id")) := .own (by decide) rfl
  have hrecord : Respelled "id" "record_id" (.dict (renewal "type" "id")) (.dict (renewal "type" "record_id")) :=
    @Respelled.parameters _ _ (renewal "type" "id") _ _ _ rfl rfl rfl rfl (by decide) rfl
  exact ⟨step, hread,
    (spellings_are_free _ _ _ step hread).1 (.single ⟨"type", "kind", by decide, inside_renewals hkind⟩),
    (spellings_are_free _ _ _ step hread).2 (inside_renewals hrecord)⟩

end Step

end Runbook
