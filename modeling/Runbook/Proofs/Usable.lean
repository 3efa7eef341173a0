import Mathlib.Data.List.TakeWhile
import Runbook.Proofs.Parts
import Runbook.Proofs.Recordable

/-!
# What the actions that are read can be used for

The parameters that an action cannot do without are looked for before they are read. In parameters without byte strings, as all
stored ones are, those that are found are read to texts that are not blank, with two exceptions: addresses may be nothing but
commas or none at all, and the id of a record may be another one than was found.

* `Text.all_splitChars`, `Addressees.addresses_line`: a line has no addresses exactly if it is made of commas and blanks.
* `Step.parameters?`: the stored parameters of an action.
* `Action.NameNobody`, `Action.HideId`: the two exceptions.
* **`Step.actions_are_usable_but_for`**: what of an action that is read can be used.
-/

namespace Runbook

open Runbook.Field

/-! ## Texts -/

namespace Text

/-- The pieces of a text are blank exactly if it is blank between the separators. -/
theorem all_splitChars (p : Char → Bool) (sep : Char) (cs : List Char) :
    ((splitChars sep cs).all fun piece => piece.all p) = cs.all fun c => decide (c = sep) || p c := by
  induction cs with
  | nil => rfl
  | cons c cs ih =>
    rw [List.all_cons, ← ih, splitChars]
    split
    · next hsep => simp [hsep]
    · next hsep => cases splitChars sep cs <;> simp [hsep, Bool.and_assoc]

theorem trimBy_eq_nil {p : Char → Bool} {cs : List Char} : trimBy p cs = [] ↔ cs.all p := by
  rw [trimBy, List.reverse_eq_nil_iff, List.dropWhile_eq_nil_iff, List.all_eq_true]
  constructor
  · intro h c hc
    rw [← List.takeWhile_append_dropWhile (p := p) (l := cs), List.mem_append] at hc
    obtain hfront | hback := hc
    · exact List.mem_takeWhile_imp hfront
    · exact h c (List.mem_reverse.mpr hback)
  · exact fun h c hc => h c ((List.dropWhile_sublist p).mem (List.mem_reverse.mp hc))

theorem isEmpty_trim (s : String) : (trim s).isEmpty = isAllBlank s := by
  rw [Bool.eq_iff_iff, String.isEmpty_iff, trim, isAllBlank, ← trimBy_eq_nil]
  simp

theorem isBlank_digit {c : Char} (h : c.isDigit) : isBlank c = false := by
  have h0 : '0'.toNat = 48 := rfl
  have h9 : '9'.toNat = 57 := rfl
  rw [Char.isDigit_iff_toNat] at h
  simp only [isBlank]
  simp
  omega

/-- A number is no blank text. -/
theorem isAllBlank_digits (n : Int) : isAllBlank (String.ofList (Digits.ofInt n)) = false := by
  obtain ⟨d, hd⟩ := List.exists_mem_of_ne_nil (Digits.ofNat n.natAbs) Nat.toDigits_ne_nil
  have hdigit : isBlank d = false := isBlank_digit (Nat.isDigit_of_mem_toDigits (by decide) (by decide) hd)
  have hmem : d ∈ Digits.ofInt n := by
    rw [Digits.ofInt]
    split
    · exact List.mem_cons_of_mem _ hd
    · exact hd
  rw [isAllBlank, String.toList_ofList, List.all_eq_false]
  exact ⟨d, hmem, by rw [hdigit]; exact Bool.false_ne_true⟩

end Text

/-- **A line has no addresses** exactly if it is made of commas and blanks. -/
theorem Addressees.addresses_line (s : String) : (line s).addresses = [] ↔ ∀ c ∈ s.toList, c = ',' ∨ Text.isBlank c := by
  have hpieces : (line s).addresses = [] ↔ ((Text.splitChars ',' s.toList).all fun piece => piece.all Text.isBlank) := by
    simp only [addresses, Text.splitAt, List.filter_eq_nil_iff, List.mem_map, List.all_eq_true, Text.isEmpty_trim,
      forall_exists_index, and_imp, forall_apply_eq_imp_iff₂, Text.isAllBlank, String.toList_ofList, Bool.not_eq_true', Bool.not_eq_false,
      List.map_map, Function.comp_apply]
  rw [hpieces, Text.all_splitChars, List.all_eq_true]
  simp only [Bool.or_eq_true, decide_eq_true_eq]

/-! ## Fields that are read -/

namespace Checked

variable {α β : Type}

theorem seq_eq_ok {f : Checked (α → β)} {x : Checked α} {b : β} : f <*> x = .ok b ↔ ∃ g a, f = .ok g ∧ x = .ok a ∧ g a = b := by
  simp only [← result?_eq_some, result?_seq, Option.bind_eq_some_iff, Option.map_eq_some_iff, exists_and_left]

theorem map_eq_ok {f : α → β} {x : Checked α} {b : β} : f <$> x = .ok b ↔ ∃ a, x = .ok a ∧ f a = b := by
  simp only [← result?_eq_some, result?_map, Option.map_eq_some_iff]

theorem under_eq_ok {name : String} {x : Checked α} {a : α} : x.under name = .ok a ↔ x = .ok a := by
  rw [← result?_eq_some, result?_under, result?_eq_some]

theorem orElse_eq_ok {x y : Checked α} {a : α} : x.orElse y = .ok a ↔ x = .ok a ∨ x.result? = none ∧ y = .ok a := by
  rw [← result?_eq_some, result?_orElse, Option.or_eq_some_iff, ← result?_eq_some, ← result?_eq_some]

end Checked

namespace Field

variable {v : Value} {s : String} {ps : Entries} {names : List String}

theorem text_eq_ok (hv : ∀ bs, v ≠ .bytes bs) : text v = .ok s ↔ v = .str s := by
  constructor
  · intro h
    cases v with
    | str t => rw [Checked.ok.inj h]
    | bytes bs => exact absurd rfl (hv bs)
    | _ => cases h
  · rintro rfl
    rfl

end Field

/-- None of the values is a byte string. No stored value is one. -/
def Entries.HaveNoBytes (ps : Entries) : Prop := ∀ e ∈ ps, ∀ bs, e.2 ≠ .bytes bs

theorem Entries.HaveNoBytes.get? {ps : Entries} {v : Value} {name : String} (h : ps.HaveNoBytes) (hv : ps.get? name = some v)
    (bs : List UInt8) : v ≠ .bytes bs := by
  obtain ⟨k, hk⟩ := Entries.mem_of_get? hv
  exact h (k, v) hk bs

namespace Action

variable {ps config : Entries} {step name : String} {kind : ActionKind} {a : Action}

/-- **An action is read** if its kind is known and its parameters are there to be read. -/
theorem exists_parameters (h : read step config = .ok a) : ∃ kind ps, readKind (config.getD "action") = .ok kind ∧
    config.get? "parameters" = some (.dict ps) ∧ readParameters kind step ps = .ok a := by
  rw [read] at h
  obtain ⟨kind, hkind, h⟩ := bind_eq_ok h
  split at h
  · next ps hps =>
    have hread : readParameters kind step ps = .ok a := h
    refine ⟨kind, ps, hkind, ?_, hread⟩
    rw [Value.orElse, Entries.getD] at hps
    split at hps
    · cases hget : config.get? "parameters" with
      | none =>
        rw [hget] at hps
        cases hps
      | some v =>
        rw [hget] at hps
        exact congrArg some hps
    · cases hps
      cases kind <;> cases hread
  · cases h

theorem not_isBlank_of_checkRequired (h : checkRequired kind ps = .ok ()) (hname : name ∈ requiredNames kind) :
    (Entries.getD ps name).isBlank = false := by
  rw [checkRequired] at h
  split at h
  · cases h
  · next hany => exact Bool.eq_false_iff.mpr (List.any_eq_false.mp (Bool.eq_false_iff.mpr hany) name hname)

/-- A text that was looked for is not blank. -/
theorem not_isAllBlank_of_required {s : String} (hbytes : ps.HaveNoBytes) (hrequired : checkRequired kind ps = .ok ())
    (hname : name ∈ requiredNames kind) (h : required ps [name] text = .ok s) : Text.isAllBlank s = false := by
  have hblank := not_isBlank_of_checkRequired hrequired hname
  obtain ⟨v, hv, hs⟩ := required_eq_ok.mp h
  rw [value?_singleton] at hv
  obtain rfl := (text_eq_ok (hbytes.get? hv)).mp hs
  rw [Entries.getD, hv] at hblank
  exact hblank

/-- An email is addressed to nothing but commas and blanks, or to the members of an empty sequence. -/
def NameNobody (ps : Entries) : Prop :=
  ∃ v, ps.get? "to" = some v ∧ (items? v = some [] ∨ ∃ s, v = .str s ∧ ∀ c ∈ s.toList, c = ',' ∨ Text.isBlank c)

/-- A blank id of a record hides the one that is looked for. -/
def HideId (ps : Entries) : Prop := ∃ s, ps.get? "record_id" = some (.str s) ∧ Text.isAllBlank s

/-- The addresses of a value that is read: none exactly if it is an empty sequence or a line without any. -/
theorem addresses_of_read {v : Value} {addressees : Addressees} (hv : ∀ bs, v ≠ .bytes bs) (h : Addressees.read v = .ok addressees) :
    addressees.addresses = [] ↔ items? v = some [] ∨ ∃ s, v = .str s ∧ ∀ c ∈ s.toList, c = ',' ∨ Text.isBlank c := by
  obtain h | ⟨hnotext, h⟩ := Checked.orElse_eq_ok.mp h
  · obtain ⟨s, hs, rfl⟩ := Checked.map_eq_ok.mp h
    obtain rfl := (text_eq_ok hv).mp (Checked.under_eq_ok.mp hs)
    rw [Addressees.addresses_line]
    simp [items?]
  · obtain ⟨addresses, haddresses, rfl⟩ := Checked.map_eq_ok.mp h
    rw [Checked.under_eq_ok, ← Checked.result?_eq_some, result?_sequence, Option.bind_eq_some_iff] at haddresses
    obtain ⟨xs, hxs, hmap⟩ := haddresses
    have hstr (s : String) : v ≠ .str s := by
      rintro rfl
      cases hxs
    have hempty : addresses = [] ↔ xs = [] := by
      cases xs with
      | nil =>
        cases hmap
        exact iff_of_true rfl rfl
      | cons x xs =>
        rw [List.mapM_cons] at hmap
        obtain ⟨y, -, hmap⟩ := Option.bind_eq_some_iff.mp hmap
        obtain ⟨ys, -, hmap⟩ := Option.bind_eq_some_iff.mp hmap
        cases hmap
        exact iff_of_false (List.cons_ne_nil _ _) (List.cons_ne_nil _ _)
    rw [Addressees.addresses, hempty, hxs]
    simp [hstr]

/-- The key of a record is blank exactly if its id is a blank text. -/
theorem key_of_read {v : Value} {record : RecordId} (hv : ∀ bs, v ≠ .bytes bs) (h : RecordId.read v = .ok record) :
    Text.isAllBlank record.key ↔ ∃ s, v = .str s ∧ Text.isAllBlank s := by
  obtain h | ⟨hnotext, h⟩ := Checked.orElse_eq_ok.mp h
  · obtain ⟨s, hs, rfl⟩ := Checked.map_eq_ok.mp h
    obtain rfl := (text_eq_ok hv).mp (Checked.under_eq_ok.mp hs)
    simp [RecordId.key]
  · obtain ⟨n, -, rfl⟩ := Checked.map_eq_ok.mp h
    have hstr (s : String) : v ≠ .str s := by
      rintro rfl
      cases hnotext
    simp [RecordId.key, Text.isAllBlank_digits, hstr]

theorem table_of_required {t : Table} (h : required ps ["table"] table = .ok t) :
    ps.get? "table" = some (.str t.name) ∧ t ∈ Table.all := by
  obtain ⟨v, hv, ht⟩ := required_eq_ok.mp h
  rw [value?_singleton] at hv
  unfold table choice at ht
  split at ht
  · next s =>
    split at ht
    · next found hfound =>
      obtain rfl := Checked.ok.inj ht
      have hname : found.name = s := eq_of_beq (List.find?_some (p := fun t : Table => t.name == s) hfound)
      rw [← hname] at hv
      exact ⟨hv, List.mem_of_find?_eq_some hfound⟩
    · cases ht
  · cases ht

/-- **What can be used of an action** that is read from these parameters: all that was looked for, but for the addresses of an email and
the id of a record. -/
def IsUsable (ps : Entries) : Action → Prop
  | sendEmail addressees subject body _ => Text.isAllBlank subject = false ∧ Text.isAllBlank body = false ∧
    ∀ sender html, (Email.mk sender addressees subject html).recipients = [] ↔ NameNobody ps
  | createRecord table _ => ps.get? "table" = some (.str table.name) ∧ table ∈ Table.all
  | updateRecord table record _ => ps.get? "table" = some (.str table.name) ∧ table ∈ Table.all ∧
    (Text.isAllBlank record.key ↔ HideId ps)
  | sendNotification _ title message _ _ _ => Text.isAllBlank title = false ∧ Text.isAllBlank message = false

section Parameters

variable (hbytes : ps.HaveNoBytes) (hrequired : checkRequired kind ps = .ok ())

include hbytes hrequired

theorem isUsable_of_email (hkind : kind = .sendEmail) (h : parametersOf .sendEmail ps = .ok a) : a.IsUsable ps := by
  subst hkind
  obtain ⟨_, sender, h₁, -, rfl⟩ := Checked.seq_eq_ok.mp h
  obtain ⟨_, body, h₂, hbody, rfl⟩ := Checked.seq_eq_ok.mp h₁
  obtain ⟨_, subject, h₃, hsubject, rfl⟩ := Checked.seq_eq_ok.mp h₂
  obtain ⟨addressees, hto, rfl⟩ := Checked.map_eq_ok.mp h₃
  refine ⟨not_isAllBlank_of_required hbytes hrequired (by decide) hsubject,
    not_isAllBlank_of_required hbytes hrequired (by decide) hbody, fun sender html => ?_⟩
  obtain ⟨v, hv, hread⟩ := required_eq_ok.mp hto
  rw [value?_singleton] at hv
  rw [Email.recipients, addresses_of_read (hbytes.get? hv) hread, NameNobody, hv]
  simp

theorem isUsable_of_notification (hkind : kind = .sendNotification) (h : parametersOf .sendNotification ps = .ok a) :
    a.IsUsable ps := by
  subst hkind
  obtain ⟨_, priority, h₁, -, rfl⟩ := Checked.seq_eq_ok.mp h
  obtain ⟨_, category, h₂, -, rfl⟩ := Checked.seq_eq_ok.mp h₁
  obtain ⟨_, severity, h₃, -, rfl⟩ := Checked.seq_eq_ok.mp h₂
  obtain ⟨_, message, h₄, hmessage, rfl⟩ := Checked.seq_eq_ok.mp h₃
  obtain ⟨_, title, h₅, htitle, rfl⟩ := Checked.seq_eq_ok.mp h₄
  obtain ⟨recipients, -, rfl⟩ := Checked.map_eq_ok.mp h₅
  exact ⟨not_isAllBlank_of_required hbytes hrequired (by decide) htitle,
    not_isAllBlank_of_required hbytes hrequired (by decide) hmessage⟩

/-- The id that is read is the one that was looked for, unless there is another one. -/
theorem isUsable_of_update (hkind : kind = .updateRecord) (h : parametersOf .updateRecord ps = .ok a) : a.IsUsable ps := by
  subst hkind
  obtain ⟨_, data, h₁, -, rfl⟩ := Checked.seq_eq_ok.mp h
  obtain ⟨_, record, h₂, hrecord, rfl⟩ := Checked.seq_eq_ok.mp h₁
  obtain ⟨table, htable, rfl⟩ := Checked.map_eq_ok.mp h₂
  obtain ⟨hname, hmem⟩ := table_of_required htable
  refine ⟨hname, hmem, ?_⟩
  have hid := not_isBlank_of_checkRequired hrequired (show "id" ∈ requiredNames .updateRecord by decide)
  obtain ⟨v, hv, hread⟩ := required_eq_ok.mp hrecord
  rw [value?_pair] at hv
  unfold HideId
  cases hother : ps.get? "record_id" with
  | some w =>
    rw [hother] at hv
    obtain rfl := Option.some.inj hv
    rw [key_of_read (hbytes.get? hother) hread]
    simp
  | none =>
    rw [hother, Option.none_or] at hv
    rw [key_of_read (hbytes.get? hv) hread]
    rw [Entries.getD, hv] at hid
    refine iff_of_false ?_ (by simp)
    rintro ⟨s, rfl, hs⟩
    exact Bool.false_ne_true (hid.symm.trans hs)

/-- **An action that is read** can be used but for the two exceptions. -/
theorem isUsable_of_parametersOf (h : parametersOf kind ps = .ok a) : a.IsUsable ps := by
  cases kind with
  | sendEmail => exact isUsable_of_email hbytes hrequired rfl h
  | createRecord =>
    obtain ⟨_, data, h₁, -, rfl⟩ := Checked.seq_eq_ok.mp h
    obtain ⟨table, htable, rfl⟩ := Checked.map_eq_ok.mp h₁
    exact table_of_required htable
  | updateRecord => exact isUsable_of_update hbytes hrequired rfl h
  | sendNotification => exact isUsable_of_notification hbytes hrequired rfl h

end Parameters

theorem isUsable_of_readParameters (hbytes : ps.HaveNoBytes) (h : readParameters kind step ps = .ok a) : a.IsUsable ps := by
  obtain ⟨_, hrequired, h⟩ := bind_eq_ok h
  cases hwrites : writesTable kind with
  | false =>
    rw [hwrites] at h
    exact isUsable_of_parametersOf hbytes hrequired (Checked.forStep_eq_ok.mp h)
  | true =>
    rw [hwrites] at h
    obtain ⟨_, -, h⟩ := bind_eq_ok h
    exact isUsable_of_parametersOf hbytes hrequired (Checked.forStep_eq_ok.mp h)

end Action

namespace Step

variable {limit raw : Value} {id : String} {kind : StepKind} {es config : Entries} {make : List Step → Task} {body : List Step}
  {step : Step} {a : Action}

/-- The stored parameters of an action. -/
def parameters? : Value → Option Entries
  | .dict es => match Entries.get? es "config" with
    | some (.dict config) => match Entries.get? config "parameters" with
      | some (.dict ps) => some ps
      | _ => none
    | _ => none
  | _ => none

/-- A task is of the kind that its configuration was read for. -/
theorem kind_of_readOwn (h : readOwn limit id kind config = .ok make) (body : List Step) : (make body).kind = kind := by
  cases kind with
  | condition =>
    obtain ⟨task, htask, rfl⟩ := map_eq_ok h
    unfold Task.readCondition at htask
    dsimp only at htask
    split at htask
    · cases htask
    · obtain ⟨_, _, htask', -, rfl⟩ := Checked.seq_eq_ok.mp (Checked.forStep_eq_ok.mp htask)
      obtain ⟨_, -, rfl⟩ := Checked.map_eq_ok.mp htask'
      rfl
  | action =>
    obtain ⟨a, -, rfl⟩ := map_eq_ok h
    rfl
  | loop =>
    rw [readOwn_loop] at h
    obtain ⟨_, -, h⟩ := bind_eq_ok h
    obtain ⟨own, -, rfl⟩ := map_eq_ok h
    rfl
  | delay =>
    obtain ⟨task, htask, rfl⟩ := map_eq_ok h
    obtain ⟨_, -, rfl⟩ := Checked.map_eq_ok.mp (Checked.forStep_eq_ok.mp htask)
    rfl
  | webhook =>
    obtain ⟨task, htask, rfl⟩ := map_eq_ok h
    obtain ⟨_, _, h₁, -, rfl⟩ := Checked.seq_eq_ok.mp (Checked.forStep_eq_ok.mp htask)
    obtain ⟨_, _, h₂, -, rfl⟩ := Checked.seq_eq_ok.mp h₁
    obtain ⟨_, _, h₃, -, rfl⟩ := Checked.seq_eq_ok.mp h₂
    obtain ⟨_, -, rfl⟩ := Checked.map_eq_ok.mp h₃
    rfl

theorem task_of_complete {task : Task} (h : complete id task es = .ok step) : step.task = task := by
  rw [complete_eq] at h
  obtain ⟨_, -, rfl⟩ := map_eq_ok h
  rfl

/-- A configuration that says something is a stored one. -/
theorem get?_of_configOf (h : configOf es = .ok config) (hne : config ≠ []) : es.get? "config" = some (.dict config) := by
  rw [configOf_eq] at h
  cases hv : (es.get? "config").filter Value.isTruthy with
  | none =>
    rw [hv] at h
    cases h
    exact absurd rfl hne
  | some v =>
    rw [hv] at h
    obtain ⟨hget, -⟩ := Option.filter_eq_some_iff.mp hv
    cases v with
    | dict config' =>
      cases h
      exact hget
    | _ => cases h

/-- **An action that is read** comes of its stored parameters. -/
theorem exists_parameters (hread : read limit raw = .ok step) (ha : step.task = .action a) :
    ∃ kind id ps, parameters? raw = some ps ∧ Action.readParameters kind id ps = .ok a := by
  obtain ⟨es, kind, config, make, body, rfl, hmade⟩ := read_eq_ok_iff.mp hread
  have htask : make body = .action a := (task_of_complete hmade.isStep).symm.trans ha
  obtain rfl : kind = .action := by rw [← kind_of_readOwn hmade.hasTask body, htask]; rfl
  obtain ⟨a', ha', rfl⟩ := map_eq_ok hmade.hasTask
  obtain rfl := Task.action.inj htask
  obtain ⟨kind, ps, haction, hps, hparameters⟩ := Action.exists_parameters ha'
  have hconfig := get?_of_configOf hmade.hasConfig fun hnil => by
    rw [hnil] at haction
    cases haction
  refine ⟨kind, _, ps, ?_, hparameters⟩
  rw [parameters?, hconfig]
  dsimp only
  rw [hps]

/-- **What was looked for can be used**, whatever action is read: the subject and the body of an email, the title and the message of a
notification and the table of a record, which is one of those that may be written to. An email has no recipients though exactly if it
is addressed to commas and blanks only, or to an empty list; and the id of a record is blank exactly if it hides the one that was looked
for. -/
theorem actions_are_usable_but_for (limit raw : Value) (step : Step) (a : Action) (hread : read limit raw = .ok step)
    (ha : step.task = .action a) : ∃ ps, parameters? raw = some ps ∧ (ps.HaveNoBytes → a.IsUsable ps) := by
  obtain ⟨kind, id, ps, hps, hparameters⟩ := exists_parameters hread ha
  exact ⟨ps, hps, fun hbytes => Action.isUsable_of_readParameters hbytes hparameters⟩

/-- The parameters of an email to nobody. -/
def nobodysMail : Entries := [(.str "to", .str ","), (.str "subject", .str "s"), (.str "body", .str "b")]

/-- The parameters of an update of a record whose id is hidden by a blank one. -/
def hiddenUpdate : Entries :=
  [(.str "table", .str "orders"), (.str "id", .str "7"), (.str "record_id", .str " "), (.str "data", .dict [])]

/-- An action of a name and with parameters, as it is stored. -/
def storedAction (name : String) (ps : Entries) : Entries := [(.str "id", .str "s"), (.str "type", .str "action"),
  (.str "config", .dict [(.str "action", .str name), (.str "parameters", .dict ps)])]

theorem actions_are_usable_but_for_exceptions :
    (∃ step addressees subject body sender, read (.int 100) (.dict (storedAction "send_email" nobodysMail)) = .ok step ∧
      step.task = .action (.sendEmail addressees subject body sender) ∧
        (Email.mk standardSender addressees subject body).recipients = []) ∧
    ∃ step table record data, read (.int 100) (.dict (storedAction "update_record" hiddenUpdate)) = .ok step ∧
      step.task = .action (.updateRecord table record data) ∧ Text.isAllBlank record.key := by
  constructor
  · have hread := @read_of_bodiless (.int 100) (.dict (storedAction "send_email" nobodysMail)) .action _ _ _ _ rfl rfl rfl rfl rfl rfl
    obtain ⟨ps, hps, husable⟩ := actions_are_usable_but_for (.int 100) _ _ _ hread rfl
    cases hps
    obtain ⟨-, -, hnobody⟩ := husable (by simp [Entries.HaveNoBytes, nobodysMail])
    exact ⟨_, _, _, _, _, hread, rfl, (hnobody _ _).mpr ⟨.str ",", rfl, .inr ⟨",", rfl, by simp⟩⟩⟩
  · have hread := @read_of_bodiless (.int 100) (.dict (storedAction "update_record" hiddenUpdate)) .action _ _ _ _ rfl rfl rfl rfl rfl
      rfl
    obtain ⟨ps, hps, husable⟩ := actions_are_usable_but_for (.int 100) _ _ _ hread rfl
    cases hps
    obtain ⟨-, -, hhidden⟩ := husable (by simp [Entries.HaveNoBytes, hiddenUpdate])
    exact ⟨_, _, _, _, hread, rfl, hhidden.mpr ⟨" ", rfl, by decide⟩⟩

end Step

end Runbook
