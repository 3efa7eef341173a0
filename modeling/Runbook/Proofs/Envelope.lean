import Mathlib.Data.List.DropRight
import Mathlib.Data.List.Flatten
import Runbook.Email.Delivery
import Runbook.Proofs.Usable
import Runbook.Proofs.Descent

/-!
# Header and envelope

A message is handed over for a list of addresses, and its header names them in one line. Whoever reads the line takes the texts
between its commas for the addresses. That gives back the addresses of a message that was addressed in a line. Those of a list are
taken as they are, so the header tells them only if none of them is blank, is surrounded by blanks or has a comma in it.

* `Addressees.IsAddress`: the texts that a line can name; these are the addresses of lines.
* `Addressees.addresses_intercalate`: the addresses of a joined line are those of its parts.
* `MailServer.send_mem_deliver`: what is handed over.
* **`MailServer.header_agrees_but_for_lists`**: when the header agrees with the envelope.
-/

namespace Runbook

/-! ## Trimmed texts -/

namespace Text

variable {p : Char → Bool} {c : Char} {cs : List Char}

theorem trimBy_eq (p : Char → Bool) (cs : List Char) : trimBy p cs = (cs.dropWhile p).rdropWhile p := rfl

theorem trimBy_cons (h : p c) (cs : List Char) : trimBy p (c :: cs) = trimBy p cs := by
  rw [trimBy_eq, trimBy_eq, List.dropWhile_cons_of_pos h]

/-- A part of a text that does not begin with such characters does not begin with them either. -/
theorem dropWhile_of_prefix {ds : List Char} (h : ds <+: cs.dropWhile p) : ds.dropWhile p = ds := by
  cases ds with
  | nil => rfl
  | cons d ds =>
    obtain ⟨rest, hrest⟩ := h
    have hd : p d = false := by
      have hhead := List.head?_dropWhile_not p cs
      rw [← hrest] at hhead
      exact hhead
    rw [List.dropWhile_cons_of_neg (Bool.eq_false_iff.mp hd)]

/-- There is nothing to trim from a trimmed text. -/
theorem trimBy_trimBy (p : Char → Bool) (cs : List Char) : trimBy p (trimBy p cs) = trimBy p cs := by
  rw [trimBy_eq, trimBy_eq, dropWhile_of_prefix (List.rdropWhile_prefix ..), List.rdropWhile_idempotent]

theorem trimBy_subset (p : Char → Bool) (cs : List Char) : trimBy p cs ⊆ cs := fun _ h =>
  (List.dropWhile_sublist p).subset ((List.rdropWhile_prefix ..).subset h)

end Text

/-! ## Lines of addresses -/

namespace Addressees

open Text

variable {a s : String} {as : List String} {cs : List Char}

/-- The texts that a line can name: without commas, and not blank nor surrounded by blanks. -/
def IsAddress (a : String) : Prop := ',' ∉ a.toList ∧ a ≠ "" ∧ trim a = a

instance (a : String) : Decidable (IsAddress a) := inferInstanceAs (Decidable (_ ∧ _ ∧ _))

/-- The addresses that stand in a line between commas. -/
def named (cs : List Char) : List String :=
  ((splitChars ',' cs).map fun piece => String.ofList (trimBy isBlank piece)).filter fun a => !a.isEmpty

theorem addresses_line_eq (s : String) : (line s).addresses = named s.toList := by
  rw [addresses, named, splitAt, List.map_map]
  congr 2
  funext piece
  exact congrArg (fun cs => String.ofList (trimBy isBlank cs)) String.toList_ofList

theorem named_append_cons (cs ds : List Char) : named (cs ++ ',' :: ds) = named cs ++ named ds := by
  rw [named, splitChars_append_cons, List.map_append, List.filter_append, named, named]

/-- Blanks in front of a line do not matter. -/
theorem named_blanks {gap : List Char} (h : gap.all isBlank) (cs : List Char) : named (gap ++ cs) = named cs := by
  induction gap with
  | nil => rfl
  | cons c gap ih =>
    rw [List.all_cons, Bool.and_eq_true] at h
    obtain ⟨hc, hgap⟩ := h
    have hsep : c ≠ ',' := by
      rintro rfl
      exact absurd hc (by decide)
    obtain ⟨piece, rest, hsplit, hcons⟩ := exists_splitChars_cons hsep (gap ++ cs)
    rw [← ih hgap, named, named, List.cons_append, hcons, hsplit, List.map_cons, List.map_cons, trimBy_cons hc]

/-- **The addresses of a joined line** are those of its parts, one after the other. -/
theorem addresses_intercalate {gap : String} (h : isAllBlank gap) (as : List String) :
    (line ((("," ++ gap)).intercalate as)).addresses = as.flatMap fun a => (line a).addresses := by
  induction as with
  | nil => rfl
  | cons a as ih =>
    cases as with
    | nil => rw [String.intercalate_singleton, List.flatMap_singleton]
    | cons b as =>
      have hjoined : (("," ++ gap).intercalate (a :: b :: as)).toList =
          a.toList ++ ',' :: (gap.toList ++ (("," ++ gap).intercalate (b :: as)).toList) := by
        rw [String.intercalate_cons_cons, String.toList_append, String.toList_append, String.toList_append, List.append_assoc,
          List.append_assoc]
        rfl
      rw [addresses_line_eq] at ih
      rw [addresses_line_eq, hjoined, named_append_cons, named_blanks h, ih, ← addresses_line_eq]
      rfl

/-- **The addresses of a line are texts that a line can name.** -/
theorem isAddress_of_mem (h : a ∈ (line s).addresses) : IsAddress a := by
  rw [addresses_line_eq] at h
  obtain ⟨hpiece, hne⟩ := List.mem_filter.mp h
  obtain ⟨piece, hmem, rfl⟩ := List.mem_map.mp hpiece
  refine ⟨fun hcomma => ?_, fun hempty => ?_, ?_⟩
  · rw [String.toList_ofList] at hcomma
    exact (length_le_of_mem_splitChars hmem).2 (trimBy_subset _ _ hcomma)
  · rw [hempty] at hne
    cases hne
  · rw [trim, String.toList_ofList, trimBy_trimBy]

theorem addresses_line_of_isAddress (h : IsAddress a) : (line a).addresses = [a] := by
  obtain ⟨hcomma, hne, htrim⟩ := h
  have hfull : (!a.isEmpty) = true := by
    rw [Bool.not_eq_true', ← Bool.not_eq_true, String.isEmpty_iff]
    exact hne
  rw [addresses, splitAt, splitChars_of_notMem hcomma, List.map_singleton, List.map_singleton, String.ofList_toList, htrim,
    List.filter_singleton, hfull, cond_true]

/-- Reading each text as a line gives back a list exactly if a line can name each of its texts. -/
theorem flatMap_addresses_eq_self : (as.flatMap fun a => (line a).addresses) = as ↔ ∀ a ∈ as, IsAddress a := by
  constructor
  · intro h a ha
    rw [← h] at ha
    obtain ⟨b, -, hb⟩ := List.mem_flatMap.mp ha
    exact isAddress_of_mem hb
  · intro h
    calc (as.flatMap fun a => (line a).addresses)
      _ = as.flatMap fun a => [a] := List.flatMap_congr fun a ha => addresses_line_of_isAddress (h a ha)
      _ = as := List.flatMap_singleton' as

/-- The addresses are such that a line can name them. So are those of any line. -/
def CanBeNamed : Addressees → Prop
  | line _ => True
  | several as => ∀ a ∈ as, IsAddress a

theorem canBeNamed_iff (to_ : Addressees) : to_.CanBeNamed ↔ ∀ a ∈ to_.addresses, IsAddress a := by
  cases to_ with
  | line s => exact ⟨fun _ a => isAddress_of_mem, fun _ => trivial⟩
  | several as => rfl

end Addressees

open Addressees

/-! ## What is handed over -/

/-- The header of a message names its recipients exactly if a line can name them. -/
theorem Email.addresses_addressLine (m : Email) :
    (Addressees.line m.content.addressLine).addresses = m.recipients ↔ m.addressees.CanBeNamed := by
  have hgap : Text.isAllBlank " " := rfl
  rw [canBeNamed_iff, ← flatMap_addresses_eq_self]
  exact (addresses_intercalate hgap m.recipients) ▸ Iff.rfl

namespace MailServer

variable {s : MailServer} {refuses : MailCommand → Option Failure} {m : Email} {commands : List MailCommand}

theorem say_subset (refuses : MailCommand → Option Failure) (commands : List MailCommand) : (say refuses commands).1 ⊆ commands := by
  induction commands with
  | nil => exact List.Subset.refl _
  | cons c rest ih =>
    rw [say]
    split
    · exact List.cons_subset_cons c (List.nil_subset _)
    · exact List.cons_subset_cons c ih

theorem say_of_ok (h : (say refuses commands).2 = .ok ()) : (say refuses commands).1 = commands := by
  induction commands with
  | nil => rfl
  | cons c rest ih =>
    rw [say] at h ⊢
    split at h
    · cases h
    · exact congrArg (c :: ·) (ih h)

/-- A connection that is made is closed after all that is said on it. -/
theorem deliver_eq (s : MailServer) (refuses : MailCommand → Option Failure) (m : Email) : s.deliver refuses m =
    match refuses (.connect s.host s.port) with
    | some f => ([.connect s.host s.port], .error f)
    | none => (.connect s.host s.port :: (say refuses (s.script m)).1 ++ [.close], (say refuses (s.script m)).2) :=
  rfl

/-- **What is handed over** is the message, for its recipients. -/
theorem send_mem_deliver {sender : String} {recipients : List String} {content : MailContent}
    (h : .send sender recipients content ∈ (s.deliver refuses m).1) :
    sender = m.sender ∧ recipients = m.recipients ∧ content = m.content := by
  rw [deliver_eq] at h
  cases hc : refuses (.connect s.host s.port) with
  | some f =>
    rw [hc] at h
    cases List.mem_singleton.mp h
  | none =>
    rw [hc] at h
    obtain h | h := List.mem_append.mp h
    · obtain h | h := List.mem_cons.mp h
      · cases h
      · have hscript := say_subset refuses _ h
        unfold script at hscript
        split_ifs at hscript <;> simpa using hscript
    · cases List.mem_singleton.mp h

/-- A message that is delivered is handed over. -/
theorem send_mem_of_ok (h : (s.deliver refuses m).2 = .ok ()) : .send m.sender m.recipients m.content ∈ (s.deliver refuses m).1 := by
  rw [deliver_eq] at h ⊢
  cases hc : refuses (.connect s.host s.port) with
  | some f =>
    rw [hc] at h
    cases h
  | none =>
    rw [hc] at h
    have hsend : .send m.sender m.recipients m.content ∈ (say refuses (s.script m)).1 := by
      rw [say_of_ok h]
      exact List.mem_append_right _ List.mem_cons_self
    exact List.mem_append_left _ (List.mem_cons_of_mem _ hsend)

/-- **The header of a message agrees with its envelope, unless it is addressed to a list with texts that a line cannot name.** All
that a mail server is handed of a message is for the message's recipients; and the addresses that its header names are these
recipients exactly if the message is addressed in a line, or to a list of texts without commas that are neither blank nor surrounded
by blanks. The header of a list names the recipients that the list has when it is joined to a line, so its two forms are sent to the
same recipients in the same cases. A message that is delivered is handed over. -/
theorem header_agrees_but_for_lists (s : MailServer) (refuses : MailCommand → Option Failure) (m : Email) :
    (∀ sender recipients content, .send sender recipients content ∈ (s.deliver refuses m).1 →
      recipients = m.recipients ∧ ((Addressees.line content.addressLine).addresses = recipients ↔ m.addressees.CanBeNamed)) ∧
    ((s.deliver refuses m).2 = .ok () → .send m.sender m.recipients m.content ∈ (s.deliver refuses m).1) ∧
    ∀ as gap, m.addressees = .several as → Text.isAllBlank gap →
      let joined : Email := { m with addressees := .line (("," ++ gap).intercalate as) }
      (Addressees.line m.content.addressLine).addresses = joined.recipients ∧
        (joined.recipients = m.recipients ↔ m.addressees.CanBeNamed) := by
  refine ⟨fun sender recipients content h => ?_, send_mem_of_ok, fun as gap has hgap => ?_⟩
  · obtain ⟨-, rfl, rfl⟩ := send_mem_deliver h
    exact ⟨rfl, m.addresses_addressLine⟩
  · have hrecipients : m.recipients = as := congrArg Addressees.addresses has
    have hline : (Addressees.line m.content.addressLine).addresses = as.flatMap fun a => (Addressees.line a).addresses := by
      have hspace : Text.isAllBlank " " := rfl
      rw [← hrecipients]
      exact addresses_intercalate hspace m.recipients
    have hjoined : (Addressees.line m.content.addressLine).addresses =
        (Addressees.line (("," ++ gap).intercalate as)).addresses := hline.trans (addresses_intercalate hgap as).symm
    refine ⟨hjoined, ?_⟩
    rw [← m.addresses_addressLine, hjoined]
    rfl

/-- A message to a list with a text that has a comma in it. -/
def twoInOne : Email := ⟨"ops@example.com", .several ["a@example.com, b@example.com"], "Hi", "<p>Hi</p>"⟩

/-- It is handed over for one recipient, but its header names others, and so does the list when it is joined to a line. -/
theorem header_agrees_but_for_lists_twoInOne :
    let joined : Email := { twoInOne with addressees := .line (("," ++ " ").intercalate ["a@example.com, b@example.com"]) }
    (∃ content, .send "ops@example.com" ["a@example.com, b@example.com"] content ∈
        (deliver ⟨"localhost", 25, true, "", ""⟩ (fun _ => none) twoInOne).1 ∧
      (Addressees.line content.addressLine).addresses ≠ ["a@example.com, b@example.com"]) ∧
    twoInOne.addressees = .several ["a@example.com, b@example.com"] ∧ joined.recipients ≠ twoInOne.recipients := by
  intro joined
  obtain ⟨hsent, hdelivered, hlists⟩ := header_agrees_but_for_lists ⟨"localhost", 25, true, "", ""⟩ (fun _ => none) twoInOne
  have hnot : ¬ twoInOne.addressees.CanBeNamed := fun h => absurd (h _ List.mem_cons_self).1 (by decide)
  have hmem := hdelivered rfl
  exact ⟨⟨_, hmem, (hsent _ _ _ hmem).2.not.mpr hnot⟩, rfl, (hlists _ " " rfl rfl).2.not.mpr hnot⟩

end MailServer

end Runbook
