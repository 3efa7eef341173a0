import Mathlib.Data.List.Nodup
import Runbook.Proofs.Footprint

/-!
# The headers of web calls

A web call puts the headers of its step over a content type of its own. It goes by the letters of a name, while the web takes two
names for one if they differ only in the case of their letters. So a step replaces the content type if it spells the name as the
call does, and otherwise its header is sent beside it.

* `Http.SameName`, `Http.OneEach`: names for one header, and headers of which no two have such names.
* `Webhook.headersOf_of_mem`, `Webhook.headersOf_of_notMem`: the headers of a call.
* `Run.Tame.observe`, `Webhook.run_carries`: the requests of a web call have these headers.
* **`Engine.headers_are_single_but_for_spellings`**: which headers are sent, and when two of them are for one name.
-/

namespace Runbook

namespace Http

/-- Names that differ at most in the case of their letters. -/
def SameName (a b : String) : Prop := a.toList.map Char.toLower = b.toList.map Char.toLower

instance (a b : String) : Decidable (SameName a b) := inferInstanceAs (Decidable (_ = _))

theorem SameName.symm {a b : String} (h : SameName a b) : SameName b a := Eq.symm h

/-- Headers with one entry for each name. -/
def OneEach (headers : List (String × String)) : Prop := headers.Pairwise fun g h => ¬ SameName g.1 h.1

instance (headers : List (String × String)) : Decidable (OneEach headers) := inferInstanceAs (Decidable (headers.Pairwise _))

variable {headers headers' : List (String × String)} {h k : String × String}

theorem OneEach.nodup (ho : OneEach headers) : (headers.map Prod.fst).Nodup :=
  List.pairwise_map.mpr (ho.imp fun hne heq => hne (by rw [SameName, heq]))

theorem OneEach.eq_of_sameName (ho : OneEach headers) (hh : h ∈ headers) (hk : k ∈ headers) (hs : SameName h.1 k.1) : h = k := by
  have hsymm : Std.Symm fun g h : String × String => ¬ SameName g.1 h.1 := ⟨fun _ _ hn hs => hn hs.symm⟩
  by_contra hne
  exact List.Pairwise.forall ho hh hk hne hs

theorem oneEach_perm (hp : headers.Perm headers') : OneEach headers ↔ OneEach headers' :=
  hp.pairwise_iff fun hn hs => hn hs.symm

end Http

namespace Webhook

open Http

/-- The header that a call has of its own. -/
def contentType : String × String := ("Content-Type", "application/json")

/-! ## Headers put over others -/

section Put

variable {hs before after : List (String × String)} {h : String × String} {v : String}

theorem put_of_notMem (hn : h.1 ∉ hs.map Prod.fst) : headersOf.put hs h = hs ++ [h] := by
  induction hs with
  | nil => rfl
  | cons g hs ih =>
    obtain ⟨hg, hrest⟩ := not_or.mp (hn ∘ List.mem_cons.mpr)
    rw [headersOf.put, if_neg (beq_iff_eq.not.mpr (Ne.symm hg)), ih hrest, List.cons_append]

/-- Headers with new names come after those that there are. -/
theorem foldl_put (before : List (String × String)) (hn : ((before ++ hs).map Prod.fst).Nodup) :
    hs.foldl headersOf.put before = before ++ hs := by
  induction hs generalizing before with
  | nil => exact (List.append_nil before).symm
  | cons h hs ih =>
    have hnew : h.1 ∉ before.map Prod.fst := by
      rw [List.map_append, List.map_cons] at hn
      exact fun hmem => List.disjoint_of_nodup_append hn hmem List.mem_cons_self
    rw [List.append_cons] at hn
    rw [List.foldl_cons, put_of_notMem hnew, ih _ hn, List.append_assoc, List.singleton_append]

/-- **Without a header of its name the content type is added.** -/
theorem headersOf_of_notMem (hn : (hs.map Prod.fst).Nodup) (hc : contentType.1 ∉ hs.map Prod.fst) :
    headersOf hs = contentType :: hs :=
  foldl_put [contentType] (List.nodup_cons.mpr ⟨hc, hn⟩)

/-- **With one it is replaced**, in its place. -/
theorem headersOf_of_mem (hn : ((before ++ (contentType.1, v) :: after).map Prod.fst).Nodup) :
    headersOf (before ++ (contentType.1, v) :: after) = (contentType.1, v) :: (before ++ after) := by
  have hmiddle := (List.perm_middle.map Prod.fst).nodup_iff.mp hn
  obtain ⟨hc, hrest⟩ := List.nodup_cons.mp hmiddle
  rw [List.map_append] at hc hrest
  have hbefore : before.foldl headersOf.put [contentType] = contentType :: before :=
    foldl_put [contentType] (List.nodup_cons.mpr ⟨fun hmem => hc (List.mem_append_left _ hmem), hrest.of_append_left⟩)
  show (before ++ (contentType.1, v) :: after).foldl headersOf.put [contentType] = _
  rw [List.foldl_append, hbefore, List.foldl_cons, headersOf.put, if_pos (beq_self_eq_true _)]
  exact foldl_put ((contentType.1, v) :: before) hmiddle

theorem headersOf_perm_of_mem (hn : (hs.map Prod.fst).Nodup) (hc : contentType.1 ∈ hs.map Prod.fst) : (headersOf hs).Perm hs := by
  obtain ⟨⟨name, v⟩, hmem, rfl⟩ := List.mem_map.mp hc
  obtain ⟨before, after, rfl⟩ := List.append_of_mem hmem
  rw [headersOf_of_mem hn]
  exact List.perm_middle.symm

/-- A call has one header for each name exactly if its step spells the name of the content type as the call does. -/
theorem oneEach_headersOf (ho : OneEach hs) :
    OneEach (headersOf hs) ↔ ∀ h ∈ hs, SameName h.1 contentType.1 → h.1 = contentType.1 := by
  by_cases hc : contentType.1 ∈ hs.map Prod.fst
  · obtain ⟨k, hk, hname⟩ := List.mem_map.mp hc
    rw [oneEach_perm (headersOf_perm_of_mem ho.nodup hc)]
    refine ⟨fun _ h hh hs => ?_, fun _ => ho⟩
    rw [ho.eq_of_sameName hh hk (hname ▸ hs), hname]
  · rw [headersOf_of_notMem ho.nodup hc, OneEach, List.pairwise_cons]
    constructor
    · rintro ⟨hnone, -⟩ h hh hs
      exact absurd hs.symm (hnone h hh)
    · intro hall
      exact ⟨fun h hh hs => hc (List.mem_map.mpr ⟨h, hh, hall h hh hs.symm⟩), ho⟩

end Put

end Webhook

/-! ## Requests -/

theorem Run.Tame.observe {α : Type} {P : Call → Bool} {m : Run α} (hm : m.Tame P) : m.observe.Tame P where
  keeps h := by
    obtain ⟨x, -, h⟩ := Run.leads_observe.mp h
    exact hm.keeps h
  calls h := by
    obtain ⟨x, -, h⟩ := Run.leads_observe.mp h
    exact hm.calls h
  asks h := by
    obtain ⟨x, -, h⟩ := Run.leads_observe.mp h
    exact hm.asks h

/-- A call of the web client, with these headers if it is a request. -/
def Call.carries (headers : List (String × String)) : Call → Bool
  | http request => request.headers = headers
  | closeHttp => true
  | _ => false

theorem Webhook.run_carries (options : WebhookOptions) (w : Webhook) : (w.run options).Tame (Call.carries (headersOf w.headers)) := by
  rw [run_eq]
  refine .bind .liftExcept fun _ => .bind .liftExcept fun content => ?_
  refine .bind (.attempt .view) fun view => ?_
  refine .bind (.observe (.guarded (decide_eq_true rfl))) fun response => ?_
  exact .bind (.call rfl) fun _ => .bind .liftExcept fun _ => .liftExcept

namespace Engine

open Http Webhook

variable {g : Engine} {e : Opened} {path : StepPath} {w : Webhook} {vs vs' : Variables} {t : Course} {r : Except Failure Unit}

/-- The requests of a web call have the headers of the step, put over the content type. -/
theorem headers_of_request (h : (g.execute e path (.webhook w)).Leads vs t r vs') {request : Http.Request}
    {a : Except Failure (Call.http request).Answer} (hm : ⟨.http request, a⟩ ∈ t.calls) : request.headers = headersOf w.headers := by
  obtain ⟨f, hw, -⟩ | ⟨v, hw, -, -⟩ := leads_webhook h <;>
    exact of_decide_eq_true ((w.run_carries g.webhook).calls hw _ hm)

/-- **A web call sends one header for each name, unless its step spells that of the content type in another way.** Of a step whose
headers have different names it sends all, as they are. The content type comes with them unless a header of the step has its very
name; so two headers are sent for this name exactly if the step has it in other letters. A web call that succeeds has sent a
request. -/
theorem headers_are_single_but_for_spellings (hw : OneEach w.headers) (h : (g.execute e path (.webhook w)).Leads vs t r vs') :
    (r = .ok () → ∃ request a, ⟨.http request, a⟩ ∈ t.calls) ∧
    ∀ request a, ⟨.http request, a⟩ ∈ t.calls →
      ("Content-Type" ∈ w.headers.map Prod.fst → request.headers.Perm w.headers) ∧
      ("Content-Type" ∉ w.headers.map Prod.fst → request.headers.Perm (("Content-Type", "application/json") :: w.headers)) ∧
      (OneEach request.headers ↔ ∀ h ∈ w.headers, SameName h.1 "Content-Type" → h.1 = "Content-Type") := by
  refine ⟨fun hr => ?_, fun request a hm => ?_⟩
  · subst hr
    cases leaves_of_plain rfl h with
    | replied hcall => exact ⟨_, _, hcall⟩
  · rw [headers_of_request h hm]
    exact ⟨headersOf_perm_of_mem hw.nodup, fun hc => .of_eq (headersOf_of_notMem hw.nodup hc), oneEach_headersOf hw⟩

/-- A web call whose step spells the name of the content type in small letters. -/
def lowercased : Webhook := ⟨"https://example.com/", "POST", [("content-type", "text/plain")], .null⟩

/-- Such a call, answered with an empty reply. -/
def sent : Course × Except Failure Unit × Variables :=
  let e : Opened := ⟨"execution", ⟨"tenant", "user"⟩, Clock.stamp (Binary64.zero false)⟩
  ((({} : Engine).execute e (.top "call") (.webhook lowercased)).run.run []).under
    (obliging { id := .str "workflow", tenant := .str "tenant" } "")

/-- It sends two content types. -/
theorem headers_are_single_but_for_spellings_sent :
    OneEach lowercased.headers ∧ ∃ request a, ⟨.http request, a⟩ ∈ Course.calls sent.1 ∧
      request.headers.Perm [("Content-Type", "application/json"), ("content-type", "text/plain")] ∧ ¬ OneEach request.headers := by
  have hone : OneEach lowercased.headers := by decide
  obtain ⟨hsent, hheaders⟩ :=
    headers_are_single_but_for_spellings hone (Program.leads_under _ _ : Run.Leads _ [] sent.1 sent.2.1 sent.2.2)
  obtain ⟨request, a, hm⟩ := hsent rfl
  obtain ⟨-, hadded, hsingle⟩ := hheaders request a hm
  exact ⟨hone, request, a, hm, hadded (by decide), hsingle.not.mpr (by decide)⟩

end Engine

end Runbook
