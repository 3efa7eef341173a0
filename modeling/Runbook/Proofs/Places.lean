import Mathlib.Data.List.Flatten
import Mathlib.Data.List.Nodup
import Runbook.Proofs.Bound
import Runbook.Proofs.Cancel

/-!
# The places of step runs

The record of a step run names its place by a text. Whether that text tells the step runs of an execution apart is a matter of
the ids in its workflow: the loader takes two steps of one id, also in one list, and takes an id that reads as if it were
that of a loop, a pass and a step of its body.

* `StepPath.IsCounted`: the places that a run comes to, if no id in them looks like a pass.
* `StepPath.eq_of_text_eq`: such places have different texts.
* `Step.places`: all places that a step can have in its workflow, whatever its loops find.
* **`Walk.visits_sublist`**: a walk visits such places only, each of them once.
* `Step.nodup_placesAll`: no two of them are the same, if no two steps of a list have the same id.
* **`Engine.step_runs_told_apart`**: all this for whole runs.
* `StepPath.IsGiven`: the places that runs give to steps.
* **`Engine.slash_free_places_told_apart`**: those of them without slashes in their ids have different texts.
-/

namespace Runbook

/-! ## The texts of places -/

namespace StepPath

/-- What a text has between the place of a loop and the id of a step of its body. -/
def mark (i : Nat) : List Char := '[' :: (Digits.ofNat i ++ [']', '/'])

/-- An id looks like a pass if such a mark stands in it. -/
def IsMarked (id : String) : Prop := ∃ i, mark i <:+: id.toList

/-- A place in counted passes, with no marked ids in it. -/
inductive IsCounted : StepPath → Prop where
  | top {id : String} : ¬ IsMarked id → IsCounted (.top id)
  | inside {parent : StepPath} {i : Nat} {id : String} : IsCounted parent → ¬ IsMarked id →
    IsCounted (.inside parent (some (i : Int)) id)

theorem text_inside (parent : StepPath) (i : Nat) (id : String) :
    (inside parent (some (i : Int)) id).text.toList = parent.text.toList ++ mark i ++ id.toList := by
  have hint : Digits.ofInt (i : Int) = Digits.ofNat i := if_neg (by omega)
  rw [text, iterationText, hint]
  simp [mark]

theorem not_mem_digits {c : Char} (hc : c.isDigit = false) (i : Nat) : c ∉ Digits.ofNat i := fun h =>
  Bool.false_ne_true (hc.symm.trans (Nat.isDigit_of_mem_toDigits (by decide) (by decide) h))

theorem digits_inj {i j : Nat} (h : Digits.ofNat i = Digits.ofNat j) : i = j := by
  have hread := congrArg (Nat.ofDigitChars 10 · 0) h
  exact Nat.ofDigitChars_ten_toDigits.symm.trans (hread.trans Nat.ofDigitChars_ten_toDigits)

theorem append_cons_inj {c : Char} {xs ys ds es : List Char} (hd : c ∉ ds) (he : c ∉ es)
    (h : xs ++ c :: ds = ys ++ c :: es) : xs = ys ∧ ds = es := by
  obtain ⟨zs, rfl, hzs⟩ | ⟨zs, rfl, hzs⟩ := List.append_eq_append_iff.mp h
  · cases zs with
    | nil => exact ⟨(List.append_nil xs).symm, (List.cons.inj hzs).2⟩
    | cons z zs => exact absurd ((List.cons.inj hzs).2 ▸ List.mem_append_right zs List.mem_cons_self) hd
  · cases zs with
    | nil => exact ⟨List.append_nil ys, (List.cons.inj hzs).2.symm⟩
    | cons z zs => exact absurd ((List.cons.inj hzs).2 ▸ List.mem_append_right zs List.mem_cons_self) he

/-- A mark has its only slash at its end. -/
theorem mark_split {i : Nat} {xs ys : List Char} (h : mark i = xs ++ '/' :: ys) : ys = [] := by
  have hmark : mark i = ('[' :: (Digits.ofNat i ++ [']'])) ++ '/' :: [] := by simp [mark]
  have hslash : '/' ∉ '[' :: (Digits.ofNat i ++ [']']) := by
    simp [not_mem_digits (by decide : '/'.isDigit = false) i]
  exact ((List.append_cons_inj_of_notMem hslash List.not_mem_nil).mp (hmark.symm.trans h)).2.2.symm

/-- An id without a slash does not look like a pass. -/
theorem not_isMarked {id : String} (h : '/' ∉ id.toList) : ¬ IsMarked id := fun ⟨_, hi⟩ =>
  h (hi.subset (List.mem_cons_of_mem _ (List.mem_append_right _ (List.mem_cons_of_mem _ List.mem_cons_self))))

/-- What follows a slash in a text that ends with a mark is all of the text, or holds a mark. -/
theorem eq_nil_of_mark {xs ys cs : List Char} {i : Nat} (hc : ∀ k, ¬ mark k <:+: cs)
    (h : xs ++ mark i = ys ++ '/' :: cs) : cs = [] := by
  rw [List.append_cons] at h
  obtain ⟨zs, hys, hmark⟩ | ⟨zs, -, hcs⟩ := List.append_eq_append_iff.mp h
  · obtain rfl | ⟨zs, z, rfl⟩ := zs.eq_nil_or_concat'
    · exact absurd (hmark ▸ List.infix_rfl) (hc i)
    · rw [← List.append_assoc] at hys
      obtain ⟨-, hz⟩ := List.append_inj' hys rfl
      obtain rfl := List.singleton_inj.mp hz
      exact mark_split (hmark.trans (List.append_cons ..).symm)
  · exact absurd (hcs ▸ (List.suffix_append zs (mark i)).isInfix) (hc i)

theorem mark_inj {xs ys : List Char} {i j : Nat} (h : xs ++ mark i = ys ++ mark j) : xs = ys ∧ i = j := by
  have hbracket (k : Nat) : '[' ∉ Digits.ofNat k ++ [']', '/'] := by
    simp [not_mem_digits (by decide : '['.isDigit = false) k]
  obtain ⟨hxs, htail⟩ := append_cons_inj (hbracket i) (hbracket j) h
  exact ⟨hxs, digits_inj (List.append_cancel_right htail)⟩

/-- The last mark in a text is found again. -/
theorem last_mark_inj {xs ys as bs : List Char} {i j : Nat} (ha : ∀ k, ¬ mark k <:+: as) (hb : ∀ k, ¬ mark k <:+: bs)
    (h : xs ++ mark i ++ as = ys ++ mark j ++ bs) : xs = ys ∧ i = j ∧ as = bs := by
  have hslash (zs : List Char) (k : Nat) (cs : List Char) :
      zs ++ mark k ++ cs = (zs ++ '[' :: (Digits.ofNat k ++ [']'])) ++ '/' :: cs := by
    simp [mark]
  obtain ⟨cs, hys, rfl⟩ | ⟨cs, hxs, rfl⟩ := List.append_eq_append_iff.mp h
  · have hnil : cs = [] :=
      eq_nil_of_mark (fun k hk => ha k (hk.trans (List.prefix_append cs bs).isInfix)) (hys.trans (hslash xs i cs))
    rw [hnil, List.append_nil] at hys
    obtain ⟨rfl, rfl⟩ := mark_inj hys
    exact ⟨rfl, rfl, by rw [hnil, List.nil_append]⟩
  · have hnil : cs = [] :=
      eq_nil_of_mark (fun k hk => hb k (hk.trans (List.prefix_append cs as).isInfix)) (hxs.trans (hslash ys j cs))
    rw [hnil, List.append_nil] at hxs
    obtain ⟨rfl, rfl⟩ := mark_inj hxs
    exact ⟨rfl, rfl, by rw [hnil, List.nil_append]⟩

theorem text_ne_of_not_isMarked {parent : StepPath} {i : Nat} {a b : String} (ha : ¬ IsMarked a) :
    (top a).text ≠ (inside parent (some (i : Int)) b).text := by
  intro h
  have htext := congrArg String.toList h
  rw [text_inside] at htext
  exact ha ⟨i, _, _, htext.symm⟩

/-- **Places in counted passes have different texts**, if no id in them looks like a pass. -/
theorem eq_of_text_eq {p q : StepPath} (hp : p.IsCounted) (hq : q.IsCounted) (h : p.text = q.text) : p = q := by
  induction hp generalizing q with
  | @top a ha =>
    cases hq with
    | top => exact congrArg top h
    | inside => exact absurd h (text_ne_of_not_isMarked ha)
  | @inside parent i a hparent ha ih =>
    cases hq with
    | top hb => exact absurd h.symm (text_ne_of_not_isMarked hb)
    | @inside parent' j b hparent' hb =>
      have htext := congrArg String.toList h
      rw [text_inside, text_inside] at htext
      obtain ⟨hbefore, rfl, hid⟩ :=
        last_mark_inj (fun k hk => ha ⟨k, hk⟩) (fun k hk => hb ⟨k, hk⟩) htext
      rw [ih hparent' (String.toList_inj.mp hbefore), String.toList_inj.mp hid]

-- Marked ids do not come to be told apart from what they look like.
example : (top "each[0]/look").text = (inside (top "each") (some 0) "look").text := by decide

end StepPath

/-! ## The places of a workflow -/

mutual

/-- The lists of steps that a step has in its body, at any depth. -/
def Step.bodies : Step → List (List Step)
  | .mk _ task _ _ => task.bodies

/-- The lists of steps in a body, at any depth. -/
def Task.bodies : Task → List (List Step)
  | .loop _ _ body => body :: Step.bodiesAll body
  | .condition .. | .action _ | .delay _ | .webhook _ => []

/-- The lists of steps in the bodies of a list, at any depth. -/
def Step.bodiesAll : List Step → List (List Step)
  | [] => []
  | s :: rest => s.bodies ++ Step.bodiesAll rest

end

mutual

/-- The places that a step and those in its body can have. -/
def Step.places (place : String → StepPath) : Step → List StepPath
  | .mk id task _ _ => place id :: task.places (place id)

/-- The places that the steps in a body can have: those of as many passes as there can be. -/
def Task.places (path : StepPath) : Task → List StepPath
  | .loop _ limit body => (List.range limit).flatMap fun i => Step.placesAll (Engine.passPlace path i) body
  | .condition .. | .action _ | .delay _ | .webhook _ => []

/-- The places that the steps of a list, and those in their bodies, can have. -/
def Step.placesAll (place : String → StepPath) : List Step → List StepPath
  | [] => []
  | s :: rest => s.places place ++ Step.placesAll place rest

end

section Induction

set_option linter.unusedSectionVars false

variable {motive : List Step → Prop} (nil : motive [])
  (plain : ∀ s rest, s.task.isPlain → motive rest → motive (s :: rest))
  (loop : ∀ id collection limit body next target rest, motive body → motive rest →
    motive (.mk id (.loop collection limit body) next target :: rest))

include nil plain loop

mutual

theorem Task.cons_induction (task : Task) (id : String) (next target : Option String) (rest : List Step)
    (hrest : motive rest) : motive (.mk id task next target :: rest) := by
  match task with
  | .condition .. | .action _ | .delay _ | .webhook _ => exact plain _ rest rfl hrest
  | .loop collection limit body =>
    exact loop id collection limit body next target rest (Step.list_induction body) hrest
termination_by structural task

theorem Step.cons_induction (s : Step) (rest : List Step) (hrest : motive rest) : motive (s :: rest) := by
  match s with
  | .mk id task next target => exact Task.cons_induction task id next target rest hrest
termination_by structural s

/-- Lists of steps are built from steps without a body and from loops over lists of steps. -/
theorem Step.list_induction (steps : List Step) : motive steps := by
  match steps with
  | [] => exact nil
  | s :: rest => exact Step.cons_induction s rest (Step.list_induction rest)
termination_by structural steps

end

end Induction

/-! ## Each place once -/

namespace StepPath

/-- The ids on the way to a place, with the passes that they are in. -/
def trail : StepPath → List (Option Int × String)
  | top id => [(none, id)]
  | inside parent iteration id => parent.trail ++ [(iteration, id)]

end StepPath

/-- Gives the steps of a list their places: they differ in their last id only. -/
def IsPlacing (place : String → StepPath) : Prop := ∃ before pass, ∀ id, (place id).trail = before ++ [(pass, id)]

theorem isPlacing_top : IsPlacing .top := ⟨[], none, fun _ => rfl⟩

theorem isPlacing_pass (path : StepPath) (i : Nat) : IsPlacing (Engine.passPlace path i) :=
  ⟨path.trail, some (i : Int), fun _ => rfl⟩

theorem snoc_prefix_inj {α : Type} {xs l : List α} {a b : α} (ha : xs ++ [a] <+: l) (hb : xs ++ [b] <+: l) : a = b := by
  have hprefix := List.prefix_of_prefix_length_le ha hb (by simp)
  have heq := hprefix.eq_of_length (by simp)
  exact List.singleton_inj.mp (List.append_cancel_left heq)

theorem IsPlacing.inj {place : String → StepPath} (h : IsPlacing place) {a b : String}
    {l : List (Option Int × String)} (ha : (place a).trail <+: l) (hb : (place b).trail <+: l) : a = b := by
  obtain ⟨before, pass, hplace⟩ := h
  rw [hplace] at ha hb
  exact congrArg Prod.snd (snoc_prefix_inj ha hb)

namespace Step

variable {place : String → StepPath}

theorem placesAll_plain {s : Step} {rest : List Step} (hs : s.task.isPlain) :
    placesAll place (s :: rest) = place s.id :: placesAll place rest := by
  obtain ⟨id, task, next, target⟩ := s
  cases task <;> first | rfl | cases hs

theorem placesAll_loop {id collection : String} {limit : Nat} {body rest : List Step} {next target : Option String} :
    placesAll place (.mk id (.loop collection limit body) next target :: rest) =
      place id :: (List.range limit).flatMap (fun i => placesAll (Engine.passPlace (place id) i) body) ++
        placesAll place rest :=
  rfl

theorem bodiesAll_plain {s : Step} {rest : List Step} (hs : s.task.isPlain) : bodiesAll (s :: rest) = bodiesAll rest := by
  obtain ⟨id, task, next, target⟩ := s
  cases task <;> first | rfl | cases hs

theorem bodiesAll_loop {id collection : String} {limit : Nat} {body rest : List Step} {next target : Option String} :
    bodiesAll (.mk id (.loop collection limit body) next target :: rest) = body :: bodiesAll body ++ bodiesAll rest :=
  rfl

/-- Every place is that of a step of the list, or is reached through it. -/
theorem trail_of_mem {steps : List Step} {p : StepPath} (h : p ∈ placesAll place steps) :
    ∃ s ∈ steps, (place s.id).trail <+: p.trail := by
  induction steps using Step.list_induction generalizing place with
  | nil => cases h
  | plain s rest hs ih =>
    rw [placesAll_plain hs] at h
    obtain rfl | h := List.mem_cons.mp h
    · exact ⟨s, List.mem_cons_self, List.prefix_rfl⟩
    · obtain ⟨s', hs', hp⟩ := ih h
      exact ⟨s', List.mem_cons_of_mem s hs', hp⟩
  | loop id collection limit body next target rest ihbody ih =>
    rw [placesAll_loop] at h
    obtain h | h := List.mem_append.mp h
    · refine ⟨_, List.mem_cons_self, ?_⟩
      obtain rfl | h := List.mem_cons.mp h
      · exact List.prefix_rfl
      · obtain ⟨i, -, hi⟩ := List.mem_flatMap.mp h
        obtain ⟨s, -, hs⟩ := ihbody hi
        exact (List.prefix_append _ _).trans hs
    · obtain ⟨s', hs', hp⟩ := ih h
      exact ⟨s', List.mem_cons_of_mem _ hs', hp⟩

/-- What is reached through a pass is not the place of the loop. -/
theorem trail_of_mem_pass {path : StepPath} {limit : Nat} {body : List Step} {p : StepPath}
    (h : p ∈ (List.range limit).flatMap fun i => placesAll (Engine.passPlace path i) body) :
    path.trail <+: p.trail ∧ p ≠ path := by
  obtain ⟨i, -, hi⟩ := List.mem_flatMap.mp h
  obtain ⟨s, -, hs⟩ := trail_of_mem hi
  refine ⟨(List.prefix_append _ _).trans hs, ?_⟩
  rintro rfl
  have hlength : (p.trail ++ [(some (i : Int), s.id)]).length ≤ p.trail.length := hs.length_le
  rw [List.length_append] at hlength
  exact absurd hlength (Nat.not_succ_le_self _)

/-- **No two places of a list of steps are the same**, if no two steps of one list have the same id. -/
theorem nodup_placesAll {steps : List Step} (hplace : IsPlacing place) (hids : (steps.map Step.id).Nodup)
    (hbodies : ∀ list ∈ bodiesAll steps, (list.map Step.id).Nodup) : (placesAll place steps).Nodup := by
  induction steps using Step.list_induction generalizing place with
  | nil => exact List.nodup_nil
  | plain s rest hs ih =>
    rw [placesAll_plain hs]
    rw [bodiesAll_plain hs] at hbodies
    obtain ⟨hfirst, hrest⟩ := List.nodup_cons.mp hids
    refine List.nodup_cons.mpr ⟨fun hmem => ?_, ih hplace hrest hbodies⟩
    obtain ⟨s', hs', hp⟩ := trail_of_mem hmem
    exact hfirst (hplace.inj List.prefix_rfl hp ▸ List.mem_map_of_mem hs')
  | loop id collection limit body next target rest ihbody ih =>
    rw [placesAll_loop]
    rw [bodiesAll_loop] at hbodies
    obtain ⟨hfirst, hrest⟩ := List.nodup_cons.mp hids
    have hbody (i : Nat) := ihbody (isPlacing_pass (place id) i) (hbodies body List.mem_cons_self) fun list hlist =>
      hbodies list (List.mem_cons_of_mem _ (List.mem_append_left _ hlist))
    have hpasses : ((List.range limit).flatMap fun i => placesAll (Engine.passPlace (place id) i) body).Nodup := by
      refine List.nodup_flatMap.mpr ⟨fun i _ => hbody i, List.nodup_range.imp fun {i j} hij p hi hj => ?_⟩
      obtain ⟨s, -, hs⟩ := trail_of_mem hi
      obtain ⟨s', -, hs'⟩ := trail_of_mem hj
      have hpass := congrArg Prod.fst (snoc_prefix_inj hs hs')
      exact hij (Int.ofNat.inj (Option.some.inj hpass))
    have hloop := List.nodup_cons.mpr ⟨fun hmem => (trail_of_mem_pass hmem).2 rfl, hpasses⟩
    have hothers := ih hplace hrest fun list hlist => hbodies list (List.mem_cons_of_mem _ (List.mem_append_right _ hlist))
    refine List.nodup_append'.mpr ⟨hloop, hothers, fun p hp hmem => ?_⟩
    have hthrough : (place id).trail <+: p.trail := by
      obtain rfl | hp := List.mem_cons.mp hp
      · exact List.prefix_rfl
      · exact (trail_of_mem_pass hp).1
    obtain ⟨s', hs', hp'⟩ := trail_of_mem hmem
    have hid : s'.id ∈ rest.map Step.id := List.mem_map_of_mem hs'
    exact hfirst (hplace.inj hthrough hp' ▸ hid)

/-- The places of a list of steps are counted, if no id in it looks like a pass. -/
theorem isCounted_of_mem {steps : List Step} {p : StepPath} (hplace : ∀ id, ¬ StepPath.IsMarked id → (place id).IsCounted)
    (hids : ∀ s ∈ steps, ¬ StepPath.IsMarked s.id)
    (hbodies : ∀ list ∈ bodiesAll steps, ∀ s ∈ list, ¬ StepPath.IsMarked s.id) (h : p ∈ placesAll place steps) :
    p.IsCounted := by
  induction steps using Step.list_induction generalizing place with
  | nil => cases h
  | plain s rest hs ih =>
    rw [placesAll_plain hs] at h
    rw [bodiesAll_plain hs] at hbodies
    obtain ⟨hfirst, hrest⟩ := List.forall_mem_cons.mp hids
    obtain rfl | h := List.mem_cons.mp h
    · exact hplace s.id hfirst
    · exact ih hplace hrest hbodies h
  | loop id collection limit body next target rest ihbody ih =>
    rw [placesAll_loop] at h
    rw [bodiesAll_loop] at hbodies
    obtain ⟨hfirst, hrest⟩ := List.forall_mem_cons.mp hids
    obtain h | h := List.mem_append.mp h
    · obtain rfl | h := List.mem_cons.mp h
      · exact hplace id hfirst
      · obtain ⟨i, -, hi⟩ := List.mem_flatMap.mp h
        exact ihbody (fun id' hid' => .inside (hplace id hfirst) hid') (hbodies body List.mem_cons_self)
          (fun list hlist => hbodies list (List.mem_cons_of_mem _ (List.mem_append_left _ hlist))) hi
    · exact ih hplace hrest (fun list hlist => hbodies list (List.mem_cons_of_mem _ (List.mem_append_right _ hlist))) h

end Step

namespace Engine

/-! ## What a run visits -/

variable {g : Engine} {e : Opened} {vs vs' : Variables} {t : Course}

theorem tourPasses_sublist {body : Nat → Variables → List Value → Tour} {places : Nat → List StepPath}
    (h : ∀ i vs rs, (body i vs rs).visits.Sublist (places i)) (i : Nat) (items : List Value) (vs : Variables) (rs : List Value) :
    (tourPasses body i items vs rs).visits.Sublist ((List.range' i items.length).flatMap places) := by
  induction items generalizing i vs rs with
  | nil => exact List.nil_sublist _
  | cons x rest ih =>
    rw [List.length_cons, List.range'_succ, List.flatMap_cons]
    exact (h i _ rs).append (ih (i + 1) _ _)

theorem tourAll_sublist (place : String → StepPath) (steps : List Step) (vs : Variables) (rs : List Value) :
    (tourAll place steps vs rs).visits.Sublist (Step.placesAll place steps) := by
  induction steps using Step.list_induction generalizing place vs rs with
  | nil => exact List.nil_sublist _
  | plain s rest hs ih =>
    rw [Step.placesAll_plain hs]
    obtain ⟨id, task, next, target⟩ := s
    have hstep (rs : List Value) : (tourStep place (.mk id task next target) vs rs).visits = [place id] := by
      cases task <;> first | rfl | cases hs
    show ((tourStep place (.mk id task next target) vs rs).visits ++ _).Sublist _
    rw [hstep]
    exact (ih place _ _).cons_cons _
  | loop id collection limit body next target rest ihbody ih =>
    rw [Step.placesAll_loop]
    let items := ((foundItems vs collection).toOption.getD []).take limit
    have hpasses := tourPasses_sublist (fun i => ihbody (passPlace (place id) i)) 0 items vs rs
    have hlimit : (List.range' 0 items.length).Sublist (List.range limit) := by
      rw [List.range_eq_range']
      exact (List.range'_sublist_right).mpr (List.length_take_le ..)
    exact ((hpasses.trans (hlimit.flatMap _)).cons_cons _).append (ih place _ _)

/-- **A walk visits places of its steps only, each of them once** and in their order. -/
theorem Walk.visits_sublist {place : String → StepPath} {steps : List Step} {r : Except Failure Unit}
    (h : Walk g e (.steps place steps) vs t r vs') : t.visits.Sublist (Step.placesAll place steps) :=
  (h.visits_prefix []).sublist.trans (tourAll_sublist place steps vs _)

/-- A tour visits every step of its list. -/
theorem sublist_tourAll (place : String → StepPath) (steps : List Step) (vs : Variables) (rs : List Value) :
    (steps.map fun s => place s.id).Sublist (tourAll place steps vs rs).visits := by
  induction steps generalizing vs rs with
  | nil => exact List.nil_sublist _
  | cons s rest ih =>
    obtain ⟨id, task, next, target⟩ := s
    exact ((List.nil_sublist _).cons_cons (place id)).append (ih _ _)

/-- **The step runs of an execution are told apart by the texts of their places**, in all surroundings, if no two steps of one list
have the same id and no id looks like a pass. The loader sees to neither: a run that completes on a workflow with two steps of
one id has two step runs with the same text. -/
theorem step_runs_told_apart (g : Engine) (o : Order) (s : Surroundings (Request Call) (Request.Reply Call.Answer))
    (stored : StoredWorkflow) (w : Workflow)
    (hstored : ⟨.getWorkflow o.actor.tenant o.workflow, .ok (some stored)⟩ ∈ Course.calls ((g.run o).run.under s).1)
    (hw : Workflow.load g.loopLimit stored = .ok w) :
    let t := ((g.run o).run.under s).1
    let result := ((g.run o).run.under s).2
    ((∀ list ∈ w.steps :: Step.bodiesAll w.steps, (list.map Step.id).Nodup ∧ ∀ step ∈ list, ¬ StepPath.IsMarked step.id) →
      ((Course.visits t).map StepPath.text).Nodup) ∧
    (∀ x, result = .ok x → ((Course.visits t).map StepPath.text).Nodup → (w.steps.map Step.id).Nodup) := by
  have hj := journey_of_leads (Program.leads_under s (g.run o).run)
  generalize (g.run o).run.under s = p at hstored hj ⊢
  obtain ⟨t, result⟩ := p
  dsimp only at hstored hj ⊢
  cases hj with
  | unopened hvain =>
    rw [visits_of_isVain hvain]
    exact ⟨fun _ => List.nodup_nil, nofun⟩
  | @opened stored' vs final n start id body closing r r' hvs hbody hclosing =>
    obtain rfl := stored_of_mem hbody hclosing hstored
    rw [visits_opened hclosing]
    obtain ⟨f, hf, -⟩ | ⟨w', hw', hleads⟩ := leads_body hbody
    · cases hf.symm.trans hw
    cases hw'.symm.trans hw
    have hwalk := walk_of_leads _ _ _ _ hleads
    refine ⟨fun h => ?_, fun x hx hnodup => ?_⟩
    · obtain ⟨hsteps, hbodies⟩ := List.forall_mem_cons.mp h
      have hplaces := Step.nodup_placesAll isPlacing_top hsteps.1 fun list hlist => (hbodies list hlist).1
      have hcounted (p : StepPath) (hp : p ∈ body.visits) : p.IsCounted :=
        Step.isCounted_of_mem (fun _ => .top) hsteps.2 (fun list hlist => (hbodies list hlist).2)
          (hwalk.visits_sublist.subset hp)
      exact (hplaces.sublist hwalk.visits_sublist).map_on fun p hp q hq =>
        StepPath.eq_of_text_eq (hcounted p hp) (hcounted q hq)
    · cases r' with
      | error f => cases hx
      | ok _ =>
        have htour := hwalk.tour_eq (hclosing.eq_ok rfl) []
        have hsteps := sublist_tourAll .top w.steps vs (body.replies ++ [])
        rw [show tourAll .top w.steps vs (body.replies ++ []) = _ from htour] at hsteps
        have hids := hnodup.sublist (hsteps.map StepPath.text)
        rwa [List.map_map] at hids

end Engine

namespace Repeating

/-- A workflow of two steps with the same id. -/
def stored : StoredWorkflow :=
  { id := .str "workflow", tenant := .str "tenant",
    steps := .list [.dict (Checking.entries "check"), .dict (Checking.entries "check")] }

theorem load_stored (limit : Value) : Workflow.load limit stored =
    .ok ⟨"workflow", "tenant", "", [], [Checking.stepRead "check", Checking.stepRead "check"]⟩ := by
  have hread : Step.read limit (.dict (Checking.entries "check")) = .ok (Checking.stepRead "check") :=
    Step.read_of_bodiless rfl rfl rfl rfl rfl rfl
  unfold Workflow.load
  show Step.readAll limit [.dict (Checking.entries "check"), .dict (Checking.entries "check")] >>= _ = _
  rw [Step.readAll_cons_of_ok hread (Step.readAll_cons_of_ok hread (Step.readAll_nil _))]
  rfl

/-- Its run in surroundings that oblige. -/
def repeated : Course × Except Failure Execution := (({} : Engine).run Checking.order).run.under (obliging stored "")

/-- Once its execution is open the run goes on with the steps that are read. -/
theorem repeated_eq :
    let e : Opened := ⟨"execution", Checking.order.actor, Clock.stamp (Binary64.zero false)⟩
    let start : ExecutionStart := ⟨"tenant", "workflow", "user", e.startedAt, .dict [], .dict []⟩
    let opening := ({} : Engine).opening Checking.order stored (Binary64.zero false) start e.id
    let left := (Checking.order.afterOpening e [] (do
      let result ← Run.observe (({} : Engine).runAll e .top [Checking.stepRead "check", Checking.stepRead "check"])
      Engine.close e (.ofResult result)
      result)).run.after (obliging stored "") opening
    repeated = (opening ++ left.1, left.2) := by
  intro e start opening left
  have hbody : ({} : Engine).body e stored =
      ({} : Engine).runAll e .top [Checking.stepRead "check", Checking.stepRead "check"] := Engine.body_of_load (load_stored _)
  show repeated = _
  unfold left
  rw [← hbody]
  rfl

/-- The step runs of a loop are told apart, and those of two steps with the same id are not. -/
theorem repeated_not_told_apart :
    ((Course.visits Posting.posted.1).map StepPath.text).Nodup ∧ repeated.2.isOk = true ∧
      ¬ ((Course.visits repeated.1).map StepPath.text).Nodup := by
  have hok : repeated.2.isOk = true := by
    rw [repeated_eq]
    decide +kernel
  refine ⟨?_, hok, fun hnodup => ?_⟩
  · refine (Engine.step_runs_told_apart {} Mailing.order Posting.lost Posting.stored _ Posting.found_posted
      (Posting.load_stored _)).1 ?_
    have heach : ¬ StepPath.IsMarked "each" := StepPath.not_isMarked (by decide)
    have hmail : ¬ StepPath.IsMarked "mail" := StepPath.not_isMarked (by decide)
    refine List.forall_mem_cons.mpr ⟨⟨List.nodup_singleton _, List.forall_mem_singleton.mpr heach⟩, ?_⟩
    exact List.forall_mem_singleton.mpr ⟨List.nodup_singleton _, List.forall_mem_singleton.mpr hmail⟩
  · have hfound : ⟨.getWorkflow "tenant" "workflow", .ok (some stored)⟩ ∈ Course.calls repeated.1 := by
      rw [repeated_eq]
      exact List.mem_cons_self
    obtain ⟨-, hids⟩ := Engine.step_runs_told_apart {} Checking.order (obliging stored "") stored _ hfound (load_stored _)
    cases hresult : repeated.2 with
    | error f =>
      rw [hresult] at hok
      cases hok
    | ok x => exact absurd (hids x hresult hnodup) (by decide)

end Repeating

/-! ## Ids without slashes -/

namespace StepPath

/-- The ids on the way to a place. -/
def ids (p : StepPath) : List String := p.trail.map Prod.snd

/-- The places that a run gives to its steps: at the top, and in the passes of loops that have such places. -/
inductive IsGiven : StepPath → Prop where
  | top (id : String) : IsGiven (.top id)
  | pass {parent : StepPath} (i : Nat) (id : String) : IsGiven parent → IsGiven (Engine.passPlace parent i id)

/-- No id on the way to a place has a slash in it. -/
def IsSlashFree (p : StepPath) : Prop := ∀ id ∈ p.ids, '/' ∉ id.toList

instance (p : StepPath) : Decidable p.IsSlashFree := inferInstanceAs (Decidable (∀ id ∈ p.ids, '/' ∉ id.toList))

variable {p q parent : StepPath}

theorem ids_inside (parent : StepPath) (pass : Option Int) (id : String) : (inside parent pass id).ids = parent.ids ++ [id] :=
  List.map_append

theorem isSlashFree_inside {pass : Option Int} {id : String} :
    (inside parent pass id).IsSlashFree ↔ parent.IsSlashFree ∧ '/' ∉ id.toList := by
  rw [IsSlashFree, ids_inside, List.forall_mem_append, List.forall_mem_singleton]
  rfl

/-- Places that a run gives are counted, if no id in them has a slash. -/
theorem IsGiven.isCounted (h : p.IsGiven) (hfree : p.IsSlashFree) : p.IsCounted := by
  induction h with
  | top id => exact .top (not_isMarked (hfree id List.mem_cons_self))
  | pass i id _ ih =>
    obtain ⟨hparent, hid⟩ := isSlashFree_inside.mp hfree
    exact .inside (ih hparent) (not_isMarked hid)

end StepPath

theorem Step.isGiven_of_mem {place : String → StepPath} {steps : List Step} {p : StepPath} (hplace : ∀ id, (place id).IsGiven)
    (h : p ∈ placesAll place steps) : p.IsGiven := by
  induction steps using Step.list_induction generalizing place with
  | nil => cases h
  | plain s rest hs ih =>
    rw [placesAll_plain hs] at h
    obtain rfl | h := List.mem_cons.mp h
    · exact hplace s.id
    · exact ih hplace h
  | loop id collection limit body next target rest ihbody ih =>
    rw [placesAll_loop] at h
    obtain h | h := List.mem_append.mp h
    · obtain rfl | h := List.mem_cons.mp h
      · exact hplace id
      · obtain ⟨i, -, hi⟩ := List.mem_flatMap.mp h
        exact ihbody (fun id' => .pass i id' (hplace id)) hi
    · exact ih hplace h

namespace Engine

/-- **A run visits given places only.** -/
theorem isGiven_of_visits (g : Engine) (o : Order) (s : Surroundings (Request Call) (Request.Reply Call.Answer)) {p : StepPath}
    (h : p ∈ Course.visits ((g.run o).run.under s).1) : p.IsGiven := by
  have hj := journey_of_leads (Program.leads_under s (g.run o).run)
  generalize (g.run o).run.under s = x at h hj
  obtain ⟨t, result⟩ := x
  dsimp only at h hj
  cases hj with
  | unopened hvain =>
    rw [visits_of_isVain hvain] at h
    cases h
  | opened hvs hbody hclosing =>
    rw [visits_opened hclosing] at h
    obtain ⟨f, -, rfl, -, -⟩ | ⟨w, -, hleads⟩ := leads_body hbody
    · cases h
    · exact Step.isGiven_of_mem .top ((walk_of_leads _ _ _ _ hleads).visits_sublist.subset h)

/-- **Places without a slash in their ids are told apart by their texts**, at any depth, whatever brackets and digits the ids are made
of. The places that are meant are those that a run gives to its steps: whatever a run visits is one of them. -/
theorem slash_free_places_told_apart :
    (∀ p q : StepPath, p.IsGiven → q.IsGiven → p.IsSlashFree → q.IsSlashFree → (p.text = q.text ↔ p = q)) ∧
    ∀ (g : Engine) (o : Order) (s : Surroundings (Request Call) (Request.Reply Call.Answer)),
      ∀ p ∈ Course.visits ((g.run o).run.under s).1, p.IsGiven := by
  refine ⟨fun p q hp hq hpfree hqfree => ⟨fun h => ?_, congrArg _⟩, fun g o s p => isGiven_of_visits g o s⟩
  exact StepPath.eq_of_text_eq (hp.isCounted hpfree) (hq.isCounted hqfree) h

end Engine

namespace Posting

/-- A place that the run visits, and one with a bracketed id that reads almost like it. -/
theorem slash_free_places_told_apart_at_a_pass :
    let p : StepPath := .inside (.top "each") (some 0) "mail"
    let q : StepPath := .inside (.top "each[0]") (some 0) "mail"
    p ∈ Course.visits posted.1 ∧ p.IsGiven ∧ q.IsGiven ∧ p.IsSlashFree ∧ q.IsSlashFree ∧ p.text ≠ q.text := by
  intro p q
  obtain ⟨htold, hgiven⟩ := Engine.slash_free_places_told_apart
  have hvisited : p ∈ Course.visits posted.1 := by
    rw [posted_eq]
    decide +kernel
  have hp : p.IsGiven := hgiven {} Mailing.order lost p hvisited
  have hq : q.IsGiven := .pass 0 "mail" (.top "each[0]")
  have hpfree : p.IsSlashFree := by decide
  have hqfree : q.IsSlashFree := by decide
  exact ⟨hvisited, hp, hq, hpfree, hqfree, mt (htold p q hp hq hpfree hqfree).mp (by decide)⟩

end Posting

end Runbook
