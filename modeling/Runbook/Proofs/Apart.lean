import Runbook.Proofs.Known

/-!
# Tenants apart

What other tenants have in the database is nothing to the runs of a tenant, with one exception. Two databases that agree in what
the tenant sees of them look the same to its runs, so the runs go the same way in either. What a tenant sees besides its own rows
are the ids which its workflows name for new records: a record is refused under an id that another tenant has.

* `Database.Agree`: databases that differ in rows of other tenants only.
* `Rehearsal.run_seen`: runs that see a part of the world only.
* **`Rehearsal.tenants_apart`**: runs of a tenant on databases that agree.
-/

namespace Runbook

namespace Database

/-- Databases that differ in rows of other tenants only. No other tenant has an id that is still to be given out, and these ids
are taken by other tenants in both or in neither. -/
structure Agree (tenant : String) (named : List (Table × String)) (db db' : Database) : Prop where
  rows : db'.rowsOf tenant = db.rowsOf tenant
  issued : db'.issued = db.issued
  fresh : ∀ row ∈ db.rows ++ db'.rows, row.holds "tenant_id" tenant = false → ∀ n > db.issued, row.holds "id" (nthId n) = false
  taken : ∀ p ∈ named, db'.isTaken tenant p = db.isTaken tenant p

namespace Agree

variable {tenant : String} {named : List (Table × String)} {db db' : Database}

theorem seenBy_eq (h : Agree tenant named db db') : db'.seenBy tenant named = db.seenBy tenant named := by
  rw [seenBy, seenBy, h.rows, h.issued, List.filter_congr h.taken]

/-- A tenant finds the same workflows among the same rows. -/
theorem workflow?_eq (h : Agree tenant named db db') (id : String) : db'.workflow? tenant id = db.workflow? tenant id := by
  refine workflow?_of_select ?_
  have hseen (db : Database) :
      (db.seenBy tenant named).select .workflows (·.isOf tenant id) = db.select .workflows (·.isOf tenant id) :=
    select_seenBy fun _ => isOf_holds
  rw [← hseen db', h.seenBy_eq, hseen db]

theorem isFair (h : Agree tenant named db db') : IsFair tenant db db' where
  issued := Nat.le_of_eq h.issued.symm
  fresh row hrow := h.fresh row (List.mem_append_right _ hrow)
  workflows := h.workflow?_eq

theorem isFair_self (h : Agree tenant named db db') : IsFair tenant db db where
  issued := Nat.le_refl _
  fresh row hrow := h.fresh row (List.mem_append_left _ hrow)
  workflows _ := rfl

end Agree

end Database

/-! ## Rehearsals -/

namespace Rehearsal

variable {g : Engine} {w : Wiring} {v : Sight World} {s s' : Schedule w.setting}

theorem openToken_seen (h : s.Seen v s') (t : Option OwnToken) : ∃ n s₁ s₁',
    openToken ⟨g, w, s⟩ t = (n, ⟨g, w, s₁⟩) ∧ openToken ⟨g, w, s'⟩ t = (n, ⟨g, w, s₁'⟩) ∧ s₁.Seen v s₁' := by
  cases t with
  | none => exact ⟨none, s, s', rfl, rfl, h⟩
  | some t =>
    obtain ⟨hn, hseen⟩ := h.newToken t.timeout
    unfold openToken
    dsimp only
    rw [hn]
    cases t.cancelled with
    | none => exact ⟨_, _, _, rfl, rfl, hseen⟩
    | some reason => exact ⟨_, _, _, rfl, rfl, hseen.cancelToken _ reason⟩

theorem foldl_after_seen (h : s.Seen v s') (hacts : ∀ a, (World.act a).Blind v fun _ => True) (i : Nat)
    (timeline : List (Binary64 × Act)) :
    (timeline.foldl (fun s (at_, a) => s.after at_ (.occur i (World.act a))) s).Seen v
      (timeline.foldl (fun s (at_, a) => s.after at_ (.occur i (World.act a))) s') := by
  induction timeline generalizing s s' with
  | nil => exact h
  | cons x timeline ih => exact ih (h.after x.1 (hacts x.2))

theorem launch_seen (h : s.Seen v s') {q : RunRequest} (hacts : ∀ a, (World.act a).Blind v fun _ => True)
    (hrun : w.setting.Safe v (g.run q.order).run) : ∃ i s₁ s₁',
    launch ⟨g, w, s⟩ q = (i, ⟨g, w, s₁⟩) ∧ launch ⟨g, w, s'⟩ q = (i, ⟨g, w, s₁'⟩) ∧ s₁.Seen v s₁' := by
  obtain ⟨n, s₁, s₁', hs, hs', hseen⟩ := openToken_seen (g := g) h q.token
  have hlength : s'.fibers.length = s.fibers.length := by rw [h.eq]
  unfold launch
  dsimp only
  rw [hs, hs', hlength]
  obtain ⟨hi, hseen⟩ := (foldl_after_seen hseen hacts s.fibers.length q.timeline).launch hrun n
  dsimp only
  rw [hi]
  exact ⟨_, _, _, rfl, rfl, hseen⟩

theorem launchAll_seen (h : s.Seen v s') {qs : List RunRequest} (hacts : ∀ a, (World.act a).Blind v fun _ => True)
    (hruns : ∀ q ∈ qs, w.setting.Safe v (g.run q.order).run) : ∃ is s₁ s₁',
    launchAll ⟨g, w, s⟩ qs = (is, ⟨g, w, s₁⟩) ∧ launchAll ⟨g, w, s'⟩ qs = (is, ⟨g, w, s₁'⟩) ∧ s₁.Seen v s₁' := by
  induction qs generalizing s s' with
  | nil => exact ⟨[], s, s', rfl, rfl, h⟩
  | cons q qs ih =>
    obtain ⟨hrun, hruns⟩ := List.forall_mem_cons.mp hruns
    obtain ⟨i, s₁, s₁', hs, hs', hseen⟩ := launch_seen h hacts hrun
    obtain ⟨is, s₂, s₂', hs₁, hs₁', hseen⟩ := ih hseen hruns
    unfold launchAll
    rw [hs, hs']
    dsimp only
    rw [hs₁, hs₁']
    exact ⟨_, _, _, rfl, rfl, hseen⟩

/-- **Runs together** end in the same way with what is seen of the world, and leave what is seen of the world. -/
theorem run_seen (h : s.Seen v s') {qs : List RunRequest} (hacts : ∀ a, (World.act a).Blind v fun _ => True)
    (hruns : ∀ q ∈ qs, w.setting.Safe v (g.run q.order).run) :
    (run ⟨g, w, s'⟩ qs).1 = (run ⟨g, w, s⟩ qs).1 ∧ (run ⟨g, w, s'⟩ qs).2.world = v.see (run ⟨g, w, s⟩ qs).2.world := by
  obtain ⟨is, s₁, s₁', hs, hs', hseen⟩ := launchAll_seen h hacts hruns
  have hfinish := hseen.finish
  unfold run
  rw [hs, hs']
  refine ⟨?_, ?_⟩
  · exact congrArg is.filterMap (funext fun i => by rw [hfinish.result? i])
  · exact congrArg Schedule.world hfinish.eq

end Rehearsal

/-- The acts of a script and of a timeline do not touch the database. -/
theorem World.act_blind (tenant : String) (named : List (Table × String)) (origin : Database) (a : Act) :
    (World.act a).Blind (Database.sight tenant named origin) fun _ => True :=
  Work.Makes.blind (World.act_makes a)

/-- **Tenants apart.** Runs of a tenant, on databases that differ in rows of other tenants only, end with the same results, leave
the same journal, the same mail and all else but the rows of others, provided that no other tenant has an id that is still to be
given out, and that of the ids which the steps of the runs name others have the same ones in both databases. The second
condition is needed: under an id that another tenant has, no row is added. -/
theorem Rehearsal.tenants_apart (g : Engine) (w : Wiring) (hw : w.stores = .onDatabase) (tenant : String) (world : World)
    (db : Database) (qs : List RunRequest) (hqs : ∀ q ∈ qs, q.order.actor.tenant = tenant)
    (h : Database.Agree tenant (qs.flatMap fun q => g.idsOf world.database q.order) world.database db) :
    let done := (start g w world).run qs
    let done' := (start g w { world with database := db }).run qs
    done'.1 = done.1 ∧ done'.2.world = { done.2.world with database := done'.2.world.database } ∧
      done'.2.world.database.rowsOf tenant = done.2.world.database.rowsOf tenant ∧
      ∀ (table : Table) (id : String) (record : Fields), record.idText? = some id → db.isTaken tenant (table, id) →
        ∃ f, db.insertRecord table tenant record = (.error f, db) := by
  intro done done'
  generalize hnamed : (qs.flatMap fun q => g.idsOf world.database q.order) = named at h
  let v := Database.sight tenant named world.database
  have hruns : ∀ q ∈ qs, w.setting.Safe v (g.run q.order).run := by
    intro q hq
    obtain rfl := hqs q hq
    have hids : g.idsOf world.database q.order ⊆ named := fun p hp => hnamed ▸ List.mem_flatMap.mpr ⟨q, hq, hp⟩
    exact Routine.Safe.mono (Engine.run_seesOnly hw hids) fun _ _ => trivial
  have hbegins (world' : World) (hfair : Database.IsFair tenant world.database world'.database) :
      Schedule.Seen (S := w.setting) v { world := world' } { world := v.see world' } :=
    ⟨rfl, hfair, List.forall_mem_nil _, List.forall_mem_nil _, List.forall_mem_nil _⟩
  have hacts := World.act_blind tenant named world.database
  have hsame : v.see { world with database := db } = v.see world := congrArg (fun db => { world with database := db }) h.seenBy_eq
  obtain ⟨hresults, hworld⟩ := run_seen (g := g) (hbegins world h.isFair_self) hacts hruns
  obtain ⟨hresults', hworld'⟩ := run_seen (g := g) (hbegins { world with database := db } h.isFair) hacts hruns
  rw [hsame] at hresults' hworld'
  have hsee : v.see done'.2.world = v.see done.2.world := hworld'.symm.trans hworld
  refine ⟨hresults'.symm.trans hresults, ?_, ?_, fun _ _ _ => Database.insertRecord_of_taken⟩
  · exact congrArg (fun u : World => { u with database := done'.2.world.database }) hsee
  · have hrows := congrArg (fun u : World => u.database.rowsOf tenant) hsee
    exact Database.rowsOf_seenBy.symm.trans (hrows.trans Database.rowsOf_seenBy)

/-! ## A step that names an id -/

namespace Naming

/-- A stored step that adds a supplier under an id of its own. -/
def step : Value :=
  .dict [(.str "id", .str "supply"), (.str "type", .str "action"),
    (.str "config", .dict [(.str "action", .str "create_record"), (.str "parameters",
      .dict [(.str "table", .str "suppliers"), (.str "data", .dict [(.str "id", .str "acme")])])])]

/-- The same step when it is read. -/
def stepRead : Step := .mk "supply" (.action (.createRecord .suppliers [("id", .str "acme")])) none none

/-- A workflow with this step only. -/
def stored : StoredWorkflow :=
  { id := .str "workflow", tenant := .str "tenant", name := .str "Supply", steps := .list [step], initial := .dict [] }

/-- A record of the other tenant. -/
def foreign (t : Table) (id : String) : Row :=
  ⟨.records t, [("id", .value (.str id)), ("tenant_id", .value (.str "other")), ("is_deleted", .value (.bool false))]⟩

/-- The workflow in the database. -/
def workflow : Row :=
  ⟨.workflows, [("id", .value (.str "workflow")), ("tenant_id", .value (.str "tenant")), ("name", .value (.str "Supply")),
    ("steps", .value (.list [step])), ("variables", .value (.dict []))]⟩

/-- A database in which the other tenant has a supplier. -/
def database : Database := { rows := [workflow, foreign .suppliers "globex"] }

/-- The same where it has an item instead, under the id that the step names in another table. -/
def neighbour : Database := { rows := [workflow, foreign .inventoryItems "acme"] }

/-- An order of the workflow. -/
def request : RunRequest := { order := ⟨"workflow", ⟨"tenant", "user"⟩, [], []⟩ }

theorem ids_stored (g : Engine) : g.ids stored = [(.suppliers, "acme")] := by
  have hread : Step.readAll g.loopLimit [step] = .ok [stepRead] :=
    Step.readAll_cons_of_ok (Step.read_of_bodiless rfl rfl rfl rfl rfl rfl) (Step.readAll_nil _)
  have hload : Workflow.load g.loopLimit stored = .ok ⟨"workflow", "tenant", "Supply", [], [stepRead]⟩ := by
    unfold Workflow.load
    show Step.readAll g.loopLimit [step] >>= _ = _
    rw [hread]
    rfl
  exact Engine.ids_of_load hload

theorem ne_nthId {id : String} (h : id.toList.head? ≠ some 'u') (n : Nat) : id ≠ Database.nthId n := by
  rintro rfl
  refine h ?_
  rw [Database.nthId, String.toList_append]
  rfl

theorem agree : Database.Agree "tenant" [(.suppliers, "acme")] database neighbour where
  rows := rfl
  issued := rfl
  fresh := by
    have hforeign (t : Table) (id : String) (h : id.toList.head? ≠ some 'u') (n : Nat) :
        (foreign t id).holds "id" (Database.nthId n) = false := beq_false_of_ne (ne_nthId h n)
    show ∀ row ∈ [workflow, foreign .suppliers "globex", workflow, foreign .inventoryItems "acme"], _
    simp only [List.mem_cons, List.not_mem_nil, or_false]
    rintro row (rfl | rfl | rfl | rfl) howner n -
    · cases howner
    · exact hforeign .suppliers "globex" (by decide) n
    · cases howner
    · exact hforeign .inventoryItems "acme" (by decide) n
  taken := by decide

/-- The other tenant has not the same in the two databases, and the run does the same in either. -/
theorem supplied_alike :
    database.isTaken "tenant" (.inventoryItems, "acme") = false ∧ neighbour.isTaken "tenant" (.inventoryItems, "acme") = true ∧
      let done := (Rehearsal.start {} { stores := .onDatabase } { database }).run [request]
      let done' := (Rehearsal.start {} { stores := .onDatabase } { database := neighbour }).run [request]
      done'.1 = done.1 ∧ done'.2.world = { done.2.world with database := done'.2.world.database } ∧
        done'.2.world.database.rowsOf "tenant" = done.2.world.database.rowsOf "tenant" := by
  have hids : ([request].flatMap fun q => Engine.idsOf {} database q.order) = [(.suppliers, "acme")] := by
    rw [List.flatMap_singleton]
    exact (Engine.idsOf_of_workflow? (o := request.order) rfl).trans (ids_stored {})
  have hqs : ∀ q ∈ [request], q.order.actor.tenant = "tenant" := List.forall_mem_singleton.mpr rfl
  obtain ⟨hresults, hworld, hrows, -⟩ :=
    Rehearsal.tenants_apart {} { stores := .onDatabase } rfl "tenant" { database } neighbour [request] hqs (hids ▸ agree)
  exact ⟨by decide, by decide, hresults, hworld, hrows⟩

end Naming

end Runbook
