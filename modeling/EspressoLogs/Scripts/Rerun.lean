import EspressoLogs.Scripts.Migrated

/-!
What a complete run leaves, and what another run makes of it.

Once a run reports no errors, the tables of the entities that it was asked for carry their
sheets in full, with every reference resolved to the row that is stored (`main_exact`).
Run again without a fault, the script reports the same and changes nothing (`main_again`).
-/

namespace EspressoLogs.Migration

open Lib Py Schema

variable {bound : Bool} {py : Python} {args : Args} {book : Workbook} {householdId : Uuid}
  {ids : Entity.Lookups} {e : Entity} {w w' : Connection bound}

/-! ### References -/

/-- The entities whose rows the mapper of an entity looks up. -/
def Entity.refers : Entity → List Entity
  | inventory => [catalog]
  | maintenance => [hardware]
  | _ => []

theorem Entity.isReferred_of_mem_refers {e' : Entity} (h : e' ∈ e.refers) : e'.isReferred = true := by
  cases e with
  | catalog | hardware | brewLog => cases h
  | inventory | maintenance =>
      cases List.mem_singleton.mp h
      rfl

theorem Entity.map_congr {ids' : Entity.Lookups} (same : ∀ e' ∈ e.refers, ids e' = ids' e') :
    e.map py householdId ids = e.map py householdId ids' := by
  funext row
  cases e with
  | catalog | hardware | brewLog => rfl
  | inventory => exact congrArg (fromSheetsDictInventory py row householdId) (same _ List.mem_cons_self)
  | maintenance =>
      exact congrArg (fromSheetsDictMaintenance py row householdId) (same _ List.mem_cons_self)

/-- The ids of an entity are read from its own table. -/
theorem found_congr {db db' : Tables (Reach Table bound)} (same : db' ⟨e.table⟩ = db ⟨e.table⟩) :
    found householdId db' e = found householdId db e := by
  unfold found
  rw [same]

/-- What an entity refers to comes before it. -/
def inOrder : List Entity → List Entity → Bool
  | _, [] => true
  | done, e :: rest => e.refers.all (done.contains ·) && inOrder (e :: done) rest

/-- The entities that were done are looked up as they are stored. -/
def Looked (householdId : Uuid) (db : Tables (Reach Table bound)) (ids : Entity.Lookups)
    (done : List Entity) : Prop :=
  ∀ e ∈ done, e.isReferred = true → ids e = found householdId db e

section Looked

variable {db db' : Tables (Reach Table bound)} {ids' : Entity.Lookups} {done rest : List Entity}

theorem Looked.nil : Looked householdId db ids [] := fun _ he => absurd he List.not_mem_nil

/-- One more entity was done. -/
theorem Looked.cons (looked : Looked householdId db ids done)
    (here : e.isReferred = true → ids' e = found householdId db' e)
    (elsewhere : ∀ e', e' ≠ e → ids' e' = ids e')
    (kept : ∀ e' : Entity, e' ≠ e → db' ⟨e'.table⟩ = db ⟨e'.table⟩) :
    Looked householdId db' ids' (e :: done) := by
  intro e' he' referred
  by_cases other : e' = e
  · subst other
    exact here referred
  · have before : e' ∈ done := (List.mem_cons.mp he').resolve_left other
    rw [elsewhere e' other, looked e' before referred]
    exact (found_congr (kept e' other)).symm

/-- What the mapper of the next entity looks up. -/
theorem Looked.refers (looked : Looked householdId db ids done)
    (ordered : inOrder done (e :: rest) = true) :
    ∀ e' ∈ e.refers, e' ∈ done ∧ ids e' = found householdId db e' := by
  intro e' he'
  obtain ⟨before, -⟩ := Bool.and_eq_true_iff.mp ordered
  have mem : e' ∈ done := by
    simpa using List.all_eq_true.mp before e' he'
  exact ⟨mem, looked e' mem (Entity.isReferred_of_mem_refers he')⟩

end Looked

/-! ### Complete runs -/

/-- What is reported of an entity all of whose rows were upserted. -/
def report (args : Args) (book : Workbook) (e : Entity) : List Outcome :=
  if args.selects e then
    match book e with
    | .ok sheet => [⟨e, sheet.length, sheet.length, 0⟩]
    | .error _ => []
  else []

/-- Every row of the sheet can be mapped, with the references as they are stored, and the
table carries them. -/
structure Full (py : Python) (book : Workbook) (householdId : Uuid) (ids : Entity.Lookups)
    (e : Entity) (sheet : List Dict) (rows rows' : List e.table.Row) : Prop where
  read : book e = .ok sheet
  mapped : ∀ row ∈ sheet, ∃ m, e.map py householdId ids row = .ok m
  carried : Carried e householdId (mappedRows (e.map py householdId ids) sheet) rows rows'

/-- What a complete run leaves of an entity. -/
structure Exact (py : Python) (args : Args) (book : Workbook) (householdId : Uuid)
    (db db' : Tables (Reach Table bound)) (e : Entity) : Prop where
  selected : args.selects e = true → ∃ sheet,
    Full py book householdId (found householdId db') e sheet (db ⟨e.table⟩) (db' ⟨e.table⟩)
  unselected : args.selects e = false → db' ⟨e.table⟩ = db ⟨e.table⟩

/-- The rows stay as they were left, and what they refer to is found at the end. -/
theorem Exact.of_full {db db₁ db' : Tables (Reach Table bound)}
    (refers : ∀ e' ∈ e.refers, ids e' = found householdId db' e')
    (kept : db' ⟨e.table⟩ = db₁ ⟨e.table⟩)
    (selected : args.selects e = true → ∃ sheet,
      Full py book householdId ids e sheet (db ⟨e.table⟩) (db₁ ⟨e.table⟩))
    (unselected : args.selects e = false → db₁ ⟨e.table⟩ = db ⟨e.table⟩) :
    Exact py args book householdId db db' e := by
  refine ⟨fun chosen => ?_, fun other => kept.trans (unselected other)⟩
  obtain ⟨sheet, full⟩ := selected chosen
  have mapped := full.mapped
  have carried := full.carried
  rw [Entity.map_congr refers] at mapped carried
  exact ⟨sheet, full.read, mapped, kept ▸ carried⟩

theorem mapped_of_skipped {mapper : Dict → Except MappingError Mapped} {sheet : List Dict}
    (none : skipped mapper sheet = 0) : ∀ row ∈ sheet, ∃ m, mapper row = .ok m := by
  intro row hr
  have mapped : ¬ (mapper row).toOption.isNone = true := List.countP_eq_zero.mp none row hr
  cases result : mapper row with
  | ok m => exact ⟨m, rfl⟩
  | error err =>
      rw [result] at mapped
      exact absurd rfl mapped

theorem skipped_of_mapped {mapper : Dict → Except MappingError Mapped} {sheet : List Dict}
    (mapped : ∀ row ∈ sheet, ∃ m, mapper row = .ok m) : skipped mapper sheet = 0 := by
  refine List.countP_eq_zero.mpr fun row hr => ?_
  obtain ⟨m, here⟩ := mapped row hr
  rw [here]
  rintro ⟨⟩

theorem length_mappedRows {mapper : Dict → Except MappingError Mapped} {sheet : List Dict}
    (mapped : ∀ row ∈ sheet, ∃ m, mapper row = .ok m) :
    (mappedRows mapper sheet).length = sheet.length := by
  induction sheet with
  | nil => rfl
  | cons row rest ih =>
      obtain ⟨⟨m, first⟩, others⟩ := List.forall_mem_cons.mp mapped
      have here : mappedRows mapper (row :: rest) = m :: mappedRows mapper rest :=
        List.filterMap_cons_some (by rw [first]; rfl)
      rw [here, List.length_cons, List.length_cons, ih others]

/-- An entity of which no error was reported. -/
theorem Migrated.exact {outcomes : List Outcome} (wet : args.dryRun = false)
    (migrated : Migrated py args book householdId ids e w w' (.ok outcomes))
    (clean : complete outcomes = true) : outcomes = report args book e ∧
      (args.selects e = true → ∃ sheet,
        Full py book householdId ids e sheet (w.db ⟨e.table⟩) (w'.db ⟨e.table⟩)) ∧
      (args.selects e = false → w'.db ⟨e.table⟩ = w.db ⟨e.table⟩) := by
  unfold report
  cases migrated with
  | unselected other same =>
      rw [other]
      exact ⟨rfl, (by rintro ⟨⟩), fun _ => congrFun same _⟩
  | rehearsed dry =>
      rw [dry] at wet
      cases wet
  | failed same errors =>
      rw [errors] at clean
      cases clean
  | @carried selected _ sheet read only carried =>
      have none : skipped (e.map py householdId ids) sheet = 0 := by
        simpa [complete] using clean
      have mapped := mapped_of_skipped none
      rw [selected, read, none, length_mappedRows mapped]
      exact ⟨rfl, fun _ => ⟨sheet, read, mapped, carried⟩, by rintro ⟨⟩⟩

theorem complete_append {a b : List Outcome} :
    complete (a ++ b) = true ↔ complete a = true ∧ complete b = true := by
  unfold complete
  rw [List.all_append, Bool.and_eq_true]

theorem apart_cons {done rest : List Entity} (fresh : e ∉ rest)
    (apart : ∀ e' ∈ done, e' ∉ e :: rest) : ∀ e' ∈ e :: done, e' ∉ rest := by
  intro e' he'
  rcases List.mem_cons.mp he' with rfl | he'
  · exact fresh
  · exact fun also => apart e' he' (List.mem_cons_of_mem _ also)

theorem of_migrateAll_complete {es : List Entity} (done : List Entity) {outcomes : List Outcome}
    (wet : args.dryRun = false) (distinct : es.Nodup) (apart : ∀ e ∈ done, e ∉ es)
    (ordered : inOrder done es = true) (idle : Script.Idle w) (indexed : SheetsIndexed w.db)
    (looked : Looked householdId w.db ids done)
    (h : (migrateAll py args book householdId ids es).runOn w = (.ok outcomes, w'))
    (clean : complete outcomes = true) : outcomes = es.flatMap (report args book) ∧
      ∀ e ∈ es, Exact py args book householdId w.db w'.db e := by
  -- by the entities left, with those that were migrated before
  induction es generalizing w ids outcomes done with
  | nil =>
      cases h
      exact ⟨rfl, fun _ he => absurd he List.not_mem_nil⟩
  | cons e rest ih =>
      have each := of_migrateAll distinct idle indexed h
      have refers := looked.refers ordered
      obtain ⟨fresh, distinct⟩ := List.nodup_cons.mp distinct
      obtain ⟨-, ordered⟩ := Bool.and_eq_true_iff.mp ordered
      obtain ⟨first, w₁, migrates, h⟩ := Script.of_bind_ok h
      obtain ⟨idle₁, migrated⟩ := of_migrate idle (indexed e) migrates
      obtain ⟨ids', w₂, looks, h⟩ := Script.of_bind_ok h
      obtain ⟨idle₂, same, lookups⟩ := of_lookupAfter idle₁ looks
      obtain ⟨others, w₃, goesOn, ends⟩ := Script.of_bind_ok h
      cases ends
      obtain ⟨cleanFirst, cleanOthers⟩ := complete_append.mp clean
      obtain ⟨reported, selected, unselected⟩ := migrated.exact wet cleanFirst
      obtain ⟨onlyHere, referred⟩ := lookups ids' rfl wet
      have indexed₂ : SheetsIndexed w₂.db := same ▸ migrated.indexed indexed
      have frame := (of_migrateAll distinct idle₂ indexed₂ goesOn).others
      have before : ∀ e' : Entity, e' ≠ e → w₂.db ⟨e'.table⟩ = w.db ⟨e'.table⟩ := by
        intro e' other
        rw [same]
        exact migrated.only _ (reach_ne other)
      -- the ids looked up after an entity are good for those that refer to it
      have looked' : Looked householdId w₂.db ids' (e :: done) :=
        looked.cons (fun isReferred => same ▸ referred isReferred) onlyHere before
      obtain ⟨reportedOthers, exact⟩ := ih (e :: done) distinct (apart_cons fresh apart) ordered
        idle₂ indexed₂ looked' goesOn cleanOthers
      refine ⟨by rw [reported, reportedOthers]; rfl, fun e' he' => ?_⟩
      rcases List.mem_cons.mp he' with rfl | he'
      · refine Exact.of_full (fun e' he' => ?_) ?_ selected unselected
        · obtain ⟨mem, found⟩ := refers e' he'
          rw [found]
          exact (found_congr (each.others _ fun e'' he'' => reach_ne fun here =>
            apart e' mem (by rwa [here]))).symm
        · rw [frame _ fun e' he' => reach_ne fun here => fresh (by rwa [here]), same]
      · obtain ⟨selected', unselected'⟩ := exact e' he'
        rw [before e' fun also => fresh (also ▸ he')] at selected' unselected'
        exact ⟨selected', unselected'⟩

/-- A run that reports no errors. -/
structure Completed (py : Python) (args : Args) (book : Workbook) (outcomes : List Outcome)
    (w w' : Connection bound) : Prop where
  wet : args.dryRun = false
  ran : (main py args book).runOn w = (.ok outcomes, w')
  clean : complete outcomes = true

/-- Every entity that was asked for carries its sheet, in the default household. -/
theorem of_completed {outcomes : List Outcome} (idle : Script.Idle w) (indexed : SheetsIndexed w.db)
    (completed : Completed py args book outcomes w w') : ∃ householdId, Furnished householdId w'.db ∧
      outcomes = Entity.all.flatMap (report args book) ∧
      ∀ e, Exact py args book householdId w.db w'.db e := by
  obtain ⟨householdId, w₁, seeds, migrates⟩ := Script.of_bind_ok completed.ran
  obtain ⟨idle₁, others, _, _, furnished⟩ := of_seed idle seeds
  have before : ∀ e : Entity, w₁.db ⟨e.table⟩ = w.db ⟨e.table⟩ :=
    fun e => others _ (entity_ne rfl e).symm (entity_ne rfl e).symm
  have indexed₁ : SheetsIndexed w₁.db := fun e => before e ▸ indexed e
  have each := of_migrateAll (by decide) idle₁ indexed₁ migrates
  obtain ⟨reported, exact⟩ := of_migrateAll_complete [] completed.wet (by decide)
    (fun _ he => absurd he List.not_mem_nil) (by decide) idle₁ indexed₁ .nil migrates
    completed.clean
  obtain ⟨user, household⟩ := furnished householdId rfl completed.wet
  refine ⟨householdId, ⟨?_, ?_⟩, reported, fun e => ?_⟩
  · have same : usersOf w'.db = usersOf w₁.db := each.others _ fun e _ => entity_ne rfl e
    rwa [same]
  · have same : householdsOf w'.db = householdsOf w₁.db := each.others _ fun e _ => entity_ne rfl e
    rwa [same]
  · obtain ⟨selected, unselected⟩ := exact e e.mem_all
    rw [before e] at selected unselected
    exact ⟨selected, unselected⟩

/-- The tables after some runs, each over a session of its own, whatever failed in them. -/
inductive Runs (db : Tables (Reach Table bound)) : Tables (Reach Table bound) → Prop where
  | none : Runs db db
  | run {py : Python} {args : Args} {book : Workbook} {w w' : Connection bound}
      {r : Except Exc (List Outcome)} (before : Runs db w.db) (idle : Script.Idle w)
      (ran : (main py args book).runOn w = (r, w')) : Runs db w'.db

theorem Runs.indexed {db db' : Tables (Reach Table bound)} (runs : Runs db db')
    (indexed : SheetsIndexed db) : SheetsIndexed db' := by
  induction runs with
  | none => exact indexed
  | run _ idle ran ih =>
      obtain ⟨_, left⟩ := of_main idle ih ran
      exact left.indexed ih

/-- Whatever runs there were before, the first that reports no errors leaves every
entity that it was asked for with its sheet: all rows of the sheet in the default
household, with references to the rows as they are stored in the end. It reports the
lengths of the sheets, and the entities that were not asked for are left as they were. -/
theorem main_exact {outcomes : List Outcome} {db : Tables (Reach Table bound)}
    (indexed : SheetsIndexed db) (runs : Runs db w.db) (idle : Script.Idle w)
    (completed : Completed py args book outcomes w w') : ∃ householdId, Furnished householdId w'.db ∧
      outcomes = Entity.all.flatMap (report args book) ∧
      ∀ e, Exact py args book householdId w.db w'.db e :=
  of_completed idle (runs.indexed indexed) completed

namespace Sample

/-- Another run after the one that was interrupted. -/
def resumed : Connection true :=
  opened true ((main python everything workbook).runOn interrupted).2.db []

/-- The database after a run that was taken up again. -/
def finished : Connection true := ((main python everything workbook).runOn resumed).2

/-- What the run reports. -/
def outcomes : List Outcome :=
  [⟨.catalog, 1, 1, 0⟩, ⟨.inventory, 1, 1, 0⟩, ⟨.hardware, 0, 0, 0⟩, ⟨.maintenance, 0, 0, 0⟩,
    ⟨.brewLog, 1, 1, 0⟩]

theorem resumed_completed : Completed python everything workbook outcomes resumed finished where
  wet := rfl
  ran := Prod.ext (by decide +kernel) rfl
  clean := by decide

theorem interrupted_runs :
    Runs interrupted.db ((main python everything workbook).runOn interrupted).2.db :=
  .run .none ⟨rfl, rfl, rfl⟩ rfl

theorem resumed_exact : ∃ householdId, Furnished householdId finished.db ∧
    outcomes = Entity.all.flatMap (report everything workbook) ∧
    ∀ e, Exact python everything workbook householdId resumed.db finished.db e :=
  main_exact interrupted_indexed interrupted_runs ⟨rfl, rfl, rfl⟩ resumed_completed

end Sample

/-! ### Another run -/

/-- Nothing is pending, and no statement will fail for a reason outside the database. -/
structure Ready (w : Connection bound) : Prop where
  idle : Script.Idle w
  live : w.Live

theorem ready_committed {w : Connection bound} (live : w.Live) : Ready w.committed :=
  ⟨Script.idle_committed w, live.committed⟩

/-- A part of a script that runs to its end and changes nothing. -/
def Idles {α : Type} (p : ScriptM bound α) (a : α) (w : Connection bound) : Prop :=
  ∃ w', p.runOn w = (.ok a, w') ∧ w'.db = w.db ∧ Ready w'

theorem Idles.bind {α β : Type} {p : ScriptM bound α} {f : α → ScriptM bound β} {a : α} {b : β}
    (first : Idles p a w) (rest : ∀ w', w'.db = w.db → Ready w' → Idles (f a) b w') :
    Idles (p >>= f) b w := by
  obtain ⟨w₁, ran, same, ready⟩ := first
  obtain ⟨w₂, ran', same', ready'⟩ := rest w₁ same ready
  exact ⟨w₂, (Prog.run_bind_ok ran).trans ran', same'.trans same, ready'⟩

theorem run_setHousehold (live : w.Live) :
    (ScriptM.setHousehold householdId).runOn w = (.ok (), w.withContext householdId) :=
  Prog.run_bind_ok (Script.run_plain (s := .setConfig (T := Reach Table bound) householdId) live rfl)

theorem run_select {t : Table} {p : t.Row → Bool} (live : w.Live) :
    (ScriptM.select t p).runOn w = (.ok ((w.visible ⟨t⟩).filter p), w) :=
  Script.run_plain (s := .select (⟨t⟩ : Reach Table bound) p) live rfl

/-- A transaction that reads only. -/
theorem idles_transaction {α : Type} {p : ScriptM bound α} {a : α} {w₁ : Connection bound}
    (ran : p.runOn w = (.ok a, w₁)) (live : w₁.Live) (same : w₁.view = w.db) :
    Idles (ScriptM.transaction p) a w :=
  ⟨_, Script.run_transaction ran live, same, ready_committed live⟩

theorem idles_lookupAfter (ready : Ready w) (wet : args.dryRun = false) :
    Idles (lookupAfter args householdId ids e)
      (if e.isReferred then Function.update ids e (found householdId w.db e) else ids) w := by
  unfold lookupAfter
  by_cases referred : e.isReferred = true
  · rw [if_pos referred, if_pos referred, wet]
    refine Idles.bind ?_ fun w' same ready' => ⟨w', rfl, rfl, ready'⟩
    have live := ready.live.withContext householdId
    have viewed : (w.withContext householdId).view = w.db := ready.idle.view
    refine idles_transaction ?_ live viewed
    refine (Prog.run_bind_ok (run_setHousehold ready.live)).trans ?_
    refine (Prog.run_bind_ok (run_select live)).trans ?_
    unfold World.visible
    rw [viewed]
    rfl
  · rw [if_neg referred, if_neg referred]
    exact ⟨w, rfl, rfl, ready⟩

/-- A role sees the rows of the household that is set. -/
theorem sees_owned {r : e.table.Row} (owned : e.table.householdId r = some householdId) :
    sees (some householdId) (⟨e.table⟩ : Reach Table bound) r = true := by
  have same : (owner (⟨e.table⟩ : Reach Table bound) r == some householdId) = true :=
    beq_iff_eq.mpr owned
  unfold sees
  rw [same, Option.isSome_some, Bool.and_self, Bool.or_true]

theorem idles_bulkUpsert {rows : List Mapped} {before : List e.table.Row} (ready : Ready w)
    (keyed : ∀ m ∈ rows, ∃ row, e.Keyed py householdId row m)
    (carried : Carried e householdId rows before (w.db ⟨e.table⟩)) :
    Idles (bulkUpsert e rows) rows.length w := by
  by_cases present : rows = []
  · subst present
    exact ⟨w, rfl, rfl, ready⟩
  · have owned : ∀ m ∈ rows, householdOf m = some householdId := by
      intro m hm
      obtain ⟨row, keyed⟩ := keyed m hm
      exact keyed.household
    rw [bulkUpsert_eq present owned]
    refine Idles.bind (a := ()) ?_ fun w' same ready' => ⟨w', rfl, rfl, ready'⟩
    have live := ready.live.withContext householdId
    have viewed : (w.withContext householdId).view = w.db := ready.idle.view
    have held : ∀ p ∈ (rows.map e.proposal : List (Proposal String (⟨e.table⟩ : Reach Table bound))),
        ∃ r ∈ (w.withContext householdId).view ⟨e.table⟩, e.sheetsId r = some p.value ∧
          p.set r = .ok r ∧ sees (some householdId) (⟨e.table⟩ : Reach Table bound) r = true := by
      intro p hp
      obtain ⟨m, hm, rfl⟩ := List.mem_map.mp hp
      obtain ⟨n, hn, named, own, _, again, _⟩ := carried.held m hm
      exact ⟨n, viewed ▸ hn, named, again, sees_owned own⟩
    have distinct : ((rows.map e.proposal :
        List (Proposal String (⟨e.table⟩ : Reach Table bound))).map Proposal.value).Nodup := by
      rw [List.map_map]
      exact carried.distinct
    have unshared : Unshared e.sheetsId ((w.withContext householdId).view ⟨e.table⟩) :=
      viewed ▸ carried.unshared
    obtain ⟨w', upserts, only, same⟩ := World.upsert_again live unshared distinct held
    have live' : w'.Live := ⟨only.failed.trans live.failed, only.faults.trans live.faults⟩
    have kept : w'.view = w.db := by
      funext t
      by_cases here : t = ⟨e.table⟩
      · subst here
        exact same.trans (congrFun viewed _)
      · exact (only.views t here).trans (congrFun viewed t)
    refine idles_transaction ?_ live' kept
    exact (Prog.run_bind_ok (run_setHousehold ready.live)).trans (Script.run_perform upserts)

/-- An entity whose table carries its sheet. -/
theorem idles_migrate {before : Tables (Reach Table bound)} (ready : Ready w)
    (wet : args.dryRun = false) (looked : ∀ e' ∈ e.refers, ids e' = found householdId w.db e')
    (exact : Exact py args book householdId before w.db e) :
    Idles (migrate py args book householdId ids e) (report args book e) w := by
  unfold migrate report
  by_cases selected : args.selects e = true
  · obtain ⟨sheet, full⟩ := exact.selected selected
    have mapped := full.mapped
    have carried := full.carried
    rw [← Entity.map_congr looked] at mapped carried
    have none : skipped (e.map py householdId ids) sheet = 0 := skipped_of_mapped mapped
    obtain ⟨w', upserts, same, ready'⟩ := idles_bulkUpsert ready keyed_of_mappedRows carried
    rw [if_pos selected, if_pos selected, full.read, wet]
    refine ⟨w', ?_, same, ready'⟩
    refine (run_upsertRows upserts).trans ?_
    rw [none, length_mappedRows mapped]
  · rw [if_neg selected, if_neg selected]
    exact ⟨w, rfl, rfl, ready⟩

theorem idles_migrateAll {before : Tables (Reach Table bound)} {es : List Entity} (done : List Entity)
    (wet : args.dryRun = false) (ordered : inOrder done es = true) (ready : Ready w)
    (looked : Looked householdId w.db ids done)
    (exact : ∀ e ∈ es, Exact py args book householdId before w.db e) :
    Idles (migrateAll py args book householdId ids es) (es.flatMap (report args book)) w := by
  induction es generalizing w ids done with
  | nil => exact ⟨w, rfl, rfl, ready⟩
  | cons e rest ih =>
      have refers := looked.refers ordered
      obtain ⟨-, ordered⟩ := Bool.and_eq_true_iff.mp ordered
      obtain ⟨here, others⟩ := List.forall_mem_cons.mp exact
      have looks : ∀ e' ∈ e.refers, ids e' = found householdId w.db e' := fun e' he' =>
        (refers e' he').2
      refine Idles.bind (idles_migrate ready wet looks here) fun w₁ same₁ ready₁ => ?_
      refine Idles.bind (idles_lookupAfter ready₁ wet) fun w₂ same₂ ready₂ => ?_
      have still : w₂.db = w.db := same₂.trans same₁
      have looked' : Looked householdId w₂.db
          (if e.isReferred then Function.update ids e (found householdId w₁.db e) else ids)
          (e :: done) := by
        refine looked.cons (fun referred => ?_) (fun e' other => ?_) fun e' _ => congrFun still _
        · rw [if_pos referred, Function.update_self, same₂]
        · split
          · exact Function.update_of_ne other _ _
          · rfl
      refine Idles.bind (ih (e :: done) ordered ready₂ looked' (still ▸ others)) fun w₃ _ ready₃ => ?_
      exact ⟨w₃, rfl, rfl, ready₃⟩

theorem idles_ensureSystemUser (ready : Ready w) (user : (usersOf w.db).any isSystem = true) :
    ∃ id, Idles ensureSystemUser id w := by
  have viewed : w.view ⟨.users⟩ = usersOf w.db := congrFun ready.idle.view _
  have conflict : (w.view ⟨.users⟩).any isSystem = true := viewed ▸ user
  have performed : w.insertUnless (t := (⟨.users⟩ : Reach Table bound)) isSystem
      (fun id => .ok (systemUser id)) = (.ok none, w.drew) :=
    World.insertUnless_conflict ready.live conflict
  have inserts : (ScriptM.insertUnless .users isSystem systemUser).runOn w = (.ok none, w.drew) :=
    Script.run_perform performed
  obtain ⟨u, hu, system⟩ := List.any_eq_true.mp user
  have listed : (usersOf w.db).filter isSystem ≠ [] :=
    List.ne_nil_of_mem (List.mem_filter.mpr ⟨hu, system⟩)
  obtain ⟨first, rest, found⟩ := List.exists_cons_of_ne_nil listed
  refine ⟨first.id, idles_transaction ?_ ready.live.drew ready.idle.view⟩
  refine (Prog.run_bind_ok inserts).trans ((Prog.run_bind_ok (run_select ready.live.drew)).trans ?_)
  have seen : (w.drew.visible ⟨.users⟩).filter isSystem = (usersOf w.db).filter isSystem := by
    rw [World.visible_of_unsecured (by cases bound <;> rfl)]
    exact congrArg (List.filter isSystem) viewed
  rw [seen, found]
  rfl

theorem idles_ensureDefaultHousehold {systemUserId : Uuid} (ready : Ready w)
    (household : ((householdsOf w.db).filter isDefault).head?.map Household.id = some householdId) :
    Idles (ensureDefaultHousehold py systemUserId) householdId w := by
  obtain ⟨first, found, rfl⟩ := Option.map_eq_some_iff.mp household
  refine idles_transaction ?_ ready.live ready.idle.view
  refine (Prog.run_bind_ok (run_select ready.live)).trans ?_
  have seen : (w.visible ⟨.households⟩).filter isDefault = (householdsOf w.db).filter isDefault := by
    rw [World.visible_of_unsecured (by cases bound <;> rfl)]
    exact congrArg (List.filter isDefault) (congrFun ready.idle.view _)
  rw [seen, found]
  rfl

theorem idles_seed (ready : Ready w) (furnished : Furnished householdId w.db) :
    Idles (seed py false) householdId w := by
  obtain ⟨id, user⟩ := idles_ensureSystemUser ready furnished.user
  refine Idles.bind user fun w₁ same ready₁ => ?_
  exact idles_ensureDefaultHousehold ready₁ (same ▸ furnished.household)

/-- The time is for the default household only. -/
theorem Entity.map_now (now : Timestamp) :
    e.map { py with now } householdId ids = e.map py householdId ids := by
  cases e <;> rfl

/-- Another run of a script that completed, at another time and without a fault, reports
the same and changes nothing, in no row of any table: what it maps is what is stored,
and the household and the user that the seed looks for are there. The second connection
starts idle, over what the first left. -/
theorem main_again {outcomes : List Outcome} (idle : Script.Idle w) (indexed : SheetsIndexed w.db)
    (completed : Completed py args book outcomes w w') (now : Timestamp) {w₂ : Connection bound}
    (ready : Ready w₂) (kept : w₂.db = w'.db) :
    ∃ w₃, Completed { py with now } args book outcomes w₂ w₃ ∧ w₃.db = w₂.db := by
  obtain ⟨householdId, furnished, reported, exact⟩ := of_completed idle indexed completed
  -- the clock is in no mapped row, so the second run maps the same rows
  have exact' : ∀ e ∈ Entity.all, Exact { py with now } args book householdId w.db w₂.db e := by
    intro e _
    rw [kept]
    obtain ⟨selected, unselected⟩ := exact e
    refine ⟨fun chosen => ?_, unselected⟩
    obtain ⟨sheet, read, mapped, carried⟩ := selected chosen
    rw [← Entity.map_now now] at mapped carried
    exact ⟨sheet, read, mapped, carried⟩
  have runs : Idles (main { py with now } args book) outcomes w₂ := by
    rw [reported]
    unfold main
    rw [completed.wet]
    refine Idles.bind (idles_seed ready (kept ▸ furnished)) fun w₁ same ready₁ => ?_
    exact idles_migrateAll [] completed.wet (by decide) ready₁ .nil (same ▸ exact')
  obtain ⟨w₃, ran, same, _⟩ := runs
  exact ⟨w₃, ⟨completed.wet, ran, completed.clean⟩, same⟩

namespace Sample

/-- At another time nothing is left to do. -/
theorem finished_again : ∃ w₃, Completed { python with now := .midnight ⟨2026, 1, 4, by decide⟩ }
    everything workbook outcomes (opened true finished.db []) w₃ ∧ w₃.db = finished.db :=
  main_again (w := resumed) ⟨rfl, rfl, rfl⟩ (interrupted_runs.indexed interrupted_indexed)
    resumed_completed _ ⟨⟨rfl, rfl, rfl⟩, ⟨rfl, rfl⟩⟩ rfl

end Sample

end EspressoLogs.Migration
