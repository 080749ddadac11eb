import EspressoLogs.Startup.Gaps

/-!
The starts of the application.

A start sweeps over the rows of the maintenance sheet and then over those of the
inventory sheet, each where a gap is left in its table. The rows that are
committed on the way are those that the two sweeps come to
(`mem_startupStates`).
-/

namespace EspressoLogs

open Lib Py

/-! ### A sheet that is read where a gap is left -/

section Guarded

variable {t : Table} {gap : t.Row → Bool} {f : Dict → DbM Unit} {rows : List Dict}
  {w : World (Bypass Table)}

/-- The rows of a sheet that are due. -/
def due (gap : t.Row → Bool) (rows : List Dict) (db : State) : List Dict :=
  if (db t).any gap then rows else []

variable (t gap f rows) in
/-- Sweeps over a sheet where a gap is left. -/
def guarded : DbM Unit := do
  let gaps ← select t gap
  if gaps.isEmpty then
    return
  rows.forM f

variable (t gap f rows) in
theorem guarded_prog (rest : Resting w) :
    (guarded t gap f rows).runFor w = ((due gap rows (Bypass.rowsOf w.db)).forM f).runFor w ∧
      ∀ d, d ∈ (guarded t gap f rows).prog.shown Bypass.exec World.db w ↔
        d ∈ ((due gap rows (Bypass.rowsOf w.db)).forM f).prog.shown Bypass.exec World.db w := by
  have selected : (liftM (select t gap) : DbM _).runFor w = (.ok ((w.db ⟨t⟩).filter gap), w) :=
    runFor_select rest t gap
  have looked : (liftM (select t gap) : DbM _).prog.run Bypass.exec w =
      (.ok ((w.db ⟨t⟩).filter gap), w) := selected
  have empty : ((w.db ⟨t⟩).filter gap).isEmpty = !(Bypass.rowsOf w.db t).any gap := by
    have same : w.db ⟨t⟩ = Bypass.rowsOf w.db t := rfl
    rw [same]
    cases any : (Bypass.rowsOf w.db t).any gap with
    | false =>
        rw [List.filter_eq_nil_iff.mpr fun r hr => by
          simpa using List.any_eq_false.mp any r hr]
        rfl
    | true =>
        obtain ⟨r, hr, gapped⟩ := List.any_eq_true.mp any
        have mem := List.mem_filter.mpr ⟨hr, gapped⟩
        cases found : (Bypass.rowsOf w.db t).filter gap with
        | nil => rw [found] at mem; cases mem
        | cons => rfl
  have onward : (guarded t gap f rows).prog = ((liftM (select t gap) : DbM _).prog >>= fun gaps =>
      (if gaps.isEmpty then (pure () : DbM Unit) else rows.forM f).prog) := rfl
  have rest_eq : (if ((w.db ⟨t⟩).filter gap).isEmpty then (pure () : DbM Unit) else rows.forM f) =
      (due gap rows (Bypass.rowsOf w.db)).forM f := by
    rw [empty, due]
    cases (Bypass.rowsOf w.db t).any gap <;> rfl
  constructor
  · rw [← rest_eq]
    exact CodeM.runFor_bind_ok selected
  · intro d
    rw [onward, Prog.mem_shown_bind_ok looked, ← rest_eq]
    refine or_iff_right_of_imp ?_
    rintro ⟨v, hv, rfl⟩
    -- what the first statement sees is what the sweep starts from
    have atStart : v.2 = w := by
      have traced : (select t gap).prog.trace Bypass.exec w = [(.select t gap, w)] := by
        have performed := Bypass.exec_select rest.live t gap
        simp only [select, ask, Prog.trace, performed]
      have hv : v ∈ (select t gap).prog.trace Bypass.exec w := hv
      rw [traced] at hv
      rw [List.mem_singleton.mp hv]
    rw [atStart]
    exact Prog.start_mem_shown _ w

variable (t gap f rows) in
theorem guarded_swept (late : ∀ row, (f row).prog.Late Bypass.exec World.db) (rest : Resting w) :
    (if (sweep (stepOf f) (due gap rows (Bypass.rowsOf w.db)) w).1 then
      (guarded t gap f rows).runFor w =
        (.ok (), (sweep (stepOf f) (due gap rows (Bypass.rowsOf w.db)) w).2)
    else ∃ e w', (guarded t gap f rows).runFor w = (.error e, w') ∧
      w'.db = (sweep (stepOf f) (due gap rows (Bypass.rowsOf w.db)) w).2.db) ∧
    ∀ d, d ∈ (guarded t gap f rows).prog.shown Bypass.exec World.db w ↔
      d = (sweep (stepOf f) (due gap rows (Bypass.rowsOf w.db)) w).2.db ∨
        ∃ v ∈ visits (stepOf f) (due gap rows (Bypass.rowsOf w.db)) w, d = v.2.db := by
  obtain ⟨runs, shows⟩ := guarded_prog t gap f rows rest
  rw [runs]
  exact ⟨runFor_forM late, fun d => (shows d).trans (mem_shown_forM late)⟩

end Guarded

/-! ### The sweeps of a start -/

section Starts

variable (env : Env) (usePostgres : Bool) (sheets : BackfillSheets) (supply : Nat → Uuid)
  (db : State)

/-- The rows of the maintenance sheet that a start takes up. -/
def dueEvents : List Dict :=
  if usePostgres then due (t := .maintenanceLog) (·.sheetsHardwareId.isNone) sheets.maintenance db
  else []

/-- The sweep over the maintenance sheet. -/
def eventSweep : Bool × World (Bypass Table) :=
  sweep (stepOf (SqlMaintenanceRepo.upsert env)) (dueEvents usePostgres sheets db)
    (startupWorld supply db)

/-- The rows of the inventory sheet that a start takes up. -/
def dueBags : List Dict :=
  if usePostgres && (eventSweep env usePostgres sheets supply db).1 then
    due (t := .inventoryBags) (·.sheetsCatalogId.isNone) sheets.inventory
      (Bypass.rowsOf (eventSweep env usePostgres sheets supply db).2.db)
  else []

/-- The sweep over the inventory sheet. -/
def bagSweep : Bool × World (Bypass Table) :=
  sweep (stepOf backfillBag) (dueBags env usePostgres sheets supply db)
    (eventSweep env usePostgres sheets supply db).2

/-- The rows of the maintenance sheet that a start comes to, each with what it finds. -/
def eventVisits : List (Dict × World (Bypass Table)) :=
  visits (stepOf (SqlMaintenanceRepo.upsert env)) (dueEvents usePostgres sheets db)
    (startupWorld supply db)

/-- The rows of the inventory sheet that a start comes to, each with what it finds. -/
def bagVisits : List (Dict × World (Bypass Table)) :=
  visits (stepOf backfillBag) (dueBags env usePostgres sheets supply db)
    (eventSweep env usePostgres sheets supply db).2

/-- The ids that a start draws for new rows are new. -/
structure NewIds : Prop where
  events : ∀ v ∈ eventVisits env usePostgres sheets supply db, New .maintenanceLog v.2
  bags : ∀ v ∈ bagVisits env usePostgres sheets supply db, New .inventoryBags v.2

/-- A start, from rows that are told apart by their ids. -/
structure Begins : Prop extends NewIds env usePostgres sheets supply db where
  ready : Ready (startupWorld supply db)

variable {env usePostgres sheets supply db}

theorem begins (events : Table.maintenanceLog.Keyed (db .maintenanceLog))
    (bags : Table.inventoryBags.Keyed (db .inventoryBags))
    (ids : NewIds env usePostgres sheets supply db) : Begins env usePostgres sheets supply db :=
  ⟨ids, ⟨⟨⟨rfl, rfl⟩, rfl, rfl⟩, events, bags⟩⟩

theorem ready_events (start : Begins env usePostgres sheets supply db) :
    Ready (eventSweep env usePostgres sheets supply db).2 ∧
      ∀ v ∈ eventVisits env usePostgres sheets supply db, Ready v.2 :=
  sweep_keeps (fun v hv ready _ taken => event_ready ready (start.events v hv) taken) start.ready

theorem ready_bags (start : Begins env usePostgres sheets supply db) :
    Ready (bagSweep env usePostgres sheets supply db).2 ∧
      ∀ v ∈ bagVisits env usePostgres sheets supply db, Ready v.2 :=
  sweep_keeps (fun v hv ready _ taken => bag_ready ready (start.bags v hv) taken)
    (ready_events start).1

/-- The committed rows along a start are those that its sweeps come to, and it leaves
what they leave. -/
theorem shown_start (start : Begins env usePostgres sheets supply db) :
    ((runStartupBackfill env usePostgres sheets).runFor (startupWorld supply db)).2.db =
        (bagSweep env usePostgres sheets supply db).2.db ∧
      ∀ d, d ∈ (runStartupBackfill env usePostgres sheets).prog.shown Bypass.exec World.db
          (startupWorld supply db) ↔
        (d = (eventSweep env usePostgres sheets supply db).2.db ∨
          ∃ v ∈ eventVisits env usePostgres sheets supply db, d = v.2.db) ∨
        (d = (bagSweep env usePostgres sheets supply db).2.db ∨
          ∃ v ∈ bagVisits env usePostgres sheets supply db, d = v.2.db) := by
  cases usePostgres with
  | false =>
      refine ⟨rfl, fun d => ⟨fun shown => .inl (.inl (List.mem_singleton.mp shown)), ?_⟩⟩
      rintro ((rfl | ⟨v, hv, _⟩) | (rfl | ⟨v, hv, _⟩))
      · exact List.mem_singleton_self _
      · cases hv
      · exact List.mem_singleton_self _
      · cases hv
  | true =>
      obtain ⟨swept, shows⟩ := guarded_swept .maintenanceLog (·.sheetsHardwareId.isNone)
        (SqlMaintenanceRepo.upsert env) sheets.maintenance (upsert_late env) start.ready.rest
      have toEvents : sweep (stepOf (SqlMaintenanceRepo.upsert env))
          (due (t := .maintenanceLog) (·.sheetsHardwareId.isNone) sheets.maintenance
            (Bypass.rowsOf (startupWorld supply db).db)) (startupWorld supply db) =
          eventSweep env true sheets supply db := rfl
      have atEvents : visits (stepOf (SqlMaintenanceRepo.upsert env))
          (due (t := .maintenanceLog) (·.sheetsHardwareId.isNone) sheets.maintenance
            (Bypass.rowsOf (startupWorld supply db).db)) (startupWorld supply db) =
          eventVisits env true sheets supply db := rfl
      rw [toEvents] at swept
      rw [toEvents, atEvents] at shows
      have whole : (runStartupBackfill env true sheets).prog =
          ((guarded .maintenanceLog (·.sheetsHardwareId.isNone) (SqlMaintenanceRepo.upsert env)
              sheets.maintenance).prog >>= fun _ =>
            (guarded .inventoryBags (·.sheetsCatalogId.isNone) backfillBag
              sheets.inventory).prog).catchWith fun _ => .pure () := rfl
      -- a failed event ends the whole start, so that no bag is looked at
      cases finished : (eventSweep env true sheets supply db).1 with
      | false =>
          rw [finished, if_neg nofun] at swept
          obtain ⟨e, w', raised, left⟩ := swept
          have noBags : dueBags env true sheets supply db = [] := if_neg (by rw [finished]; nofun)
          have bags : bagSweep env true sheets supply db =
              (true, (eventSweep env true sheets supply db).2) := by
            rw [bagSweep, noBags]
            rfl
          have none : bagVisits env true sheets supply db = [] := by
            rw [bagVisits, noBags]
            rfl
          have raised' : Prog.run Bypass.exec _ _ = _ := raised
          rw [bags, none]
          constructor
          · rw [CodeM.runFor, whole, Prog.run_catch_error (Prog.run_bind_error raised')]
            exact left
          · intro d
            rw [whole, Prog.shown_catch_pure, Prog.shown_bind_error raised', shows d]
            refine ⟨.inl, ?_⟩
            rintro (shown | (same | ⟨_, hv, _⟩))
            · exact shown
            · exact .inl same
            · cases hv
      | true =>
          rw [finished, if_pos rfl] at swept
          have first : Prog.run Bypass.exec _ _ = _ := swept
          -- the bags start from what the events left
          have between : Ready (eventSweep env true sheets supply db).2 := (ready_events start).1
          obtain ⟨sweptBags, showsBags⟩ := guarded_swept .inventoryBags
            (·.sheetsCatalogId.isNone) backfillBag sheets.inventory bag_late between.rest
          have toBags : due (t := .inventoryBags) (·.sheetsCatalogId.isNone) sheets.inventory
              (Bypass.rowsOf (eventSweep env true sheets supply db).2.db) =
                dueBags env true sheets supply db :=
            (if_pos (by rw [finished]; rfl)).symm
          rw [toBags] at sweptBags showsBags
          constructor
          · rw [CodeM.runFor, whole, Prog.run_catchWith, Prog.run_bind_ok first]
            split at sweptBags
            · have second : Prog.run Bypass.exec _ _ = _ := sweptBags
              rw [second]
              rfl
            · obtain ⟨e, w', raised, left⟩ := sweptBags
              have second : Prog.run Bypass.exec _ _ = _ := raised
              rw [second]
              exact left
          · intro d
            rw [whole, Prog.shown_catch_pure, Prog.mem_shown_bind_ok first, showsBags d]
            constructor
            · rintro (⟨v, hv, rfl⟩ | shown)
              · exact .inl ((shows _).mp (Prog.mem_shown.mpr (.inl ⟨v, hv, rfl⟩)))
              · exact .inr shown
            · rintro (shown | shown)
              · rcases Prog.mem_shown.mp ((shows d).mpr shown) with ⟨v, hv, rfl⟩ | rfl
                · exact .inl ⟨v, hv, rfl⟩
                · rw [first]
                  exact .inr ((showsBags _).mp (Prog.start_mem_shown _ _))
              · exact .inr shown

theorem startup_eq (start : Begins env usePostgres sheets supply db) :
    startup env usePostgres sheets supply db =
      Bypass.rowsOf (bagSweep env usePostgres sheets supply db).2.db :=
  congrArg Bypass.rowsOf (shown_start start).1

theorem mem_startupStates (start : Begins env usePostgres sheets supply db) {s : State} :
    s ∈ startupStates env usePostgres sheets supply db ↔
      (s = Bypass.rowsOf (eventSweep env usePostgres sheets supply db).2.db ∨
        ∃ v ∈ eventVisits env usePostgres sheets supply db, s = Bypass.rowsOf v.2.db) ∨
      (s = Bypass.rowsOf (bagSweep env usePostgres sheets supply db).2.db ∨
        ∃ v ∈ bagVisits env usePostgres sheets supply db, s = Bypass.rowsOf v.2.db) := by
  have shown : startupStates env usePostgres sheets supply db =
      ((runStartupBackfill env usePostgres sheets).prog.shown Bypass.exec World.db
        (startupWorld supply db)).map Bypass.rowsOf := by
    rw [startupStates, Prog.shown, List.map_append, List.map_map]
    rfl
  rw [shown, List.mem_map]
  constructor
  · rintro ⟨d, hd, rfl⟩
    rcases ((shown_start start).2 d).mp hd with (rfl | ⟨v, hv, rfl⟩) | (rfl | ⟨v, hv, rfl⟩)
    · exact .inl (.inl rfl)
    · exact .inl (.inr ⟨v, hv, rfl⟩)
    · exact .inr (.inl rfl)
    · exact .inr (.inr ⟨v, hv, rfl⟩)
  · rintro ((rfl | ⟨v, hv, rfl⟩) | (rfl | ⟨v, hv, rfl⟩))
    · exact ⟨_, ((shown_start start).2 _).mpr (.inl (.inl rfl)), rfl⟩
    · exact ⟨_, ((shown_start start).2 _).mpr (.inl (.inr ⟨v, hv, rfl⟩)), rfl⟩
    · exact ⟨_, ((shown_start start).2 _).mpr (.inr (.inl rfl)), rfl⟩
    · exact ⟨_, ((shown_start start).2 _).mpr (.inr (.inr ⟨v, hv, rfl⟩)), rfl⟩

end Starts

end EspressoLogs
