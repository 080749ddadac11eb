import EspressoLogs.Startup.Backfill

/-!
What the startup backfill changes.
-/

namespace EspressoLogs

open Lib Py

/-! ### A sheet as a sweep -/

section Sweeps

variable {f : Dict → DbM Unit} {rows : List Dict} {w : World (Bypass Table)}

/-- A row of a sheet as a step of a sweep. -/
def stepOf (f : Dict → DbM Unit) (row : Dict) (w : World (Bypass Table)) :
    Option (World (Bypass Table)) :=
  match (f row).runFor w with
  | (.ok _, w') => some w'
  | (.error _, _) => none

/-- A step of the loop is a call that returned. -/
theorem stepOf_eq_some {row : Dict} {w' : World (Bypass Table)} :
    stepOf f row w = some w' ↔ (f row).runFor w = (.ok (), w') := by
  unfold stepOf
  cases (f row).runFor w with
  | mk result w₁ => cases result <;> simp

/-- The loop stops at a call that raised. -/
theorem stepOf_eq_none {row : Dict} :
    stepOf f row w = none ↔ ∃ e w', (f row).runFor w = (.error e, w') := by
  unfold stepOf
  cases (f row).runFor w with
  | mk result w₁ => cases result <;> simp

/-- The loop over the rows is the sweep of its steps: where a call raises, the database
is what the rows before it left, since a call that raises has committed nothing. -/
theorem runFor_forM (late : ∀ row, (f row).prog.Late Bypass.exec World.db) :
    if (sweep (stepOf f) rows w).1 then
      (rows.forM f).runFor w = (.ok (), (sweep (stepOf f) rows w).2)
    else ∃ e w', (rows.forM f).runFor w = (.error e, w') ∧
      w'.db = (sweep (stepOf f) rows w).2.db := by
  induction rows generalizing w with
  | nil => exact rfl
  | cons row rest ih =>
      unfold List.forM
      cases taken : stepOf f row w with
      | some w' =>
          rw [sweep_cons_some taken]
          have first := stepOf_eq_some.mp taken
          have onward := ih (w := w')
          split at onward
          · rename_i finished
            rw [if_pos finished]
            exact CodeM.runFor_bind_of first onward
          · rename_i stopped
            obtain ⟨e, w'', run, db⟩ := onward
            rw [if_neg stopped]
            exact ⟨e, w'', CodeM.runFor_bind_of first run, db⟩
      | none =>
          rw [sweep_cons_none taken]
          obtain ⟨e, w', raised⟩ := stepOf_eq_none.mp taken
          exact ⟨e, w', CodeM.runFor_bind_error raised, (late row w).2 e w' raised⟩

/-- The states that the loop shows are those in which its calls start and the one it
ends in. -/
theorem mem_shown_forM (late : ∀ row, (f row).prog.Late Bypass.exec World.db)
    {d : Tables (Bypass Table)} :
    d ∈ (rows.forM f).prog.shown Bypass.exec World.db w ↔
      d = (sweep (stepOf f) rows w).2.db ∨ ∃ v ∈ visits (stepOf f) rows w, d = v.2.db := by
  induction rows generalizing w with
  | nil =>
      constructor
      · intro shown
        exact .inl (List.mem_singleton.mp shown)
      · rintro (rfl | ⟨v, hv, _⟩)
        · exact List.mem_singleton_self _
        · cases hv
  | cons row rest ih =>
      have unrolled : ((row :: rest).forM f).prog =
          ((f row).prog >>= fun _ => (rest.forM f).prog) := rfl
      rw [unrolled]
      cases taken : stepOf f row w with
      | some w' =>
          have first : (f row).prog.run Bypass.exec w = (.ok (), w') := stepOf_eq_some.mp taken
          rw [Prog.mem_shown_bind_ok first, sweep_cons_some taken, visits_cons_some taken, ih]
          constructor
          · rintro (⟨v, hv, rfl⟩ | last | ⟨v, hv, rfl⟩)
            · exact .inr ⟨_, List.mem_cons_self, (late row w).1 v hv⟩
            · exact .inl last
            · exact .inr ⟨v, List.mem_cons_of_mem _ hv, rfl⟩
          · rintro (last | ⟨v, hv, rfl⟩)
            · exact .inr (.inl last)
            · rcases List.mem_cons.mp hv with rfl | hv
              · -- the state before the row is shown by its first statement, if it has one
                have atStart : w.db ∈ (f row).prog.shown Bypass.exec World.db w :=
                  Prog.start_mem_shown _ w
                rcases Prog.mem_shown.mp atStart with atStatement | atEnd
                · exact .inl atStatement
                · rw [first] at atEnd
                  have same : w.db = w'.db := atEnd
                  have there : w.db ∈ (rest.forM f).prog.shown Bypass.exec World.db w' := by
                    rw [same]
                    exact Prog.start_mem_shown _ w'
                  exact .inr (ih.mp there)
              · exact .inr (.inr ⟨v, hv, rfl⟩)
      | none =>
          obtain ⟨e, w', raised⟩ := stepOf_eq_none.mp taken
          have raised' : (f row).prog.run Bypass.exec w = (.error e, w') := raised
          rw [Prog.shown_bind_error raised', Prog.mem_shown_of_late_error (late row) raised',
            sweep_cons_none taken, visits_cons_none taken]
          constructor
          · exact .inl
          · rintro (same | ⟨v, hv, rfl⟩)
            · exact same
            · rw [List.mem_singleton.mp hv]

end Sweeps

/-! ### The database changes at the end of a row -/

/-- Nothing but a commit is left to do. -/
theorem commit_late : DbM.commit.prog.Late Bypass.exec World.db := by
  intro w
  cases performed : Bypass.exec (T := Table) .commit w with
  | mk result w₁ =>
      constructor
      · intro v hv
        simp only [DbM.commit, ask, Prog.trace, performed, List.mem_cons] at hv
        rcases hv with rfl | hv
        · rfl
        · cases result <;> cases hv
      · intro e w' raised
        simp only [DbM.commit, ask, Prog.run, performed] at raised
        cases result with
        | ok a => cases raised
        | error e' =>
            cases raised
            exact Bypass.exec_commit_error performed

section Late

variable {α β : Type}

/-- A commit that stands last still does so behind what does not commit. -/
theorem late_bind {p : DbM α} {f : α → DbM β} (first : p.prog.All (· ≠ .commit))
    (late : ∀ a, (f a).prog.Late Bypass.exec World.db) :
    (p >>= f).prog.Late Bypass.exec World.db :=
  Prog.Late.bind (fun _ w hs => Bypass.exec_db hs w) first late

theorem late_of_all {p : DbM α} (all : p.prog.All (· ≠ .commit)) :
    p.prog.Late Bypass.exec World.db :=
  all.late fun _ w hs => Bypass.exec_db hs w

theorem inserted_late {t : Table} (make : Option Uuid → Uuid → Except StmtError t.Row) (row : Dict) :
    (do
      let householdId ← rowHouseholdIdOrContext row
      discard (DbM.insert t (make householdId))
      DbM.commit : DbM Unit).prog.Late Bypass.exec World.db :=
  late_bind (read_uncommitting _) fun _ =>
    late_bind (all_discard (all_ask nofun)) fun _ => commit_late

theorem upsert_late (env : Env) (row : Dict) :
    (SqlMaintenanceRepo.upsert env row).prog.Late Bypass.exec World.db := by
  unfold SqlMaintenanceRepo.upsert
  simp only
  have rest : ∀ o : Option MaintenanceLog, (match o with
      | some event =>
          if event.sheetsHardwareId.isNone then do
            let householdId ← rowHouseholdIdOrContext row
            DbM.flush .maintenanceLog event fun e => do
              return { e with householdId, sheetsHardwareId := ← asText (row.get "Hardware_ID") }
            DbM.commit
          else pure ()
      | none => do
          let householdId ← rowHouseholdIdOrContext row
          discard (DbM.insert .maintenanceLog (SqlMaintenanceRepo.make env row householdId))
          DbM.commit : DbM Unit).prog.Late Bypass.exec World.db := by
    intro o
    cases o with
    | none => exact inserted_late (t := .maintenanceLog) (SqlMaintenanceRepo.make env row) row
    | some event =>
        simp only
        split
        · exact late_bind (read_uncommitting _) fun _ =>
            late_bind (flush_uncommitting _ _ _) fun _ => commit_late
        · exact late_of_all trivial
  split
  · exact late_bind (read_uncommitting _) fun _ => late_bind (all_oneOrNone _) rest
  · exact late_bind trivial rest

theorem bag_late (row : Dict) : (backfillBag row).prog.Late Bypass.exec World.db := by
  have upserted : (SqlInventoryRepo.upsert row).prog.Late Bypass.exec World.db := by
    refine late_bind (read_uncommitting _) fun householdId => late_bind (read_uncommitting _) fun o => ?_
    cases o with
    | none => exact late_bind (all_discard (all_ask nofun)) fun _ => commit_late
    | some bag => exact late_bind (flush_uncommitting _ _ _) fun _ => commit_late
  unfold backfillBag
  split
  · exact late_of_all trivial
  · refine late_bind (read_uncommitting _) fun _ => late_bind (all_oneOrNone _) fun o => ?_
    cases o with
    | none => exact upserted
    | some bag =>
        simp only
        split
        · exact late_bind (flush_uncommitting _ _ _) fun _ => commit_late
        · exact late_of_all trivial

end Late

/-! ### Steps -/

/-- Between two transactions, with rows told apart by their ids. -/
structure Ready (w : World (Bypass Table)) : Prop where
  rest : Resting w
  events : Table.maintenanceLog.Keyed (w.db ⟨.maintenanceLog⟩)
  bags : Table.inventoryBags.Keyed (w.db ⟨.inventoryBags⟩)

/-- The id that the next row of the table gets is new. -/
def New (t : Table) (w : World (Bypass Table)) : Prop :=
  ∀ r ∈ w.db ⟨t⟩, t.id r ≠ w.nextId

/-- What a row of the maintenance sheet finds and does. -/
inductive EventStep (env : Env) (row : Dict) (id : Uuid) (db : State) :
    List MaintenanceLog → Prop where
  | filled (event : MaintenanceLog) : eventsOf row (db .maintenanceLog) = [event] →
      event.sheetsHardwareId ≠ none → EventStep env row id db (db .maintenanceLog)
  | gap (event new : MaintenanceLog) : eventsOf row (db .maintenanceLog) = [event] →
      event.sheetsHardwareId = none → filledEvent row db event = some new →
      EventStep env row id db (exchanged event new (db .maintenanceLog))
  | absent (new : MaintenanceLog) : eventsOf row (db .maintenanceLog) = [] →
      insertedEvent env row id db = some new →
      EventStep env row id db (db .maintenanceLog ++ [new])

/-- What a row of the tab `Maintenance_Events` does to the events. -/
theorem upsertEvent_eq_some {env : Env} {row : Dict} {id : Uuid} {db : State}
    {rows : List MaintenanceLog} (done : upsertEvent env row id db = some rows) :
    EventStep env row id db rows := by
  unfold upsertEvent at done
  split at done
  · rename_i none
    obtain ⟨new, made, rfl⟩ := Option.map_eq_some_iff.mp done
    exact .absent new none made
  · rename_i event one
    by_cases gap : event.sheetsHardwareId = none
    · rw [if_pos (by rw [gap]; rfl)] at done
      obtain ⟨new, made, rfl⟩ := Option.map_eq_some_iff.mp done
      exact .gap event new one gap made
    · rw [if_neg (by rwa [Option.isNone_iff_eq_none])] at done
      cases done
      exact .filled event one gap
  · cases done

/-- What a row of the inventory sheet finds and does. -/
inductive BagStep (row : Dict) (id : Uuid) (db : State) : List InventoryBag → Prop where
  | unnamed : (row.get "Bag_ID").truthy = false → BagStep row id db (db .inventoryBags)
  | filled (bag : InventoryBag) : (row.get "Bag_ID").truthy = true →
      bagsOf row (db .inventoryBags) = [bag] → bag.sheetsCatalogId ≠ none →
      BagStep row id db (db .inventoryBags)
  | gap (bag : InventoryBag) (catalog : Option String) : (row.get "Bag_ID").truthy = true →
      bagsOf row (db .inventoryBags) = [bag] → bag.sheetsCatalogId = none →
      asText (row.get "Catalog_ID") = .ok catalog →
      BagStep row id db (exchanged bag { bag with sheetsCatalogId := catalog } (db .inventoryBags))
  | absent (new : InventoryBag) : (row.get "Bag_ID").truthy = true →
      bagsOf row (db .inventoryBags) = [] → insertedBag row id db = some new →
      BagStep row id db (db .inventoryBags ++ [new])

/-- What a row of the tab `Inventory` does to the bags. -/
theorem fillBag_eq_some {row : Dict} {id : Uuid} {db : State} {rows : List InventoryBag}
    (done : fillBag row id db = some rows) : BagStep row id db rows := by
  unfold fillBag at done
  by_cases named : (row.get "Bag_ID").truthy = true
  · rw [if_pos named] at done
    split at done
    · rename_i none
      obtain ⟨new, made, rfl⟩ := Option.map_eq_some_iff.mp done
      exact .absent new named none made
    · rename_i bag one
      by_cases gap : bag.sheetsCatalogId = none
      · rw [if_pos (by rw [gap]; rfl)] at done
        cases text : asText (row.get "Catalog_ID") with
        | error e => rw [text] at done; cases done
        | ok catalog =>
            rw [text] at done
            cases done
            exact .gap bag catalog named one gap text
      · rw [if_neg (by rwa [Option.isNone_iff_eq_none])] at done
        cases done
        exact .filled bag named one gap
    · cases done
  · rw [if_neg named] at done
    cases done
    exact .unnamed (Bool.eq_false_iff.mpr named)

theorem mem_eventsOf {row : Dict} {rows : List MaintenanceLog} {event : MaintenanceLog} :
    event ∈ eventsOf row rows ↔ (row.get "Maintenance_ID").truthy = true ∧ event ∈ rows ∧
      equals event.sheetsId (row.get "Maintenance_ID") = true := by
  unfold eventsOf
  split
  · rename_i named
    rw [List.mem_filter]
    exact (and_iff_right named).symm
  · rename_i unnamed
    exact iff_of_false List.not_mem_nil fun h => unnamed h.1

theorem mem_exchanged {R : Type} [DecidableEq R] {old new : R} {rows : List R} {r : R} :
    r ∈ exchanged old new rows ↔ (r ∈ rows ∧ r ≠ old) ∨ (r = new ∧ old ∈ rows) := by
  unfold exchanged
  rw [List.mem_map]
  constructor
  · rintro ⟨x, hx, rfl⟩
    by_cases same : x = old
    · rw [if_pos same]
      exact .inr ⟨rfl, same ▸ hx⟩
    · rw [if_neg same]
      exact .inl ⟨hx, same⟩
  · rintro (⟨hr, other⟩ | ⟨rfl, there⟩)
    · exact ⟨r, hr, if_neg other⟩
    · exact ⟨old, there, if_pos rfl⟩

theorem exchanged_keyed {t : Table} {old new : t.Row} {rows : List t.Row} (keyed : t.Keyed rows)
    (same : t.id new = t.id old) : t.Keyed (exchanged old new rows) := by
  have ids : (exchanged old new rows).map t.id = rows.map t.id := by
    unfold exchanged
    rw [List.map_map]
    refine List.map_congr_left fun r _ => ?_
    rw [Function.comp_apply]
    split
    · rename_i here
      rw [same, here]
    · rfl
  rw [Table.Keyed, ids]
  exact keyed

theorem appended_keyed {t : Table} {new : t.Row} {rows : List t.Row} (keyed : t.Keyed rows)
    (fresh : ∀ r ∈ rows, t.id r ≠ t.id new) : t.Keyed (rows ++ [new]) := by
  rw [Table.Keyed, List.map_append]
  refine List.nodup_append.mpr ⟨keyed, List.nodup_singleton _, fun k hk k' hk' => ?_⟩
  obtain ⟨r, hr, rfl⟩ := List.mem_map.mp hk
  rw [List.mem_singleton.mp hk']
  exact fresh r hr

section Steps

variable {w : World (Bypass Table)} {env : Env} {row : Dict}

theorem event_id {h : Option Uuid} {id : Uuid} {event : MaintenanceLog}
    (made : SqlMaintenanceRepo.make env row h id = .ok event) : event.id = id := by
  unfold SqlMaintenanceRepo.make at made
  repeat obtain ⟨_, _, made⟩ := bind_eq_ok made
  cases made
  rfl

theorem make_event_texts {h : Option Uuid} {id : Uuid} {event : MaintenanceLog}
    (made : SqlMaintenanceRepo.make env row h id = .ok event) :
    asText (row.get "Maintenance_ID") = .ok event.sheetsId ∧
      asText (row.get "Hardware_ID") = .ok event.sheetsHardwareId := by
  unfold SqlMaintenanceRepo.make at made
  obtain ⟨_, first, made⟩ := bind_eq_ok made
  obtain ⟨_, second, made⟩ := bind_eq_ok made
  repeat obtain ⟨_, _, made⟩ := bind_eq_ok made
  cases made
  exact ⟨first, second⟩

theorem insertedEvent_eq_some {id : Uuid} {db : State} {new : MaintenanceLog}
    (made : insertedEvent env row id db = some new) :
    ∃ h, sheetHousehold row = .ok h ∧ SqlMaintenanceRepo.make env row h id = .ok new ∧
      (∀ s, new.sheetsId = some s → ∀ r ∈ db .maintenanceLog, r.sheetsId ≠ some s) ∧
      mayBelong db h = true := by
  unfold insertedEvent at made
  split at made
  · rename_i h household
    split at made
    · rename_i event value
      split at made
      · rename_i allowed
        cases made
        exact ⟨h, household, value, allowed.1, allowed.2⟩
      · cases made
    · cases made
  · cases made

theorem filledEvent_eq_some {db : State} {event new : MaintenanceLog}
    (made : filledEvent row db event = some new) :
    ∃ h hardware, sheetHousehold row = .ok h ∧ asText (row.get "Hardware_ID") = .ok hardware ∧
      (h = event.householdId ∨ mayBelong db h = true) ∧
      new = { event with householdId := h, sheetsHardwareId := hardware } := by
  unfold filledEvent at made
  split at made
  · rename_i h hardware household text
    split at made
    · rename_i allowed
      cases made
      exact ⟨h, hardware, household, text, allowed, rfl⟩
    · cases made
  · cases made

theorem make_bag_texts {h : Option Uuid} {id : Uuid} {bag : InventoryBag}
    (made : SqlInventoryRepo.make row h id = .ok bag) :
    asText (row.get "Bag_ID") = .ok bag.sheetsId ∧
      asText (row.get "Catalog_ID") = .ok bag.sheetsCatalogId := by
  refine ⟨(SqlInventoryRepo.make_eq_ok made).2.1, ?_⟩
  unfold SqlInventoryRepo.make SqlInventoryRepo.assign at made
  iterate 7 obtain ⟨_, _, made⟩ := bind_eq_ok made
  obtain ⟨catalog, text, made⟩ := bind_eq_ok made
  cases made
  exact text

theorem insertedBag_eq_some {id : Uuid} {db : State} {new : InventoryBag}
    (made : insertedBag row id db = some new) :
    ∃ h, sheetHousehold row = .ok h ∧ SqlInventoryRepo.make row h id = .ok new ∧
      mayBelong db h = true := by
  unfold insertedBag at made
  split at made
  · rename_i h household
    split at made
    · rename_i bag value
      split at made
      · rename_i allowed
        cases made
        exact ⟨h, household, value, allowed⟩
      · cases made
    · cases made
  · cases made

/-- A row of the maintenance sheet, from a ready world. -/
theorem event_step (ready : Ready w) {w' : World (Bypass Table)}
    (taken : stepOf (SqlMaintenanceRepo.upsert env) row w = some w') :
    ∃ rows, EventStep env row w.nextId (Bypass.rowsOf w.db) rows ∧ Resting w' ∧
      w'.db = Function.update w.db ⟨.maintenanceLog⟩ rows := by
  have ends := runFor_upsert env row ready.rest ready.events
  have first := stepOf_eq_some.mp taken
  cases done : upsertEvent env row w.nextId (Bypass.rowsOf w.db) with
  | none =>
      rw [done] at ends
      obtain ⟨e, w₁, raised, _⟩ := ends
      cases first.symm.trans raised
  | some rows =>
      rw [done] at ends
      obtain ⟨w₁, run, rest, changed⟩ := ends
      cases first.symm.trans run
      exact ⟨rows, upsertEvent_eq_some done, rest, changed⟩

/-- A row of the inventory sheet, from a ready world. -/
theorem bag_step (ready : Ready w) {w' : World (Bypass Table)}
    (taken : stepOf backfillBag row w = some w') :
    ∃ rows, BagStep row w.nextId (Bypass.rowsOf w.db) rows ∧ Resting w' ∧
      w'.db = Function.update w.db ⟨.inventoryBags⟩ rows := by
  have ends := runFor_backfillBag row ready.rest ready.bags
  have first := stepOf_eq_some.mp taken
  cases done : fillBag row w.nextId (Bypass.rowsOf w.db) with
  | none =>
      rw [done] at ends
      obtain ⟨e, w₁, raised, _⟩ := ends
      cases first.symm.trans raised
  | some rows =>
      rw [done] at ends
      obtain ⟨w₁, run, rest, changed⟩ := ends
      cases first.symm.trans run
      exact ⟨rows, fillBag_eq_some done, rest, changed⟩

theorem event_ready (ready : Ready w) (new : New .maintenanceLog w) {w' : World (Bypass Table)}
    (taken : stepOf (SqlMaintenanceRepo.upsert env) row w = some w') : Ready w' := by
  obtain ⟨rows, step, rest, changed⟩ := event_step ready taken
  refine ⟨rest, ?_, ?_⟩
  · rw [changed, Function.update_self]
    cases step with
    | filled => exact ready.events
    | gap event new _ _ made =>
        obtain ⟨_, _, _, _, _, rfl⟩ := filledEvent_eq_some made
        exact exchanged_keyed (t := .maintenanceLog) ready.events rfl
    | absent event _ made =>
        obtain ⟨_, _, value, _⟩ := insertedEvent_eq_some made
        exact appended_keyed (t := .maintenanceLog) ready.events fun r hr same =>
          new r hr (same.trans (event_id value))
  · rw [changed, Function.update_of_ne (show (⟨.inventoryBags⟩ : Bypass Table) ≠ ⟨.maintenanceLog⟩
      from nofun)]
    exact ready.bags

theorem bag_ready (ready : Ready w) (new : New .inventoryBags w) {w' : World (Bypass Table)}
    (taken : stepOf backfillBag row w = some w') : Ready w' := by
  obtain ⟨rows, step, rest, changed⟩ := bag_step ready taken
  refine ⟨rest, ?_, ?_⟩
  · rw [changed, Function.update_of_ne (show (⟨.maintenanceLog⟩ : Bypass Table) ≠ ⟨.inventoryBags⟩
      from nofun)]
    exact ready.events
  · rw [changed, Function.update_self]
    cases step with
    | unnamed => exact ready.bags
    | filled => exact ready.bags
    | gap bag catalog => exact exchanged_keyed (t := .inventoryBags) ready.bags rfl
    | absent bag _ _ made =>
        obtain ⟨_, _, value, _⟩ := insertedBag_eq_some made
        exact appended_keyed (t := .inventoryBags) ready.bags fun r hr same =>
          new r hr (same.trans (SqlInventoryRepo.make_eq_ok value).1)

/-! Whether a row fails does not depend on the id that it would be given, nor on the time. -/

theorem make_event_other {h : Option Uuid} {id : Uuid} {event : MaintenanceLog}
    (made : SqlMaintenanceRepo.make env row h id = .ok event) (env₂ : Env) (id₂ : Uuid) :
    ∃ event₂, SqlMaintenanceRepo.make env₂ row h id₂ = .ok event₂ ∧
      event₂.sheetsId = event.sheetsId := by
  unfold SqlMaintenanceRepo.make at made ⊢
  repeat obtain ⟨_, _, made⟩ := bind_eq_ok made
  cases made
  simp only [*, ok_bind]
  exact ⟨_, rfl, rfl⟩

theorem mayBelong_congr {db db₂ : State} (households : db₂ .households = db .households)
    (h : Option Uuid) : mayBelong db₂ h = mayBelong db h := by
  unfold mayBelong
  rw [households]

theorem filledEvent_congr {db db₂ : State} (households : db₂ .households = db .households)
    (event : MaintenanceLog) : filledEvent row db₂ event = filledEvent row db event := by
  unfold filledEvent
  simp only [mayBelong_congr households]

theorem insertedEvent_isSome {db db₂ : State} (events : db₂ .maintenanceLog = db .maintenanceLog)
    (households : db₂ .households = db .households) {id : Uuid} {new : MaintenanceLog}
    (made : insertedEvent env row id db = some new) (env₂ : Env) (id₂ : Uuid) :
    (insertedEvent env₂ row id₂ db₂).isSome = true := by
  obtain ⟨h, household, value, free, belongs⟩ := insertedEvent_eq_some made
  obtain ⟨event₂, value₂, sheetsId⟩ := make_event_other value env₂ id₂
  rw [← events, ← sheetsId] at free
  unfold insertedEvent
  rw [household]
  simp only [value₂, mayBelong_congr households]
  rw [if_pos ⟨free, belongs⟩]
  rfl

/-- Whether a row of the tab raises depends on the events and the households alone: the
clock and the drawn id do not bear on it. -/
theorem upsertEvent_isSome {db db₂ : State} (events : db₂ .maintenanceLog = db .maintenanceLog)
    (households : db₂ .households = db .households) {id : Uuid} (env₂ : Env) (id₂ : Uuid)
    (done : (upsertEvent env row id db).isSome = true) :
    (upsertEvent env₂ row id₂ db₂).isSome = true := by
  unfold upsertEvent at done ⊢
  rw [events]
  split at done
  · rw [Option.isSome_map] at done ⊢
    obtain ⟨new, made⟩ := Option.isSome_iff_exists.mp done
    exact insertedEvent_isSome events households made env₂ id₂
  · rename_i event one
    by_cases gap : event.sheetsHardwareId.isNone = true
    · rw [if_pos gap, filledEvent_congr households]
      rwa [if_pos gap] at done
    · rw [if_neg gap]
      rfl
  · cases done

theorem event_fails_iff (ready : Ready w) : stepOf (SqlMaintenanceRepo.upsert env) row w = none ↔
    upsertEvent env row w.nextId (Bypass.rowsOf w.db) = none := by
  have ends := runFor_upsert env row ready.rest ready.events
  cases done : upsertEvent env row w.nextId (Bypass.rowsOf w.db) with
  | none =>
      rw [done] at ends
      obtain ⟨e, w₁, raised, _⟩ := ends
      exact iff_of_true (stepOf_eq_none.mpr ⟨e, w₁, raised⟩) rfl
  | some rows =>
      rw [done] at ends
      obtain ⟨w₁, run, _⟩ := ends
      rw [stepOf_eq_some.mpr run]
      exact iff_of_false nofun nofun

/-- A call that raises in one state does so in any other with the same events and
households. -/
theorem event_fails (ready : Ready w) {env₂ : Env} {w₂ : World (Bypass Table)} (ready₂ : Ready w₂)
    (events : Bypass.rowsOf w₂.db .maintenanceLog = Bypass.rowsOf w.db .maintenanceLog)
    (households : Bypass.rowsOf w₂.db .households = Bypass.rowsOf w.db .households)
    (fails : stepOf (SqlMaintenanceRepo.upsert env) row w = none) :
    stepOf (SqlMaintenanceRepo.upsert env₂) row w₂ = none := by
  rw [event_fails_iff ready] at fails
  rw [event_fails_iff ready₂]
  by_contra done
  have before := upsertEvent_isSome events.symm households.symm env w.nextId
    (Option.ne_none_iff_isSome.mp done)
  rw [fails] at before
  cases before

theorem insertedBag_isSome {db db₂ : State} (households : db₂ .households = db .households)
    {id : Uuid} {new : InventoryBag} (made : insertedBag row id db = some new) (id₂ : Uuid) :
    (insertedBag row id₂ db₂).isSome = true := by
  obtain ⟨h, household, value, belongs⟩ := insertedBag_eq_some made
  obtain ⟨r, other⟩ := SqlInventoryRepo.make_total value id₂
  unfold insertedBag
  rw [household]
  simp only [other, mayBelong_congr households, belongs, if_true]
  rfl

/-- As for the events, the clock and the drawn id do not bear on it. -/
theorem fillBag_isSome {db db₂ : State} (bags : db₂ .inventoryBags = db .inventoryBags)
    (households : db₂ .households = db .households) {id : Uuid} (id₂ : Uuid)
    (done : (fillBag row id db).isSome = true) : (fillBag row id₂ db₂).isSome = true := by
  unfold fillBag at done ⊢
  rw [bags]
  split at done
  · rename_i named
    rw [if_pos named]
    split at done
    · rw [Option.isSome_map] at done ⊢
      obtain ⟨new, made⟩ := Option.isSome_iff_exists.mp done
      exact insertedBag_isSome households made id₂
    · exact done
    · cases done
  · rename_i unnamed
    rw [if_neg unnamed]
    rfl

theorem bag_fails_iff (ready : Ready w) : stepOf backfillBag row w = none ↔
    fillBag row w.nextId (Bypass.rowsOf w.db) = none := by
  have ends := runFor_backfillBag row ready.rest ready.bags
  cases done : fillBag row w.nextId (Bypass.rowsOf w.db) with
  | none =>
      rw [done] at ends
      obtain ⟨e, w₁, raised, _⟩ := ends
      exact iff_of_true (stepOf_eq_none.mpr ⟨e, w₁, raised⟩) rfl
  | some rows =>
      rw [done] at ends
      obtain ⟨w₁, run, _⟩ := ends
      rw [stepOf_eq_some.mpr run]
      exact iff_of_false nofun nofun

/-- A call that raises in one state does so in any other with the same bags and
households. -/
theorem bag_fails (ready : Ready w) {w₂ : World (Bypass Table)} (ready₂ : Ready w₂)
    (bags : Bypass.rowsOf w₂.db .inventoryBags = Bypass.rowsOf w.db .inventoryBags)
    (households : Bypass.rowsOf w₂.db .households = Bypass.rowsOf w.db .households)
    (fails : stepOf backfillBag row w = none) : stepOf backfillBag row w₂ = none := by
  rw [bag_fails_iff ready] at fails
  rw [bag_fails_iff ready₂]
  by_contra done
  have some := Option.ne_none_iff_isSome.mp done
  have before := fillBag_isSome bags.symm households.symm w.nextId some
  rw [fails] at before
  cases before

end Steps

end EspressoLogs
