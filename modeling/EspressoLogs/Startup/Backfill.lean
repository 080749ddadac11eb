import EspressoLogs.Api
import EspressoLogs.Lib.Bypass
import EspressoLogs.Lib.Sweep

/-!
The backfill at startup.

`runStartupBackfill` is the program of `main.py`. It runs for a role that sees
every row and without a household in its context, each row of a sheet in a
transaction of its own; `upsertEvent` and `fillBag` say what such a transaction
makes of the tables (`runFor_upsert`, `runFor_backfillBag`).
-/

namespace EspressoLogs

open Lib Py

/-! ### The program -/

/-- The sheets that the backfill reads. -/
structure BackfillSheets where
  maintenance : List Dict
  inventory : List Dict

def backfillMaintenanceLogs (env : Env) (rows : List Dict) : DbM Unit := do
  let gaps ← select .maintenanceLog fun r => r.sheetsHardwareId.isNone
  if gaps.isEmpty then
    return
  rows.forM (SqlMaintenanceRepo.upsert env)

/-- One row of the inventory sheet. -/
def backfillBag (row : Dict) : DbM Unit := do
  if !(row.get "Bag_ID").truthy then
    return
  match ← oneOrNone (← select .inventoryBags fun r => equals r.sheetsId (row.get "Bag_ID")) with
  | none => SqlInventoryRepo.upsert row
  | some bag =>
      if bag.sheetsCatalogId.isNone then
        DbM.flush .inventoryBags bag fun b => do
          return { b with sheetsCatalogId := ← asText (row.get "Catalog_ID") }
        DbM.commit

def backfillInventoryBags (rows : List Dict) : DbM Unit := do
  let gaps ← select .inventoryBags fun r => r.sheetsCatalogId.isNone
  if gaps.isEmpty then
    return
  rows.forM backfillBag

def runStartupBackfill (env : Env) (usePostgres : Bool) (sheets : BackfillSheets) : DbM Unit :=
  if usePostgres then
    tryCatch (do
      backfillMaintenanceLogs env sheets.maintenance
      backfillInventoryBags sheets.inventory) fun _ => pure ()
  else pure ()

/-! ### Running it -/

/-- Runs a program for a role that sees every row. -/
def CodeM.runFor {P : Statement → Prop} {α : Type} (p : CodeM P α) (w : World (Bypass Table)) :
    Except Exc α × World (Bypass Table) :=
  p.prog.run Bypass.exec w

/-- The world in which the backfill begins. -/
def startupWorld (supply : Nat → Uuid) (db : State) : World (Bypass Table) :=
  { db := Bypass.tablesOf db, session := .idle supply }

/-- The rows that are there once the application has started. -/
def startup (env : Env) (usePostgres : Bool) (sheets : BackfillSheets) (supply : Nat → Uuid)
    (db : State) : State :=
  Bypass.rowsOf ((runStartupBackfill env usePostgres sheets).runFor (startupWorld supply db)).2.db

/-- The committed rows at each statement of the backfill, and at its end. -/
def startupStates (env : Env) (usePostgres : Bool) (sheets : BackfillSheets)
    (supply : Nat → Uuid) (db : State) : List State :=
  ((runStartupBackfill env usePostgres sheets).prog.trace Bypass.exec (startupWorld supply db)).map
    (fun v => Bypass.rowsOf v.2.db) ++ [startup env usePostgres sheets supply db]

/-! ### What one row of a sheet does -/

/-- `parse_uuid` of the household that a sheet row names. -/
def sheetHousehold (row : Dict) : Except Exc (Option Uuid) :=
  parseUuid ((row.get "household_id").or (row.get "Household_ID"))

/-- A row may belong to the household, or to none. -/
def mayBelong (db : State) (h : Option Uuid) : Bool :=
  match h with
  | some k => (db .households).any fun r : Household => r.id = k
  | none => true

/-- The entries with the id of a sheet row. -/
def eventsOf (row : Dict) (rows : List MaintenanceLog) : List MaintenanceLog :=
  if (row.get "Maintenance_ID").truthy then
    rows.filter fun r => equals r.sheetsId (row.get "Maintenance_ID")
  else []

/-- The bags with the id of a sheet row. -/
def bagsOf (row : Dict) (rows : List InventoryBag) : List InventoryBag :=
  rows.filter fun r => equals r.sheetsId (row.get "Bag_ID")

/-- An entry in place of another. -/
def exchanged {R : Type} [DecidableEq R] (old new : R) (rows : List R) : List R :=
  rows.map fun r => if r = old then new else r

theorem exchanged_self {R : Type} [DecidableEq R] (old : R) (rows : List R) :
    exchanged old old rows = rows := by
  refine (List.map_congr_left fun r _ => ?_).trans (List.map_id _)
  by_cases here : r = old <;> simp [here]

/-- What becomes of an entry whose hardware is not known. -/
def filledEvent (row : Dict) (db : State) (event : MaintenanceLog) : Option MaintenanceLog :=
  match sheetHousehold row, asText (row.get "Hardware_ID") with
  | .ok h, .ok hardware =>
      if h = event.householdId ∨ mayBelong db h = true then
        some { event with householdId := h, sheetsHardwareId := hardware }
      else none
  | _, _ => none

/-- The entry that is inserted for a sheet row. -/
def insertedEvent (env : Env) (row : Dict) (id : Uuid) (db : State) : Option MaintenanceLog :=
  match sheetHousehold row with
  | .ok h =>
      match SqlMaintenanceRepo.make env row h id with
      | .ok event =>
          if (∀ s, event.sheetsId = some s → ∀ r ∈ db .maintenanceLog, r.sheetsId ≠ some s) ∧
              mayBelong db h = true then
            some event
          else none
      | .error _ => none
  | .error _ => none

/-- What a row of the maintenance sheet makes of the entries, unless it fails. -/
def upsertEvent (env : Env) (row : Dict) (id : Uuid) (db : State) : Option (List MaintenanceLog) :=
  match eventsOf row (db .maintenanceLog) with
  | [] => (insertedEvent env row id db).map fun event => db .maintenanceLog ++ [event]
  | [event] =>
      if event.sheetsHardwareId.isNone then
        (filledEvent row db event).map fun new => exchanged event new (db .maintenanceLog)
      else some (db .maintenanceLog)
  | _ => none

/-- The bag that is inserted for a sheet row. -/
def insertedBag (row : Dict) (id : Uuid) (db : State) : Option InventoryBag :=
  match sheetHousehold row with
  | .ok h =>
      match SqlInventoryRepo.make row h id with
      | .ok bag => if mayBelong db h = true then some bag else none
      | .error _ => none
  | .error _ => none

/-- What a row of the inventory sheet makes of the bags, unless it fails. -/
def fillBag (row : Dict) (id : Uuid) (db : State) : Option (List InventoryBag) :=
  if (row.get "Bag_ID").truthy then
    match bagsOf row (db .inventoryBags) with
    | [] => (insertedBag row id db).map fun bag => db .inventoryBags ++ [bag]
    | [bag] =>
        if bag.sheetsCatalogId.isNone then
          match asText (row.get "Catalog_ID") with
          | .ok catalog =>
              some (exchanged bag { bag with sheetsCatalogId := catalog } (db .inventoryBags))
          | .error _ => none
        else some (db .inventoryBags)
    | _ => none
  else some (db .inventoryBags)

/-! ### Statements for the role -/

section Statements

variable {P : Statement → Prop} {α β : Type} {w w' : World (Bypass Table)}

namespace CodeM

theorem runFor_bind_ok {p : CodeM P α} {f : α → CodeM P β} {a : α}
    (h : p.runFor w = (.ok a, w')) : (p >>= f).runFor w = (f a).runFor w' :=
  Prog.run_bind_ok h

theorem runFor_bind_error {p : CodeM P α} {f : α → CodeM P β} {e : Exc}
    (h : p.runFor w = (.error e, w')) : (p >>= f).runFor w = (.error e, w') :=
  Prog.run_bind_error h

theorem runFor_bind_of {p : CodeM P α} {f : α → CodeM P β} {a : α}
    {x : Except Exc β × World (Bypass Table)} (h : p.runFor w = (.ok a, w'))
    (rest : (f a).runFor w' = x) : (p >>= f).runFor w = x :=
  (runFor_bind_ok h).trans rest

end CodeM

/-- Between two transactions: nothing is pending, no household is set. -/
structure Resting (w : World (Bypass Table)) : Prop where
  live : w.Live
  pending : w.session.pending = fun _ => []
  context : w.session.context = none

theorem Resting.view (rest : Resting w) (t : Table) : w.view ⟨t⟩ = w.db ⟨t⟩ := by
  unfold World.view
  rw [rest.pending]
  rfl

theorem runFor_ask {s : Statement} {a : Ans s} (hs : P s) (performed : Bypass.exec s w = (.ok a, w')) :
    (ask s hs).runFor w = (.ok a, w') := by
  simp only [ask, CodeM.runFor, Prog.run, performed]

theorem runFor_ask_error {s : Statement} {e : StmtError} (hs : P s)
    (performed : Bypass.exec s w = (.error e, w')) : (ask s hs).runFor w = (.error (.db e), w') := by
  simp only [ask, CodeM.runFor, Prog.run, performed]

/-- A program that ends with the rows of one table as told and those of the others
as they were, or, where none are told, fails and changes nothing. -/
def Ends (p : CodeM P Unit) (w : World (Bypass Table)) (t : Table) : Option (List t.Row) → Prop
  | some rows => ∃ w', p.runFor w = (.ok (), w') ∧ Resting w' ∧
      w'.db = Function.update w.db ⟨t⟩ rows
  | none => ∃ e w', p.runFor w = (.error e, w') ∧ w'.db = w.db

namespace Ends

variable {t : Table} {rows : Option (List t.Row)}

theorem still (rest : Resting w) : Ends (pure () : CodeM P Unit) w t (some (w.db ⟨t⟩)) :=
  ⟨w, rfl, rest, (Function.update_eq_self (⟨t⟩ : Bypass Table) w.db).symm⟩

/-- After a part that leaves the world as it is. -/
theorem after {p : CodeM P α} {f : α → CodeM P Unit} {a : α} (h : p.runFor w = (.ok a, w))
    (ends : Ends (f a) w t rows) : Ends (p >>= f) w t rows := by
  cases rows with
  | none =>
      obtain ⟨e, w', run, db⟩ := ends
      exact ⟨e, w', CodeM.runFor_bind_of h run, db⟩
  | some rows =>
      obtain ⟨w', run, others⟩ := ends
      exact ⟨w', CodeM.runFor_bind_of h run, others⟩

theorem raises {p : CodeM P α} {f : α → CodeM P Unit} {e : Exc} {w' : World (Bypass Table)}
    (h : p.runFor w = (.error e, w')) (db : w'.db = w.db) : Ends (p >>= f) w t none :=
  ⟨e, w', CodeM.runFor_bind_error h, db⟩

end Ends

theorem Resting.committed (rest : Resting w) : Resting w.committed :=
  ⟨⟨rfl, rest.live.faults⟩, rfl, rfl⟩

/-- Writes to one table, committed. -/
theorem committed_pend (rest : Resting w) (t : Table) (c : Change t.Row) {w₁ : World (Bypass Table)}
    (same : w₁.view = w.view) :
    (w₁.pend (T := Bypass Table) ⟨t⟩ c).committed.db =
      Function.update w.db ⟨t⟩ (c.apply (w.db ⟨t⟩)) := by
  funext u
  rw [World.committed_db]
  by_cases here : u = ⟨t⟩
  · subst here
    rw [World.pend_view_self, Function.update_self, same, rest.view]
  · rw [World.pend_view_of_ne _ _ here, Function.update_of_ne here, same]
    exact rest.view u.table

section Resting

variable (rest : Resting w)

include rest

theorem runFor_select (t : Table) (p : t.Row → Bool) :
    (select t p).runFor w = (.ok ((w.db ⟨t⟩).filter p), w) := by
  have performed := Bypass.exec_select rest.live t p
  rw [rest.view] at performed
  exact runFor_ask (P := IsRead) (s := .select t p) trivial performed

theorem runFor_setting : currentHouseholdId.runFor w = (.ok none, w) := by
  have performed := Bypass.exec_currentSetting (T := Table) rest.live
  rw [rest.context] at performed
  exact runFor_ask (P := IsRead) (s := .currentSetting) trivial performed

theorem runFor_household {row : Dict} {h : Option Uuid} (names : sheetHousehold row = .ok h) :
    (rowHouseholdIdOrContext row).runFor w = (.ok h, w) := by
  unfold rowHouseholdIdOrContext
  have parsed : (liftExcept (sheetHousehold row) : ReadM (Option Uuid)).runFor w = (.ok h, w) := by
    rw [names]
    rfl
  refine CodeM.runFor_bind_of parsed ?_
  cases h with
  | some k => rfl
  | none => exact runFor_setting rest

omit rest in
theorem runFor_household_error {row : Dict} {e : Exc} (invalid : sheetHousehold row = .error e) :
    (rowHouseholdIdOrContext row).runFor w = (.error e, w) := by
  unfold rowHouseholdIdOrContext
  have parsed : (liftExcept (sheetHousehold row) : ReadM (Option Uuid)).runFor w =
      (.error e, w) := by
    rw [invalid]
    rfl
  exact CodeM.runFor_bind_error parsed

/-- A row inserted in a transaction of its own. -/
theorem ends_insert {t : Table} {make : Uuid → Except StmtError t.Row} {r : t.Row}
    (made : make w.nextId = .ok r)
    (fits : w.refused (T := Bypass Table) ⟨t⟩ (.ins r) = none) :
    Ends (do discard (DbM.insert t make); DbM.commit) w t (some (w.db ⟨t⟩ ++ [r])) := by
  have inserted : (DbM.insert t make).runFor w =
      (.ok r, w.drew.pend (T := Bypass Table) ⟨t⟩ (.ins r)) :=
    runFor_ask trivial (Bypass.exec_insert rest.live made fits)
  have discarded : (discard (DbM.insert t make)).runFor w =
      (.ok ⟨⟩, w.drew.pend (T := Bypass Table) ⟨t⟩ (.ins r)) :=
    CodeM.runFor_bind_of inserted rfl
  have live : (w.drew.pend (T := Bypass Table) ⟨t⟩ (.ins r)).Live := rest.live.drew.pend _ _
  refine ⟨_, CodeM.runFor_bind_of discarded (runFor_ask trivial (Bypass.exec_commit live)),
    ?_, ?_⟩
  · exact ⟨⟨rfl, rest.live.faults⟩, rfl, rfl⟩
  · exact committed_pend rest t (.ins r) rfl

theorem ends_insert_refused {t : Table} {make : Uuid → Except StmtError t.Row} {r : t.Row}
    {e : StmtError} (made : make w.nextId = .ok r)
    (verdict : w.refused (T := Bypass Table) ⟨t⟩ (.ins r) = some e) :
    Ends (do discard (DbM.insert t make); DbM.commit) w t none := by
  have refused : (DbM.insert t make).runFor w = (.error (.db e), w.drew.aborted) :=
    runFor_ask_error trivial (Bypass.exec_insert_refused rest.live made verdict)
  exact Ends.raises (CodeM.runFor_bind_error refused) rfl

theorem ends_insert_invalid {t : Table} {make : Uuid → Except StmtError t.Row} {e : StmtError}
    (made : make w.nextId = .error e) :
    Ends (do discard (DbM.insert t make); DbM.commit) w t none := by
  have refused : (DbM.insert t make).runFor w = (.error (.db e), w.aborted) :=
    runFor_ask_error trivial (Bypass.exec_insert_invalid rest.live made)
  exact Ends.raises (CodeM.runFor_bind_error refused) rfl

/-! A row that was read, written back in a transaction of its own. -/

variable {t : Table} {old new : t.Row} {assign : t.Row → Except StmtError t.Row}
  (found : (w.db ⟨t⟩).filter (fun r => t.id r == t.id old) = [old])

include found

theorem ends_flush (assigned : assign old = .ok new)
    (fits : w.refused (T := Bypass Table) ⟨t⟩ (.upd [(old, new)]) = none) :
    Ends (do DbM.flush t old assign; DbM.commit) w t (some (exchanged old new (w.db ⟨t⟩))) := by
  by_cases same : new = old
  · subst same
    have nothing : (DbM.flush t new assign).runFor w = (.ok (), w) := by
      unfold DbM.flush
      rw [if_pos (by rw [assigned]; rfl)]
      rfl
    have rows : exchanged new new (w.db ⟨t⟩) = w.db ⟨t⟩ := exchanged_self new _
    refine Ends.after nothing ?_
    rw [rows]
    refine ⟨_, runFor_ask trivial (Bypass.exec_commit rest.live), rest.committed, ?_⟩
    funext u
    rw [Function.update_eq_self]
    exact rest.view u.table
  · have viewed : (w.view ⟨t⟩).filter (fun r => t.id r == t.id old) = [old] := by
      rw [rest.view]
      exact found
    have written : (DbM.update t (fun r => t.id r == t.id old) assign).runFor w =
        (.ok [new], w.pend (T := Bypass Table) ⟨t⟩ (.upd [(old, new)])) :=
      runFor_ask trivial (Bypass.exec_update rest.live viewed assigned fits)
    have flushed : (DbM.flush t old assign).runFor w =
        (.ok (), w.pend (T := Bypass Table) ⟨t⟩ (.upd [(old, new)])) := by
      unfold DbM.flush
      rw [if_neg (by rw [assigned]; exact fun eq => same (Option.some.inj eq))]
      exact CodeM.runFor_bind_of written rfl
    have live : (w.pend (T := Bypass Table) ⟨t⟩ (.upd [(old, new)])).Live := rest.live.pend _ _
    refine ⟨_, CodeM.runFor_bind_of flushed (runFor_ask trivial (Bypass.exec_commit live)),
      ?_, ?_⟩
    · exact ⟨⟨rfl, rest.live.faults⟩, rfl, rfl⟩
    · rw [committed_pend rest t (.upd [(old, new)]) rfl]
      congr 1
      refine List.map_congr_left fun r _ => ?_
      by_cases here : r = old
      · simp [here]
      · simp [here, beq_eq_false_iff_ne.mpr here]

theorem ends_flush_refused {e : StmtError} (assigned : assign old = .ok new) (differs : new ≠ old)
    (verdict : w.refused (T := Bypass Table) ⟨t⟩ (.upd [(old, new)]) = some e) :
    Ends (do DbM.flush t old assign; DbM.commit) w t none := by
  have viewed : (w.view ⟨t⟩).filter (fun r => t.id r == t.id old) = [old] := by
    rw [rest.view]
    exact found
  have refused : (DbM.update t (fun r => t.id r == t.id old) assign).runFor w =
      (.error (.db e), w.aborted) :=
    runFor_ask_error trivial (Bypass.exec_update_refused rest.live viewed assigned verdict)
  have flushed : (DbM.flush t old assign).runFor w = (.error (.db e), w.aborted) := by
    unfold DbM.flush
    rw [if_neg (by rw [assigned]; exact fun eq => differs (Option.some.inj eq))]
    exact CodeM.runFor_bind_error refused
  exact Ends.raises flushed rfl

theorem ends_flush_invalid {e : StmtError} (assigned : assign old = .error e) :
    Ends (do DbM.flush t old assign; DbM.commit) w t none := by
  have viewed : (w.view ⟨t⟩).filter (fun r => t.id r == t.id old) = [old] := by
    rw [rest.view]
    exact found
  have refused : (DbM.update t (fun r => t.id r == t.id old) assign).runFor w =
      (.error (.db e), w.aborted) :=
    runFor_ask_error trivial (Bypass.exec_update_invalid rest.live viewed assigned)
  have flushed : (DbM.flush t old assign).runFor w = (.error (.db e), w.aborted) := by
    unfold DbM.flush
    rw [if_neg (by rw [assigned]; nofun)]
    exact CodeM.runFor_bind_error refused
  exact Ends.raises flushed rfl

end Resting

end Statements

/-! ### One row, by its program -/

section Rows

variable {w : World (Bypass Table)} (rest : Resting w) {env : Env} {row : Dict}

/-- A household is referenced by a row only where it is there. -/
theorem stored_reference {h : Option Uuid} {w : World (Bypass Table)} (rest : Resting w) :
    (∀ ref ∈ (Table.reference .households h).map fun p => ((⟨p.1⟩ : Bypass Table), p.2),
      w.stored ref = true) ↔ mayBelong (Bypass.rowsOf w.db) h = true := by
  cases h with
  | none => exact ⟨fun _ => rfl, fun _ => nofun⟩
  | some k =>
      have same : w.stored ((⟨.households⟩ : Bypass Table), k) =
          mayBelong (Bypass.rowsOf w.db) (some k) := by
        unfold World.stored
        rw [rest.view]
        rfl
      rw [← same]
      exact List.forall_mem_singleton

/-- Rows whose one unique index is that of their sheet ids. -/
theorem taken_iff {t : Table} (sheetsId : t.Row → Option String)
    (entries_eq : ∀ r, t.entries r = ((sheetsId r).map (.sheetsId t)).toList)
    {w : World (Bypass Table)} (rest : Resting w) (r : t.Row) :
    ((∀ e ∈ gained (T := Bypass Table) ⟨t⟩ (.ins r), w.taken ⟨t⟩ e = false) ∧
      (gained (T := Bypass Table) ⟨t⟩ (.ins r)).Nodup) ↔
      ∀ s, sheetsId r = some s → ∀ r' ∈ w.db ⟨t⟩, sheetsId r' ≠ some s := by
  have gains : gained (T := Bypass Table) ⟨t⟩ (.ins r) =
      ((sheetsId r).map (.sheetsId t)).toList := entries_eq r
  -- the index holds the ids of the other rows
  have holds : ∀ s, w.taken (⟨t⟩ : Bypass Table) (.sheetsId t s) = false ↔
      ∀ r' ∈ w.db ⟨t⟩, sheetsId r' ≠ some s := by
    intro s
    unfold World.taken
    rw [rest.view, List.any_eq_false]
    refine forall₂_congr fun r' _ => ?_
    have own : Schema.entries (⟨t⟩ : Bypass Table) r' =
        ((sheetsId r').map (.sheetsId t)).toList := entries_eq r'
    rw [own]
    cases sheetsId r' with
    | none => simp
    | some s' =>
        constructor
        · intro free same
          cases same
          exact free (decide_eq_true List.mem_cons_self)
        · intro other held
          have same := List.mem_singleton.mp (of_decide_eq_true held)
          cases same
          exact other rfl
  rw [gains]
  cases id : sheetsId r with
  | none => simp
  | some s =>
      have one : ((some s).map (UniqueEntry.sheetsId t)).toList = [.sheetsId t s] := rfl
      rw [one]
      constructor
      · rintro ⟨free, _⟩ s' same
        cases same
        exact (holds s).mp (free _ List.mem_cons_self)
      · intro free
        refine ⟨fun e he => ?_, List.nodup_singleton _⟩
        rw [List.mem_singleton.mp he]
        exact (holds s).mpr (free s rfl)

theorem refused_event {w : World (Bypass Table)} (rest : Resting w) {event : MaintenanceLog}
    (unlinked : event.hardwareId = none) :
    w.refused (⟨.maintenanceLog⟩ : Bypass Table) (.ins event) = none ↔
      (∀ s, event.sheetsId = some s →
        ∀ r ∈ Bypass.rowsOf w.db .maintenanceLog, r.sheetsId ≠ some s) ∧
      mayBelong (Bypass.rowsOf w.db) event.householdId = true := by
  have references : referenced (T := Bypass Table) ⟨.maintenanceLog⟩ (.ins event) =
      (Table.reference .households event.householdId).map fun p => (⟨p.1⟩, p.2) := by
    show (Table.reference .households event.householdId ++
      Table.reference .hardware event.hardwareId).map _ = _
    rw [unlinked]
    exact congrArg _ (List.append_nil _)
  rw [World.refused_eq_none, references, stored_reference rest, ← and_assoc, ← and_assoc,
    and_assoc (a := ∀ r ∈ _, _),
    taken_iff (t := .maintenanceLog) MaintenanceLog.sheetsId (fun _ => rfl) rest]
  refine and_congr_left' (and_iff_right fun r _ => rfl)

/-- A row that keeps its index entries and references is not refused. -/
theorem refused_kept {t : Table} {old new : t.Row} (entries : t.entries new = t.entries old)
    (parents : t.parents new = t.parents old) (w : World (Bypass Table)) :
    w.refused (⟨t⟩ : Bypass Table) (.upd [(old, new)]) = none := by
  have gains : gained (T := Bypass Table) ⟨t⟩ (.upd [(old, new)]) = [] :=
    World.gained_eq_nil fun p hp => by
      rw [List.mem_singleton.mp hp]
      intro e he
      have kept : e ∈ t.entries new := he
      rw [entries] at kept
      exact kept
  have refers : referenced (T := Bypass Table) ⟨t⟩ (.upd [(old, new)]) = [] :=
    World.referenced_eq_nil fun p hp => by
      rw [List.mem_singleton.mp hp]
      intro ref href
      have kept : ref ∈ (t.parents new).map fun p => ((⟨p.1⟩ : Bypass Table), p.2) := href
      rw [parents] at kept
      exact kept
  rw [World.refused_of_nothing_gained w gains refers]
  exact if_pos (List.all_eq_true.mpr fun _ _ => rfl)

theorem refused_fill {w : World (Bypass Table)} (rest : Resting w) (event : MaintenanceLog)
    (h : Option Uuid) (hardware : Option String) :
    w.refused (⟨.maintenanceLog⟩ : Bypass Table)
        (.upd [(event, { event with householdId := h, sheetsHardwareId := hardware })]) = none ↔
      (h = event.householdId ∨ mayBelong (Bypass.rowsOf w.db) h = true) := by
  -- the id stays, so no index can refuse the row: only the new reference to a household may
  have gains : gained (T := Bypass Table) ⟨.maintenanceLog⟩
      (.upd [(event, { event with householdId := h, sheetsHardwareId := hardware })]) = [] :=
    World.gained_eq_nil fun p hp => by
      rw [List.mem_singleton.mp hp]
      exact List.Subset.refl _
  rw [World.refused_eq_none, gains, ← stored_reference rest]
  constructor
  · rintro ⟨_, _, _, stored⟩
    refine or_iff_not_imp_left.mpr fun other ref href => stored ref ?_
    refine List.mem_flatMap.mpr ⟨_, List.mem_cons_self, List.mem_filter.mpr ⟨?_, ?_⟩⟩
    · show ref ∈ (Table.reference .households h ++ _).map _
      rw [List.map_append]
      exact List.mem_append_left _ href
    · refine decide_eq_true fun was => ?_
      obtain ⟨p, hp, rfl⟩ := List.mem_map.mp href
      obtain ⟨q, hq, same⟩ := List.mem_map.mp was
      cases h with
      | none => cases hp
      | some k =>
          rw [List.mem_singleton.mp hp] at same
          -- a reference that was there before would be one of the old household or of the
          -- hardware
          rcases List.mem_append.mp hq with inHouseholds | inHardware
          · cases owner : event.householdId with
            | none =>
                rw [owner] at inHouseholds
                cases inHouseholds
            | some k' =>
                rw [owner] at inHouseholds other
                rw [List.mem_singleton.mp inHouseholds] at same
                cases same
                exact other rfl
          · cases hardwareId : event.hardwareId with
            | none =>
                rw [hardwareId] at inHardware
                cases inHardware
            | some k' =>
                rw [hardwareId] at inHardware
                rw [List.mem_singleton.mp inHardware] at same
                cases same
  · intro allowed
    refine ⟨fun _ _ => rfl, nofun, List.nodup_nil, fun ref href => ?_⟩
    obtain ⟨p, hp, gainedRef⟩ := List.mem_flatMap.mp href
    rw [List.mem_singleton.mp hp] at gainedRef
    obtain ⟨isNew, notOld⟩ := List.mem_filter.mp gainedRef
    have notOld := of_decide_eq_true notOld
    have split : ref ∈ (Table.reference .households h).map (fun p => ((⟨p.1⟩ : Bypass Table), p.2)) ∨
        ref ∈ (Table.reference .hardware event.hardwareId).map
          (fun p => ((⟨p.1⟩ : Bypass Table), p.2)) := by
      rw [← List.mem_append, ← List.map_append]
      exact isNew
    rcases split with inHouseholds | inHardware
    · rcases allowed with same | stored
      · subst same
        refine absurd ?_ notOld
        show ref ∈ (Table.reference .households event.householdId ++ _).map _
        rw [List.map_append]
        exact List.mem_append_left _ inHouseholds
      · exact stored ref inHouseholds
    · refine absurd ?_ notOld
      show ref ∈ (_ ++ Table.reference .hardware event.hardwareId).map _
      rw [List.map_append]
      exact List.mem_append_right _ inHardware

/-- A row found by its key. -/
theorem found_by_id {t : Table} {rows : List t.Row} (keyed : t.Keyed rows) {r : t.Row}
    (hr : r ∈ rows) : rows.filter (fun r' => t.id r' == t.id r) = [r] := by
  refine filter_eq_singleton keyed.of_map hr (beq_self_eq_true _) fun r' hr' same => ?_
  exact List.inj_on_of_nodup_map keyed hr' hr (beq_iff_eq.mp same)

theorem runFor_existing (rest : Resting w) {t : Table} (p : t.Row → Bool) {o : Option t.Row}
    (found : (w.db ⟨t⟩).filter p = o.toList) :
    (do oneOrNone (← select t p) : ReadM (Option t.Row)).runFor w = (.ok o, w) := by
  refine CodeM.runFor_bind_of (runFor_select rest t p) ?_
  rw [found]
  cases o <;> rfl

theorem make_event {h : Option Uuid} {id : Uuid} {event : MaintenanceLog}
    (made : SqlMaintenanceRepo.make env row h id = .ok event) :
    event.householdId = h ∧ event.hardwareId = none := by
  unfold SqlMaintenanceRepo.make at made
  repeat obtain ⟨_, _, made⟩ := bind_eq_ok made
  cases made
  exact ⟨rfl, rfl⟩

theorem ends_inserted_event (rest : Resting w) :
    Ends (do
        let householdId ← rowHouseholdIdOrContext row
        discard (DbM.insert .maintenanceLog (SqlMaintenanceRepo.make env row householdId))
        DbM.commit : DbM Unit) w .maintenanceLog
      ((insertedEvent env row w.nextId (Bypass.rowsOf w.db)).map
        fun event => Bypass.rowsOf w.db .maintenanceLog ++ [event]) := by
  unfold insertedEvent
  cases household : sheetHousehold row with
  | error e =>
      have lifted : (liftM (rowHouseholdIdOrContext row) : DbM _).runFor w = (.error e, w) :=
        runFor_household_error household
      exact Ends.raises lifted rfl
  | ok h =>
      have lifted : (liftM (rowHouseholdIdOrContext row) : DbM _).runFor w = (.ok h, w) :=
        runFor_household rest household
      refine Ends.after lifted ?_
      simp only
      cases made : SqlMaintenanceRepo.make env row h w.nextId with
      | error e => exact ends_insert_invalid rest made
      | ok event =>
          obtain ⟨owner, unlinked⟩ := make_event made
          have verdict := refused_event rest unlinked
          rw [owner] at verdict
          simp only
          by_cases fits : w.refused (⟨.maintenanceLog⟩ : Bypass Table) (.ins event) = none
          · rw [if_pos (verdict.mp fits)]
            exact ends_insert rest made fits
          · rw [if_neg fun allowed => fits (verdict.mpr allowed)]
            obtain ⟨e, refused⟩ := Option.ne_none_iff_exists'.mp fits
            exact ends_insert_refused rest made refused

/-- An entry whose hardware is not known, by its program. -/
theorem ends_filled_event (rest : Resting w)
    (keyed : Table.maintenanceLog.Keyed (w.db ⟨.maintenanceLog⟩)) {event : MaintenanceLog}
    (there : event ∈ Bypass.rowsOf w.db .maintenanceLog) :
    Ends (do
        let householdId ← rowHouseholdIdOrContext row
        DbM.flush .maintenanceLog event fun e => do
          return { e with householdId, sheetsHardwareId := ← asText (row.get "Hardware_ID") }
        DbM.commit : DbM Unit) w .maintenanceLog
      ((filledEvent row (Bypass.rowsOf w.db) event).map
        fun new => exchanged event new (Bypass.rowsOf w.db .maintenanceLog)) := by
  have found := found_by_id keyed there
  unfold filledEvent
  cases household : sheetHousehold row with
  | error e =>
      have lifted : (liftM (rowHouseholdIdOrContext row) : DbM _).runFor w = (.error e, w) :=
        runFor_household_error household
      exact Ends.raises lifted rfl
  | ok h =>
      have lifted : (liftM (rowHouseholdIdOrContext row) : DbM _).runFor w = (.ok h, w) :=
        runFor_household rest household
      refine Ends.after lifted ?_
      cases asText (row.get "Hardware_ID") with
      | error e => exact ends_flush_invalid rest found rfl
      | ok hardware =>
          have verdict := refused_fill rest event h hardware
          simp only
          by_cases fits : w.refused (⟨.maintenanceLog⟩ : Bypass Table)
              (.upd [(event, { event with householdId := h, sheetsHardwareId := hardware })]) = none
          · rw [if_pos (verdict.mp fits)]
            exact ends_flush rest found rfl fits
          · rw [if_neg fun allowed => fits (verdict.mpr allowed)]
            obtain ⟨e, refused⟩ := Option.ne_none_iff_exists'.mp fits
            refine ends_flush_refused rest found rfl (fun same => ?_) refused
            have owner : h = event.householdId := congrArg MaintenanceLog.householdId same
            exact fits (verdict.mpr (.inl owner))

variable (env row) in
/-- A row of the maintenance sheet, by its program. -/
theorem runFor_upsert (rest : Resting w)
    (keyed : Table.maintenanceLog.Keyed (w.db ⟨.maintenanceLog⟩)) :
    Ends (SqlMaintenanceRepo.upsert env row) w .maintenanceLog
      (upsertEvent env row w.nextId (Bypass.rowsOf w.db)) := by
  unfold SqlMaintenanceRepo.upsert upsertEvent eventsOf
  by_cases named : (row.get "Maintenance_ID").truthy = true
  · simp only [named, if_true]
    have selected : (liftM (select .maintenanceLog fun r =>
        equals r.sheetsId (row.get "Maintenance_ID")) : DbM _).runFor w = (.ok _, w) :=
      runFor_select rest .maintenanceLog _
    refine Ends.after selected ?_
    have mine : (w.db ⟨.maintenanceLog⟩).filter (fun r : MaintenanceLog =>
        equals r.sheetsId (row.get "Maintenance_ID")) =
      (Bypass.rowsOf w.db .maintenanceLog).filter fun r : MaintenanceLog =>
        equals r.sheetsId (row.get "Maintenance_ID") := rfl
    rw [mine]
    generalize hfound : ((Bypass.rowsOf w.db .maintenanceLog).filter fun r : MaintenanceLog =>
      equals r.sheetsId (row.get "Maintenance_ID")) = events
    match events, hfound with
    | [], _ => exact Ends.after rfl (ends_inserted_event rest)
    | [event], hfound =>
        refine Ends.after rfl ?_
        simp only
        have there : event ∈ Bypass.rowsOf w.db .maintenanceLog :=
          (List.mem_filter.mp (hfound ▸ List.mem_cons_self)).1
        by_cases gap : event.sheetsHardwareId.isNone = true
        · rw [if_pos gap, if_pos gap]
          exact ends_filled_event rest keyed there
        · rw [if_neg gap, if_neg gap]
          exact Ends.still rest
    | _ :: _ :: _, _ => exact Ends.raises rfl rfl
  · simp only [named, if_false, Bool.false_eq_true]
    exact Ends.after rfl (ends_inserted_event rest)

/-- A text that is not empty, in a column. -/
theorem text_of_truthy {v : Val} {o : Option String} (truthy : v.truthy = true)
    (text : asText v = .ok o) : ∃ s, v = .str s ∧ o = some s := by
  cases v with
  | str s => exact ⟨s, rfl, asText_eq_ok rfl text⟩
  | none => cases truthy
  | _ => cases text

/-- A bag with an id that no bag has yet is refused for its household only. -/
theorem refused_bag (rest : Resting w) (named : (row.get "Bag_ID").truthy = true)
    (absent : bagsOf row (Bypass.rowsOf w.db .inventoryBags) = []) {h : Option Uuid} {id : Uuid}
    {bag : InventoryBag} (made : SqlInventoryRepo.make row h id = .ok bag) :
    w.refused (⟨.inventoryBags⟩ : Bypass Table) (.ins bag) = none ↔
      mayBelong (Bypass.rowsOf w.db) h = true := by
  obtain ⟨_, text, owner, parents⟩ := SqlInventoryRepo.make_eq_ok made
  have references : referenced (T := Bypass Table) ⟨.inventoryBags⟩ (.ins bag) =
      (Table.reference .households h).map fun p => (⟨p.1⟩, p.2) := by
    show (Table.parents .inventoryBags bag).map _ = _
    rw [parents]
    rfl
  have free : ∀ s, bag.sheetsId = some s →
      ∀ r ∈ w.db (⟨.inventoryBags⟩ : Bypass Table), InventoryBag.sheetsId r ≠ some s := by
    intro s own r hr same
    obtain ⟨s', value, stored⟩ := text_of_truthy named text
    rw [own] at stored
    cases stored
    refine List.filter_eq_nil_iff.mp absent r hr ?_
    rw [value, same]
    exact beq_self_eq_true _
  have rows := (taken_iff (t := .inventoryBags) InventoryBag.sheetsId (fun _ => rfl) rest bag).mpr free
  rw [World.refused_eq_none, references, stored_reference rest]
  exact ⟨fun all => all.2.2.2, fun stored => ⟨fun _ _ => rfl, rows.1, rows.2, stored⟩⟩

theorem ends_inserted_bag (rest : Resting w) (named : (row.get "Bag_ID").truthy = true)
    (absent : bagsOf row (Bypass.rowsOf w.db .inventoryBags) = []) :
    Ends (SqlInventoryRepo.upsert row) w .inventoryBags
      ((insertedBag row w.nextId (Bypass.rowsOf w.db)).map
        fun bag => Bypass.rowsOf w.db .inventoryBags ++ [bag]) := by
  unfold SqlInventoryRepo.upsert SheetsEntity.upsert insertedBag
  cases household : sheetHousehold row with
  | error e =>
      have lifted : (liftM (rowHouseholdIdOrContext row) : DbM _).runFor w = (.error e, w) :=
        runFor_household_error household
      exact Ends.raises lifted rfl
  | ok h =>
      have lifted : (liftM (rowHouseholdIdOrContext row) : DbM _).runFor w = (.ok h, w) :=
        runFor_household rest household
      refine Ends.after lifted ?_
      have nothing : (liftM (SqlInventoryRepo.entity.existing row) : DbM _).runFor w =
          (.ok none, w) := by
        have looked := runFor_existing rest (t := .inventoryBags) (o := none)
          (fun r => equals r.sheetsId (row.get "Bag_ID")) absent
        have whole : SqlInventoryRepo.entity.existing row = (do
            oneOrNone (← select .inventoryBags fun r => equals r.sheetsId (row.get "Bag_ID"))) :=
          if_pos named
        rw [whole]
        exact looked
      refine Ends.after nothing ?_
      simp only
      cases made : SqlInventoryRepo.make row h w.nextId with
      | error e => exact ends_insert_invalid rest made
      | ok bag =>
          have verdict := refused_bag rest named absent made
          simp only
          by_cases fits : w.refused (⟨.inventoryBags⟩ : Bypass Table) (.ins bag) = none
          · rw [if_pos (verdict.mp fits)]
            exact ends_insert rest made fits
          · rw [if_neg fun allowed => fits (verdict.mpr allowed)]
            obtain ⟨e, refused⟩ := Option.ne_none_iff_exists'.mp fits
            exact ends_insert_refused rest made refused

variable (row) in
/-- A row of the inventory sheet, by its program. -/
theorem runFor_backfillBag (rest : Resting w)
    (keyed : Table.inventoryBags.Keyed (w.db ⟨.inventoryBags⟩)) :
    Ends (backfillBag row) w .inventoryBags (fillBag row w.nextId (Bypass.rowsOf w.db)) := by
  unfold backfillBag fillBag
  by_cases named : (row.get "Bag_ID").truthy = true
  · simp only [named, Bool.not_true, Bool.false_eq_true, if_false, if_true]
    have selected : (liftM (select .inventoryBags fun r =>
        equals r.sheetsId (row.get "Bag_ID")) : DbM _).runFor w =
          (.ok (bagsOf row (Bypass.rowsOf w.db .inventoryBags)), w) :=
      runFor_select rest .inventoryBags _
    refine Ends.after selected ?_
    generalize hfound : bagsOf row (Bypass.rowsOf w.db .inventoryBags) = bags
    match bags, hfound with
    | [], absent => exact Ends.after rfl (ends_inserted_bag rest named absent)
    | [bag], hfound =>
        refine Ends.after rfl ?_
        simp only
        have there : bag ∈ Bypass.rowsOf w.db .inventoryBags :=
          (List.mem_filter.mp (hfound ▸ List.mem_cons_self : bag ∈ bagsOf row _)).1
        have found := found_by_id keyed there
        by_cases gap : bag.sheetsCatalogId.isNone = true
        · rw [if_pos gap, if_pos gap]
          cases asText (row.get "Catalog_ID") with
          | error e => exact ends_flush_invalid rest found rfl
          | ok catalog => exact ends_flush rest found rfl (refused_kept rfl rfl w)
        · rw [if_neg gap, if_neg gap]
          exact Ends.still rest
    | _ :: _ :: _, _ => exact Ends.raises rfl rfl
  · simp only [named, Bool.not_false, if_true, Bool.false_eq_true, if_false]
    exact Ends.still rest

end Rows

end EspressoLogs
