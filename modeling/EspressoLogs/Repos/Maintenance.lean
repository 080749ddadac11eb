import EspressoLogs.Repos.Tenant

/-! `SqlMaintenanceRepo`. -/

namespace EspressoLogs.SqlMaintenanceRepo

open Lib Py

/-- The row that `add` and `upsert` insert. -/
def make (env : Env) (row : Dict) (householdId : Option Uuid) (id : Uuid) :
    Except StmtError MaintenanceLog := do
  return {
    id, householdId
    hardwareId := none
    sheetsId := ← asText (row.get "Maintenance_ID")
    sheetsHardwareId := ← asText (row.get "Hardware_ID")
    -- a missing `performed_at` is left to the server default
    performedAt := (parseDatetime env (row.get "Date")).getD env.now
    action := ← notNull (← asText (row.getD "Action_Type" (.str "")))
    notes := ← asText (row.get "Notes") }

/-- `upsert`: an event that is there is only given the id of its hardware, where it has
none, and then the household of the row or of the context with it. -/
def upsert (env : Env) (row : Dict) : DbM Unit := do
  let sheetsId := row.get "Maintenance_ID"
  let existing ← if sheetsId.truthy then
      oneOrNone (← select .maintenanceLog fun r => equals r.sheetsId sheetsId)
    else pure none
  match existing with
  | some event =>
      if event.sheetsHardwareId.isNone then
        let householdId ← rowHouseholdIdOrContext row
        DbM.flush .maintenanceLog event fun e => do
          return { e with householdId, sheetsHardwareId := ← asText (row.get "Hardware_ID") }
        DbM.commit
  | none =>
      let householdId ← rowHouseholdIdOrContext row
      discard (DbM.insert .maintenanceLog (make env row householdId))
      DbM.commit

/-- `add`, which commits before it refreshes. -/
def add (env : Env) (row : Dict) : DbM Unit := do
  let householdId ← rowHouseholdIdOrContext row
  let event ← DbM.insert .maintenanceLog (make env row householdId)
  DbM.commit
  discard (refresh .maintenanceLog event)

/-- `_to_dict`. -/
def toDict (row : MaintenanceLog) (hardwareSheetsId : Option String) : Dict :=
  [("Maintenance_ID", textOr row.sheetsId),
   ("Hardware_ID", (ofOption hardwareSheetsId).or ((ofOption row.sheetsHardwareId).or (.str ""))),
   ("Date", .str row.performedAt.date.isoformat),
   ("Action_Type", .str row.action),
   ("Notes", textOr row.notes)]

/-- `list`: of one piece of hardware if one is given. The order of the rows is left out.
-/
def list (hardwareId : Option String) : ReadM (List Dict) := do
  let rows ← leftJoin .maintenanceLog .hardware (fun log item => log.hardwareId == some item.id)
    fun _ => true
  let rows := rows.filter fun r => match hardwareId with
    | some h => r.1.sheetsHardwareId == some h || (r.2.bind Hardware.sheetsId) == some h
    | none => true
  return rows.map fun r => toDict r.1 (r.2.bind Hardware.sheetsId)

end EspressoLogs.SqlMaintenanceRepo
