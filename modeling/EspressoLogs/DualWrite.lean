import EspressoLogs.Repos.BrewLog
import EspressoLogs.Repos.Catalog
import EspressoLogs.Repos.Hardware
import EspressoLogs.Repos.Inventory
import EspressoLogs.Repos.Maintenance

/-!
The dual-write wrappers in Postgres mode.

Every write goes to the SQL repository; when it raises, the session is rolled
back and the exception goes on. A batch is written row by row. The reads of the
wrappers are those of the SQL repositories and are used under their names;
`DualWriteHardwareRepo.next_id` is `HardwareRepo.nextId` over the sheet archive.
-/

namespace EspressoLogs

open Lib Py

/-- `except Exception: await sql._db.rollback(); raise`. -/
def orRollback {α : Type} (p : DbM α) : DbM α :=
  tryCatch p fun e => do
    DbM.rollback
    throw e

namespace DualWriteCatalogRepo

/-- `upsert` of a bean. -/
def upsert (row : Dict) : DbM Unit := orRollback (SqlCatalogRepo.upsert row)

/-- `add_many`; a failure leaves the beans before it as they were written. -/
def addMany (rows : List Dict) : DbM Unit := rows.forM upsert

end DualWriteCatalogRepo

namespace DualWriteInventoryRepo

/-- `upsert` of a bag. -/
def upsert (row : Dict) : DbM Unit := orRollback (SqlInventoryRepo.upsert row)

def addMany (rows : List Dict) : DbM Unit := rows.forM upsert

end DualWriteInventoryRepo

namespace DualWriteHardwareRepo

/-- `upsert` of hardware. -/
def upsert (row : Dict) : DbM Unit := orRollback (SqlHardwareRepo.upsert row)

def addMany (rows : List Dict) : DbM Unit := rows.forM upsert

end DualWriteHardwareRepo

namespace DualWriteMaintenanceRepo

/-- `add` of a maintenance event. -/
def add (env : Env) (row : Dict) : DbM Unit := orRollback (SqlMaintenanceRepo.add env row)

def addMany (env : Env) (rows : List Dict) : DbM Unit := rows.forM (add env)

end DualWriteMaintenanceRepo

namespace DualWriteBrewLogRepo

/-- `add` of a shot; without commit the row is flushed only. -/
def add (env : Env) (row : Dict) (commit : Bool) : DbM Unit :=
  orRollback (SqlBrewLogRepo.add env row commit)

def addMany (env : Env) (rows : List Dict) : DbM Unit := rows.forM fun row => add env row true

/-- `update_feedback`, which commits. -/
def updateFeedback (shotId aiFeedback : String) : DbM Unit :=
  orRollback (SqlBrewLogRepo.updateFeedback shotId aiFeedback)

/-- `update_correction`, which commits when a column is given; none when there is no
such shot. -/
def updateCorrection (shotId : String) (fields : Dict) : DbM (Option Dict) :=
  orRollback (SqlBrewLogRepo.updateCorrection shotId fields)

end DualWriteBrewLogRepo

end EspressoLogs
