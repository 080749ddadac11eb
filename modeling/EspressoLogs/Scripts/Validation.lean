import EspressoLogs.Lib.Ordered
import EspressoLogs.Scripts.Migration
import Mathlib.Data.List.Sort

/-!
`validate_migration.py`: the rows of the sheets against the rows that are stored.

The script maps the sheets again and compares, row by row, checksums of what the columns
are written as.
-/

namespace EspressoLogs.Migration

open Lib Py Schema

variable {bound : Bool}

/-! ### Checksums -/

/-- The columns that no checksum covers. -/
def checksumExclude : List String := ["id", "household_id", "sheets_id", "created_at"]

/-- What a value is written as. -/
def Cell.rendered : Cell → String
  | .null => "NULL"
  | .text s => s
  | .float x => x.fixed
  | .decimal x => x.fixed
  | .int i => toString i
  | .date d => d.isoformat
  | .instant t => t.isoformat
  | .uuid u => u.text

/-- The columns of a row that a checksum covers. -/
def covered (row : Mapped) : List String :=
  (row.map Prod.fst).filter fun c => !checksumExclude.contains c

/-- What is joined for a checksum, in the order of the columns' names. -/
def checksumParts (row : Mapped) : List String :=
  ((covered row).insertionSort (· ≤ ·)).map fun c => (row.get c).rendered

def checksumText (row : Mapped) : String := "|".intercalate (checksumParts row)

/-- `row_checksum`. -/
def rowChecksum (py : Python) (row : Mapped) : String := py.sha256Hex (checksumText row)

/-! ### The script -/

/-- The rows of a sheet by their ids, and what could not be counted in. -/
structure Tally where
  rows : Ordered String Mapped
  mappingErrors : Nat
  duplicates : Nat

def Tally.add (mapper : Dict → Except MappingError Mapped) (t : Tally) (row : Dict) : Tally :=
  match mapper row with
  | .error _ => { t with mappingErrors := t.mappingErrors + 1 }
  | .ok m =>
      if sheetsIdOf m = "" then t
      else if (t.rows.get (sheetsIdOf m)).isSome then { t with duplicates := t.duplicates + 1 }
      else { t with rows := t.rows.set (sheetsIdOf m) m }

def tally (mapper : Dict → Except MappingError Mapped) (sheet : List Dict) : Tally :=
  sheet.foldl (Tally.add mapper) ⟨.empty, 0, 0⟩

/-- The rows of a table by the ids of the sheet. -/
def Entity.stored (e : Entity) (rows : List e.table.Row) : Ordered String Mapped :=
  .ofList (rows.filterMap fun r => (e.sheetsId r).map (·, e.columns r))

/-- A stored row, with no more columns than the mapper of the sheet sets. -/
def restricted (sheetsRow pgRow : Mapped) : Mapped :=
  (covered sheetsRow).filterMap fun c => (pgRow.lookup c).map (c, ·)

/-- A row of the sheet is stored, with the same checksum. -/
def agrees (py : Python) (pgRows : Ordered String Mapped) (sheetsRow : String × Mapped) : Bool :=
  match pgRows.get sheetsRow.1 with
  | some pgRow => rowChecksum py sheetsRow.2 == rowChecksum py (restricted sheetsRow.2 pgRow)
  | none => false

/-- What is reported of an entity. -/
structure Check where
  entity : Entity
  sheetsCount : Nat
  pgCount : Nat
  checksumErrors : Nat
  mappingErrors : Nat
  duplicates : Nat
  deriving DecidableEq, Repr

def Check.passed (c : Check) : Bool :=
  c.sheetsCount == c.pgCount && c.checksumErrors == 0 && c.mappingErrors == 0 && c.duplicates == 0

def check (py : Python) (ids : Entity.Lookups) (e : Entity) (sheet : List Dict)
    (rows : List e.table.Row) : Check :=
  let sheets := tally (e.map py nullUuid ids) sheet
  let pgRows := e.stored rows
  { entity := e, sheetsCount := sheets.rows.entries.length, pgCount := pgRows.entries.length,
    checksumErrors := sheets.rows.entries.countP fun row => !agrees py pgRows row,
    mappingErrors := sheets.mappingErrors, duplicates := sheets.duplicates }

/-- The rows of an entity that have an id of the sheet. -/
def storedRows (e : Entity) : ScriptM bound (List e.table.Row) :=
  ScriptM.select e.table fun r => (e.sheetsId r).isSome

variable (py : Python) (book : Workbook)

def validateAll (ids : Entity.Lookups) : List Entity → ScriptM bound (List Check)
  | [] => return []
  | e :: rest => do
      let sheet ← ofExcept (book e)
      let rows ← ScriptM.connection (storedRows e)
      return check py ids e sheet rows :: (← validateAll ids rest)

/-- The row ids that the mappers look up. -/
def readIds : ScriptM bound Entity.Lookups := do
  let catalog ← storedRows .catalog
  let hardware ← storedRows .hardware
  return fun
    | .catalog => Entity.idsBy .catalog catalog
    | .hardware => Entity.idsBy .hardware hardware
    | _ => []

/-- `main` of the script: what is reported of each entity. -/
def validate : ScriptM bound (List Check) := do
  let ids ← ScriptM.connection readIds
  validateAll py book ids Entity.all

/-- "VALIDATION PASSED". -/
def passed (checks : List Check) : Bool := checks.all Check.passed

end EspressoLogs.Migration
