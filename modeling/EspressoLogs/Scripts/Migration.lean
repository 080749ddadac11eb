import EspressoLogs.Lib.Script
import EspressoLogs.Scripts.Mapping
import Mathlib.Data.List.Dedup

/-!
`migrate_sheets_to_postgres.py` and `_seed.py`: the rows of the sheets are upserted.

Each sheet is upserted by one statement in a transaction of its own. A sheet that fails is
counted and the next one is read; whatever fails elsewhere ends the script. The entities
whose rows are referred to are looked up after they were upserted.

The script runs for a role that row-level security binds, or for one that bypasses it.
-/

namespace EspressoLogs.Migration

open Lib Py

variable {bound : Bool} {α β : Type}

/-! ### Statements -/

/-- What is stored, and the session of a script that uses it. -/
abbrev Connection (bound : Bool) := World (Reach Table bound)

abbrev ScriptM (bound : Bool) (α : Type) := Script (Reach Table bound) String Exc α

namespace ScriptM

def perform (c : Command (Reach Table bound) String) : ScriptM bound c.Answer := Script.perform .db c

def setHousehold (h : Uuid) : ScriptM bound Unit := discard (perform (.plain (.setConfig h)))

def select (t : Table) (p : t.Row → Bool) : ScriptM bound (List t.Row) :=
  perform (.plain (.select ⟨t⟩ p))

def insert (t : Table) (make : Uuid → t.Row) : ScriptM bound t.Row :=
  perform (.plain (.insert ⟨t⟩ fun id => .ok (make id)))

def insertUnless (t : Table) (conflicting : t.Row → Bool) (make : Uuid → t.Row) :
    ScriptM bound (Option t.Row) :=
  perform (.insertUnless ⟨t⟩ conflicting fun id => .ok (make id))

def upsert (e : Entity) (ps : List (Proposal String (⟨e.table⟩ : Reach Table bound))) :
    ScriptM bound Unit :=
  perform (.upsert ⟨e.table⟩ e.sheetsId ps)

def transaction (body : ScriptM bound α) : ScriptM bound α := Script.transaction .db body

def connection (body : ScriptM bound α) : ScriptM bound α := Script.connection .db body

end ScriptM

open ScriptM

/-! ### The seed -/

def systemUsername : String := "__migration_system__"

def systemUser (id : Uuid) : User where
  id := id
  username := some systemUsername
  googleSub := none
  email := none
  displayName := "Migration System"
  pictureUrl := none
  passwordHash := none
  activeHouseholdId := none

def isSystem (u : User) : Bool := u.username == some systemUsername

/-- The statements of `ensure_system_user`. -/
def findSystemUser : ScriptM bound Uuid := do
  match ← ScriptM.insertUnless .users isSystem systemUser with
  | some (user : User) => return user.id
  | none =>
      let users : List User ← ScriptM.select .users isSystem
      match users.head? with
      | some user => return user.id
      | none => throw .runtimeError

def ensureSystemUser : ScriptM bound Uuid := transaction findSystemUser

def defaultHousehold (now : Timestamp) (createdBy id : Uuid) : Household where
  id := id
  name := "default"
  createdAt := now
  createdBy := createdBy
  isGuestAccessible := false
  deletedAt := none

def isDefault (h : Household) : Bool := h.name == "default"

/-- The statements of `ensure_default_household`. The name is not unique, and the `SELECT`
has `LIMIT 1` and no `ORDER BY`: of several households of the name the one stored first is
taken here, in every run. Where there is one at most, the database has no other choice. -/
def findDefaultHousehold (py : Python) (systemUserId : Uuid) : ScriptM bound Uuid := do
  let households : List Household ← ScriptM.select .households isDefault
  match households.head? with
  | some household => return household.id
  | none =>
      let household : Household ← ScriptM.insert .households (defaultHousehold py.now systemUserId)
      return household.id

def ensureDefaultHousehold (py : Python) (systemUserId : Uuid) : ScriptM bound Uuid :=
  transaction (findDefaultHousehold py systemUserId)

/-! ### The upsert -/

/-- The household that a mapped row names. -/
def householdOf (m : Mapped) : Option Uuid :=
  match m.get "household_id" with
  | .uuid h => some h
  | _ => none

/-- `_single_household_id`. -/
def singleHouseholdId (rows : List Mapped) : Except Exc (Option Uuid) :=
  match (rows.filterMap householdOf).dedup with
  | [] => .ok none
  | [h] => .ok (some h)
  | _ => .error .valueError

/-- The id that a mapped row has in its sheet. -/
def sheetsIdOf (m : Mapped) : String :=
  match m.get "sheets_id" with
  | .text s => s
  | _ => ""

/-- A mapped row as it is proposed to the table. -/
def Entity.proposal (e : Entity) (m : Mapped) :
    Proposal String (⟨e.table⟩ : Reach Table bound) where
  value := sheetsIdOf m
  make id := e.assign m (e.blank id)
  set := e.assign m

/-- `bulk_upsert`: how many rows were processed. -/
def bulkUpsert (e : Entity) (rows : List Mapped) : ScriptM bound Nat := do
  if rows.isEmpty then
    return 0
  let householdId ← ofExcept (singleHouseholdId rows)
  transaction do
    match householdId with
    | some h => setHousehold h
    | none => pure ()
    upsert e (rows.map e.proposal)
  return rows.length

/-! ### The script -/

structure Args where
  entities : List String
  dryRun : Bool

def Args.selects (args : Args) (e : Entity) : Bool := args.entities.isEmpty || args.entities.contains e.name

/-- The rows of the sheets, unless they cannot be read. -/
abbrev Workbook := Entity → Except Exc (List Dict)

/-- What is reported of an entity. -/
structure Outcome where
  entity : Entity
  mapped : Nat
  upserted : Nat
  errors : Nat
  deriving DecidableEq, Repr

/-- The rows that can be mapped. -/
def mappedRows (mapper : Dict → Except MappingError Mapped) (rows : List Dict) : List Mapped :=
  rows.filterMap fun row => (mapper row).toOption

/-- How many rows cannot. -/
def skipped (mapper : Dict → Except MappingError Mapped) (rows : List Dict) : Nat :=
  rows.countP fun row => (mapper row).toOption.isNone

/-- Upserts the rows of an entity: what fails is one error more. -/
def upsertRows (e : Entity) (mapped : List Mapped) (errors : Nat) :
    ScriptM bound (List Outcome) :=
  tryCatch (do
    let upserted ← bulkUpsert e mapped
    return [⟨e, mapped.length, upserted, errors⟩]) fun _ =>
      return [⟨e, mapped.length, 0, errors + 1⟩]

variable (py : Python) (args : Args) (book : Workbook) (householdId : Uuid)

/-- One entity: its rows are mapped, and upserted. -/
def migrate (ids : Entity.Lookups) (e : Entity) : ScriptM bound (List Outcome) := do
  if args.selects e then
    let rows ← ofExcept (book e)
    let mapper := e.map py householdId ids
    let mapped := mappedRows mapper rows
    let errors := skipped mapper rows
    if args.dryRun then
      return [⟨e, mapped.length, 0, errors⟩]
    upsertRows e mapped errors
  else
    return []

/-- The row ids by the ids of the sheet; a row that comes later counts. -/
def Entity.idsBy (e : Entity) (rows : List e.table.Row) : List (String × Uuid) :=
  (rows.filterMap fun r => (e.sheetsId r).map (·, e.table.id r)).reverse

def lookupIds (dryRun : Bool) (e : Entity) : ScriptM bound (List (String × Uuid)) :=
  transaction do
    unless dryRun do
      setHousehold householdId
    let rows ← ScriptM.select e.table fun r => (e.sheetsId r).isSome
    return e.idsBy rows

/-- The entities whose rows others refer to. -/
def Entity.isReferred : Entity → Bool
  | catalog | hardware => true
  | _ => false

/-- The lookups, with the rows of the entity that was just upserted. -/
def lookupAfter (ids : Entity.Lookups) (e : Entity) : ScriptM bound Entity.Lookups :=
  if e.isReferred then do
    let found ← lookupIds householdId args.dryRun e
    return Function.update ids e found
  else
    return ids

/-- One entity after the other. -/
def migrateAll (ids : Entity.Lookups) : List Entity → ScriptM bound (List Outcome)
  | [] => return []
  | e :: rest => do
      let outcome ← migrate py args book householdId ids e
      let ids ← lookupAfter args householdId ids e
      return outcome ++ (← migrateAll ids rest)

/-- The order of the script. -/
def Entity.all : List Entity := [catalog, inventory, hardware, maintenance, brewLog]

def nullUuid : Uuid := ⟨0⟩

/-- The household that the rows are migrated to. -/
def seed (dryRun : Bool) : ScriptM bound Uuid :=
  if dryRun then return nullUuid
  else do ensureDefaultHousehold py (← ensureSystemUser)

/-- `main`: what is reported of each entity. -/
def main : ScriptM bound (List Outcome) := do
  let householdId ← seed py args.dryRun
  migrateAll py args book householdId (fun _ => []) Entity.all

/-- "MIGRATION COMPLETE". -/
def complete (outcomes : List Outcome) : Bool := outcomes.all fun o => o.errors == 0

end EspressoLogs.Migration
