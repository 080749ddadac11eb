import EspressoLogs.Db
import EspressoLogs.Lib.Fallible

/-!
What the repositories of the tenant tables share: the household of a row, the
values of columns, the flush of a changed row, and the upsert by sheet id.
-/

namespace EspressoLogs

open Lib Py

/-! ### The household of a row -/

/-- `parse_uuid`. -/
def parseUuid (v : Val) : Except Exc (Option Uuid) :=
  if v.isBlank then .ok none
  else match v with
    | .uuid u => .ok (some u)
    | v => match Uuid.ofString v.pyStr with
      | some u => .ok (some u)
      | none => .error .valueError

/-- What was worked out without the database. -/
def liftExcept {P : Statement → Prop} {α : Type} : Except Exc α → CodeM P α
  | .ok a => pure a
  | .error e => throw e

/-- `current_household_id`. -/
def currentHouseholdId : ReadM (Option Uuid) := currentSetting

/-- `row_household_id_or_context`. -/
def rowHouseholdIdOrContext (row : Dict) : ReadM (Option Uuid) := do
  match ← liftExcept (parseUuid ((row.get "household_id").or (row.get "Household_ID"))) with
  | some h => pure (some h)
  | none => currentHouseholdId

/-! ### Columns -/

/-- A value for a `TEXT` column. -/
def asText : Val → Except StmtError (Option String)
  | .none => .ok none
  | .str s => if s.toList.contains '\x00' then .error .data else .ok (some s)
  | _ => .error .data

/-- A value for a `NOT NULL` column. -/
def notNull {α : Type} : Option α → Except StmtError α
  | some a => .ok a
  | none => .error .integrity

/-- The text of a column that is null or not, `row.column or ""`. -/
def textOr (s : Option String) : Val := .str (s.getD "")

/-- `column == v` in a `WHERE`; a null column never matches. -/
def equals (column : Option String) (v : Val) : Bool :=
  match column, v with
  | some s, .str t => s == t
  | _, _ => false

/-! ### Flushing -/

namespace DbM

/-- The flush of an object read from the table: nothing is sent when no column
has changed, and an `UPDATE` that finds no row is an error. -/
def flush (t : Table) (old : t.Row) (assign : t.Row → Except StmtError t.Row) : DbM Unit := do
  if (assign old).toOption = some old then
    return
  let written ← DbM.update t (fun r => t.id r == t.id old) assign
  if written.isEmpty then
    throw .staleData

end DbM

/-! ### Upserts -/

/-- A tenant table whose rows are upserted by the id they have in their sheet:
the key of that id in a row dictionary, its column, the columns that an upsert
assigns and the row that it inserts. -/
structure SheetsEntity (t : Table) where
  idField : String
  sheetsId : t.Row → Option String
  assign : Dict → Option Uuid → t.Row → Except StmtError t.Row
  make : Dict → Option Uuid → Uuid → Except StmtError t.Row
  tenantScoped : t.tenantScoped = true
  entries_eq : ∀ r, t.entries r = ((sheetsId r).map (.sheetsId t)).toList
  assign_eq_ok : ∀ row h r r', assign row h r = .ok r' →
    t.id r' = t.id r ∧ sheetsId r' = sheetsId r ∧ t.householdId r' = h ∧
      (t.householdId r = h → t.parents r' = t.parents r)
  make_eq_ok : ∀ row h id r, make row h id = .ok r →
    t.id r = id ∧ asText (row.get idField) = .ok (sheetsId r) ∧ t.householdId r = h ∧
      t.parents r = Table.reference .households h
  make_total : ∀ row h id r, make row h id = .ok r → ∀ id₂, ∃ r₂, make row h id₂ = .ok r₂

/-- The row that an upsert finds, none when the dictionary has no id. -/
def SheetsEntity.existing {t : Table} (e : SheetsEntity t) (row : Dict) : ReadM (Option t.Row) :=
  if (row.get e.idField).truthy then do
    oneOrNone (← select t fun r => equals (e.sheetsId r) (row.get e.idField))
  else pure none

/-- `upsert` of the catalog, inventory and hardware repositories. -/
def SheetsEntity.upsert {t : Table} (e : SheetsEntity t) (row : Dict) : DbM Unit := do
  let householdId ← rowHouseholdIdOrContext row
  match ← e.existing row with
  | some r => DbM.flush t r (e.assign row householdId)
  | none => discard (DbM.insert t (e.make row householdId))
  DbM.commit

theorem asText_eq_ok {v : Val} {a : Option String} {s : String} (here : v = .str s)
    (eq : asText v = .ok a) : a = some s := by
  subst here
  rw [asText] at eq
  split at eq
  · cases eq
  · exact (Except.ok.inj eq).symm

/-! ### Dates -/

/-- `_to_date` of the inventory repository. -/
def toDate (v : Val) : Option Date := if v.isBlank then none else Date.fromIsoformat v.pyStr

/-- `_parse_datetime`: the midnight of a date, or what the library makes of a
text with more in it. -/
def parseDatetime (env : Env) (v : Val) : Option Timestamp :=
  if v.isBlank then none
  else match Date.fromIsoformat v.pyStr with
    | some d => some (.midnight d)
    | none => env.parseDatetime v.pyStr

end EspressoLogs
