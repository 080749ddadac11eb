import EspressoLogs.Lib.Upsert
import EspressoLogs.Scripts.Reconcile

/-!
`_mapping.py`: what the migration makes of the rows of the sheets.

A mapper makes a dictionary of columns of a row of a sheet, or says what is wrong with it.
A `Sheet` is a sheet with its table: how a mapped row is assigned to a row of the table,
and the columns that are read back.
-/

namespace EspressoLogs.Migration

open Lib Py

/-- What the scripts use of the world outside the database. -/
structure Python extends Env where
  /-- `s.lower()`. -/
  strLower : String → String
  /-- `datetime.fromisoformat(s).replace(tzinfo=utc)` of a text that is more than a date. -/
  replaceUtc : String → Option Timestamp

/-! ### Values -/

/-- A value of a mapped row, or of a column that was read. -/
inductive Cell where
  | null
  | text (s : String)
  | float (x : Rounded)
  | decimal (x : Tenths)
  | int (i : Int)
  | date (d : Date)
  | instant (t : Timestamp)
  | uuid (u : Uuid)
  deriving DecidableEq, Repr

/-- A row as a dictionary of columns. -/
abbrev Mapped := List (String × Cell)

namespace Mapped

def get (m : Mapped) (column : String) : Cell := (m.lookup column).getD .null

theorem get_cons (name column : String) (c : Cell) (m : Mapped) :
    get ((name, c) :: m) column = if column = name then c else m.get column := by
  unfold get
  rw [List.lookup_cons]
  by_cases here : column = name
  · simp [here]
  · simp [here, beq_eq_false_iff_ne.mpr here]

end Mapped

/-- Why a row is skipped. -/
inductive MappingError where
  | required (message : String)
  | notIn (field value : String) (allowed : List String)
  | notFloat (field value : String)
  | notInt (field value : String)
  | notIso (value : String)
  deriving DecidableEq, Repr

/-! ### Enum sets -/

def roastLevelEnum : List String := ["Light", "Light / Medium", "Medium", "Medium / Dark", "Dark"]

def inventoryStatusEnum : List String := ["Active", "Finished"]

def storageMethodEnum : List String :=
  ["Freezer", "Fridge", "Pantry", "Airtight Container", "Valve Bag", "Open Bag", "Mylar Bag",
    "Frozen — Bag", "Frozen — Glass Tube", "Frozen — Plastic Tube", "Ambient — Glass Tube",
    "Ambient — Plastic Tube", "Frozen — Knodos Glass Tube", "Ambient — Bag",
    "Ambient — Airtight Container"]

def hardwareCategoryEnum : List String := ["Machine", "Grinder", "Basket", "Storage"]

def maintenanceActionEnum : List String := ["Re-zero", "Backflush", "Descale", "Steam Wand Clean"]

def shotEligibilityEnum : List String := ["Reject", "Passable", "Good Espresso", "God Shot"]

def tasteSummaryEnum : List String :=
  ["Sour", "Bitter", "Balanced", "Fruity", "Nutty", "Chocolatey", "Floral", "Weak & Sour",
    "Sweet & Balanced", "Salty / Channeled", "Harsh & Bitter", "Strong & Muddy"]

/-! ### Helpers -/

section Mappers

variable (py : Python)

/-- `str(row.get(key, "")).strip()`. -/
def cellText (row : Dict) (key : String) : String :=
  strip (Reconcile.str py.toEnv (row.getD key (.str "")))

/-- `_nullable`. -/
def nullable (val : String) : Cell := if val = "" then .null else .text val

/-- A text that must not be empty. -/
def required (val message : String) : Except MappingError String :=
  if val = "" then .error (.required message) else .ok val

/-- `_validate_enum`: the canonical form of a value, whatever its case. -/
def validateEnum (value : String) (enumSet : List String) (fieldName : String) :
    Except MappingError String :=
  if value ∈ enumSet then .ok value
  else match enumSet.find? fun v => py.strLower v = py.strLower value with
    | some v => .ok v
    | none => .error (.notIn fieldName value enumSet)

/-- `_validate_enum_nullable`. -/
def validateEnumNullable (value : String) (enumSet : List String) (fieldName : String) :
    Except MappingError Cell :=
  if value = "" then .ok .null else do return .text (← validateEnum py value enumSet fieldName)

/-- The sign before the digits of a number. -/
def isNegative (val : String) : Bool :=
  (splitSign (dropEnd isNumSpace (val.toList.dropWhile isNumSpace))).1

/-- `_parse_float_1dp`. -/
def parseFloat1dp (val fieldName : String) : Except MappingError Cell :=
  if val = "" then .ok .null
  else match floatOf val with
    | some x => .ok (.float (.ofFloat (isNegative val) x))
    | none => .error (.notFloat fieldName val)

/-- `_parse_int`. -/
def parseInt (val fieldName : String) : Except MappingError Cell :=
  if val = "" then .ok .null
  else match intOf val with
    | some i => .ok (.int i)
    | none => .error (.notInt fieldName val)

/-- `date.fromisoformat`. -/
def isoDate (val : String) : Except MappingError Date :=
  match Date.fromIsoformat val with
  | some d => .ok d
  | none => .error (.notIso val)

/-- `datetime.fromisoformat(val).replace(tzinfo=utc)`. -/
def isoInstant (val : String) : Except MappingError Timestamp :=
  match Date.fromIsoformat val with
  | some d => .ok (.midnight d)
  | none => match py.replaceUtc val with
    | some t => .ok t
    | none => .error (.notIso val)

/-! ### Mappers -/

/-- The row id that a dictionary of lookups has for an id of a sheet. -/
def lookedUp (lookup : List (String × Uuid)) (sheetsId : String) : Cell :=
  match lookup.lookup sheetsId with
  | some u => .uuid u
  | none => .null

def fromSheetsDictCatalog (row : Dict) (householdId : Uuid) : Except MappingError Mapped := do
  let sheetsId ← required (cellText py row "Catalog_ID")
    "Catalog_ID is required and must not be empty"
  let roaster ← required (cellText py row "Roaster") "Roaster is required"
  let beanName ← required (cellText py row "Bean_Name") "Bean_Name is required"
  let roastLevel ← validateEnum py (cellText py row "Roast_Level") roastLevelEnum "Roast_Level"
  return [("sheets_id", .text sheetsId), ("household_id", .uuid householdId),
    ("roaster", .text roaster), ("bean_name", .text beanName), ("roast_level", .text roastLevel),
    ("product_url", nullable (cellText py row "Product_URL")),
    ("local_image_path", nullable (cellText py row "Local_Image_Path")),
    ("origin", nullable (cellText py row "Origin")),
    ("process", nullable (cellText py row "Process")),
    ("notes", nullable (cellText py row "Notes"))]

def fromSheetsDictInventory (row : Dict) (householdId : Uuid)
    (catalogIdToPgUuid : List (String × Uuid)) : Except MappingError Mapped := do
  let sheetsId ← required (cellText py row "Bag_ID") "Bag_ID is required and must not be empty"
  let beans ← required (cellText py row "Beans") "Beans is required"
  let roastDate ← isoDate (← required (cellText py row "RoastDate") "RoastDate is required")
  let roastLevel ← validateEnum py (cellText py row "RoastLevel") roastLevelEnum "RoastLevel"
  let displayName ← required (cellText py row "Display_Name") "Display_Name is required"
  let status ← validateEnum py (cellText py row "Status") inventoryStatusEnum "Status"
  let storageMethod ← validateEnumNullable py (cellText py row "Storage_Method") storageMethodEnum
    "Storage_Method"
  return [("sheets_id", .text sheetsId), ("household_id", .uuid householdId),
    ("beans", .text beans), ("roast_date", .date roastDate), ("roast_level", .text roastLevel),
    ("display_name", .text displayName),
    ("catalog_id", lookedUp catalogIdToPgUuid (cellText py row "Catalog_ID")),
    ("status", .text status), ("storage_method", storageMethod)]

def fromSheetsDictHardware (row : Dict) (householdId : Uuid) : Except MappingError Mapped := do
  let sheetsId ← required (cellText py row "Hardware_ID")
    "Hardware_ID is required and must not be empty"
  let category ← validateEnum py (cellText py row "Category") hardwareCategoryEnum "Category"
  let name ← required (cellText py row "Name") "Name is required"
  return [("sheets_id", .text sheetsId), ("household_id", .uuid householdId),
    ("category", .text category), ("name", .text name),
    ("product_url", nullable (cellText py row "Product_URL")),
    ("local_image_path", nullable (cellText py row "Local_Image_Path"))]

def fromSheetsDictMaintenance (row : Dict) (householdId : Uuid)
    (hardwareIdToPgUuid : List (String × Uuid)) : Except MappingError Mapped := do
  let sheetsId ← required (cellText py row "Maintenance_ID")
    "Maintenance_ID is required and must not be empty"
  let performedAt ← isoInstant py
    (← required (cellText py row "Date") "Date is required for maintenance")
  let action ← validateEnum py (cellText py row "Action_Type") maintenanceActionEnum "Action_Type"
  return [("sheets_id", .text sheetsId), ("household_id", .uuid householdId),
    ("hardware_id", lookedUp hardwareIdToPgUuid (cellText py row "Hardware_ID")),
    ("performed_at", .instant performedAt), ("action", .text action),
    ("notes", nullable (cellText py row "Notes"))]

def fromSheetsDictBrewLog (row : Dict) (householdId : Uuid) : Except MappingError Mapped := do
  let sheetsId ← required (cellText py row "Shot_ID") "Shot_ID is required and must not be empty"
  let brewedAt ← isoInstant py
    (← required (cellText py row "Date") "Date is required for brew_log")
  let storageMethod ← validateEnumNullable py (cellText py row "Storage_Method") storageMethodEnum
    "Storage_Method"
  let doseG ← parseFloat1dp (cellText py row "Dose_In_g") "Dose_In_g"
  let yieldG ← parseFloat1dp (cellText py row "Yield_Out_g") "Yield_Out_g"
  let timeSec ← parseInt (cellText py row "Time_Sec") "Time_Sec"
  let grindSetting ← parseFloat1dp (cellText py row "Grind_Setting") "Grind_Setting"
  let shotEligibility ← validateEnum py (cellText py row "Shot_Eligibility") shotEligibilityEnum
    "Shot_Eligibility"
  let tasteSummary ← validateEnumNullable py (cellText py row "Taste_Summary") tasteSummaryEnum
    "Taste_Summary"
  return [("sheets_id", .text sheetsId), ("household_id", .uuid householdId),
    ("brewed_at", .instant brewedAt), ("bag_id", nullable (cellText py row "Bag_ID")),
    ("machine_id", nullable (cellText py row "Machine_ID")),
    ("grinder_id", nullable (cellText py row "Grinder_ID")),
    ("basket_id", nullable (cellText py row "Basket_ID")), ("dose_g", doseG), ("yield_g", yieldG),
    ("time_sec", timeSec), ("grind_setting", grindSetting),
    ("shot_eligibility", .text shotEligibility), ("taste_summary", tasteSummary),
    ("notes", nullable (cellText py row "User_Notes")),
    ("ai_feedback", nullable (cellText py row "AI_Feedback")), ("storage_method", storageMethod),
    ("catalog_id", .null)]

end Mappers

/-! ### Columns -/

namespace Cell

/-- A value for a `TEXT` column. -/
def asText : Cell → Except StmtError (Option String)
  | .null => .ok none
  | .text s => EspressoLogs.asText (.str s)
  | _ => .error .data

/-- A value for a `TEXT NOT NULL` column. -/
def asRequired (c : Cell) : Except StmtError String := do notNull (← c.asText)

/-- A value for a `UUID` column. -/
def asUuid : Cell → Except StmtError (Option Uuid)
  | .null => .ok none
  | .uuid u => .ok (some u)
  | _ => .error .data

/-- A value for a `DATE` column. -/
def asDate : Cell → Except StmtError (Option Date)
  | .null => .ok none
  | .date d => .ok (some d)
  | _ => .error .data

/-- A value for a `TIMESTAMPTZ NOT NULL` column. -/
def asInstant : Cell → Except StmtError Timestamp
  | .null => .error .integrity
  | .instant t => .ok t
  | _ => .error .data

/-- A value for an `INTEGER` column. -/
def asInteger : Cell → Except StmtError (Option Int)
  | .null => .ok none
  | .int i => SqlBrewLogRepo.asInteger 32 (some i)
  | _ => .error .data

/-- The number of a `NUMERIC(5, 1)` column: it has no zero below zero, and no infinity. -/
def tenthsOf : Rounded → Option Tenths
  | .tenths t => if small : t.natAbs < 100000 then some (.num t small) else none
  | .negZero => some (.num 0 (by decide))
  | .inf _ => none
  | .nan => some .nan

/-- A value for a `NUMERIC(5, 1)` column. -/
def asTenths : Cell → Except StmtError (Option Tenths)
  | .null => .ok none
  | .float x => match tenthsOf x with
      | some t => .ok (some t)
      | none => .error .data
  | _ => .error .data

def ofText : Option String → Cell
  | some s => .text s
  | none => .null

def ofUuid : Option Uuid → Cell
  | some u => .uuid u
  | none => .null

def ofDate : Option Date → Cell
  | some d => .date d
  | none => .null

def ofInt : Option Int → Cell
  | some i => .int i
  | none => .null

def ofTenths : Option Tenths → Cell
  | some t => .decimal t
  | none => .null

/-- The value that a column is read as after this one was stored in it. -/
def Stored : Cell → Cell → Prop
  | .float x, c => ∃ t, tenthsOf x = some t ∧ c = .decimal t
  | c, c' => c' = c

end Cell

/-! ### Tables -/

def assignCatalog (m : Mapped) (r : CatalogBean) : Except StmtError CatalogBean := do
  return { r with
    sheetsId := ← (m.get "sheets_id").asText
    householdId := ← (m.get "household_id").asUuid
    roaster := ← (m.get "roaster").asRequired
    beanName := ← (m.get "bean_name").asRequired
    roastLevel := ← (m.get "roast_level").asText
    productUrl := ← (m.get "product_url").asText
    localImagePath := ← (m.get "local_image_path").asText
    origin := ← (m.get "origin").asText
    process := ← (m.get "process").asText
    notes := ← (m.get "notes").asText }

def assignInventory (m : Mapped) (r : InventoryBag) : Except StmtError InventoryBag := do
  return { r with
    sheetsId := ← (m.get "sheets_id").asText
    householdId := ← (m.get "household_id").asUuid
    beans := ← (m.get "beans").asText
    roastDate := ← (m.get "roast_date").asDate
    roastLevel := ← (m.get "roast_level").asText
    displayName := ← (m.get "display_name").asText
    catalogId := ← (m.get "catalog_id").asUuid
    status := ← (m.get "status").asText
    storageMethod := ← (m.get "storage_method").asText }

def assignHardware (m : Mapped) (r : Hardware) : Except StmtError Hardware := do
  return { r with
    sheetsId := ← (m.get "sheets_id").asText
    householdId := ← (m.get "household_id").asUuid
    category := ← (m.get "category").asRequired
    name := ← (m.get "name").asRequired
    productUrl := ← (m.get "product_url").asText
    localImagePath := ← (m.get "local_image_path").asText }

def assignMaintenance (m : Mapped) (r : MaintenanceLog) : Except StmtError MaintenanceLog := do
  return { r with
    sheetsId := ← (m.get "sheets_id").asText
    householdId := ← (m.get "household_id").asUuid
    hardwareId := ← (m.get "hardware_id").asUuid
    performedAt := ← (m.get "performed_at").asInstant
    action := ← (m.get "action").asRequired
    notes := ← (m.get "notes").asText }

/-- The column `catalog_id` of the shots is never set. -/
def assignBrewLog (m : Mapped) (r : BrewLog) : Except StmtError BrewLog := do
  return { r with
    sheetsId := ← (m.get "sheets_id").asText
    householdId := ← (m.get "household_id").asUuid
    brewedAt := ← (m.get "brewed_at").asInstant
    bagId := ← (m.get "bag_id").asText
    machineId := ← (m.get "machine_id").asText
    grinderId := ← (m.get "grinder_id").asText
    basketId := ← (m.get "basket_id").asText
    doseG := ← (m.get "dose_g").asTenths
    yieldG := ← (m.get "yield_g").asTenths
    timeSec := ← (m.get "time_sec").asInteger
    grindSetting := ← (m.get "grind_setting").asTenths
    shotEligibility := ← (m.get "shot_eligibility").asText
    tasteSummary := ← (m.get "taste_summary").asText
    notes := ← (m.get "notes").asText
    aiFeedback := ← (m.get "ai_feedback").asText
    storageMethod := ← (m.get "storage_method").asText }

/-! ### Rows that were read -/

def catalogColumns (r : CatalogBean) : Mapped :=
  [("id", .uuid r.id), ("household_id", .ofUuid r.householdId), ("roaster", .text r.roaster),
    ("bean_name", .text r.beanName), ("origin", .ofText r.origin), ("process", .ofText r.process),
    ("roast_level", .ofText r.roastLevel), ("notes", .ofText r.notes),
    ("sheets_id", .ofText r.sheetsId), ("product_url", .ofText r.productUrl),
    ("local_image_path", .ofText r.localImagePath)]

def inventoryColumns (r : InventoryBag) : Mapped :=
  [("id", .uuid r.id), ("household_id", .ofUuid r.householdId), ("catalog_id", .ofUuid r.catalogId),
    ("roast_date", .ofDate r.roastDate), ("notes", .ofText r.notes),
    ("sheets_id", .ofText r.sheetsId), ("beans", .ofText r.beans),
    ("display_name", .ofText r.displayName), ("roast_level", .ofText r.roastLevel),
    ("status", .ofText r.status), ("storage_method", .ofText r.storageMethod)]

def hardwareColumns (r : Hardware) : Mapped :=
  [("id", .uuid r.id), ("household_id", .ofUuid r.householdId), ("name", .text r.name),
    ("category", .text r.category), ("notes", .ofText r.notes), ("sheets_id", .ofText r.sheetsId),
    ("product_url", .ofText r.productUrl), ("local_image_path", .ofText r.localImagePath)]

def maintenanceColumns (r : MaintenanceLog) : Mapped :=
  [("id", .uuid r.id), ("household_id", .ofUuid r.householdId),
    ("hardware_id", .ofUuid r.hardwareId), ("action", .text r.action),
    ("performed_at", .instant r.performedAt), ("notes", .ofText r.notes),
    ("sheets_id", .ofText r.sheetsId)]

def brewLogColumns (r : BrewLog) : Mapped :=
  [("id", .uuid r.id), ("household_id", .ofUuid r.householdId), ("catalog_id", .null),
    ("brew_method", .ofText r.brewMethod), ("dose_g", .ofTenths r.doseG),
    ("yield_g", .ofTenths r.yieldG), ("time_sec", .ofInt r.timeSec), ("rating", .ofInt r.rating),
    ("notes", .ofText r.notes), ("brewed_at", .instant r.brewedAt),
    ("sheets_id", .ofText r.sheetsId), ("bag_id", .ofText r.bagId),
    ("machine_id", .ofText r.machineId), ("grinder_id", .ofText r.grinderId),
    ("basket_id", .ofText r.basketId), ("grind_setting", .ofTenths r.grindSetting),
    ("shot_eligibility", .ofText r.shotEligibility), ("taste_summary", .ofText r.tasteSummary),
    ("ai_feedback", .ofText r.aiFeedback), ("storage_method", .ofText r.storageMethod)]

/-- What the scripts migrate. -/
inductive Entity where
  | catalog
  | inventory
  | hardware
  | maintenance
  | brewLog
  deriving DecidableEq, Repr

namespace Entity

/-- The name of an entity, and of its sheet. -/
def name : Entity → String
  | catalog => "Catalog"
  | inventory => "Inventory"
  | hardware => "Hardware"
  | maintenance => "Maintenance"
  | brewLog => "Brew_Log"

def table : Entity → Table
  | catalog => .catalog
  | inventory => .inventoryBags
  | hardware => .hardware
  | maintenance => .maintenanceLog
  | brewLog => .brewLog

/-- The row ids, by the ids of the sheets, that the mappers look up. -/
abbrev Lookups := Entity → List (String × Uuid)

/-- The mapper of an entity. -/
def map (py : Python) (householdId : Uuid) (ids : Lookups) :
    Entity → Dict → Except MappingError Mapped
  | catalog, row => fromSheetsDictCatalog py row householdId
  | inventory, row => fromSheetsDictInventory py row householdId (ids catalog)
  | hardware, row => fromSheetsDictHardware py row householdId
  | maintenance, row => fromSheetsDictMaintenance py row householdId (ids hardware)
  | brewLog, row => fromSheetsDictBrewLog py row householdId

/-- The columns that the mapper of an entity sets. -/
def managed : Entity → List String
  | catalog =>
      ["sheets_id", "household_id", "roaster", "bean_name", "roast_level", "product_url",
        "local_image_path", "origin", "process", "notes"]
  | inventory =>
      ["sheets_id", "household_id", "beans", "roast_date", "roast_level", "display_name",
        "catalog_id", "status", "storage_method"]
  | hardware =>
      ["sheets_id", "household_id", "category", "name", "product_url", "local_image_path"]
  | maintenance =>
      ["sheets_id", "household_id", "hardware_id", "performed_at", "action", "notes"]
  | brewLog =>
      ["sheets_id", "household_id", "brewed_at", "bag_id", "machine_id", "grinder_id",
        "basket_id", "dose_g", "yield_g", "time_sec", "grind_setting", "shot_eligibility",
        "taste_summary", "notes", "ai_feedback", "storage_method", "catalog_id"]

def sheetsId : (e : Entity) → e.table.Row → Option String
  | catalog, r => CatalogBean.sheetsId r
  | inventory, r => InventoryBag.sheetsId r
  | hardware, r => Hardware.sheetsId r
  | maintenance, r => MaintenanceLog.sheetsId r
  | brewLog, r => BrewLog.sheetsId r

/-- The row with the values of a mapped row. -/
def assign : (e : Entity) → Mapped → e.table.Row → Except StmtError e.table.Row
  | catalog, m, r => assignCatalog m r
  | inventory, m, r => assignInventory m r
  | hardware, m, r => assignHardware m r
  | maintenance, m, r => assignMaintenance m r
  | brewLog, m, r => assignBrewLog m r

def epoch : Timestamp := .midnight ⟨1, 1, 1, by decide⟩

/-- A row under a new id before the statement that inserts it sets its columns. -/
def blank : (e : Entity) → Uuid → e.table.Row
  | catalog, id =>
      ({ id, householdId := none, roaster := "", beanName := "", origin := none, process := none,
         roastLevel := none, notes := none, sheetsId := none, productUrl := none,
         localImagePath := none } : CatalogBean)
  | inventory, id =>
      ({ id, householdId := none, catalogId := none, roastDate := none, notes := none,
         sheetsId := none, sheetsCatalogId := none, beans := none, displayName := none,
         roastLevel := none, status := none, storageMethod := none } : InventoryBag)
  | hardware, id =>
      ({ id, householdId := none, name := "", category := "", notes := none, sheetsId := none,
         productUrl := none, localImagePath := none } : Hardware)
  | maintenance, id =>
      ({ id, householdId := none, hardwareId := none, action := "", performedAt := epoch,
         notes := none, sheetsId := none, sheetsHardwareId := none } : MaintenanceLog)
  | brewLog, id =>
      ({ id, householdId := none, brewMethod := none, doseG := none, yieldG := none,
         timeSec := none, rating := none, notes := none, sheetsId := none, bagId := none,
         machineId := none, grinderId := none, basketId := none, grindSetting := none,
         shotEligibility := none, tasteSummary := none, aiFeedback := none, storageMethod := none,
         idempotencyKey := none, idempotencyRequestHash := none, brewedAt := epoch } : BrewLog)

/-- A row of the table as the scripts read it. -/
def columns : (e : Entity) → e.table.Row → Mapped
  | catalog, r => catalogColumns r
  | inventory, r => inventoryColumns r
  | hardware, r => hardwareColumns r
  | maintenance, r => maintenanceColumns r
  | brewLog, r => brewLogColumns r

/-! ### What is assigned -/

end Entity

namespace Cell

theorem eq_of_asText {c : Cell} {o : Option String} (h : c.asText = .ok o) : c = .ofText o := by
  cases c with
  | null =>
      cases h
      rfl
  | text s =>
      change (if s.toList.contains '\x00' then Except.error StmtError.data else .ok (some s)) = _ at h
      split at h
      · cases h
      · cases h
        rfl
  | float | decimal | int | date | instant | uuid => cases h

theorem stored_ofText (o : Option String) : (ofText o).Stored (ofText o) := by
  cases o with
  | none | some => rfl

theorem stored_of_asText {c : Cell} {o : Option String} (h : c.asText = .ok o) :
    c.Stored (.ofText o) := eq_of_asText h ▸ stored_ofText o

theorem stored_of_asRequired {c : Cell} {s : String} (h : c.asRequired = .ok s) :
    c.Stored (.text s) := by
  obtain ⟨o, text, h⟩ := bind_eq_ok h
  cases o with
  | none => cases h
  | some t =>
      cases h
      exact stored_of_asText text

theorem stored_of_asUuid {c : Cell} {o : Option Uuid} (h : c.asUuid = .ok o) :
    c.Stored (.ofUuid o) := by
  cases c with
  | null | uuid =>
      cases h
      rfl
  | text | float | decimal | int | date | instant => cases h

theorem stored_of_asDate {c : Cell} {o : Option Date} (h : c.asDate = .ok o) :
    c.Stored (.ofDate o) := by
  cases c with
  | null | date =>
      cases h
      rfl
  | text | float | decimal | int | instant | uuid => cases h

theorem stored_of_asInstant {c : Cell} {t : Timestamp} (h : c.asInstant = .ok t) :
    c.Stored (.instant t) := by
  cases c with
  | instant =>
      cases h
      rfl
  | null | text | float | decimal | int | date | uuid => cases h

theorem stored_of_asInteger {c : Cell} {o : Option Int} (h : c.asInteger = .ok o) :
    c.Stored (.ofInt o) := by
  cases c with
  | null =>
      cases h
      rfl
  | int i =>
      unfold asInteger SqlBrewLogRepo.asInteger at h
      simp only at h
      split at h
      · cases h
        rfl
      · cases h
  | text | float | decimal | date | instant | uuid => cases h

theorem stored_of_asTenths {c : Cell} {o : Option Tenths} (h : c.asTenths = .ok o) :
    c.Stored (.ofTenths o) := by
  cases c with
  | null =>
      cases h
      rfl
  | float x =>
      unfold asTenths at h
      simp only at h
      cases fits : tenthsOf x with
      | none =>
          rw [fits] at h
          cases h
      | some t =>
          rw [fits] at h
          cases h
          exact ⟨t, fits, rfl⟩
  | text | decimal | int | date | instant | uuid => cases h

end Cell

namespace Entity

variable {e : Entity} {m : Mapped} {r n : e.table.Row}

open Cell in
/-- What a mapped row says is what is read once it was assigned. -/
theorem assign_stored (h : e.assign m r = .ok n) (unset : e = .brewLog → m.get "catalog_id" = .null) :
    ∀ c ∈ e.managed, (m.get c).Stored ((e.columns n).get c) := by
  cases e with
  | catalog =>
      change assignCatalog m r = .ok n at h
      unfold assignCatalog at h
      -- column by column, in the order of the assignments
      repeat obtain ⟨_, _, h⟩ := bind_eq_ok h
      cases h
      simp only [managed, columns, catalogColumns, List.forall_mem_cons, Mapped.get_cons,
        String.reduceEq, if_true, if_false]
      exact ⟨stored_of_asText ‹_›, stored_of_asUuid ‹_›, stored_of_asRequired ‹_›,
        stored_of_asRequired ‹_›, stored_of_asText ‹_›, stored_of_asText ‹_›, stored_of_asText ‹_›,
        stored_of_asText ‹_›, stored_of_asText ‹_›, stored_of_asText ‹_›,
        fun _ hc => absurd hc List.not_mem_nil⟩
  | inventory =>
      change assignInventory m r = .ok n at h
      unfold assignInventory at h
      repeat obtain ⟨_, _, h⟩ := bind_eq_ok h
      cases h
      simp only [managed, columns, inventoryColumns, List.forall_mem_cons, Mapped.get_cons,
        String.reduceEq, if_true, if_false]
      exact ⟨stored_of_asText ‹_›, stored_of_asUuid ‹_›, stored_of_asText ‹_›,
        stored_of_asDate ‹_›, stored_of_asText ‹_›, stored_of_asText ‹_›, stored_of_asUuid ‹_›,
        stored_of_asText ‹_›, stored_of_asText ‹_›, fun _ hc => absurd hc List.not_mem_nil⟩
  | hardware =>
      change assignHardware m r = .ok n at h
      unfold assignHardware at h
      repeat obtain ⟨_, _, h⟩ := bind_eq_ok h
      cases h
      simp only [managed, columns, hardwareColumns, List.forall_mem_cons, Mapped.get_cons,
        String.reduceEq, if_true, if_false]
      exact ⟨stored_of_asText ‹_›, stored_of_asUuid ‹_›, stored_of_asRequired ‹_›,
        stored_of_asRequired ‹_›, stored_of_asText ‹_›, stored_of_asText ‹_›,
        fun _ hc => absurd hc List.not_mem_nil⟩
  | maintenance =>
      change assignMaintenance m r = .ok n at h
      unfold assignMaintenance at h
      repeat obtain ⟨_, _, h⟩ := bind_eq_ok h
      cases h
      simp only [managed, columns, maintenanceColumns, List.forall_mem_cons, Mapped.get_cons,
        String.reduceEq, if_true, if_false]
      exact ⟨stored_of_asText ‹_›, stored_of_asUuid ‹_›, stored_of_asUuid ‹_›,
        stored_of_asInstant ‹_›, stored_of_asRequired ‹_›, stored_of_asText ‹_›,
        fun _ hc => absurd hc List.not_mem_nil⟩
  | brewLog =>
      change assignBrewLog m r = .ok n at h
      unfold assignBrewLog at h
      repeat obtain ⟨_, _, h⟩ := bind_eq_ok h
      cases h
      simp only [managed, columns, brewLogColumns, List.forall_mem_cons, Mapped.get_cons,
        String.reduceEq, if_true, if_false]
      exact ⟨stored_of_asText ‹_›, stored_of_asUuid ‹_›, stored_of_asInstant ‹_›,
        stored_of_asText ‹_›, stored_of_asText ‹_›, stored_of_asText ‹_›, stored_of_asText ‹_›,
        stored_of_asTenths ‹_›, stored_of_asTenths ‹_›, stored_of_asInteger ‹_›,
        stored_of_asTenths ‹_›, stored_of_asText ‹_›, stored_of_asText ‹_›, stored_of_asText ‹_›,
        stored_of_asText ‹_›, stored_of_asText ‹_›, (unset rfl).symm ▸ stored_ofText none,
        fun _ hc => absurd hc List.not_mem_nil⟩

/-- The columns of a row that was assigned, and the row id that it keeps. -/
structure Assigned (e : Entity) (m : Mapped) (r n : e.table.Row) : Prop where
  id : e.table.id n = e.table.id r
  sheetsId : (m.get "sheets_id").asText = .ok (e.sheetsId n)
  householdId : (m.get "household_id").asUuid = .ok (e.table.householdId n)
  again : e.assign m n = .ok n

theorem assigned (h : e.assign m r = .ok n) : Assigned e m r n := by
  cases e with
  | catalog =>
      change assignCatalog m r = .ok n at h
      unfold assignCatalog at h
      repeat obtain ⟨_, _, h⟩ := bind_eq_ok h
      cases h
      refine ⟨rfl, ‹_›, ‹_›, ?_⟩
      change assignCatalog m _ = _
      unfold assignCatalog
      simp only [*, ok_bind]
      rfl
  | inventory =>
      change assignInventory m r = .ok n at h
      unfold assignInventory at h
      repeat obtain ⟨_, _, h⟩ := bind_eq_ok h
      cases h
      refine ⟨rfl, ‹_›, ‹_›, ?_⟩
      change assignInventory m _ = _
      unfold assignInventory
      simp only [*, ok_bind]
      rfl
  | hardware =>
      change assignHardware m r = .ok n at h
      unfold assignHardware at h
      repeat obtain ⟨_, _, h⟩ := bind_eq_ok h
      cases h
      refine ⟨rfl, ‹_›, ‹_›, ?_⟩
      change assignHardware m _ = _
      unfold assignHardware
      simp only [*, ok_bind]
      rfl
  | maintenance =>
      change assignMaintenance m r = .ok n at h
      unfold assignMaintenance at h
      repeat obtain ⟨_, _, h⟩ := bind_eq_ok h
      cases h
      refine ⟨rfl, ‹_›, ‹_›, ?_⟩
      change assignMaintenance m _ = _
      unfold assignMaintenance
      simp only [*, ok_bind]
      rfl
  | brewLog =>
      change assignBrewLog m r = .ok n at h
      unfold assignBrewLog at h
      repeat obtain ⟨_, _, h⟩ := bind_eq_ok h
      cases h
      refine ⟨rfl, ‹_›, ‹_›, ?_⟩
      change assignBrewLog m _ = _
      unfold assignBrewLog
      simp only [*, ok_bind]
      rfl

/-- The cell that a row of the sheet is known by. -/
def idKey : Entity → String
  | catalog => "Catalog_ID"
  | inventory => "Bag_ID"
  | hardware => "Hardware_ID"
  | maintenance => "Maintenance_ID"
  | brewLog => "Shot_ID"

/-- What every mapper says of a row. -/
structure Keyed (py : Python) (householdId : Uuid) (row : Dict) (e : Entity) (m : Mapped) : Prop where
  columns : m.map Prod.fst = e.managed
  sheetsId : m.get "sheets_id" = .text (cellText py row e.idKey)
  present : cellText py row e.idKey ≠ ""
  householdId : m.get "household_id" = .uuid householdId
  catalogId : e = .brewLog → m.get "catalog_id" = .null

theorem required_eq_ok {val message s : String} (h : required val message = .ok s) :
    val ≠ "" ∧ s = val := by
  unfold required at h
  split at h
  · cases h
  · cases h
    exact ⟨‹_›, rfl⟩

theorem map_keyed {py : Python} {householdId : Uuid} {ids : Lookups} {row : Dict}
    (h : e.map py householdId ids row = .ok m) : Keyed py householdId row e m := by
  cases e with
  | catalog =>
      change fromSheetsDictCatalog py row householdId = .ok m at h
      unfold fromSheetsDictCatalog at h
      obtain ⟨id, named, h⟩ := bind_eq_ok h
      obtain ⟨present, rfl⟩ := required_eq_ok named
      repeat obtain ⟨_, _, h⟩ := bind_eq_ok h
      cases h
      exact ⟨rfl, rfl, present, rfl, fun other => absurd other (by decide)⟩
  | inventory =>
      change fromSheetsDictInventory py row householdId (ids catalog) = .ok m at h
      unfold fromSheetsDictInventory at h
      obtain ⟨id, named, h⟩ := bind_eq_ok h
      obtain ⟨present, rfl⟩ := required_eq_ok named
      repeat obtain ⟨_, _, h⟩ := bind_eq_ok h
      cases h
      exact ⟨rfl, rfl, present, rfl, fun other => absurd other (by decide)⟩
  | hardware =>
      change fromSheetsDictHardware py row householdId = .ok m at h
      unfold fromSheetsDictHardware at h
      obtain ⟨id, named, h⟩ := bind_eq_ok h
      obtain ⟨present, rfl⟩ := required_eq_ok named
      repeat obtain ⟨_, _, h⟩ := bind_eq_ok h
      cases h
      exact ⟨rfl, rfl, present, rfl, fun other => absurd other (by decide)⟩
  | maintenance =>
      change fromSheetsDictMaintenance py row householdId (ids hardware) = .ok m at h
      unfold fromSheetsDictMaintenance at h
      obtain ⟨id, named, h⟩ := bind_eq_ok h
      obtain ⟨present, rfl⟩ := required_eq_ok named
      repeat obtain ⟨_, _, h⟩ := bind_eq_ok h
      cases h
      exact ⟨rfl, rfl, present, rfl, fun other => absurd other (by decide)⟩
  | brewLog =>
      change fromSheetsDictBrewLog py row householdId = .ok m at h
      unfold fromSheetsDictBrewLog at h
      obtain ⟨id, named, h⟩ := bind_eq_ok h
      obtain ⟨present, rfl⟩ := required_eq_ok named
      repeat obtain ⟨_, _, h⟩ := bind_eq_ok h
      cases h
      exact ⟨rfl, rfl, present, rfl, fun _ => rfl⟩

end Entity

end EspressoLogs.Migration
