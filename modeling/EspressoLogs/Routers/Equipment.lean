import EspressoLogs.Routers.Catalog

/-!
The endpoints of inventory, hardware and maintenance.
-/

namespace EspressoLogs

open Lib Py

/-! ### Inventory -/

/-- `_resolve_display_name`. -/
def resolveDisplayName (bag : Dict) : ReadM String := do
  let own := (bag.get "Display_Name").or (bag.get "Beans")
  let catalogId := bag.text "Catalog_ID"
  if catalogId = "" then
    return own.text
  match ← SqlCatalogRepo.get catalogId with
  | some entry => return beanTitle entry
  | none => return own.text

/-- `GET /api/inventory`, with `all` for every status. -/
def apiInventoryList (status : Option String) : ReadM Response := do
  let bags ← SqlInventoryRepo.list (if status = some "all" then none else status)
  let out ← bags.mapM fun b => do return bagToOut b (← resolveDisplayName b)
  return ⟨200, .bags out⟩

def bagNotFound : Exc := httpError 404 "Bag not found"

/-- `GET /api/inventory/{bag_id}`. -/
def apiInventoryDetail (bagId : String) : ReadM Response := do
  let bag ← orRaise bagNotFound (← SqlInventoryRepo.get bagId)
  return ⟨200, .bag (bagToOut bag (← resolveDisplayName bag))⟩

/-- The two states that a patch may set. -/
def checkPatchStatus (status : String) : Except Exc Unit :=
  if status ∈ ["Active", "Finished"] then .ok ()
  else .error (httpError 422 "status must be one of: ['Active', 'Finished']")

/-- `PATCH /api/inventory/{bag_id}`. -/
def apiInventoryPatch (bagId status : String) : DbM Response := do
  liftExcept (checkPatchStatus status)
  let bag ← orRaise bagNotFound (← SqlInventoryRepo.get bagId)
  let updated := bag.set "Status" (.str status)
  DualWriteInventoryRepo.upsert updated
  return ⟨200, .bag (bagToOut updated (← resolveDisplayName updated))⟩

/-! ### Hardware -/

/-- `_CATEGORIES`. -/
def categories : List String := ["Machine", "Grinder", "Basket", "Storage"]

/-- `_ACTION_TYPES_BY_CATEGORY`. -/
def actionTypesByCategory : List (String × List String) :=
  [("Machine", ["Backflush", "Descale", "Steam Wand Clean"]), ("Grinder", ["Re-zero"]),
   ("Basket", []), ("Storage", [])]

/-- `_hw_to_out`. -/
def hwToOut (row : Dict) : HardwareItemOut where
  hardwareId := row.text "Hardware_ID"
  category := row.text "Category"
  name := row.text "Name"
  imagePath := nonEmpty (row.text "Local_Image_Path")

/-- `_maint_to_out`. -/
def maintToOut (row : Dict) (hardwareName : String) : MaintenanceEventOut where
  maintenanceId := row.text "Maintenance_ID"
  hardwareId := row.text "Hardware_ID"
  hardwareName := hardwareName
  date := row.text "Date"
  actionType := row.text "Action_Type"
  notes := nonEmpty (row.text "Notes")

def apiHardwareActionTypes : ReadM Response := return ⟨200, .actionTypes actionTypesByCategory⟩

/-- `GET /api/hardware`. -/
def apiHardwareList : ReadM Response := do
  return ⟨200, .hardwareItems ((← SqlHardwareRepo.list none).map hwToOut)⟩

def hardwareItemNotFound : Exc := httpError 404 "Hardware item not found"

/-- `GET /api/hardware/{hardware_id}`, with its events. -/
def apiHardwareDetail (hardwareId : String) : ReadM Response := do
  let item ← orRaise hardwareItemNotFound (← SqlHardwareRepo.get hardwareId)
  let events ← SqlMaintenanceRepo.list (some hardwareId)
  return ⟨200, .hardwareDetail (hwToOut item)
    ((byDateDesc events).map fun e => maintToOut e (item.text "Name"))⟩

structure HardwareCreateBody where
  category : String
  name : String
  productUrl : Option String
  deriving DecidableEq, Repr

/-- What the body of a new piece is refused for. -/
def checkHardware (env : Env) (body : HardwareCreateBody) : Except Exc Unit :=
  if body.category ∉ categories then .error (httpError 422 "Invalid category")
  else if strip body.name = "" then .error (httpError 422 "Name is required")
  else match body.productUrl.bind nonEmpty with
    | some url =>
        if env.urlScheme (strip url) ∈ ["http", "https"] then .ok ()
        else .error (httpError 422 "product_url must be http or https")
    | none => .ok ()

/-- The row dictionary of a new item. -/
def hardwareRow (body : HardwareCreateBody) (hardwareId : String) : Dict :=
  [("Hardware_ID", .str hardwareId),
   ("Category", .str body.category),
   ("Name", .str (strip body.name)),
   ("Product_URL", .str (strip (body.productUrl.getD ""))),
   ("Local_Image_Path", .str "")]

/-- The stored image of a new item, when its product page has one. -/
def hardwareImage (env : Env) (body : HardwareCreateBody) (hardwareId : String) : Option String :=
  (body.productUrl.bind nonEmpty).bind fun url =>
    match env.sourceBeanImage "" (strip body.name) (strip url) with
    | "" => none
    | cdnUrl => env.storeImage ("hardware-images/" ++ hardwareId) cdnUrl

/-- The second upsert, which adds the image; its failure does not matter. -/
def addHardwareImage (row : Dict) (imagePath : Option String) : DbM Dict :=
  match imagePath with
  | none => return row
  | some path =>
      tryCatch (do
          DualWriteHardwareRepo.upsert (row.set "Local_Image_Path" (.str path))
          return row.set "Local_Image_Path" (.str path))
        fun _ => return row

/-- `archive` holds the `Hardware_ID`s of the Sheets repository. -/
def apiHardwareCreate (env : Env) (archive : List String) (body : HardwareCreateBody) :
    DbM Response := do
  liftExcept (checkHardware env body)
  let hardwareId ← liftExcept (HardwareRepo.nextId archive body.category)
  let row := hardwareRow body hardwareId
  DualWriteHardwareRepo.upsert row
  let row ← addHardwareImage row (hardwareImage env body hardwareId)
  return ⟨201, .hardwareItem (hwToOut row)⟩

structure HardwareUpdateBody where
  name : String
  category : Option String
  deriving DecidableEq, Repr

/-- An unknown category is left out of the update. -/
def apiHardwareUpdate (hardwareId : String) (body : HardwareUpdateBody) : DbM Response := do
  let item ← orRaise hardwareItemNotFound (← SqlHardwareRepo.get hardwareId)
  if strip body.name = "" then
    throw (httpError 422 "Name is required")
  let named := item.set "Name" (.str (strip body.name))
  let updated := match body.category with
    | some c => if c ∈ categories then named.set "Category" (.str c) else named
    | none => named
  DualWriteHardwareRepo.upsert updated
  return ⟨200, .hardwareItem (hwToOut updated)⟩

/-! ### Maintenance -/

/-- `GET /api/maintenance`, newest first. -/
def apiMaintenanceList (hardwareId : Option String) : ReadM Response := do
  let events := byDateDesc (← SqlMaintenanceRepo.list hardwareId)
  let ids := (events.map fun e => e.text "Hardware_ID").dedup.filter (· ≠ "")
  let hardware ← fetchHardware ids
  let hardwareName (id : String) : String :=
    match hardware.lookup id with
    | some (p :: ps) => Dict.text (p :: ps) "Name"
    | _ => id
  return ⟨200, .maintenanceEvents
    (events.map fun e => maintToOut e (hardwareName (e.text "Hardware_ID")))⟩

structure MaintenanceCreateBody where
  hardwareId : String
  actionType : String
  date : String
  notes : String
  deriving DecidableEq, Repr

/-- The checks on an event for an item of hardware. -/
def checkMaintenance (hardware : Dict) (body : MaintenanceCreateBody) : Except Exc Unit :=
  let category := hardware.text "Category"
  if category = "Basket" then
    .error (httpError 422 "Basket hardware has no valid maintenance action types")
  else if body.actionType ∉ (actionTypesByCategory.lookup category).getD [] then
    .error (httpError 422 ("Invalid action type for " ++ category))
  else if (Date.fromIsoformat body.date).isNone then
    .error (httpError 422 "date must be ISO format (YYYY-MM-DD)")
  else .ok ()

/-- The row dictionary of a new event. -/
def maintenanceRow (body : MaintenanceCreateBody) (maintenanceId : String) : Dict :=
  [("Maintenance_ID", .str maintenanceId),
   ("Hardware_ID", .str body.hardwareId),
   ("Date", .str body.date),
   ("Action_Type", .str body.actionType),
   ("Notes", .str body.notes)]

/-- `POST /api/maintenance`. -/
def apiMaintenanceCreate (env : Env) (body : MaintenanceCreateBody) : DbM Response := do
  let hardware ← orRaise (httpError 404 "Hardware not found") (← SqlHardwareRepo.get body.hardwareId)
  liftExcept (checkMaintenance hardware body)
  let events ← SqlMaintenanceRepo.list none
  let maintenanceId ← liftExcept
    (makeMaintenanceId (events.map fun e => e.text "Maintenance_ID"))
  let row := maintenanceRow body maintenanceId
  DualWriteMaintenanceRepo.add env row
  return ⟨201, .maintenanceEvent (maintToOut row (hardware.text "Name"))⟩

end EspressoLogs
