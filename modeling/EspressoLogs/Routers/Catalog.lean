import EspressoLogs.Routers.BrewLog

/-!
The catalog endpoints, with the bags that are added to a catalog entry.
-/

namespace EspressoLogs

open Lib Py

/-- `_ROAST_LEVELS`. -/
def roastLevels : List String := ["Light", "Light / Medium", "Medium", "Medium / Dark", "Dark"]

/-- `_next_catalog_id`. -/
def nextCatalogId (existing : List Dict) : Except Exc String :=
  let nums := HardwareRepo.numbersAfter "CAT" (existing.map fun r => r.text "Catalog_ID")
  (pyFormat 3 (nums.max?.getD 99 + 1)).map ("CAT" ++ ·)

/-- `_catalog_to_out`. -/
def catalogToOut (row : Dict) : CatalogItemOut where
  catalogId := row.text "Catalog_ID"
  roaster := row.text "Roaster"
  beanName := row.text "Bean_Name"
  roastLevel := row.text "Roast_Level"
  productUrl := nonEmpty (row.text "Product_URL")
  imagePath := nonEmpty (row.text "Local_Image_Path")

/-- `_bag_to_out`. -/
def bagToOut (row : Dict) (displayName : String) : InventoryBagOut where
  bagId := row.text "Bag_ID"
  displayName := displayName
  beans := row.text "Beans"
  roastDate := nonEmpty (row.text "RoastDate")
  roastLevel := nonEmpty (row.text "RoastLevel")
  catalogId := row.text "Catalog_ID"
  status := row.text "Status"
  storageMethod := nonEmpty (row.text "Storage_Method")

/-- A bean as the lists name it. -/
def beanTitle (row : Dict) : String := row.text "Roaster" ++ " — " ++ row.text "Bean_Name"

def catalogNotFound : Exc := httpError 404 "Catalog entry not found"

/-! ### Reads -/

/-- `GET /api/catalog`. -/
def apiCatalogList : ReadM Response := do
  return ⟨200, .catalogItems ((← SqlCatalogRepo.list).map catalogToOut)⟩

/-- The first rows of a list of ids, each looked up by itself. -/
def fetchHardware (ids : List String) : ReadM (List (String × Dict)) := do
  let found ← ids.mapM fun id => do return (id, (← SqlHardwareRepo.get id).getD [])
  return found

/-- `GET /api/catalog/{catalog_id}`: the bags of the bean, and the last ten shots from
them. -/
def apiCatalogDetail (catalogId : String) : ReadM Response := do
  let entry ← orRaise catalogNotFound (← SqlCatalogRepo.get catalogId)
  let displayName := beanTitle entry
  let allBags ← SqlInventoryRepo.list none
  let linkedBags := allBags.filter fun b => b.text "Catalog_ID" == catalogId
  let shots ← linkedBags.mapM fun b => SqlBrewLogRepo.listForBag (b.text "Bag_ID")
  let linkedShots := (byDateDesc shots.flatten).take 10
  let hardwareIds := (linkedShots.flatMap fun s =>
    [s.text "Machine_ID", s.text "Grinder_ID", s.text "Basket_ID"]).dedup.filter (· ≠ "")
  let hardware ← fetchHardware hardwareIds
  let hardwareName (id : String) : Option String :=
    if id = "" then none
    else match hardware.lookup id with
      | some (p :: ps) => some (Dict.text (p :: ps) "Name")
      | _ => none
  let names (s : Dict) : Names := {
    bagDisplay := displayName
    roastLevel := none
    machineName := hardwareName (s.text "Machine_ID")
    grinderName := hardwareName (s.text "Grinder_ID")
    basketName := hardwareName (s.text "Basket_ID") }
  return ⟨200, .catalogDetail (catalogToOut entry)
    (linkedBags.map fun b => bagToOut b displayName)
    (linkedShots.map fun s => shotToOut s (names s))⟩

/-! ### Catalog entries -/

structure CatalogCreateBody where
  roaster : String
  beanName : String
  roastLevel : String
  productUrl : Option String
  sourceImageUrl : Option String
  deriving DecidableEq, Repr

/-- The checks that creating and updating an entry share. -/
def catalogErrors (env : Env) (roaster beanName roastLevel : String) (productUrl : Option String) :
    List String :=
  (if strip roaster = "" then ["Roaster is required."] else []) ++
  (if strip beanName = "" then ["Bean name is required."] else []) ++
  (if roastLevel ≠ "" ∧ roastLevel ∉ roastLevels then ["Invalid roast level."] else []) ++
  match productUrl.bind nonEmpty with
  | some url => if env.urlScheme (strip url) ∈ ["http", "https"] then []
      else ["Product URL must start with http:// or https://."]
  | none => []

/-- All that is wrong with the fields, in one answer. -/
def checkCatalog (env : Env) (roaster beanName roastLevel : String) (productUrl : Option String) :
    Except Exc Unit :=
  match catalogErrors env roaster beanName roastLevel productUrl with
  | [] => .ok ()
  | errors => .error (.http 422 (.texts errors))

/-- The image of a new entry: from the URL the client has, else from the product page. -/
def catalogImage (env : Env) (body : CatalogCreateBody) (catalogId : String) : String :=
  let given := strip (body.sourceImageUrl.getD "")
  let cdnUrl := if given ≠ "" then given
    else match body.productUrl.bind nonEmpty with
      | some url => env.sourceBeanImage (strip body.roaster) (strip body.beanName) (strip url)
      | none => ""
  if cdnUrl = "" then "" else (env.storeImage ("bean-images/" ++ catalogId) cdnUrl).getD ""

/-- `POST /api/catalog`. -/
def apiCatalogCreate (env : Env) (body : CatalogCreateBody) : DbM Response := do
  liftExcept (checkCatalog env body.roaster body.beanName body.roastLevel body.productUrl)
  let existing ← SqlCatalogRepo.fetchAll
  let catalogId ← liftExcept (nextCatalogId existing)
  let row : Dict :=
    [("Catalog_ID", .str catalogId),
     ("Roaster", .str (strip body.roaster)),
     ("Bean_Name", .str (strip body.beanName)),
     ("Roast_Level", .str body.roastLevel),
     ("Product_URL", .str (strip (body.productUrl.getD ""))),
     ("Local_Image_Path", .str (catalogImage env body catalogId))]
  DualWriteCatalogRepo.upsert row
  return ⟨201, .catalogItem (catalogToOut row)⟩

structure CatalogUpdateBody where
  roaster : String
  beanName : String
  roastLevel : String
  productUrl : Option String
  deriving DecidableEq, Repr

/-- `PUT /api/catalog/{catalog_id}`. -/
def apiCatalogUpdate (env : Env) (catalogId : String) (body : CatalogUpdateBody) :
    DbM Response := do
  liftExcept (checkCatalog env body.roaster body.beanName body.roastLevel body.productUrl)
  let freshRows ← SqlCatalogRepo.fetchAll
  let entry ← orRaise catalogNotFound (freshRows.find? fun r => r.text "Catalog_ID" == catalogId)
  let updated := ((((entry.set "Catalog_ID" (.str catalogId)).set
    "Roaster" (.str (strip body.roaster))).set
    "Bean_Name" (.str (strip body.beanName))).set
    "Roast_Level" (.str body.roastLevel)).set
    "Product_URL" (.str (strip (body.productUrl.getD "")))
  DualWriteCatalogRepo.upsert updated
  return ⟨200, .catalogItem (catalogToOut updated)⟩

/-- What `infer` finds is the outside world's; it touches no table. -/
def apiCatalogInfer (found : CatalogItemOut) : ReadM Response :=
  return ⟨200, .catalogItem found⟩

structure ImageUpload where
  contentType : String
  bytes : List Nat
  deriving DecidableEq, Repr

/-- `_upload_bytes_match_content_type`. -/
def uploadBytesMatchContentType (img : List Nat) (contentType : String) : Bool :=
  if contentType = "image/jpeg" then [0xff, 0xd8, 0xff].isPrefixOf img
  else if contentType = "image/png" then
    [0x89, 0x50, 0x4e, 0x47, 0x0d, 0x0a, 0x1a, 0x0a].isPrefixOf img
  else if contentType = "image/webp" then
    decide (12 ≤ img.length) && [0x52, 0x49, 0x46, 0x46].isPrefixOf img &&
      (img.drop 8).take 4 == [0x57, 0x45, 0x42, 0x50]
  else false

/-- The checks of an upload. -/
def checkUpload (file : ImageUpload) : Except Exc Unit :=
  let contentType := strip (String.ofList (file.contentType.toList.takeWhile (· ≠ ';')))
  if contentType ∉ ["image/jpeg", "image/png", "image/webp"] then
    .error (httpError 422 "file must be a JPEG, PNG, or WebP image.")
  else if file.bytes = [] then .error (httpError 422 "file must not be empty.")
  else if 2097152 < file.bytes.length then .error (httpError 413 "file must be 2 MB or smaller.")
  else if !uploadBytesMatchContentType file.bytes contentType then
    .error (httpError 422 "file content does not match the declared image type.")
  else .ok ()

/-- `stored` is the path that `upload_image` returns, `none` when it raises. -/
def apiCatalogUploadImage (catalogId : String) (file : ImageUpload) (stored : Option String) :
    DbM Response := do
  discard (orRaise catalogNotFound (← SqlCatalogRepo.get catalogId))
  liftExcept (checkUpload file)
  let imagePath ← orRaise .typeError stored
  match ← SqlCatalogRepo.get catalogId with
  | some fresh => DualWriteCatalogRepo.upsert (fresh.set "Local_Image_Path" (.str imagePath))
  | none => pure ()
  return ⟨200, .imagePath imagePath⟩

/-! ### Bags -/

structure BagCreateBody where
  beans : String
  roastDate : String
  roastLevel : String
  storageMethod : Option String
  deriving DecidableEq, Repr

/-- The roast level of a new bag: the entry's own, or a valid one from the body. -/
def effectiveRoastLevel (entry : Dict) (body : BagCreateBody) : Except Exc String :=
  let catalogLevel := strip (entry.text "Roast_Level")
  let bodyLevel := strip body.roastLevel
  if catalogLevel ≠ "" then
    if bodyLevel ≠ catalogLevel then
      .error (httpError 422 ("roast_level must match catalog roast level: " ++ catalogLevel))
    else .ok catalogLevel
  else if bodyLevel = "" then .error (httpError 422 "roast_level is required.")
  else if bodyLevel ∉ roastLevels then .error (httpError 422 "Invalid roast level.")
  else .ok bodyLevel

/-- The roast date of a new bag. -/
def roastDateOf (body : BagCreateBody) : Except Exc Date :=
  match Date.fromIsoformat body.roastDate with
  | some d => .ok d
  | none => .error (httpError 422 "roast_date must be ISO format (YYYY-MM-DD)")

/-- The row dictionary of a new bag. -/
def bagRow (body : BagCreateBody) (catalogId bagId displayName roastLevel : String) : Dict :=
  [("Bag_ID", .str bagId),
   ("Beans", .str ((nonEmpty body.beans).getD displayName)),
   ("RoastDate", .str body.roastDate),
   ("RoastLevel", .str roastLevel),
   ("Display_Name", .str displayName),
   ("Catalog_ID", .str catalogId),
   ("Status", .str "Active"),
   ("Storage_Method", .str (body.storageMethod.getD ""))]

/-- `POST /api/catalog/{catalog_id}/inventory`. -/
def apiCatalogAddBag (env : Env) (catalogId : String) (body : BagCreateBody) :
    DbM Response := do
  let entry ← orRaise catalogNotFound (← SqlCatalogRepo.get catalogId)
  let roastLevel ← liftExcept (effectiveRoastLevel entry body)
  let roastDate ← liftExcept (roastDateOf body)
  let bags ← SqlInventoryRepo.list none
  let existingIds := bags.map fun b => b.text "Bag_ID"
  let bagId ← liftExcept
    (makeInventoryId env (entry.text "Roaster") roastDate roastLevel existingIds)
  let row := bagRow body catalogId bagId (beanTitle entry) roastLevel
  DualWriteInventoryRepo.upsert row
  return ⟨201, .bag (bagToOut row (beanTitle entry))⟩

end EspressoLogs
